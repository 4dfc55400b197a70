import Mathlib
import FormulaSheet.Proofs.Json.Text
import FormulaSheet.SheetFile.Read
import FormulaSheet.SheetFile.Render

namespace FormulaSheet.SheetFile
open Json

section Text

variable {c : Char} {cs : List Char} {s : String}

/-- What is read of a character that was written inside quotes. Control characters without a short
escape are given by their number. -/
def piece (c : Char) : Piece :=
  if c.toNat < 0x20 ∧ c ∉ ['\x08', '\x0c', '\n', '\r', '\t'] then .unit c.toNat else .char c

def pieces (s : String) : List Piece := s.toList.map piece

theorem hexNumber?_digits {n : Nat} (h : n < 0x20) :
    hexNumber? ['0', '0', Nat.digitChar (n / 16), Nat.digitChar (n % 16)] = some n := by
  have hd : ∀ n < 0x20,
      hexNumber? ['0', '0', Nat.digitChar (n / 16), Nat.digitChar (n % 16)] = some n := by decide
  exact hd n h

theorem readString_escape (acc : List Piece) (c : Char) (cs : List Char) :
    readString acc (escape c ++ cs) = readString (piece c :: acc) cs := by
  unfold escape
  split_ifs with hq hb h8 hc hn hr ht hl
  case pos => subst hq; rfl
  case pos => subst hb; rfl
  case pos => subst h8; rfl
  case pos => subst hc; rfl
  case pos => subst hn; rfl
  case pos => subst hr; rfl
  case pos => subst ht; rfl
  case pos =>
    have hp : piece c = .unit c.toNat := if_pos ⟨hl, by simp [*]⟩
    rw [hp]
    simp [readString, hexNumber?_digits hl]
  case neg =>
    have hp : piece c = .char c := if_neg fun h => hl h.1
    rw [hp]
    simp [readString, *]

theorem readString_quoted (cs rest : List Char) (acc : List Piece) :
    readString acc (cs.flatMap escape ++ '"' :: rest) =
      some (acc.reverse ++ cs.map piece, rest) := by
  induction cs generalizing acc with
  | nil => rw [List.flatMap_nil, List.nil_append, readString, List.map_nil, List.append_nil]
  | cons c cs ih =>
    rw [List.flatMap_cons, List.append_assoc, readString_escape, ih, List.reverse_cons,
      List.append_assoc]
    rfl

theorem lexes_quote (s : String) : Lexes (quote s) [.string (pieces s)] := by
  intro acc rest
  rw [quote, List.cons_append, List.append_assoc]
  exact lexFrom_string (readString_quoted s.toList rest [])

theorem units_piece (c : Char) : (piece c).units = units c := by
  unfold piece
  split
  · next h => rw [Piece.units, units, if_pos (by omega)]
  · rfl

theorem fits_piece (c : Char) : (piece c).Fits := by
  unfold piece
  split
  · next h =>
    rw [Piece.Fits]
    omega
  · trivial

theorem text?_pieces (s : String) : text? (pieces s) = some s := by
  have hf : ∀ p ∈ pieces s, p.Fits := List.forall_mem_map.2 fun c _ => fits_piece c
  rw [text?_eq_some_iff hf, Denotes, pieces, List.flatMap_map]
  exact List.flatMap_congr fun c _ => units_piece c

end Text

section Tree

variable {seen : Std.ExtTreeSet String} {names : List String} {file : SheetFile}

theorem firstNames_of_nodup (h : names.Nodup) (hs : ∀ n ∈ names, n ∉ seen) :
    firstNames seen names = names := by
  induction names generalizing seen with
  | nil => rw [firstNames]
  | cons n names ih =>
    obtain ⟨hn, h⟩ := List.nodup_cons.1 h
    obtain ⟨hseen, hs⟩ := List.forall_mem_cons.1 hs
    rw [firstNames, if_neg hseen, ih h]
    intro m hm
    rw [Std.ExtTreeSet.mem_insert, not_or]
    exact ⟨by simpa using (ne_of_mem_of_not_mem hm hn).symm, hs m hm⟩

/-- Cells whose names are distinct stay as they are listed. -/
theorem ofPairs_cells (file : SheetFile) : ofPairs file.cells file.version = file := by
  obtain ⟨cells, version, distinct⟩ := file
  have hd : cells.Pairwise fun a b => ¬compare a.1 b.1 = .eq := by
    rw [List.Nodup, List.pairwise_map] at distinct
    exact distinct.imp fun h => by simpa using h
  have hc : (firstNames ∅ (cells.map Prod.fst)).map
      (fun name => (name, (Std.ExtTreeMap.ofList cells compare).getD name "")) = cells := by
    rw [firstNames_of_nodup distinct (by simp), List.map_map]
    refine (List.map_congr_left fun cell hm => ?_).trans (List.map_id cells)
    exact Prod.ext rfl (Std.ExtTreeMap.getD_ofList_of_mem (by simp) hd hm)
  simp [ofPairs, hc]

def recordTree (form : String) : Tree := .object [(pieces "stringForm", .string (pieces form))]

def cellsTree (cells : List (String × String)) : Tree :=
  .object (cells.map fun cell => (pieces cell.1, recordTree cell.2))

def tree (file : SheetFile) : Tree :=
  .object [(pieces "cells", cellsTree file.cells),
    (pieces "Version", .string (pieces file.version))]

theorem recordOf?_recordTree (form : String) : recordOf? (recordTree form) = some form := by
  simp [recordOf?, recordTree, members?, field?, stringOf?, text?_pieces]

theorem cellsOf?_cellsTree (cells : List (String × String)) :
    cellsOf? (cellsTree cells) = some cells := by
  rw [cellsTree, cellsOf?]
  induction cells with
  | nil => rfl
  | cons cell cells ih =>
    rw [List.map_cons, List.mapM_cons, ih]
    simp [text?_pieces, recordOf?_recordTree]

theorem ofTree?_tree (file : SheetFile) : ofTree? file.tree = some file := by
  have hm : members? [(pieces "cells", cellsTree file.cells),
      (pieces "Version", .string (pieces file.version))] =
      some [("cells", cellsTree file.cells), ("Version", .string (pieces file.version))] := by
    simp [members?, text?_pieces]
  have hc : field? [("cells", cellsTree file.cells), ("Version", .string (pieces file.version))]
      "cells" = some (cellsTree file.cells) := rfl
  have hv : field? [("cells", cellsTree file.cells), ("Version", .string (pieces file.version))]
      "Version" = some (.string (pieces file.version)) := rfl
  rw [tree, ofTree?, hm, Option.bind_eq_bind, Option.bind_some, hc]
  simp [hv, cellsOf?_cellsTree, stringOf?, text?_pieces, ofPairs_cells]

end Tree

section Layout

theorem lexes_key (key : String) (before behind : List Char)
    (h : before.all fun c => isSpace c || (mark? c).isSome)
    (h' : behind.all fun c => isSpace c || (mark? c).isSome) :
    Lexes (before ++ (quote key ++ behind))
      (before.filterMap mark? ++ .string (pieces key) :: behind.filterMap mark?) :=
  (lexes_marks before h).append ((lexes_quote key).append (lexes_marks behind h'))

theorem lexes_renderCell (cell : String × String) : Lexes (renderCell cell)
    (.string (pieces cell.1) :: .colon :: (recordTree cell.2).lexemes) := by
  have hform : Lexes ": \x7b\n      \"stringForm\": ".toList
      [.colon, .openObject, .string (pieces "stringForm"), .colon] :=
    lexes_key "stringForm" ": \x7b\n      ".toList ": ".toList rfl rfl
  have hname : Lexes "\n    ".toList [] := lexes_marks _ rfl
  have hclose : Lexes "\n    \x7d".toList [.closeObject] := lexes_marks _ rfl
  exact (((hname.append (lexes_quote cell.1)).append hform).append (lexes_quote cell.2)).append
    hclose

theorem lexes_renderMore (cell : String × String) (cells : List (String × String)) :
    Lexes (List.intercalate [','] ((cell :: cells).map renderCell) ++ "\n  \x7d".toList)
      (.string (pieces cell.1) :: .colon :: ((recordTree cell.2).lexemes ++
        memberLexemes (cells.map fun cell => (pieces cell.1, recordTree cell.2)))) := by
  induction cells generalizing cell with
  | nil =>
    have hi : List.intercalate [','] ([cell].map renderCell) = renderCell cell := by
      simp [List.intercalate]
    rw [hi]
    exact (lexes_renderCell cell).append (lexes_marks "\n  \x7d".toList rfl)
  | cons next cells ih =>
    have hi : List.intercalate [','] ((cell :: next :: cells).map renderCell) =
        renderCell cell ++ ([','] ++ List.intercalate [','] ((next :: cells).map renderCell)) := by
      simp [List.intercalate]
    rw [hi, List.append_assoc, List.append_assoc]
    exact (lexes_renderCell cell).append ((lexes_marks [','] rfl).append (ih next))

theorem lexes_renderCells (cells : List (String × String)) :
    Lexes (renderCells cells) (cellsTree cells).lexemes := by
  cases cells with
  | nil => exact lexes_marks "\x7b\x7d".toList rfl
  | cons cell cells =>
    exact (lexes_marks ['\x7b'] rfl).append (lexes_renderMore cell cells)

theorem lexes_render (file : SheetFile) : Lexes file.render.toList file.tree.lexemes := by
  have hcells : Lexes "\x7b\n  \"cells\": ".toList
      [.openObject, .string (pieces "cells"), .colon] :=
    lexes_key "cells" "\x7b\n  ".toList ": ".toList rfl rfl
  have hversion : Lexes ",\n  \"Version\": ".toList
      [.comma, .string (pieces "Version"), .colon] :=
    lexes_key "Version" ",\n  ".toList ": ".toList rfl rfl
  have hclose : Lexes "\n\x7d\n".toList [.closeObject] := lexes_marks _ rfl
  have htext : file.render.toList = "\x7b\n  \"cells\": ".toList ++ renderCells file.cells ++
      ",\n  \"Version\": ".toList ++ quote file.version ++ "\n\x7d\n".toList :=
    String.toList_ofList
  rw [htext]
  convert (((hcells.append (lexes_renderCells file.cells)).append hversion).append
    (lexes_quote file.version)).append hclose using 1
  simp only [tree, Tree.lexemes, memberLexemes, List.append_assoc, List.cons_append,
    List.nil_append]

end Layout

/-- What is written of a sheet is read as that sheet: every text and the order of the cells. -/
theorem read?_render (file : SheetFile) : read? file.render = some file := by
  rw [read?, Json.parse_of_lex file.lexes_render.lex]
  exact file.ofTree?_tree

end FormulaSheet.SheetFile
