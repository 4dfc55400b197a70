import FormulaSheet.Json.Lexeme

namespace FormulaSheet.Json

variable {c : Char} {cs cs' rest : List Char} {acc ls ls' : List Lexeme} {l : Lexeme}
  {pieces : List Piece}

theorem lexFrom_space (h : isSpace c) : lexFrom acc (c :: cs) = lexFrom acc cs := by
  rw [lexFrom, if_pos h]

theorem isSpace_eq_false_of_mark? (h : mark? c = some l) : isSpace c = false := by
  unfold mark? at h
  split at h
  all_goals first | rfl | cases h

theorem mark?_mem (h : mark? c = some l) :
    l ∈ [.openArray, .closeArray, .openObject, .closeObject, .comma, .colon] := by
  unfold mark? at h
  split at h <;> cases h <;> decide

theorem mark?_inj {c' : Char} (h : mark? c = some l) (h' : mark? c' = some l) : c' = c := by
  unfold mark? at h h'
  split at h <;> split at h' <;> grind

theorem lexFrom_mark (h : mark? c = some l) : lexFrom acc (c :: cs) = lexFrom (l :: acc) cs := by
  rw [lexFrom, isSpace_eq_false_of_mark? h, if_neg Bool.false_ne_true, h]

theorem lexFrom_lexeme (hs : isSpace c = false) (hm : mark? c = none)
    (h : readLexeme (c :: cs) = some (l, rest)) :
    lexFrom acc (c :: cs) = lexFrom (l :: acc) rest := by
  rw [lexFrom, hs, if_neg Bool.false_ne_true, hm]
  dsimp only
  split
  · next h' =>
    rw [h, Option.some.injEq, Prod.mk.injEq] at h'
    rw [h'.1, h'.2]
  · next h' => simp [h] at h'

theorem lexFrom_string (h : readString [] cs = some (pieces, rest)) :
    lexFrom acc ('"' :: cs) = lexFrom (.string pieces :: acc) rest := by
  refine lexFrom_lexeme rfl rfl ?_
  rw [readLexeme, h]
  rfl

/-- Whether a text is read as the given lexemes, whatever was read before and whatever follows. -/
def Lexes (cs : List Char) (ls : List Lexeme) : Prop :=
  ∀ acc rest, lexFrom acc (cs ++ rest) = lexFrom (ls.reverse ++ acc) rest

theorem Lexes.append (h : Lexes cs ls) (h' : Lexes cs' ls') : Lexes (cs ++ cs') (ls ++ ls') := by
  intro acc rest
  rw [List.append_assoc, h, h', List.reverse_append, List.append_assoc]

/-- Spaces and marks are read one by one. -/
theorem lexes_marks (cs : List Char) (h : cs.all fun c => isSpace c || (mark? c).isSome) :
    Lexes cs (cs.filterMap mark?) := by
  induction cs with
  | nil => exact fun _ _ => rfl
  | cons c cs ih =>
    intro acc rest
    rw [List.all_cons, Bool.and_eq_true] at h
    rw [List.cons_append]
    cases hm : mark? c with
    | some l =>
      rw [lexFrom_mark hm, ih h.2, List.filterMap_cons_some hm, List.reverse_cons,
        List.append_assoc]
      rfl
    | none =>
      have hs : isSpace c := by simpa [hm] using h.1
      rw [lexFrom_space hs, ih h.2, List.filterMap_cons_none hm]

theorem Lexes.lex (h : Lexes cs ls) : lex cs = some ls := by
  have hl := h [] []
  rw [List.append_nil, List.append_nil] at hl
  rw [Json.lex, hl, lexFrom, List.reverse_reverse]

end FormulaSheet.Json
