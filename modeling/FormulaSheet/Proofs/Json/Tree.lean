import FormulaSheet.Json.Tree

namespace FormulaSheet.Json

mutual

def Tree.lexemes : Tree → List Lexeme
  | .word => [.word]
  | .number => [.number]
  | .string s => [.string s]
  | .array [] => [.openArray, .closeArray]
  | .array (t :: ts) => .openArray :: (t.lexemes ++ itemLexemes ts)
  | .object [] => [.openObject, .closeObject]
  | .object ((key, t) :: ms) =>
    .openObject :: .string key :: .colon :: (t.lexemes ++ memberLexemes ms)

def itemLexemes : List Tree → List Lexeme
  | [] => [.closeArray]
  | t :: ts => .comma :: (t.lexemes ++ itemLexemes ts)

def memberLexemes : List (List Piece × Tree) → List Lexeme
  | [] => [.closeObject]
  | (key, t) :: ms => .comma :: .string key :: .colon :: (t.lexemes ++ memberLexemes ms)

end

variable {stack : List Frame} {ls : List Lexeme} {items : List Tree} {t : Tree}

theorem readValue_openArray (h : ∀ rest, ls ≠ .closeArray :: rest) :
    readValue stack (.openArray :: ls) = readValue (.array [] :: stack) ls := by
  rw [readValue]
  exact h

theorem readAfter_comma (h : ∀ key rest, ls ≠ .string key :: .colon :: rest) :
    readAfter (.array items :: stack) t (.comma :: ls) =
      readValue (.array (t :: items) :: stack) ls := by
  rw [readAfter]
  exact h

theorem lexemes_ne_close (t : Tree) (ls rest : List Lexeme) :
    t.lexemes ++ ls ≠ .closeArray :: rest := by
  fun_cases Tree.lexemes t <;> simp

/-- An item that is a string is not taken for the key of a member: no colon follows it. -/
theorem lexemes_ne_key (t : Tree) (ts : List Tree) (ls : List Lexeme) (key : List Piece)
    (rest : List Lexeme) : t.lexemes ++ (itemLexemes ts ++ ls) ≠ .string key :: .colon :: rest := by
  fun_cases Tree.lexemes t
  case case3 s => cases ts <;> simp [itemLexemes]
  all_goals simp

mutual

/-- The lexemes of a value are read as the value, whatever is open around it. -/
theorem readValue_lexemes (stack : List Frame) (ls : List Lexeme) :
    ∀ t : Tree, readValue stack (t.lexemes ++ ls) = readAfter stack t ls
  | .word => by rw [Tree.lexemes, List.singleton_append, readValue]
  | .number => by rw [Tree.lexemes, List.singleton_append, readValue]
  | .string s => by rw [Tree.lexemes, List.singleton_append, readValue]
  | .array [] => by rw [Tree.lexemes, List.cons_append, List.singleton_append, readValue]
  | .array (t :: ts) => by
    rw [Tree.lexemes, List.cons_append, List.append_assoc,
      readValue_openArray (lexemes_ne_close t _), readValue_lexemes _ _ t,
      readAfter_itemLexemes stack ls [] t ts]
    rfl
  | .object [] => by rw [Tree.lexemes, List.cons_append, List.singleton_append, readValue]
  | .object ((key, t) :: ms) => by
    rw [Tree.lexemes, List.cons_append, List.cons_append, List.cons_append, List.append_assoc,
      readValue, readValue_lexemes _ _ t, readAfter_memberLexemes stack ls [] key t ms]
    rfl

theorem readAfter_itemLexemes (stack : List Frame) (ls : List Lexeme) (items : List Tree)
    (t : Tree) : ∀ ts : List Tree, readAfter (.array items :: stack) t (itemLexemes ts ++ ls) =
      readAfter stack (.array (items.reverse ++ t :: ts)) ls
  | [] => by
    rw [itemLexemes, List.singleton_append, readAfter, List.reverse_cons]
  | u :: us => by
    rw [itemLexemes, List.cons_append, List.append_assoc, readAfter_comma (lexemes_ne_key u us ls),
      readValue_lexemes _ _ u, readAfter_itemLexemes stack ls (t :: items) u us,
      List.reverse_cons, List.append_assoc]
    rfl

theorem readAfter_memberLexemes (stack : List Frame) (ls : List Lexeme)
    (members : List (List Piece × Tree)) (key : List Piece) (t : Tree) :
    ∀ ms : List (List Piece × Tree),
      readAfter (.object members key :: stack) t (memberLexemes ms ++ ls) =
        readAfter stack (.object (members.reverse ++ (key, t) :: ms)) ls
  | [] => by
    rw [memberLexemes, List.singleton_append, readAfter, List.reverse_cons]
  | (key', u) :: ms => by
    rw [memberLexemes, List.cons_append, List.cons_append, List.cons_append, List.append_assoc,
      readAfter, readValue_lexemes _ _ u,
      readAfter_memberLexemes stack ls ((key, t) :: members) key' u ms, List.reverse_cons,
      List.append_assoc]
    rfl

end

theorem parse_of_lex {text : String} (h : lex text.toList = some t.lexemes) :
    parse text = some t := by
  have hv := readValue_lexemes [] [] t
  rw [List.append_nil] at hv
  rw [parse, h]
  exact hv.trans (by rw [readAfter]; rfl)

end FormulaSheet.Json
