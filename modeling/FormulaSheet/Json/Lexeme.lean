import FormulaSheet.Text.Hex
import FormulaSheet.Text.Run

namespace FormulaSheet.Json

/-- A character of a string literal, or a UTF-16 code unit given by its number. -/
inductive Piece where
  | char (c : Char)
  | unit (n : Nat)
deriving DecidableEq

/-- The words of JSON. What a number or one of `null`, `true` and `false` says is not kept. -/
inductive Lexeme where
  | openArray
  | closeArray
  | openObject
  | closeObject
  | comma
  | colon
  | word
  | number
  | string (pieces : List Piece)
deriving DecidableEq

def isSpace (c : Char) : Bool := c == ' ' || c == '\t' || c == '\n' || c == '\r'

def mark? : Char → Option Lexeme
  | '[' => some .openArray
  | ']' => some .closeArray
  | '{' => some .openObject
  | '}' => some .closeObject
  | ',' => some .comma
  | ':' => some .colon
  | _ => none

def escaped? : Char → Option Char
  | '"' => some '"'
  | '\\' => some '\\'
  | '/' => some '/'
  | 'b' => some '\x08'
  | 'f' => some '\x0c'
  | 'n' => some '\n'
  | 'r' => some '\r'
  | 't' => some '\t'
  | _ => none

def readString (acc : List Piece) : List Char → Option (List Piece × List Char)
  | [] => none
  | '"' :: cs => some (acc.reverse, cs)
  | '\\' :: 'u' :: a :: b :: c :: d :: cs =>
    match hexNumber? [a, b, c, d] with
    | some n => readString (.unit n :: acc) cs
    | none => none
  | '\\' :: e :: cs =>
    match escaped? e with
    | some c => readString (.char c :: acc) cs
    | none => none
  | c :: cs => if c.toNat < 0x20 ∨ c = '\\' then none else readString (.char c :: acc) cs

def skipDigits (cs : List Char) : Option (List Char) :=
  if cs.takeWhile Char.isDigit = [] then none else some (cs.dropWhile Char.isDigit)

def skipSign : List Char → List Char
  | [] => []
  | c :: cs => if c = '+' ∨ c = '-' then cs else c :: cs

def skipExponent : List Char → Option (List Char)
  | [] => some []
  | c :: cs => if c = 'e' ∨ c = 'E' then skipDigits (skipSign cs) else some (c :: cs)

def skipFraction : List Char → Option (List Char)
  | [] => some []
  | c :: cs => if c = '.' then skipDigits cs else some (c :: cs)

/-- The text after an integer part, which has no leading zero. -/
def skipInteger : List Char → Option (List Char)
  | [] => none
  | c :: cs => if c = '0' then some cs else skipDigits (c :: cs)

def skipNumber : List Char → Option (List Char)
  | [] => none
  | c :: cs => do
    let rest ← skipInteger (if c = '-' then cs else c :: cs)
    let rest ← skipFraction rest
    skipExponent rest

def readLexeme : List Char → Option (Lexeme × List Char)
  | '"' :: cs => (readString [] cs).map fun (pieces, rest) => (.string pieces, rest)
  | 'n' :: 'u' :: 'l' :: 'l' :: cs => some (.word, cs)
  | 't' :: 'r' :: 'u' :: 'e' :: cs => some (.word, cs)
  | 'f' :: 'a' :: 'l' :: 's' :: 'e' :: cs => some (.word, cs)
  | cs => (skipNumber cs).map fun rest => (.number, rest)

theorem readString_shorter {acc pieces : List Piece} {cs rest : List Char}
    (h : readString acc cs = some (pieces, rest)) : rest.length < cs.length := by
  fun_induction readString acc cs with
  | case1 | case4 | case6 | case7 => simp at h
  | case2 => simp_all
  | case3 _ _ _ _ _ _ _ _ ih | case5 _ _ _ _ _ _ ih | case8 _ _ _ _ _ _ _ ih =>
    have := ih h
    simp only [List.length_cons]
    omega

theorem skipDigits_shorter {cs rest : List Char} (h : skipDigits cs = some rest) :
    rest.length < cs.length := by
  unfold skipDigits at h
  split at h
  · simp at h
  · next hd =>
    simp only [Option.some.injEq] at h
    exact h ▸ length_dropWhile_lt hd

theorem skipSign_le (cs : List Char) : (skipSign cs).length ≤ cs.length := by
  cases cs with
  | nil => exact Nat.le_refl _
  | cons c cs => rw [skipSign]; split <;> simp

theorem skipExponent_le {cs rest : List Char} (h : skipExponent cs = some rest) :
    rest.length ≤ cs.length := by
  cases cs with
  | nil => simp_all [skipExponent]
  | cons c cs =>
    rw [skipExponent] at h
    split at h
    · have := skipDigits_shorter h
      have := skipSign_le cs
      simp only [List.length_cons]
      omega
    · simp_all

theorem skipFraction_le {cs rest : List Char} (h : skipFraction cs = some rest) :
    rest.length ≤ cs.length := by
  cases cs with
  | nil => simp_all [skipFraction]
  | cons c cs =>
    rw [skipFraction] at h
    split at h
    · exact Nat.le_succ_of_le (Nat.le_of_lt (skipDigits_shorter h))
    · simp_all

theorem skipInteger_shorter {cs rest : List Char} (h : skipInteger cs = some rest) :
    rest.length < cs.length := by
  cases cs with
  | nil => simp [skipInteger] at h
  | cons c cs =>
    rw [skipInteger] at h
    split at h
    · simp_all
    · exact skipDigits_shorter h

theorem skipNumber_shorter {cs rest : List Char} (h : skipNumber cs = some rest) :
    rest.length < cs.length := by
  cases cs with
  | nil => simp [skipNumber] at h
  | cons c cs =>
    simp only [skipNumber, Option.bind_eq_bind, Option.bind_eq_some_iff] at h
    obtain ⟨a, ha, b, hb, h⟩ := h
    have ha := skipInteger_shorter ha
    have hb := skipFraction_le hb
    have h := skipExponent_le h
    split at ha <;> simp only [List.length_cons] at ha ⊢ <;> omega

theorem readLexeme_shorter {cs rest : List Char} {l : Lexeme}
    (h : readLexeme cs = some (l, rest)) : rest.length < cs.length := by
  unfold readLexeme at h
  split at h
  · simp only [Option.map_eq_some_iff, Prod.mk.injEq] at h
    obtain ⟨⟨p, r⟩, h, _, rfl⟩ := h
    exact Nat.lt_succ_of_lt (readString_shorter h)
  · simp only [Option.some.injEq, Prod.mk.injEq] at h
    simp only [← h.2, List.length_cons]
    omega
  · simp only [Option.some.injEq, Prod.mk.injEq] at h
    simp only [← h.2, List.length_cons]
    omega
  · simp only [Option.some.injEq, Prod.mk.injEq] at h
    simp only [← h.2, List.length_cons]
    omega
  · simp only [Option.map_eq_some_iff, Prod.mk.injEq] at h
    obtain ⟨r, h, _, rfl⟩ := h
    exact skipNumber_shorter h

def lexFrom (acc : List Lexeme) : List Char → Option (List Lexeme)
  | [] => some acc.reverse
  | c :: cs =>
    if isSpace c then lexFrom acc cs
    else
      match mark? c with
      | some l => lexFrom (l :: acc) cs
      | none =>
        match _h : readLexeme (c :: cs) with
        | some (l, rest) => lexFrom (l :: acc) rest
        | none => none
termination_by cs => cs.length
decreasing_by
  · exact Nat.lt_succ_self _
  · exact Nat.lt_succ_self _
  · exact readLexeme_shorter _h

def lex (cs : List Char) : Option (List Lexeme) := lexFrom [] cs

end FormulaSheet.Json
