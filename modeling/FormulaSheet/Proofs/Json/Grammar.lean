import FormulaSheet.Json.Tree

namespace FormulaSheet.Json

section Words

def Spaces (cs : List Char) : Prop := ∀ c ∈ cs, c ∈ [' ', '\t', '\n', '\r']

def Digits (cs : List Char) : Prop := cs ≠ [] ∧ ∀ c ∈ cs, c.isDigit

inductive IntegerPart : List Char → Prop
  | zero : IntegerPart ['0']
  | digits {cs : List Char} (h : Digits cs) (hz : cs.head? ≠ some '0') : IntegerPart cs

inductive FractionPart : List Char → Prop
  | none : FractionPart []
  | digits {cs : List Char} (h : Digits cs) : FractionPart ('.' :: cs)

inductive ExponentPart : List Char → Prop
  | none : ExponentPart []
  | digits {e : Char} {sign cs : List Char} (he : e = 'e' ∨ e = 'E')
      (hs : sign ∈ [[], ['+'], ['-']]) (h : Digits cs) : ExponentPart (e :: (sign ++ cs))

inductive NumberText : List Char → Prop
  | parts {minus whole fraction exponent : List Char} (hm : minus ∈ [[], ['-']])
      (hw : IntegerPart whole) (hf : FractionPart fraction) (he : ExponentPart exponent) :
      NumberText (minus ++ (whole ++ (fraction ++ exponent)))

/-- What may stand after a backslash, and what it then spells. -/
def escapes : List (Char × Char) :=
  [('"', '"'), ('\\', '\\'), ('/', '/'), ('b', '\x08'), ('f', '\x0c'), ('n', '\n'), ('r', '\r'),
    ('t', '\t')]

def HexDigit (c : Char) (n : Nat) : Prop := n < 16 ∧ c.toLower = Nat.digitChar n

/-- What may stand between the quotes of a string, and the pieces it spells. -/
inductive Quoted : List Char → List Piece → Prop
  | nil : Quoted [] []
  | plain {c : Char} {cs : List Char} {ps : List Piece} (hc : 0x20 ≤ c.toNat) (hq : c ≠ '"')
      (hb : c ≠ '\\') (h : Quoted cs ps) : Quoted (c :: cs) (.char c :: ps)
  | escape {e c : Char} {cs : List Char} {ps : List Piece} (he : (e, c) ∈ escapes)
      (h : Quoted cs ps) : Quoted ('\\' :: e :: cs) (.char c :: ps)
  | unit {a b c d : Char} {i j k l : Nat} {cs : List Char} {ps : List Piece} (ha : HexDigit a i)
      (hb : HexDigit b j) (hc : HexDigit c k) (hd : HexDigit d l) (h : Quoted cs ps) :
      Quoted ('\\' :: 'u' :: a :: b :: c :: d :: cs)
        (.unit (i * 0x1000 + j * 0x100 + k * 0x10 + l) :: ps)

end Words

inductive Phrase where
  | value (t : Tree)
  /-- A value with spaces around it. -/
  | element (t : Tree)
  /-- What follows the first item of an array. -/
  | items (ts : List Tree)
  | member (key : List Piece) (t : Tree)
  /-- What follows the first member of an object. -/
  | members (ms : List (List Piece × Tree))

/-- The grammar of JSON. -/
inductive Written : Phrase → List Char → Prop
  | word {w : String} (h : w ∈ ["null", "true", "false"]) : Written (.value .word) w.toList
  | number {w : List Char} (h : NumberText w) : Written (.value .number) w
  | string {inside : List Char} {ps : List Piece} (h : Quoted inside ps) :
      Written (.value (.string ps)) ('"' :: (inside ++ ['"']))
  | emptyArray {sp : List Char} (h : Spaces sp) :
      Written (.value (.array [])) ('[' :: (sp ++ [']']))
  | array {t : Tree} {ts : List Tree} {cs cs' : List Char} (h : Written (.element t) cs)
      (hs : Written (.items ts) cs') :
      Written (.value (.array (t :: ts))) ('[' :: (cs ++ (cs' ++ [']'])))
  | emptyObject {sp : List Char} (h : Spaces sp) :
      Written (.value (.object [])) ('{' :: (sp ++ ['}']))
  | object {key : List Piece} {t : Tree} {ms : List (List Piece × Tree)} {cs cs' : List Char}
      (h : Written (.member key t) cs) (hs : Written (.members ms) cs') :
      Written (.value (.object ((key, t) :: ms))) ('{' :: (cs ++ (cs' ++ ['}'])))
  | element {t : Tree} {before cs behind : List Char} (hb : Spaces before)
      (h : Written (.value t) cs) (ha : Spaces behind) :
      Written (.element t) (before ++ (cs ++ behind))
  | noItem : Written (.items []) []
  | item {t : Tree} {ts : List Tree} {cs cs' : List Char} (h : Written (.element t) cs)
      (hs : Written (.items ts) cs') : Written (.items (t :: ts)) (',' :: (cs ++ cs'))
  | member {key : List Piece} {t : Tree} {before inside behind cs : List Char}
      (hb : Spaces before) (hk : Quoted inside key) (ha : Spaces behind)
      (h : Written (.element t) cs) :
      Written (.member key t) (before ++ '"' :: (inside ++ '"' :: (behind ++ ':' :: cs)))
  | noMember : Written (.members []) []
  | more {key : List Piece} {t : Tree} {ms : List (List Piece × Tree)} {cs cs' : List Char}
      (h : Written (.member key t) cs) (hs : Written (.members ms) cs') :
      Written (.members ((key, t) :: ms)) (',' :: (cs ++ cs'))

variable {cs sp : List Char} {t : Tree}

theorem Spaces.append {sp' : List Char} (h : Spaces sp) (h' : Spaces sp') : Spaces (sp ++ sp') :=
  fun c hc => (List.mem_append.1 hc).elim (h c) (h' c)

theorem spaces_iff : Spaces cs ↔ ∀ c ∈ cs, isSpace c := by
  simp [Spaces, isSpace, or_assoc]

theorem spaces_cons_iff {c : Char} : Spaces (c :: cs) ↔ isSpace c ∧ Spaces cs := by
  rw [spaces_iff, spaces_iff, List.forall_mem_cons]

/-- Spaces behind a value belong to its element. -/
theorem Written.element_append (h : Written (.element t) cs) (hs : Spaces sp) :
    Written (.element t) (cs ++ sp) := by
  cases h with
  | element hb h ha =>
    rw [List.append_assoc, List.append_assoc]
    exact .element hb h (ha.append hs)

end FormulaSheet.Json
