import FormulaSheet.Name
import FormulaSheet.Text.Blank

namespace FormulaSheet

def scanMantissa? (cs : List Char) : Option (List Char × List Char) :=
  match cs.takeWhile Char.isDigit, cs.dropWhile Char.isDigit with
  | whole, '.' :: rest =>
    if whole = [] ∧ rest.takeWhile Char.isDigit = [] then none
    else some (whole ++ '.' :: rest.takeWhile Char.isDigit, rest.dropWhile Char.isDigit)
  | [], _ => none
  | whole, rest => some (whole, rest)

def splitSign : List Char → List Char × List Char
  | '+' :: cs => (['+'], cs)
  | '-' :: cs => (['-'], cs)
  | cs => ([], cs)

def scanExponent : List Char → List Char × List Char
  | [] => ([], [])
  | c :: cs =>
    let (sign, rest) := splitSign cs
    let digits := rest.takeWhile Char.isDigit
    if (c = 'e' ∨ c = 'E') ∧ digits ≠ [] then
      (c :: sign ++ digits, rest.dropWhile Char.isDigit)
    else ([], c :: cs)

def scanNumeral? (cs : List Char) : Option (List Char × List Char) :=
  (scanMantissa? cs).map fun (mantissa, rest) =>
    (mantissa ++ (scanExponent rest).1, (scanExponent rest).2)

def isNumeral (s : String) : Bool :=
  match scanNumeral? s.toList with
  | some (_, []) => true
  | _ => false

def isSymbol (c : Char) : Bool :=
  c == '(' || c == ')' || c == '+' || c == '-' || c == '*' || c == '/'

/-- The longest symbol, variable or numeral in front, and the text after it. The three start with
different characters, so at most one of them applies. -/
def scanToken? : List Char → Option (List Char × List Char)
  | [] => none
  | c :: cs =>
    if isSymbol c then some ([c], cs)
    else if isNameStart c then some (c :: cs.takeWhile isNamePart, cs.dropWhile isNamePart)
    else scanNumeral? (c :: cs)

def scanStray (acc : List Char) : List Char → List Char × List Char
  | [] => (acc.reverse, [])
  | c :: cs =>
    if isBlank c ∨ (scanToken? (c :: cs)).isSome then (acc.reverse, c :: cs)
    else scanStray (c :: acc) cs

theorem scanMantissa?_append {cs m rest : List Char} (h : scanMantissa? cs = some (m, rest)) :
    m ++ rest = cs ∧ m ≠ [] := by
  unfold scanMantissa? at h
  have hcs := List.takeWhile_append_dropWhile (p := Char.isDigit) (l := cs)
  generalize cs.takeWhile Char.isDigit = whole at h hcs
  generalize cs.dropWhile Char.isDigit = tail at h hcs
  subst hcs
  split at h
  · split at h
    · simp at h
    · simp only [Option.some.injEq, Prod.mk.injEq] at h
      obtain ⟨rfl, rfl⟩ := h
      simp
  · simp at h
  · next hw _ =>
    simp only [Option.some.injEq, Prod.mk.injEq] at h
    obtain ⟨rfl, rfl⟩ := h
    exact ⟨rfl, hw⟩

theorem splitSign_append (cs : List Char) : (splitSign cs).1 ++ (splitSign cs).2 = cs := by
  unfold splitSign
  split <;> rfl

theorem scanExponent_append (cs : List Char) : (scanExponent cs).1 ++ (scanExponent cs).2 = cs := by
  cases cs with
  | nil => rfl
  | cons c cs =>
    unfold scanExponent
    dsimp only
    split
    · simp only [List.cons_append, List.append_assoc, List.takeWhile_append_dropWhile,
        splitSign_append]
    · rfl

theorem scanNumeral?_append {cs n rest : List Char} (h : scanNumeral? cs = some (n, rest)) :
    n ++ rest = cs ∧ n ≠ [] := by
  obtain ⟨⟨m, r⟩, hm, he⟩ := Option.map_eq_some_iff.1 h
  simp only [Prod.mk.injEq] at he
  obtain ⟨rfl, rfl⟩ := he
  have hm := scanMantissa?_append hm
  exact ⟨by rw [List.append_assoc, scanExponent_append, hm.1], by simp [hm.2]⟩

/-- A token is a nonempty beginning of the text. -/
theorem scanToken?_append {cs t rest : List Char} (h : scanToken? cs = some (t, rest)) :
    t ++ rest = cs ∧ t ≠ [] := by
  unfold scanToken? at h
  split at h
  · simp at h
  · split at h
    · simp only [Option.some.injEq, Prod.mk.injEq] at h
      simp [← h.1, ← h.2]
    · split at h
      · simp only [Option.some.injEq, Prod.mk.injEq] at h
        simp [← h.1, ← h.2, List.takeWhile_append_dropWhile]
      · exact scanNumeral?_append h

theorem scanToken?_shorter {cs t rest : List Char} (h : scanToken? cs = some (t, rest)) :
    rest.length < cs.length := by
  obtain ⟨rfl, ht⟩ := scanToken?_append h
  simp [List.length_pos_iff.2 ht]

theorem length_snd_scanStray_le (acc cs : List Char) :
    (scanStray acc cs).2.length ≤ cs.length := by
  induction cs generalizing acc with
  | nil => simp [scanStray]
  | cons c cs ih =>
    rw [scanStray]
    split
    · simp
    · exact Nat.le_succ_of_le (ih _)

/-- The tokens of a text, after those in `acc`, the latest first. Blanks separate and are dropped;
characters that start no token are kept together as one. -/
def scanFrom (acc : List (List Char)) : List Char → List (List Char)
  | [] => acc.reverse
  | c :: cs =>
    if isBlank c then scanFrom acc cs
    else
      match _h : scanToken? (c :: cs) with
      | some (token, rest) => scanFrom (token :: acc) rest
      | none => scanFrom ((scanStray [c] cs).1 :: acc) (scanStray [c] cs).2
termination_by cs => cs.length
decreasing_by
  · exact Nat.lt_succ_self _
  · exact scanToken?_shorter _h
  · exact Nat.lt_succ_of_le (length_snd_scanStray_le [c] cs)

theorem scanFrom_nil (acc : List (List Char)) : scanFrom acc [] = acc.reverse := by
  rw [scanFrom]

def tokenize (source : String) : List String :=
  (scanFrom [] source.toList).map String.ofList

end FormulaSheet
