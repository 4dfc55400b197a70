import FormulaSheet.Settings.Basic
import FormulaSheet.Text.Hex
import FormulaSheet.Text.Run

namespace FormulaSheet.Settings

def isPlain (c : Char) : Bool := c == '\t' || (0x20 ≤ c.toNat && c.toNat != 0x7F)

def isSpace (c : Char) : Bool := c == ' ' || c == '\t'

def skipSpaces (cs : List Char) : List Char := cs.dropWhile isSpace

def lineBreak? : List Char → Option (List Char)
  | '\n' :: cs => some cs
  | '\r' :: '\n' :: cs => some cs
  | _ => none

def charOfNumber? (n : Nat) : Option Char :=
  if h : n.isValidChar then some (Char.ofNatAux n h) else none

def escaped? : Char → Option Char
  | 'b' => some '\x08'
  | 't' => some '\t'
  | 'n' => some '\n'
  | 'f' => some '\x0c'
  | 'r' => some '\r'
  | '"' => some '"'
  | '\\' => some '\\'
  | _ => none

def readEscape : List Char → Option (Char × List Char)
  | 'u' :: a :: b :: c :: d :: cs => do
    let n ← hexNumber? [a, b, c, d]
    return (← charOfNumber? n, cs)
  | 'U' :: a :: b :: c :: d :: e :: f :: g :: h :: cs => do
    let n ← hexNumber? [a, b, c, d, e, f, g, h]
    return (← charOfNumber? n, cs)
  | e :: cs => (escaped? e).map fun c => (c, cs)
  | [] => none

theorem readEscape_shorter {cs rest : List Char} {c : Char} (h : readEscape cs = some (c, rest)) :
    rest.length < cs.length := by
  unfold readEscape at h
  split at h
  · simp only [Option.bind_eq_bind, Option.bind_eq_some_iff, Option.pure_def, Option.some.injEq,
      Prod.mk.injEq] at h
    obtain ⟨_, _, _, _, _, rfl⟩ := h
    simp only [List.length_cons]
    omega
  · simp only [Option.bind_eq_bind, Option.bind_eq_some_iff, Option.pure_def, Option.some.injEq,
      Prod.mk.injEq] at h
    obtain ⟨_, _, _, _, _, rfl⟩ := h
    simp only [List.length_cons]
    omega
  · simp only [Option.map_eq_some_iff, Prod.mk.injEq] at h
    obtain ⟨_, _, _, rfl⟩ := h
    simp
  · simp at h

/-- A string on one line, up to the quote that closes it; `escapes` tells whether a backslash
starts an escape. -/
def readLine (quote : Char) (escapes : Bool) (acc : List Char) :
    List Char → Option (List Char × List Char)
  | [] => none
  | c :: cs =>
    if c = quote then some (acc.reverse, cs)
    else if c = '\\' ∧ escapes then
      match _h : readEscape cs with
      | some (e, rest) => readLine quote escapes (e :: acc) rest
      | none => none
    else if isPlain c then readLine quote escapes (c :: acc) cs
    else none
termination_by cs => cs.length
decreasing_by
  · exact Nat.lt_succ_of_lt (readEscape_shorter _h)
  · exact Nat.lt_succ_self _

def skipGap : List Char → List Char
  | ' ' :: cs => skipGap cs
  | '\t' :: cs => skipGap cs
  | '\n' :: cs => skipGap cs
  | '\r' :: '\n' :: cs => skipGap cs
  | cs => cs

/-- The text after a backslash at the end of a line, the line breaks and the spaces that follow:
they are no part of the string. -/
def skipFold? (cs : List Char) : Option (List Char) :=
  (lineBreak? (skipSpaces cs)).map skipGap

theorem skipGap_le (cs : List Char) : (skipGap cs).length ≤ cs.length := by
  fun_induction skipGap cs with
  | case1 _ ih | case2 _ ih | case3 _ ih | case4 _ ih =>
    simp only [List.length_cons]
    omega
  | case5 => exact Nat.le_refl _

theorem lineBreak?_shorter {cs rest : List Char} (h : lineBreak? cs = some rest) :
    rest.length < cs.length := by
  unfold lineBreak? at h
  split at h
  · simp only [Option.some.injEq] at h
    exact h ▸ Nat.lt_succ_self _
  · simp only [Option.some.injEq] at h
    exact h ▸ Nat.lt_succ_of_lt (Nat.lt_succ_self _)
  · simp at h

theorem skipFold?_shorter {cs rest : List Char} (h : skipFold? cs = some rest) :
    rest.length < cs.length := by
  obtain ⟨r, hr, rfl⟩ := Option.map_eq_some_iff.1 h
  have h1 := skipGap_le r
  have h2 := lineBreak?_shorter hr
  have h3 := length_dropWhile_le isSpace cs
  unfold skipSpaces at h2
  omega

/-- A string over several lines, up to the three quotes that close it. One or two more of them may
stand before, as part of the string. -/
def readLines (quote : Char) (escapes : Bool) (acc : List Char) :
    List Char → Option (List Char × List Char)
  | [] => none
  | c :: cs =>
    if c = quote then
      let quotes := 1 + (cs.takeWhile (· == quote)).length
      let rest := cs.dropWhile (· == quote)
      if quotes < 3 then readLines quote escapes (List.replicate quotes quote ++ acc) rest
      else if quotes ≤ 5 then some ((List.replicate (quotes - 3) quote ++ acc).reverse, rest)
      else none
    else if c = '\\' ∧ escapes then
      match _h : skipFold? cs with
      | some rest => readLines quote escapes acc rest
      | none =>
        match _h : readEscape cs with
        | some (e, rest) => readLines quote escapes (e :: acc) rest
        | none => none
    else
      match _h : lineBreak? (c :: cs) with
      | some rest => readLines quote escapes ('\n' :: acc) rest
      | none => if isPlain c then readLines quote escapes (c :: acc) cs else none
termination_by cs => cs.length
decreasing_by
  · exact Nat.lt_succ_of_le (length_dropWhile_le _ _)
  · exact Nat.lt_succ_of_lt (skipFold?_shorter _h)
  · exact Nat.lt_succ_of_lt (readEscape_shorter _h)
  · exact lineBreak?_shorter _h
  · exact Nat.lt_succ_self _

/-- A line break right after the opening quotes is no part of the string. -/
def skipFirstBreak (cs : List Char) : List Char := (lineBreak? cs).getD cs

def readText : List Char → Option (List Char × List Char)
  | '"' :: '"' :: '"' :: cs => readLines '"' true [] (skipFirstBreak cs)
  | '\'' :: '\'' :: '\'' :: cs => readLines '\'' false [] (skipFirstBreak cs)
  | '"' :: cs => readLine '"' true [] cs
  | '\'' :: cs => readLine '\'' false [] cs
  | _ => none

def isKeyChar (c : Char) : Bool := c.isAlphanum || c == '-' || c == '_'

def readKey : List Char → Option (List Char × List Char)
  | '"' :: cs => readLine '"' true [] cs
  | '\'' :: cs => readLine '\'' false [] cs
  | cs => if cs.takeWhile isKeyChar = [] then none
    else some (cs.takeWhile isKeyChar, cs.dropWhile isKeyChar)

theorem readLine_shorter {quote : Char} {escapes : Bool} {acc cs text rest : List Char}
    (h : readLine quote escapes acc cs = some (text, rest)) : rest.length < cs.length := by
  fun_induction readLine quote escapes acc cs with
  | case1 | case4 | case6 => simp at h
  | case2 => simp_all
  | case3 _ _ _ _ _ _ _ he ih =>
    have := readEscape_shorter he
    have := ih h
    simp only [List.length_cons]
    omega
  | case5 _ _ _ _ _ _ ih =>
    have := ih h
    simp only [List.length_cons]
    omega

theorem readLines_shorter {quote : Char} {escapes : Bool} {acc cs text rest : List Char}
    (h : readLines quote escapes acc cs = some (text, rest)) : rest.length < cs.length := by
  fun_induction readLines quote escapes acc cs with
  | case1 | case4 | case7 | case10 => simp at h
  | case2 _ cs _ _ _ ih =>
    exact Nat.lt_succ_of_lt (Nat.lt_of_lt_of_le (ih h) (length_dropWhile_le _ cs))
  | case3 =>
    simp only [Option.some.injEq, Prod.mk.injEq] at h
    rw [← h.2]
    exact Nat.lt_succ_of_le (length_dropWhile_le _ _)
  | case5 _ _ _ _ _ _ hf ih =>
    have := skipFold?_shorter hf
    have := ih h
    simp only [List.length_cons]
    omega
  | case6 _ _ _ _ _ _ _ _ he ih =>
    have := readEscape_shorter he
    have := ih h
    simp only [List.length_cons]
    omega
  | case8 _ _ _ _ _ _ hb ih =>
    have := lineBreak?_shorter hb
    have := ih h
    omega
  | case9 _ _ _ _ _ _ _ ih =>
    have := ih h
    simp only [List.length_cons]
    omega

theorem skipFirstBreak_le (cs : List Char) : (skipFirstBreak cs).length ≤ cs.length := by
  unfold skipFirstBreak
  cases h : lineBreak? cs with
  | none => exact Nat.le_refl _
  | some rest => exact Nat.le_of_lt (lineBreak?_shorter h)

theorem readText_shorter {cs text rest : List Char} (h : readText cs = some (text, rest)) :
    rest.length < cs.length := by
  unfold readText at h
  split at h
  · next cs =>
    have := readLines_shorter h
    have := skipFirstBreak_le cs
    simp only [List.length_cons]
    omega
  · next cs =>
    have := readLines_shorter h
    have := skipFirstBreak_le cs
    simp only [List.length_cons]
    omega
  · exact Nat.lt_succ_of_lt (readLine_shorter h)
  · exact Nat.lt_succ_of_lt (readLine_shorter h)
  · simp at h

theorem readKey_shorter {cs key rest : List Char} (h : readKey cs = some (key, rest)) :
    rest.length < cs.length := by
  unfold readKey at h
  split at h
  · exact Nat.lt_succ_of_lt (readLine_shorter h)
  · exact Nat.lt_succ_of_lt (readLine_shorter h)
  · split at h
    · simp at h
    · next hk =>
      simp only [Option.some.injEq, Prod.mk.injEq] at h
      exact h.2 ▸ length_dropWhile_lt hk

def readFlag : List Char → Option (Bool × List Char)
  | 't' :: 'r' :: 'u' :: 'e' :: cs => some (true, cs)
  | 'f' :: 'a' :: 'l' :: 's' :: 'e' :: cs => some (false, cs)
  | _ => none

theorem readFlag_shorter {cs rest : List Char} {b : Bool} (h : readFlag cs = some (b, rest)) :
    rest.length < cs.length := by
  unfold readFlag at h
  split at h
  · simp only [Option.some.injEq, Prod.mk.injEq] at h
    simp only [← h.2, List.length_cons]
    omega
  · simp only [Option.some.injEq, Prod.mk.injEq] at h
    simp only [← h.2, List.length_cons]
    omega
  · simp at h

def readEquals (cs : List Char) : Option (List Char) :=
  match skipSpaces cs with
  | '=' :: rest => some (skipSpaces rest)
  | _ => none

theorem readEquals_shorter {cs rest : List Char} (h : readEquals cs = some rest) :
    rest.length < cs.length := by
  unfold readEquals at h
  have hs := length_dropWhile_le isSpace cs
  split at h
  · next r hr =>
    simp only [Option.some.injEq] at h
    have := length_dropWhile_le isSpace r
    rw [← h, skipSpaces]
    rw [skipSpaces] at hr
    rw [hr, List.length_cons] at hs
    omega
  · simp at h

structure Draft where
  version : Option String := none
  uppercaseNames : Option Bool := none

/-- One key with its value. There are two keys, and each may stand once. -/
def Draft.readPair (d : Draft) (cs : List Char) : Option (Draft × List Char) := do
  let (key, rest) ← readKey cs
  let rest ← readEquals rest
  if key = "version".toList ∧ d.version.isNone then
    let (text, rest) ← readText rest
    return ({ d with version := some (String.ofList text) }, rest)
  else if key = "uppercase_names".toList ∧ d.uppercaseNames.isNone then
    let (flag, rest) ← readFlag rest
    return ({ d with uppercaseNames := some flag }, rest)
  else none

theorem Draft.readPair_shorter {d e : Draft} {cs rest : List Char}
    (h : d.readPair cs = some (e, rest)) : rest.length < cs.length := by
  simp only [readPair, Option.bind_eq_bind, Option.bind_eq_some_iff] at h
  obtain ⟨⟨key, a⟩, ha, b, hb, h⟩ := h
  have hb := Nat.lt_trans (readEquals_shorter hb) (readKey_shorter ha)
  split at h
  · simp only [Option.bind_eq_some_iff, Option.pure_def, Option.some.injEq, Prod.mk.injEq] at h
    obtain ⟨⟨text, c⟩, hc, _, rfl⟩ := h
    exact Nat.lt_trans (readText_shorter hc) hb
  · split at h
    · simp only [Option.bind_eq_some_iff, Option.pure_def, Option.some.injEq, Prod.mk.injEq] at h
      obtain ⟨⟨flag, c⟩, hc, _, rfl⟩ := h
      exact Nat.lt_trans (readFlag_shorter hc) hb
    · simp at h

def skipComment (cs : List Char) : List Char :=
  match skipSpaces cs with
  | '#' :: rest => rest.dropWhile isPlain
  | rest => rest

theorem skipComment_le (cs : List Char) : (skipComment cs).length ≤ cs.length := by
  have h1 := length_dropWhile_le isSpace cs
  unfold skipComment
  split
  · next r hr =>
    have h2 := length_dropWhile_le isPlain r
    rw [skipSpaces] at hr
    rw [hr, List.length_cons] at h1
    omega
  · exact h1

/-- The text after the end of a line: spaces, a comment perhaps, and a line break unless the text
ends. -/
def endLine (cs : List Char) : Option (List Char) :=
  if skipComment cs = [] then some [] else lineBreak? (skipComment cs)

theorem endLine_le {cs rest : List Char} (h : endLine cs = some rest) :
    rest.length ≤ cs.length := by
  unfold endLine at h
  split at h
  · simp_all
  · exact Nat.le_trans (Nat.le_of_lt (lineBreak?_shorter h)) (skipComment_le cs)

theorem endLine_shorter {cs rest : List Char} (hcs : cs ≠ []) (h : endLine cs = some rest) :
    rest.length < cs.length := by
  unfold endLine at h
  split at h
  · simp only [Option.some.injEq] at h
    exact h ▸ List.length_pos_iff.2 hcs
  · exact Nat.lt_of_lt_of_le (lineBreak?_shorter h) (skipComment_le cs)

/-- The lines of a settings file: each may hold one key with its value. -/
def Draft.readAll (d : Draft) (cs : List Char) : Option Draft :=
  if _hcs : cs = [] then some d
  else
    match _h : endLine cs with
    | some rest => d.readAll rest
    | none =>
      match _hp : d.readPair (skipSpaces cs) with
      | none => none
      | some (d, after) =>
        match _he : endLine after with
        | some rest => d.readAll rest
        | none => none
termination_by cs.length
decreasing_by
  · exact endLine_shorter _hcs _h
  · exact Nat.lt_of_le_of_lt (endLine_le _he)
      (Nat.lt_of_lt_of_le (readPair_shorter _hp) (length_dropWhile_le isSpace cs))

/-- The settings that a file spells. Every file with another key, a repeated key, a table or a
value of another kind is refused, and so is whatever is no such file at all. -/
def read? (text : String) : Option Settings :=
  let cs :=
    match text.toList with
    | '\uFEFF' :: cs => cs
    | cs => cs
  (Draft.readAll {} cs).map fun d => ⟨d.version, d.uppercaseNames.getD false⟩

end FormulaSheet.Settings
