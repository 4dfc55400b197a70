import FormulaSheet.Proofs.Formula.Recognition

namespace FormulaSheet

section Stops

variable {α : Type} {p : α → Bool} {y : α}

/-- What follows does not matter where a run has to stop. -/
theorem takeWhile_append_stop (h : p y = false) (xs ys : List α) :
    (xs ++ y :: ys).takeWhile p = xs.takeWhile p := by
  induction xs with
  | nil => simp [h]
  | cons x xs ih => by_cases hx : p x <;> simp [hx, ih]

theorem dropWhile_append_stop (h : p y = false) (xs ys : List α) :
    (xs ++ y :: ys).dropWhile p = xs.dropWhile p ++ y :: ys := by
  induction xs with
  | nil => simp [h]
  | cons x xs ih => by_cases hx : p x <;> simp [hx, ih]

end Stops

section Scanning

def withTail (tail : List Char) (parts : List Char × List Char) : List Char × List Char :=
  (parts.1, parts.2 ++ tail)

variable {b : Char} (hb : isBlank b) (cs ds : List Char)
include hb

theorem scanMantissa?_append_blank : scanMantissa? (cs ++ b :: ds) =
    (scanMantissa? cs).map (withTail (b :: ds)) := by
  have hd := isDigit_eq_false_of_isBlank hb
  have hp : b ≠ '.' := ne_of_isBlank (by decide) hb
  unfold scanMantissa?
  rw [takeWhile_append_stop hd, dropWhile_append_stop hd]
  generalize cs.takeWhile Char.isDigit = whole
  cases cs.dropWhile Char.isDigit with
  | nil => cases whole <;> simp [hp, withTail]
  | cons c rest =>
    by_cases hc : c = '.'
    · subst hc
      simp only [List.cons_append, takeWhile_append_stop hd, dropWhile_append_stop hd]
      split
      · rfl
      · simp [withTail]
    · cases whole <;> simp [hc, withTail]

theorem splitSign_append_blank : splitSign (cs ++ b :: ds) = withTail (b :: ds) (splitSign cs) := by
  cases cs with
  | nil =>
    have hp : b ≠ '+' := ne_of_isBlank (by decide) hb
    have hm : b ≠ '-' := ne_of_isBlank (by decide) hb
    simp [splitSign, hp, hm, withTail]
  | cons c cs =>
    by_cases hp : c = '+'
    · rw [hp]
      rfl
    by_cases hm : c = '-'
    · rw [hm]
      rfl
    · simp [splitSign, hp, hm, withTail]

theorem scanExponent_append_blank :
    scanExponent (cs ++ b :: ds) = withTail (b :: ds) (scanExponent cs) := by
  have hd := isDigit_eq_false_of_isBlank hb
  cases cs with
  | nil =>
    have he : b ≠ 'e' := ne_of_isBlank (by decide) hb
    have hE : b ≠ 'E' := ne_of_isBlank (by decide) hb
    simp [scanExponent, he, hE, withTail]
  | cons c cs =>
    rw [List.cons_append, scanExponent, scanExponent, splitSign_append_blank hb]
    simp only [withTail, takeWhile_append_stop hd, dropWhile_append_stop hd]
    split <;> simp

theorem scanNumeral?_append_blank : scanNumeral? (cs ++ b :: ds) =
    (scanNumeral? cs).map (withTail (b :: ds)) := by
  rw [scanNumeral?, scanNumeral?, scanMantissa?_append_blank hb, Option.map_map, Option.map_map]
  congr 1
  funext parts
  cases parts with
  | mk mantissa rest => simp [withTail, scanExponent_append_blank hb]

theorem scanToken?_append_blank : scanToken? (cs ++ b :: ds) =
    (scanToken? cs).map (withTail (b :: ds)) := by
  have hn : isNamePart b = false := eq_false_of_isBlank (fun _ => isBlank_eq_false_of_isNamePart) hb
  cases cs with
  | nil => exact scanToken?_of_isBlank hb
  | cons c cs =>
    have hs := scanNumeral?_append_blank hb (c :: cs) ds
    rw [List.cons_append] at hs ⊢
    rw [scanToken?, scanToken?, hs, takeWhile_append_stop hn, dropWhile_append_stop hn]
    split
    · rfl
    · split <;> rfl

theorem scanStray_append_blank (acc : List Char) : scanStray acc (cs ++ b :: ds) =
    withTail (b :: ds) (scanStray acc cs) := by
  induction cs generalizing acc with
  | nil => simp [scanStray, withTail, hb]
  | cons c cs ih =>
    have ht := scanToken?_append_blank hb (c :: cs) ds
    rw [List.cons_append] at ht ⊢
    rw [scanStray, scanStray, ht, Option.isSome_map]
    split
    · rfl
    · exact ih (c :: acc)

/-- At a blank the scanner begins anew. -/
theorem scanFrom_append_blank (acc : List (List Char)) :
    scanFrom acc (cs ++ b :: ds) = scanFrom (scanFrom acc cs).reverse ds := by
  fun_induction scanFrom acc cs with
  | case1 acc => rw [List.reverse_reverse, List.nil_append, scanFrom_blank _ hb]
  | case2 acc c cs hc ih => rw [List.cons_append, scanFrom_blank _ hc, ih]
  | case3 acc c cs hc token rest h ih =>
    have ht := scanToken?_append_blank hb (c :: cs) ds
    rw [h] at ht
    rw [scanFrom_of_scanToken? ht]
    exact ih
  | case4 acc c cs hc h ih =>
    have ht := scanToken?_append_blank hb (c :: cs) ds
    rw [h, List.cons_append] at ht
    rw [List.cons_append, scanFrom_stray _ (by simpa using hc) ht, scanStray_append_blank hb]
    exact ih

end Scanning

/-- No token goes past a blank. -/
theorem tokenize_append (source more : String) :
    tokenize (source ++ " " ++ more) = tokenize source ++ tokenize more := by
  have hl : (source ++ " " ++ more).toList = source.toList ++ ' ' :: more.toList := by simp
  have hs : scanFrom [] (source.toList ++ ' ' :: more.toList) =
      scanFrom ([] ++ (scanFrom [] source.toList).reverse) more.toList :=
    scanFrom_append_blank rfl _ _ _
  rw [tokenize, hl, hs, scanFrom_append, List.reverse_reverse, List.map_append]
  rfl

/-- Whether a text is made of tokens with blanks, or nothing, between and around them. -/
inductive Spaced : List String → List Char → Prop
  | done {cs : List Char} : (∀ c ∈ cs, isBlank c) → Spaced [] cs
  | token {blanks cs : List Char} {t : String} {ts : List String} : (∀ c ∈ blanks, isBlank c) →
    Spaced ts cs → Spaced (t :: ts) (blanks ++ (t.toList ++ cs))

section Spacing

variable {c : Char} {cs : List Char} {ts : List String}

theorem detached_blank (h : isBlank c) : Detached (c :: cs) := by
  intro d hd
  obtain rfl : c = d := by simpa using hd
  exact ⟨eq_false_of_isBlank (fun _ => isBlank_eq_false_of_isNamePart) h,
    ne_of_isBlank (by decide) h⟩

theorem detached_symbol (h : isSymbol c) : Detached (c :: cs) := by
  intro d hd
  obtain rfl : c = d := by simpa using hd
  refine ⟨eq_false_of_isSymbol (by decide) h, ?_⟩
  rintro rfl
  exact absurd h (by decide)

theorem Spaced.detached (h : Spaced ts cs) (ht : ∀ t ∈ ts.head?, Symbolic t) : Detached cs := by
  have hnil : Detached [] := by simp [Detached]
  cases h with
  | done hb =>
    cases cs with
    | nil => exact hnil
    | cons c cs => exact detached_blank (hb c List.mem_cons_self)
  | @token blanks cs t ts hb h =>
    cases blanks with
    | nil =>
      obtain ⟨c, rfl, hc⟩ := ht t rfl
      rw [List.nil_append, String.toList_singleton]
      exact detached_symbol hc
    | cons c blanks => exact detached_blank (hb c List.mem_cons_self)

/-- Of two tokens that stand side by side one is a symbol: then it does not matter whether there are
blanks between them. -/
theorem scanFrom_spaced (h : Spaced ts cs) (hr : ∀ t ∈ ts, Recognised t)
    (hc : ts.IsChain fun t u => Symbolic t ∨ Symbolic u) (acc : List (List Char)) :
    scanFrom acc cs = acc.reverse ++ ts.map String.toList := by
  induction h generalizing acc with
  | @done cs hb =>
    have hs := scanFrom_blanks hb [] acc
    rw [List.append_nil, scanFrom_nil] at hs
    rw [hs, List.map_nil, List.append_nil]
  | @token blanks cs t ts hb h ih =>
    obtain ⟨ht, hts⟩ := List.forall_mem_cons.1 hr
    obtain ⟨hnext, hchain⟩ := List.isChain_cons.1 hc
    have hscan : scanToken? (t.toList ++ cs) = some (t.toList, cs) := by
      by_cases hsym : Symbolic t
      · obtain ⟨c, rfl, hsym⟩ := hsym
        rw [String.toList_singleton]
        exact scanToken?_symbol hsym
      · exact ht.scanToken?_of_detached (h.detached fun u hu => (hnext u hu).resolve_left hsym)
    rw [scanFrom_blanks hb, scanFrom_of_scanToken? hscan, ih hts hchain, List.reverse_cons,
      List.append_assoc, List.map_cons]
    rfl

theorem tokenize_spaced {text : String} (h : Spaced ts text.toList) (hr : ∀ t ∈ ts, Recognised t)
    (hc : ts.IsChain fun t u => Symbolic t ∨ Symbolic u) : tokenize text = ts := by
  rw [tokenize, scanFrom_spaced h hr hc]
  simp [Function.comp_def]

theorem spaced_join (ts : List String) : Spaced ts (String.join ts).toList := by
  rw [String.toList_join]
  induction ts with
  | nil => exact .done (by simp)
  | cons t ts ih =>
    have hnil : ∀ c ∈ ([] : List Char), isBlank c := by simp
    exact Spaced.token hnil ih

end Spacing

end FormulaSheet
