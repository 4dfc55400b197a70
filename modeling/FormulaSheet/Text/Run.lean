namespace FormulaSheet

theorem length_dropWhile_le {α : Type} (p : α → Bool) (xs : List α) :
    (xs.dropWhile p).length ≤ xs.length :=
  (List.dropWhile_suffix p).length_le

/-- A run that is not empty leaves less behind. -/
theorem length_dropWhile_lt {α : Type} {p : α → Bool} {xs : List α} (h : xs.takeWhile p ≠ []) :
    (xs.dropWhile p).length < xs.length := by
  have hx := congrArg List.length (List.takeWhile_append_dropWhile (p := p) (l := xs))
  have := List.length_pos_iff.2 h
  rw [List.length_append] at hx
  omega

section Run

variable {α : Type} {p : α → Bool} {xs ys : List α}

/-- A run ends where something else follows. -/
theorem takeWhile_run (h : ∀ x ∈ xs, p x) (hs : ∀ y ∈ ys.head?, p y = false) :
    (xs ++ ys).takeWhile p = xs := by
  rw [List.takeWhile_append_of_pos h]
  cases ys with
  | nil => rw [List.takeWhile_nil, List.append_nil]
  | cons y ys => rw [List.takeWhile_cons_of_neg (by simpa using hs y rfl), List.append_nil]

theorem dropWhile_run (h : ∀ x ∈ xs, p x) (hs : ∀ y ∈ ys.head?, p y = false) :
    (xs ++ ys).dropWhile p = ys := by
  rw [List.dropWhile_append_of_pos h]
  cases ys with
  | nil => rfl
  | cons y ys => rw [List.dropWhile_cons_of_neg (by simpa using hs y rfl)]

end Run

end FormulaSheet
