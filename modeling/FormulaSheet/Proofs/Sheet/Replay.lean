import Mathlib
import FormulaSheet.Proofs.Sheet.Rejection
import FormulaSheet.Proofs.Sheet.Stored
import FormulaSheet.Proofs.Sheet.Values

namespace FormulaSheet
open Relation

theorem Contents.ReadBy.mono {c d : Contents} {a b : String}
    (h : ∀ x, c b = some x → d b = some x) (hr : c.ReadBy a b) : d.ReadBy a b := by
  obtain ⟨f, hf, ha⟩ := hr
  exact ⟨f, h _ hf, ha⟩

namespace Naming

variable {rules : Naming} {edits : List (String × String)} {edit : String × String} {n : String}
  {c d : Content}

theorem Enters.unique {m : String} (h : rules.Enters edit n c) (h' : rules.Enters edit m d) :
    n = m ∧ c = d := by
  have hc := Content.parse_eq_ok_iff.2 h.spells
  rw [Content.parse_eq_ok_iff.2 h'.spells] at hc
  exact ⟨h.normalize.symm.trans h'.normalize, (Except.ok.inj hc).symm⟩

def lastEdits (rules : Naming) : List (String × String) → List (String × String)
  | [] => []
  | edit :: edits =>
    if ∃ later ∈ edits, rules.normalize later.1 = rules.normalize edit.1 then
      rules.lastEdits edits
    else edit :: rules.lastEdits edits

theorem mem_of_mem_lastEdits (h : edit ∈ rules.lastEdits edits) : edit ∈ edits := by
  induction edits with
  | nil => exact h
  | cons e edits ih =>
    unfold lastEdits at h
    split at h
    · exact List.mem_cons_of_mem e (ih h)
    · rcases List.mem_cons.1 h with rfl | h
      · exact List.mem_cons_self
      · exact List.mem_cons_of_mem e (ih h)

theorem exists_mem_lastEdits (h : edit ∈ edits) :
    ∃ last ∈ rules.lastEdits edits, rules.normalize last.1 = rules.normalize edit.1 := by
  induction edits generalizing edit with
  | nil => simp at h
  | cons e edits ih =>
    unfold lastEdits
    rcases List.mem_cons.1 h with rfl | h
    · split
      · next hl =>
        obtain ⟨later, hm, hl⟩ := hl
        obtain ⟨last, hm, he⟩ := ih hm
        exact ⟨last, hm, he.trans hl⟩
      · exact ⟨edit, List.mem_cons_self, rfl⟩
    · obtain ⟨last, hm, he⟩ := ih h
      split
      · exact ⟨last, hm, he⟩
      · exact ⟨last, List.mem_cons_of_mem e hm, he⟩

example : lastEdits (uppercase {}) [("a1", "1"), ("B1", "2"), ("A1", "3")] =
    [("B1", "2"), ("A1", "3")] := by cbv

end Naming

namespace Sheet

variable {options : Options} {s s' : Sheet} {edits calls : List (String × String)}
  {edit : String × String} {n : String} {c : Content} {r : Recalculation} {final : Contents}

/-- The edits that are not refused when all are entered one after the other. -/
def accepted (s : Sheet) : List (String × String) → List (String × String)
  | [] => []
  | edit :: edits =>
    match s.set edit.1 edit.2 with
    | (.ok _, s) => edit :: s.accepted edits
    | (.error _, s) => s.accepted edits

theorem accepted_cons_of_ok (h : s.set edit.1 edit.2 = (.ok r, s'))
    (edits : List (String × String)) :
    s.accepted (edit :: edits) = edit :: s'.accepted edits := by
  rw [accepted, h]

theorem accepted_cons_of_error {e : SheetError} (h : s.set edit.1 edit.2 = (.error e, s'))
    (edits : List (String × String)) : s.accepted (edit :: edits) = s'.accepted edits := by
  rw [accepted, h]

theorem setAll_cons {x : Except SheetError Recalculation} (h : s.set edit.1 edit.2 = (x, s'))
    (edits : List (String × String)) : s.setAll (edit :: edits) = s'.setAll edits := by
  rw [setAll, List.foldl_cons, h]
  rfl

/-- A cell that no accepted edit is one of keeps its content. -/
theorem Coherent.content?_setAll_of_ne (h : s.Coherent)
    (hn : ∀ edit ∈ s.accepted edits, s.options.naming.normalize edit.1 ≠ n) :
    (s.setAll edits).content? n = s.content? n := by
  induction edits generalizing s with
  | nil => rfl
  | cons edit edits ih =>
    rcases h.set_cases edit.1 edit.2 with ⟨e, hs⟩ | ⟨m, c, order, hc, h', hs⟩
    · rw [accepted_cons_of_error hs] at hn
      rw [setAll_cons hs]
      exact ih h hn
    · rw [accepted_cons_of_ok hs] at hn
      obtain ⟨hm, hn⟩ := List.forall_mem_cons.1 hn
      have ho : (s.edited m c order).options = s.options := options_edited
      rw [setAll_cons hs, ih h' (ho ▸ hn), content?_edited]
      exact Function.update_of_ne (hc.normalize ▸ hm).symm _ _

/-- Other cells have the content of the last edit that was accepted. -/
theorem Coherent.content?_setAll_of_last (h : s.Coherent)
    (he : edit ∈ s.options.naming.lastEdits (s.accepted edits)) :
    ∃ n c, s.options.naming.Enters edit n c ∧ (s.setAll edits).content? n = c.stored := by
  induction edits generalizing s with
  | nil => simp [accepted, Naming.lastEdits] at he
  | cons first edits ih =>
    rcases h.set_cases first.1 first.2 with ⟨e, hs⟩ | ⟨m, c, order, hc, h', hs⟩
    · rw [accepted_cons_of_error hs] at he
      rw [setAll_cons hs]
      exact ih h he
    · rw [accepted_cons_of_ok hs, Naming.lastEdits] at he
      rw [setAll_cons hs]
      have hrest := ih h'
      rw [options_edited] at hrest
      split at he
      · exact hrest he
      · next hl =>
        rcases List.mem_cons.1 he with rfl | he
        · refine ⟨m, c, hc, ?_⟩
          rw [h'.content?_setAll_of_ne, content?_edited, Function.update_self]
          rw [options_edited]
          exact fun later hm hk => hl ⟨later, hm, hk.trans hc.normalize.symm⟩
        · exact hrest he

theorem Coherent.not_readBy_self (h : s.Coherent) (n : String) :
    ¬TransGen s.content?.ReadBy n n := by
  rw [← h.precedes_eq]
  exact h.acyclic n

/-- An edit that brings a cell to what it will be in the end is not refused, if all other cells
are there already or still empty: a loop that it closed would stay to the end. -/
theorem Coherent.set_of_final (h : s.Coherent) (hf : ∀ n, ¬TransGen final.ReadBy n n)
    (hs : ∀ m, m ≠ n → ∀ d, s.content? m = some d → final m = some d)
    (he : s.options.naming.Enters edit n c) (hn : final n = c.stored) :
    ∃ order, s.set edit.1 edit.2 = (.ok ⟨order, true⟩, s.edited n c order) ∧
      (s.edited n c order).Coherent ∧
      ∀ m d, (s.edited n c order).content? m = some d → final m = some d := by
  rcases h.set_cases edit.1 edit.2 with ⟨e, hr⟩ | ⟨m, d, order, hc, h', hr⟩
  · obtain ⟨hname, hparse⟩ := enters_iff.1 he
    rw [set_of_ok hname hparse] at hr
    obtain ⟨v, hv, hreach⟩ := h.put_error_iff.1 ⟨e, congrArg Prod.fst hr⟩
    obtain ⟨f, hc, hv⟩ := Content.mem_reads_iff.1 hv
    -- All that other cells read now they read in the end, so that the way to `v` leads back.
    have hread : final.ReadBy v n := ⟨f, hn.trans hc, hv⟩
    have hreach : ReflTransGen final.ReadBy n v :=
      reach_of_steps (fun a b hb => Contents.ReadBy.mono (hs b hb)) hreach
    exact absurd (TransGen.tail' hreach hread) (hf n)
  · obtain ⟨rfl, rfl⟩ := he.unique hc
    refine ⟨order, hr, h', fun m d hd => ?_⟩
    rw [content?_edited] at hd
    by_cases hm : m = n
    · subst hm
      rw [hn, ← hd, Function.update_self]
    · rw [Function.update_of_ne hm] at hd
      exact hs m hm d hd

theorem Coherent.accepted_of_final (h : s.Coherent) (hf : ∀ n, ¬TransGen final.ReadBy n n)
    (hs : ∀ n c, s.content? n = some c → final n = some c)
    (hc : ∀ edit ∈ calls, ∃ n c, s.options.naming.Enters edit n c ∧ final n = c.stored) :
    s.accepted calls = calls := by
  induction calls generalizing s with
  | nil => rfl
  | cons call calls ih =>
    obtain ⟨⟨n, c, he, hn⟩, hc⟩ := List.forall_mem_cons.1 hc
    obtain ⟨order, hr, h', hs'⟩ := h.set_of_final hf (fun m _ => hs m) he hn
    have ho : (s.edited n c order).options = s.options := options_edited
    rw [accepted_cons_of_ok hr, ih h' hs' (ho ▸ hc)]

theorem Coherent.graph_eq (h : s.Coherent) (h' : s'.Coherent) (hc : s'.content? = s.content?) :
    s'.graph = s.graph := by
  obtain ⟨pairs, hp⟩ := h.represents
  obtain ⟨pairs', hp'⟩ := h'.represents
  have he : pairs' = pairs := by
    ext ⟨a, b⟩
    rw [← hp.precedes_iff, ← hp'.precedes_iff, h.precedes_iff, h'.precedes_iff, hc]
  exact hp'.unique (he ▸ hp)

/-- A sheet comes about again from an empty one by edits that bring each of its cells to what it
holds, in any order: none of them is refused. -/
theorem Coherent.rebuild (h : s.Coherent)
    (hc : ∀ edit ∈ calls, ∃ n c, options.naming.Enters edit n c ∧ s.content? n = c.stored)
    (ha : ∀ n, s.content? n ≠ none → ∃ edit ∈ calls, options.naming.normalize edit.1 = n) :
    accepted { options } calls = calls ∧ (setAll { options } calls).cells = s.cells ∧
      (setAll { options } calls).graph = s.graph := by
  have hempty := coherent_empty options
  have hacc :=
    hempty.accepted_of_final h.not_readBy_self (fun n c hn => by simp [content?] at hn) hc
  have hfinal : (setAll { options } calls).Coherent := (Reachable.empty.setAll calls).coherent
  have hcontent : (setAll { options } calls).content? = s.content? := by
    funext n
    -- The last call of a cell brings it to its end, and cells without a call stay empty.
    by_cases hn : ∃ edit ∈ calls, options.naming.normalize edit.1 = n
    · obtain ⟨edit, hm, rfl⟩ := hn
      obtain ⟨last, hm, hl⟩ := @Naming.exists_mem_lastEdits options.naming _ _ hm
      obtain ⟨n, c, he, hn⟩ := hempty.content?_setAll_of_last (hacc.symm ▸ hm)
      obtain ⟨n', c', he', hn'⟩ := hc last (Naming.mem_of_mem_lastEdits hm)
      obtain ⟨rfl, rfl⟩ := he.unique he'
      rw [← hl, he.normalize, hn, hn']
    · push Not at hn
      rw [hempty.content?_setAll_of_ne (hacc.symm ▸ hn)]
      by_contra hne
      obtain ⟨edit, hm, hk⟩ := ha n (Ne.symm hne)
      exact hn edit hm hk
  exact ⟨hacc, h.cells_eq hfinal hcontent, h.graph_eq hfinal hcontent⟩

/-- Of a history only the last accepted edit of each cell counts: these edits alone are accepted in
any order and lead to the same cells, values and graph. -/
theorem replay_lastEdits {order : List (String × String)}
    (h : order.Perm (options.naming.lastEdits (accepted { options } edits))) :
    accepted { options } order = order ∧
      (setAll { options } order).cells = (setAll { options } edits).cells ∧
      (setAll { options } order).graph = (setAll { options } edits).graph := by
  have hempty := coherent_empty options
  refine (Reachable.empty.setAll edits).coherent.rebuild (fun edit hm => ?_) fun n hn => ?_
  · exact hempty.content?_setAll_of_last (h.mem_iff.1 hm)
  · by_contra hne
    push Not at hne
    refine hn (hempty.content?_setAll_of_ne fun edit hm hk => ?_)
    obtain ⟨last, hm, hl⟩ := @Naming.exists_mem_lastEdits options.naming _ _ hm
    exact hne last (h.mem_iff.2 hm) (hl.trans hk)

/-- The second edit is refused, and the third takes the place of the first. The two that count lead
to the same cells when they are made the other way round. -/
theorem replay_lastEdits_two :
    accepted {} [("A1", "=C1"), ("A1", "=A1"), ("A1", "x"), ("B1", "=A1")] =
      [("A1", "=C1"), ("A1", "x"), ("B1", "=A1")] ∧
    accepted {} [("B1", "=A1"), ("A1", "x")] = [("B1", "=A1"), ("A1", "x")] ∧
    (setAll {} [("B1", "=A1"), ("A1", "x")]).cells =
      (setAll {} [("A1", "=C1"), ("A1", "=A1"), ("A1", "x"), ("B1", "=A1")]).cells ∧
    (setAll {} [("B1", "=A1"), ("A1", "x")]).cells.toList =
      [("A1", .text "x"), ("B1", .formula ⟨[.name "A1"]⟩ (.error (.notNumber "A1")))] := by
  have ha : accepted {} [("A1", "=C1"), ("A1", "=A1"), ("A1", "x"), ("B1", "=A1")] =
      [("A1", "=C1"), ("A1", "x"), ("B1", "=A1")] := by cbv
  have h : [("B1", "=A1"), ("A1", "x")].Perm (Naming.lastEdits {} (accepted {}
      [("A1", "=C1"), ("A1", "=A1"), ("A1", "x"), ("B1", "=A1")])) := by
    have hl : Naming.lastEdits {} [("A1", "=C1"), ("A1", "x"), ("B1", "=A1")] =
        [("A1", "x"), ("B1", "=A1")] := by cbv
    rw [ha, hl]
    exact List.Perm.swap _ _ _
  obtain ⟨horder, hcells, -⟩ := @replay_lastEdits {} _ _ h
  exact ⟨ha, horder, hcells, by cbv⟩

end Sheet

end FormulaSheet
