import Mathlib
import FormulaSheet.Proofs.Sheet.Reload

namespace FormulaSheet
open Relation

theorem Naming.lastEdits_of_nodup {rules : Naming} {edits : List (String × String)}
    (h : (edits.map fun edit => rules.normalize edit.1).Nodup) : rules.lastEdits edits = edits := by
  induction edits with
  | nil => rfl
  | cons edit edits ih =>
    obtain ⟨hn, h⟩ := List.nodup_cons.1 h
    rw [lastEdits, if_neg, ih h]
    rintro ⟨later, hm, he⟩
    exact hn (List.mem_map.2 ⟨later, hm, he⟩)

namespace SheetFile

variable {options : Options} {rules : Naming} {file file' : SheetFile} {cell : String × String}
  {a b n : String}

/-- Whether no two names of a file stand for the same cell. -/
def Unambiguous (rules : Naming) (file : SheetFile) : Prop :=
  (file.cells.map fun cell => rules.normalize cell.1).Nodup

def ReadBy (rules : Naming) (file : SheetFile) (a b : String) : Prop :=
  ∃ cell ∈ file.cells, rules.normalize cell.1 = b ∧
    ∃ f, Content.parse rules cell.2 = .ok (.formula f) ∧ a ∈ f.names

/-- Whether nothing is wrong with a file as a whole, in whatever order its cells stand. -/
structure Loadable (options : Options) (file : SheetFile) : Prop where
  version_eq : file.version = options.version
  names : ∀ cell ∈ file.cells, isCellName (options.naming.normalize cell.1) ∧
    options.naming.accepts (options.naming.normalize cell.1)
  inputs : ∀ cell ∈ file.cells, ∃ c, Content.parse options.naming cell.2 = .ok c
  acyclic : ∀ n, ¬TransGen (file.ReadBy options.naming) n n

theorem Loadable.perm (h : file.Loadable options) (hv : file'.version = file.version)
    (hp : file'.cells.Perm file.cells) : file'.Loadable options where
  version_eq := hv.trans h.version_eq
  names cell hm := h.names cell (hp.mem_iff.1 hm)
  inputs cell hm := h.inputs cell (hp.mem_iff.1 hm)
  acyclic n hn := by
    refine h.acyclic n (TransGen.mono (fun a b => ?_) n n hn)
    rintro ⟨cell, hm, hr⟩
    exact ⟨cell, hp.mem_iff.1 hm, hr⟩

theorem Loadable.enters (h : file.Loadable options) (hm : cell ∈ file.cells) :
    ∃ c, options.naming.Enters cell (options.naming.normalize cell.1) c := by
  obtain ⟨c, hc⟩ := h.inputs cell hm
  obtain ⟨hn, ha⟩ := h.names cell hm
  exact ⟨c, rfl, hn, ha, Content.parse_eq_ok_iff.1 hc⟩

def contents (rules : Naming) (file : SheetFile) : Contents := fun n =>
  (file.cells.find? fun cell => rules.normalize cell.1 = n).bind fun cell =>
    (Content.parse rules cell.2).toOption.bind Content.stored

theorem Unambiguous.perm (hu : file.Unambiguous rules) (hp : file'.cells.Perm file.cells) :
    file'.Unambiguous rules :=
  (hp.map _).nodup_iff.2 hu

theorem Unambiguous.eq {other : String × String} (hu : file.Unambiguous rules)
    (hm : cell ∈ file.cells) (ho : other ∈ file.cells)
    (he : rules.normalize other.1 = rules.normalize cell.1) : other = cell :=
  List.inj_on_of_nodup_map hu ho hm he

theorem Unambiguous.find? (hu : file.Unambiguous rules) (hm : cell ∈ file.cells) :
    file.cells.find? (fun c => rules.normalize c.1 = rules.normalize cell.1) = some cell := by
  have hs : (file.cells.find? fun c => rules.normalize c.1 = rules.normalize cell.1).isSome :=
    List.find?_isSome.2 ⟨cell, hm, by simp⟩
  obtain ⟨other, hf⟩ := Option.isSome_iff_exists.1 hs
  have he : rules.normalize other.1 = rules.normalize cell.1 := by simpa using List.find?_some hf
  rw [hf, hu.eq hm (List.mem_of_find?_eq_some hf) he]

theorem contents_of_enters {c : Content} (hu : file.Unambiguous rules) (hm : cell ∈ file.cells)
    (he : rules.Enters cell n c) : file.contents rules n = c.stored := by
  rw [contents, ← he.normalize, hu.find? hm, Option.bind_some,
    Content.parse_eq_ok_iff.2 he.spells]
  rfl

theorem contents_of_not_mem (h : ∀ cell ∈ file.cells, rules.normalize cell.1 ≠ n) :
    file.contents rules n = none := by
  have hf : file.cells.find? (fun c => rules.normalize c.1 = n) = none :=
    List.find?_eq_none.2 fun cell hm => by simpa using h cell hm
  rw [contents, hf, Option.bind_none]

theorem contents_perm (hu : file.Unambiguous rules) (hp : file'.cells.Perm file.cells) :
    file'.contents rules = file.contents rules := by
  funext n
  have hf : file.cells.find? (fun cell => rules.normalize cell.1 = n) =
      file'.cells.find? fun cell => rules.normalize cell.1 = n := by
    refine List.find?_eq_find?_of_perm hp.symm fun x hx y hy => ?_
    have hx' : rules.normalize x.1 = n := by simpa using hx.2
    have hy' : rules.normalize y.1 = n := by simpa using hy.2
    exact hu.eq hy.1 hx.1 (hx'.trans hy'.symm)
  rw [contents, contents, hf]

theorem readBy_contents_iff (hu : file.Unambiguous rules) :
    (file.contents rules).ReadBy a b ↔ file.ReadBy rules a b := by
  constructor
  · rintro ⟨f, hf, ha⟩
    obtain ⟨cell, hfind, hc⟩ := Option.bind_eq_some_iff.1 hf
    obtain ⟨c, hc, hs⟩ := Option.bind_eq_some_iff.1 hc
    obtain ⟨rfl, -⟩ := Content.stored_eq_some_iff.1 hs
    have hb : rules.normalize cell.1 = b := by simpa using List.find?_some hfind
    refine ⟨cell, List.mem_of_find?_eq_some hfind, hb, f, ?_, ha⟩
    cases hp : Content.parse rules cell.2 <;> simp_all [Except.toOption]
  · rintro ⟨cell, hm, rfl, f, hc, ha⟩
    refine ⟨f, ?_, ha⟩
    rw [contents, hu.find? hm, Option.bind_some, hc]
    rfl

end SheetFile

namespace Sheet

variable {options : Options} {s s' : Sheet} {file : SheetFile} {cells : List (String × String)}
  {cell : String × String}

/-- Cells can be entered one after the other exactly if none of them is refused. -/
theorem restoreAll_eq_ok_iff : cells.foldlM restoreCell s = .ok s' ↔
    s.accepted cells = cells ∧ s' = s.setAll cells := by
  refine ⟨fun h => ?_, fun ⟨ha, hs⟩ => hs ▸ restoreAll_of_accepted ha⟩
  induction cells generalizing s with
  | nil => exact ⟨rfl, (Except.ok.inj h).symm⟩
  | cons cell cells ih =>
    rcases hs : s.set cell.1 cell.2 with ⟨e | r, s₁⟩
    · rw [List.foldlM_cons, restoreCell_of_set hs] at h
      cases h
    · rw [List.foldlM_cons, restoreCell_of_set hs] at h
      obtain ⟨ha, rfl⟩ := ih h
      rw [accepted_cons_of_ok hs, ha, setAll_cons hs]
      exact ⟨rfl, rfl⟩

theorem ofFile_eq_ok_iff : ofFile options file = .ok s ↔
    file.version = options.version ∧ accepted { options } file.cells = file.cells ∧
      s = { setAll { options } file.cells with changed := false } := by
  unfold ofFile
  split
  · next hv =>
    cases hr : file.cells.foldlM restoreCell { options } with
    | ok s₁ =>
      obtain ⟨ha, rfl⟩ := restoreAll_eq_ok_iff.1 hr
      simp [hv, ha, Except.map, eq_comm]
    | error e =>
      have hn : accepted { options } file.cells ≠ file.cells := by
        intro ha
        rw [restoreAll_of_accepted ha] at hr
        cases hr
      simp [hn, Except.map]
  · next hv => simp [hv]

theorem Reachable.eq_of_content? (h : Reachable options s) (h' : Reachable options s')
    (hc : s'.content? = s.content?) (hb : s'.changed = s.changed) : s' = s := by
  have hcells := h.coherent.cells_eq h'.coherent hc
  have hgraph := h.coherent.graph_eq h'.coherent hc
  have ho := h'.options_eq.trans h.options_eq.symm
  cases s
  cases s'
  simp_all

theorem exists_enters_of_ofFile (h : ofFile options file = .ok s)
    (hu : file.Unambiguous options.naming) (hm : cell ∈ file.cells) :
    ∃ n c, options.naming.Enters cell n c ∧ s.content? n = c.stored := by
  obtain ⟨-, ha, rfl⟩ := ofFile_eq_ok_iff.1 h
  have hlast : cell ∈ options.naming.lastEdits (accepted { options } file.cells) := by
    rwa [ha, Naming.lastEdits_of_nodup hu]
  exact (coherent_empty options).content?_setAll_of_last hlast

/-- A loaded cell holds what the file has for it. -/
theorem content?_of_ofFile (h : ofFile options file = .ok s)
    (hu : file.Unambiguous options.naming) : s.content? = file.contents options.naming := by
  funext n
  by_cases hn : ∃ cell ∈ file.cells, options.naming.normalize cell.1 = n
  · obtain ⟨cell, hm, rfl⟩ := hn
    obtain ⟨n, c, he, hc⟩ := exists_enters_of_ofFile h hu hm
    rw [he.normalize, hc, SheetFile.contents_of_enters hu hm he]
  · push Not at hn
    obtain ⟨-, ha, rfl⟩ := ofFile_eq_ok_iff.1 h
    rw [SheetFile.contents_of_not_mem hn]
    exact (coherent_empty options).content?_setAll_of_ne (ha.symm ▸ hn)

theorem loadable_of_ofFile (h : ofFile options file = .ok s)
    (hu : file.Unambiguous options.naming) : file.Loadable options := by
  have hcoherent := (Reachable.ofFile file h).coherent
  constructor
  · exact (ofFile_eq_ok_iff.1 h).1
  · intro cell hm
    obtain ⟨n, c, he, -⟩ := exists_enters_of_ofFile h hu hm
    rw [he.normalize]
    exact ⟨he.isCellName, he.accepts⟩
  · intro cell hm
    obtain ⟨n, c, he, -⟩ := exists_enters_of_ofFile h hu hm
    exact ⟨c, Content.parse_eq_ok_iff.2 he.spells⟩
  · intro n hn
    refine hcoherent.not_readBy_self n (TransGen.mono (fun a b hr => ?_) n n hn)
    rw [content?_of_ofFile h hu]
    exact (SheetFile.readBy_contents_iff hu).2 hr

/-- No prefix of the cells is refused, since all that it brings together is in the whole file. -/
theorem exists_ofFile_of_loadable (h : file.Loadable options)
    (hu : file.Unambiguous options.naming) : ∃ s, ofFile options file = .ok s := by
  refine ⟨_, ofFile_eq_ok_iff.2 ⟨h.version_eq, ?_, rfl⟩⟩
  have hf : ∀ n, ¬TransGen (file.contents options.naming).ReadBy n n := fun n hn =>
    h.acyclic n (TransGen.mono (fun a b => (SheetFile.readBy_contents_iff hu).1) n n hn)
  refine (coherent_empty options).accepted_of_final hf (fun n c hn => by simp [content?] at hn) ?_
  intro cell hm
  obtain ⟨c, he⟩ := h.enters hm
  exact ⟨_, c, he, SheetFile.contents_of_enters hu hm he⟩

theorem ofFile_perm {file' : SheetFile} (hu : file.Unambiguous options.naming)
    (hv : file'.version = file.version) (hp : file'.cells.Perm file.cells)
    (h : ofFile options file = .ok s) : ofFile options file' = .ok s := by
  have hu' := hu.perm hp
  obtain ⟨s', h'⟩ := exists_ofFile_of_loadable ((loadable_of_ofFile h hu).perm hv hp) hu'
  have hcontent : s'.content? = s.content? := by
    rw [content?_of_ofFile h hu, content?_of_ofFile h' hu', SheetFile.contents_perm hu hp]
  have hchanged : s'.changed = s.changed := by
    rw [(ofFile_eq_ok_iff.1 h).2.2, (ofFile_eq_ok_iff.1 h').2.2]
  rwa [(Reachable.ofFile file h).eq_of_content? (Reachable.ofFile file' h') hcontent hchanged] at h'

/-- A file whose names stand for different cells is loaded exactly if nothing is wrong with it as a
whole. The cells hold what the file has for them, and they may stand there in any order. -/
theorem ofFile_ok_iff_loadable (hu : file.Unambiguous options.naming) :
    ((∃ s, ofFile options file = .ok s) ↔ file.Loadable options) ∧
    (∀ s, ofFile options file = .ok s →
      s.content? = file.contents options.naming ∧ s.changed = false) ∧
    ∀ file' : SheetFile, file'.version = file.version → file'.cells.Perm file.cells →
      ∀ s, ofFile options file' = .ok s ↔ ofFile options file = .ok s := by
  refine ⟨⟨fun ⟨_, h⟩ => loadable_of_ofFile h hu, fun h => exists_ofFile_of_loadable h hu⟩,
    fun s h => ⟨content?_of_ofFile h hu, ?_⟩, fun _ hv hp _ => ?_⟩
  · rw [(ofFile_eq_ok_iff.1 h).2.2]
  · exact ⟨ofFile_perm (hu.perm hp) hv.symm hp.symm, ofFile_perm hu hv hp⟩

/-- Two cells that are fine by themselves cannot be loaded together, and two others can, also with
the formula before the cell that it reads. -/
theorem not_ofFile_two :
    (¬∃ s, ofFile {} ⟨[("A1", "=B1"), ("B1", "=A1")], "default", by decide⟩ = .ok s) ∧
      ∃ s, ofFile {} ⟨[("A1", "=B1"), ("B1", "x")], "default", by decide⟩ = .ok s ∧
        ofFile {} ⟨[("B1", "x"), ("A1", "=B1")], "default", by decide⟩ = .ok s ∧
        s.content? "A1" = some (.formula ⟨[.name "B1"]⟩) ∧ s.content? "B1" = some (.text "x") := by
  have hloop : SheetFile.Unambiguous {} ⟨[("A1", "=B1"), ("B1", "=A1")], "default", by decide⟩ := by
    unfold SheetFile.Unambiguous
    decide
  have hfine : SheetFile.Unambiguous {} ⟨[("A1", "=B1"), ("B1", "x")], "default", by decide⟩ := by
    unfold SheetFile.Unambiguous
    decide
  constructor
  · rw [(@ofFile_ok_iff_loadable {} _ hloop).1]
    intro h
    have ha : Content.parse {} "=B1" = .ok (.formula ⟨[.name "B1"]⟩) := by cbv
    have hb : Content.parse {} "=A1" = .ok (.formula ⟨[.name "A1"]⟩) := by cbv
    refine h.acyclic "A1" (.tail (b := "B1") (.single ?_) ?_)
    · exact ⟨("B1", "=A1"), by simp, rfl, _, hb, Formula.mem_names_iff.2 (by simp)⟩
    · exact ⟨("A1", "=B1"), by simp, rfl, _, ha, Formula.mem_names_iff.2 (by simp)⟩
  · have hok : (ofFile {} ⟨[("A1", "=B1"), ("B1", "x")], "default", by decide⟩).isOk := by cbv
    cases h : ofFile {} ⟨[("A1", "=B1"), ("B1", "x")], "default", by decide⟩ with
    | error e =>
      rw [h] at hok
      cases hok
    | ok s =>
      obtain ⟨-, hcontent, hperm⟩ := @ofFile_ok_iff_loadable {} _ hfine
      have hswap := hperm ⟨[("B1", "x"), ("A1", "=B1")], "default", by decide⟩ rfl
        (List.Perm.swap ..) s
      refine ⟨s, rfl, hswap.2 h, ?_, ?_⟩
      · rw [(hcontent s h).1]
        cbv
      · rw [(hcontent s h).1]
        cbv

end Sheet

end FormulaSheet
