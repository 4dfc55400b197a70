import FormulaSheet.FileTree
import FormulaSheet.Proofs.Except
import Mathlib.Tactic.SplitIfs

namespace FormulaSheet

namespace FileTree

variable {t t' : FileTree} {path text : String} {parts : List String} {place p : Place}
  {bytes bytes' : ByteArray}

theorem locate_eq_ok_iff :
    t.locate path = .ok p ↔ ∃ parts, parts? path = .ok parts ∧ t.locateFrom [] parts = .ok p :=
  bind_eq_ok_iff

theorem writeRefusal?_eq_none_iff :
    t.writeRefusal? p = none ↔ t.entry? p ≠ some .folder ∧ t.refusal? .write p = none := by
  unfold writeRefusal?
  split
  · next h => exact iff_of_false nofun fun hn => hn.1 h
  · next h => exact (and_iff_right h).symm

theorem locateFile_eq_ok_iff : t.locateFile parts = .ok p ↔
    parts.getLast? ≠ some "" ∧ t.locateFrom [] parts = .ok p ∧ t.writeRefusal? p = none := by
  unfold locateFile
  split
  · next h =>
    rw [bind_eq_ok_iff]
    exact iff_of_false (fun ⟨_, _, hp⟩ => nomatch hp) fun hp => hp.1 h
  · next h =>
    rw [bind_eq_ok_iff]
    constructor
    · rintro ⟨place, hl, hp⟩
      split at hp
      · cases hp
      · next hn =>
        cases hp
        exact ⟨h, hl, hn⟩
    · rintro ⟨-, hl, hn⟩
      exact ⟨p, hl, by rw [hn]; rfl⟩

theorem target_eq_ok_iff : t.target path = .ok p ↔
    ∃ parts, parts? path = .ok parts ∧ parts.getLast? ≠ some "" ∧ t.locateFrom [] parts = .ok p ∧
      t.writeRefusal? p = none := by
  rw [target, bind_eq_ok_iff]
  exact exists_congr fun parts => and_congr_right fun _ => locateFile_eq_ok_iff

theorem locate_of_target (h : t.target path = .ok p) : t.locate path = .ok p := by
  obtain ⟨parts, hp, -, hl, -⟩ := target_eq_ok_iff.1 h
  exact locate_eq_ok_iff.2 ⟨parts, hp, hl⟩

theorem not_folder_of_target (h : t.target path = .ok p) : t.entry? p ≠ some .folder := by
  obtain ⟨_, -, -, -, hn⟩ := target_eq_ok_iff.1 h
  exact (writeRefusal?_eq_none_iff.1 hn).1

section Folders

/-- Whether folders stand at the same places of two trees and can be searched at the same. -/
structure SameFolders (t t' : FileTree) : Prop where
  folder : ∀ place, t.entry? place = some .folder ↔ t'.entry? place = some .folder
  search : ∀ place, t.refusal? .search place = t'.refusal? .search place

theorem SameFolders.symm (h : t.SameFolders t') : t'.SameFolders t :=
  ⟨fun place => (h.folder place).symm, fun place => (h.search place).symm⟩

theorem SameFolders.searchRefusal? (h : t.SameFolders t') (place : Place) (part : String) :
    t.searchRefusal? place part = t'.searchRefusal? place part := by
  unfold FileTree.searchRefusal?
  rw [h.search]

theorem locateFrom_cons {part : String} (h : t.entry? place = some .folder)
    (hs : t.searchRefusal? place part = none) :
    t.locateFrom place (part :: parts) =
      if part = "" ∨ part = "." then t.locateFrom place parts
      else if part = ".." then t.locateFrom place.parent parts
      else if 255 < part.utf8ByteSize then .error .nameTooLong
      else t.locateFrom (part :: place) parts := by
  rw [locateFrom, h, hs]

theorem folder_of_locateFrom {part : String} (h : t.locateFrom place (part :: parts) = .ok p) :
    t.entry? place = some .folder ∧ t.searchRefusal? place part = none := by
  rw [locateFrom] at h
  split at h
  · cases h
  · cases h
  · cases h
  · next he hs => exact ⟨he, hs⟩

/-- The way to a place goes through folders only. -/
theorem SameFolders.locateFrom (hs : t.SameFolders t') (h : t.locateFrom place parts = .ok p) :
    t'.locateFrom place parts = .ok p := by
  induction parts generalizing place with
  | nil => exact h
  | cons part parts ih =>
    obtain ⟨hf, hn⟩ := folder_of_locateFrom h
    rw [locateFrom_cons hf hn] at h
    rw [locateFrom_cons ((hs.folder place).1 hf) (hs.searchRefusal? place part ▸ hn)]
    split_ifs at h ⊢
    · exact ih h
    · exact ih h
    · exact ih h

theorem SameFolders.locate (hs : t.SameFolders t') (h : t.locate path = .ok p) :
    t'.locate path = .ok p := by
  obtain ⟨parts, hp, hl⟩ := locate_eq_ok_iff.1 h
  exact locate_eq_ok_iff.2 ⟨parts, hp, hs.locateFrom hl⟩

/-- What a tree has at the place that a path leads to, if it leads to one, the other tree has too
when it is the same at all these places. -/
theorem SameFolders.bind_locate {α : Type} (hs : t.SameFolders t') {f g : Place → Option α}
    (h : ∀ p, t.locate path = .ok p → f p = g p) :
    (t.locate path).toOption.bind f = (t'.locate path).toOption.bind g := by
  cases hp : t.locate path with
  | ok p =>
    rw [hs.locate hp]
    exact h p hp
  | error e =>
    cases hn : t'.locate path with
    | error e => rfl
    | ok p => exact absurd (hs.symm.locate hn) (by rw [hp]; exact nofun)

end Folders

section Written

theorem getElem?_withFile (p : Place) :
    (t.withFile place bytes).entries[p]? =
      if p = place then some (.file bytes) else t.entries[p]? := by
  rw [withFile, Std.ExtTreeMap.getElem?_insert]
  simp only [Std.LawfulEqOrd.compare_eq_iff_eq, @eq_comm _ place]

theorem entry?_withFile (h : t.entry? place ≠ some .folder) (p : Place) :
    entry? (t.withFile place bytes) p = if p = place then some (.file bytes) else t.entry? p := by
  -- The places that are always folders are not written at.
  have hplace : ¬(place = ["/"] ∨ place.all (· == "..")) := fun hf => h (if_pos hf)
  unfold entry?
  rw [getElem?_withFile]
  split_ifs with hp he
  · exact absurd (he ▸ hp) hplace
  · rfl
  · rfl
  · rfl

theorem refusal?_withFile (t : FileTree) (place : Place) (bytes : ByteArray) (access : Access)
    (p : Place) : (t.withFile place bytes).refusal? access p =
      if access = .read ∧ p = place then none else t.refusal? access p := rfl

theorem sameFolders_withFile (h : t.entry? place ≠ some .folder) :
    t.SameFolders (t.withFile place bytes) where
  folder p := by
    rw [entry?_withFile h]
    split_ifs with he
    · rw [he]
      exact iff_of_false h nofun
    · exact Iff.rfl
  search p := by rw [refusal?_withFile, if_neg fun hr => nomatch hr.1]

/-- Writing a file does not change where files are written. -/
theorem target_withFile (h : t.entry? place ≠ some .folder) :
    (t.withFile place bytes).target path = .ok p ↔ t.target path = .ok p := by
  have hs : t.SameFolders (t.withFile place bytes) := sameFolders_withFile h
  have hw (p : Place) : (t.withFile place bytes).refusal? .write p = t.refusal? .write p := by
    rw [refusal?_withFile, if_neg fun hr => nomatch hr.1]
  rw [target_eq_ok_iff, target_eq_ok_iff]
  refine exists_congr fun parts => and_congr_right fun _ => and_congr_right fun _ => ?_
  rw [writeRefusal?_eq_none_iff, writeRefusal?_eq_none_iff, hw, Ne, ← hs.folder p]
  exact and_congr_left fun _ => ⟨hs.symm.locateFrom, hs.locateFrom⟩

theorem withFile_withFile (t : FileTree) (place : Place) (bytes bytes' : ByteArray) :
    (t.withFile place bytes).withFile place bytes' = t.withFile place bytes' := by
  refine FileTree.ext (Std.ExtTreeMap.ext_getElem? fun p => ?_)
    (funext fun access => funext fun p => ?_)
  · simp only [getElem?_withFile]
    split_ifs <;> rfl
  · simp only [refusal?_withFile]
    split_ifs <;> rfl

/-- A file is found at every path to its place. -/
theorem find?_withFile_self (h : t.entry? place ≠ some .folder) (hl : t.locate path = .ok place) :
    (t.withFile place bytes).find? path = some (.file bytes) := by
  rw [find?, (sameFolders_withFile h).locate hl, Except.toOption, Option.bind_some,
    entry?_withFile h, if_pos rfl]

/-- At the other paths there is what was there before. -/
theorem find?_withFile_of_ne (h : t.entry? place ≠ some .folder) (hl : t.locate path ≠ .ok place) :
    (t.withFile place bytes).find? path = t.find? path := by
  refine ((sameFolders_withFile h).bind_locate fun p hp => ?_).symm
  have hne : p ≠ place := fun he => hl (he ▸ hp)
  rw [entry?_withFile h, if_neg hne]

theorem readRefusal?_withFile_of_ne (h : t.entry? place ≠ some .folder)
    (hl : t.locate path ≠ .ok place) :
    (t.withFile place bytes).readRefusal? path = t.readRefusal? path := by
  refine ((sameFolders_withFile h).bind_locate fun p hp => ?_).symm
  have hne : p ≠ place := fun he => hl (he ▸ hp)
  rw [refusal?_withFile, if_neg fun he => hne he.2]

theorem readText_eq_ok_iff : t.readText path = .ok text ↔
    ∃ place bytes, t.locate path = .ok place ∧ t.entry? place = some (.file bytes) ∧
      t.refusal? .read place = none ∧ String.fromUTF8? bytes = some text := by
  rw [readText, bind_eq_ok_iff]
  refine exists_congr fun place => ?_
  rw [exists_and_left]
  refine and_congr_right fun _ => ?_
  rcases t.entry? place with - | bytes | -
  · exact iff_of_false nofun fun ⟨_, h, _⟩ => nomatch h
  · rcases t.refusal? .read place with - | e
    · dsimp only [Entry.read, Entry.text]
      cases hb : String.fromUTF8? bytes <;> simp [hb]
    · exact iff_of_false nofun fun ⟨_, _, h, _⟩ => nomatch h
  · rcases t.refusal? .read place with - | e <;> exact iff_of_false nofun fun ⟨_, h, _⟩ => nomatch h

/-- A text that is written at a path is read at every path to the same place. -/
theorem readText_withFile (h : t.entry? place ≠ some .folder) (hl : t.locate path = .ok place) :
    (t.withFile place text.toUTF8).readText path = .ok text :=
  readText_eq_ok_iff.2 ⟨place, _, (sameFolders_withFile h).locate hl,
    (entry?_withFile h place).trans (if_pos rfl), if_pos ⟨rfl, rfl⟩,
    dif_pos text.isValidUTF8⟩

end Written

section Refused

variable {e : IoError} {access : Access}

theorem refusal?_refuse (t : FileTree) (access : Access) (place : Place) (e : IoError) (a : Access)
    (p : Place) : (t.refuse access place e).refusal? a p =
      if a = access ∧ p = place then some e else t.refusal? a p := rfl

/-- The way to a place does not depend on what is refused there, unless it is searching. -/
theorem sameFolders_refuse (h : access ≠ .search) :
    t.SameFolders (t.refuse access place e) where
  folder _ := Iff.rfl
  search p := by rw [refusal?_refuse, if_neg fun hr => h hr.1.symm]

theorem target_refuse (h : t.target path = .ok place) :
    (t.refuse .write place e).target path = .error e := by
  obtain ⟨parts, hp, hlast, hl, hn⟩ := target_eq_ok_iff.1 h
  have hl' : (t.refuse .write place e).locateFrom [] parts = .ok place :=
    (sameFolders_refuse (by decide)).locateFrom hl
  have hr : (t.refuse .write place e).writeRefusal? place = some e := by
    unfold writeRefusal?
    split
    · next hf => exact absurd hf (writeRefusal?_eq_none_iff.1 hn).1
    · exact if_pos ⟨rfl, rfl⟩
  simp only [target, hp, locateFile, if_neg hlast, hl', bind, Except.bind, hr]
  rfl

theorem readText_refuse {entry : Entry} (hl : t.locate path = .ok place)
    (he : t.entry? place = some entry) :
    (t.refuse .read place e).readText path = .error e := by
  have hl' : (t.refuse .read place e).locate path = .ok place :=
    (sameFolders_refuse (by decide)).locate hl
  have he' : entry? (t.refuse .read place e) place = some entry := he
  have hr : (t.refuse .read place e).refusal? .read place = some e := if_pos ⟨rfl, rfl⟩
  simp only [readText, hl', bind, Except.bind, he', hr, Entry.read]

/-- A file that must not be written can still be read. -/
theorem readText_refuse_write (h : t.readText path = .ok text) (p : Place) :
    (t.refuse .write p e).readText path = .ok text := by
  obtain ⟨place, bytes, hl, he, hr, hb⟩ := readText_eq_ok_iff.1 h
  have hr' : (t.refuse .write p e).refusal? .read place = none := by
    rwa [refusal?_refuse, if_neg (by simp)]
  exact readText_eq_ok_iff.2
    ⟨place, bytes, (sameFolders_refuse (by decide)).locate hl, he, hr', hb⟩

end Refused

end FileTree

end FormulaSheet
