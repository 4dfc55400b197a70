import Mathlib
import FormulaSheet.Proofs.CommandLine.Session
import FormulaSheet.Proofs.Sheet.Unsaved

namespace FormulaSheet.CommandLine

variable {command : Command} {user : UserConfig} {files : FileTree} {sheet : Sheet} {path : String}
  {paths args : List String} {c : Console}

/-- What saving at several paths does, whether it succeeds or not: nothing is printed, and a file
that differs afterwards was written at one of the paths. -/
structure Saved {α : Type} (paths : List String) (c : Console)
    (outcome : Except Failure α × Console) : Prop where
  out : outcome.2.out = c.out
  files : ∀ place, outcome.2.files.entries[place]? = c.files.entries[place]? ∨
    ∃ path ∈ paths, c.files.target path = .ok place ∧
      ∃ bytes, outcome.2.files.entries[place]? = some (.file bytes)
  failure : ∀ e, outcome.1 = .error e → ∃ path ∈ paths, ∃ cause, e = .saveFailed path cause ∧
    ∀ place, c.files.target path ≠ .ok place

theorem saved_saveAll (paths : List String) (sheet : Sheet) (c : Console) :
    Saved paths c ((paths.foldlM saveAt sheet).run.run c) := by
  induction paths generalizing sheet c with
  | nil => exact ⟨rfl, fun _ => .inl rfl, nofun⟩
  | cons path paths ih =>
    rw [List.foldlM_cons]
    cases ht : c.files.target path with
    | error e =>
      rw [run_bind_error (run_saveAt_error ht sheet)]
      refine ⟨rfl, fun _ => .inl rfl, ?_⟩
      rintro _ ⟨⟩
      exact ⟨path, List.mem_cons_self, _, rfl, by rw [ht]; exact nofun⟩
    | ok place =>
      rw [run_bind_ok (run_saveAt ht sheet)]
      -- Where the other paths lead, and whether they may be written at, is as it was before.
      have hw := FileTree.not_folder_of_target ht
      have h := ih { sheet with changed := false }
        { c with files := c.files.withFile place sheet.toFile.render.toUTF8 }
      refine ⟨h.out, fun p => ?_, fun e he => ?_⟩
      · rcases h.files p with hp | ⟨q, hq, hp, hbytes⟩
        · rw [FileTree.getElem?_withFile] at hp
          split_ifs at hp with he
          · exact .inr ⟨path, List.mem_cons_self, he ▸ ht, _, hp⟩
          · exact .inl hp
        · exact .inr ⟨q, List.mem_cons_of_mem path hq, (FileTree.target_withFile hw).1 hp, hbytes⟩
      · obtain ⟨q, hq, cause, he, hn⟩ := h.failure e he
        refine ⟨q, List.mem_cons_of_mem path hq, cause, he, fun p hp => hn p ?_⟩
        exact (FileTree.target_withFile hw).2 hp

/-- Where the first file cannot be written, no other one is. -/
theorem run_saveAll_of_not_target (h : ∀ place, c.files.target path ≠ .ok place) :
    ∃ e, ((path :: paths).foldlM saveAt sheet).run.run c = (.error e, c) := by
  cases ht : c.files.target path with
  | ok place => exact absurd ht (h place)
  | error e => exact ⟨_, run_bind_error (run_saveAt_error ht sheet)⟩

theorem run_save (command : Command) (sheet : Sheet) (c : Console) :
    (save command sheet).run.run c =
      match (command.targets.foldlM saveAt sheet).run.run c with
      | (.ok _, c) => (.ok (), c)
      | (.error e, c) => (.error e, c) := by
  rw [save_eq]
  rcases hs : (command.targets.foldlM saveAt sheet).run.run c with ⟨e | sheet', c'⟩
  · exact run_bind_error hs
  · exact run_bind_ok hs

theorem mem_targets_iff : path ∈ command.targets ↔
    command.write = true ∧ command.file = some path ∨ command.output = some path := by
  unfold Command.targets
  rw [List.mem_append]
  cases command.write <;> simp

theorem saved_save (command : Command) (sheet : Sheet) (c : Console) :
    Saved command.targets c ((save command sheet).run.run c) := by
  have h := saved_saveAll command.targets sheet c
  rw [run_save]
  rcases hs : (command.targets.foldlM saveAt sheet).run.run c with ⟨e | sheet', c'⟩ <;> rw [hs] at h
  · exact ⟨h.out, h.files, fun e' he => h.failure e' (congrArg _ (Except.error.inj he))⟩
  · exact ⟨h.out, h.files, nofun⟩

/-- If the file of a session cannot be saved, the other one is not saved either. -/
theorem save_of_saveFailed {cause : SheetError} (hw : command.write = true)
    (hp : command.file = some path)
    (h : ((save command sheet).run.run c).1 = .error (.saveFailed path cause)) :
    ((save command sheet).run.run c).2 = c := by
  have ht : command.targets = path :: command.output.toList := by
    rw [Command.targets, hw, hp]
    rfl
  obtain ⟨path', -, cause', he, hn⟩ := (saved_save command sheet c).failure _ h
  obtain ⟨rfl, -⟩ := Failure.saveFailed.inj he
  obtain ⟨e, hs⟩ := run_saveAll_of_not_target hn
  rw [run_save, ht, hs]

section Session

variable {e : Failure} {cause : SheetError}

/-- A session ends before it prints and saves anything, or it comes to saving. -/
theorem session_cases (command : Command) (user : UserConfig) (files : FileTree) :
    (∃ e err, (session command user).run.run { files } = (.error e, { err, files })) ∨
    ∃ sheet text err, (session command user).run.run { files } =
      (save command sheet).run.run { out := text, err, files } := by
  obtain ⟨err, hs⟩ := run_session command user files
  rw [hs]
  rcases command.prepare user files with e | ⟨sheet, text⟩
  · exact .inl ⟨e, err, rfl⟩
  · exact .inr ⟨sheet, text, err, rfl⟩

theorem session_failed (h : ((session command user).run.run { files }).1 = .error e)
    (he : ∀ path cause, e ≠ .saveFailed path cause) :
    ((session command user).run.run { files }).2.out = "" ∧
      ((session command user).run.run { files }).2.files = files := by
  rcases session_cases command user files with ⟨e', err, hs⟩ | ⟨sheet, text, err, hs⟩
  · rw [hs]
    exact ⟨rfl, rfl⟩
  · rw [hs] at h
    obtain ⟨path, -, cause, hf, -⟩ := (saved_save command sheet _).failure e h
    exact absurd hf (he path cause)

theorem session_files (command : Command) (user : UserConfig) (files : FileTree) (place : Place) :
    ((session command user).run.run { files }).2.files.entries[place]? = files.entries[place]? ∨
    ∃ path ∈ command.targets, files.target path = .ok place ∧
      ∃ bytes, ((session command user).run.run { files }).2.files.entries[place]? =
        some (.file bytes) := by
  rcases session_cases command user files with ⟨e, err, hs⟩ | ⟨sheet, text, err, hs⟩
  · rw [hs]
    exact .inl rfl
  · rw [hs]
    exact (saved_save command sheet _).files place

theorem session_saveFailed (hw : command.write = true) (hp : command.file = some path)
    (h : ((session command user).run.run { files }).1 = .error (.saveFailed path cause)) :
    ((session command user).run.run { files }).2.files = files := by
  rcases session_cases command user files with ⟨e, err, hs⟩ | ⟨sheet, text, err, hs⟩
  · rw [hs]
  · rw [hs] at h ⊢
    rw [save_of_saveFailed hw hp h]

end Session

theorem failure?_of_command (h : Command.ofArgs {} args = .ok command) {e : Failure} :
    failure? args files user = some e ↔
      ((session command user).run.run { files }).1 = .error e := by
  unfold failure?
  rw [h]
  dsimp only
  rcases (session command user).run.run { files } with ⟨e' | ⟨⟩, c⟩
  · simp
  · simp

theorem run_of_refusal {refusal : Refusal} (h : Command.ofArgs {} args = .error refusal) :
    run args files user = ⟨refusal.code, { err := refusal.message, files }⟩ := by
  rw [run, h]

theorem run_of_command (h : Command.ofArgs {} args = .ok command) (files : FileTree)
    (user : UserConfig) :
    (run args files user).console.out = ((session command user).run.run { files }).2.out ∧
      (run args files user).console.files = ((session command user).run.run { files }).2.files ∧
      ((run args files user).code = 0 ↔ ((session command user).run.run { files }).1 = .ok ()) := by
  unfold run
  rw [h]
  dsimp only
  rcases (session command user).run.run { files } with ⟨e | ⟨⟩, c⟩
  · exact ⟨rfl, rfl, iff_of_false nofun nofun⟩
  · exact ⟨rfl, rfl, iff_of_true rfl rfl⟩

theorem code_of_failure? {e : Failure} (h : failure? args files user = some e) :
    (run args files user).code = 1 := by
  unfold failure? at h
  unfold run
  cases ha : Command.ofArgs {} args with
  | error refusal =>
    rw [ha] at h
    cases h
  | ok command =>
    rw [ha] at h
    dsimp only at h ⊢
    rcases hs : (session command user).run.run { files } with ⟨e' | ⟨⟩, c⟩
    · rfl
    · rw [hs] at h
      cases h

/-- A session starts from the sheet that is saved in its file. -/
theorem opened_of_readText {options : Options} (hp : command.file = some path)
    (hr : Sheet.Reachable options sheet) (hi : options.naming.Idempotent)
    (h : files.readText path = .ok sheet.toFile.render) :
    command.opened options files = .ok { sheet with changed := false } := by
  obtain ⟨place, bytes, hl, he, -, -⟩ := FileTree.readText_eq_ok_iff.1 h
  have hfind : files.find? path = some (.file bytes) := by
    rw [FileTree.find?, hl]
    exact he
  have ho : Sheet.openAt files options path = .ok { sheet with changed := false } :=
    Sheet.openAt_eq_ok_iff.2 ⟨_, _, h, sheet.read?_toFile, hr.ofFile_toFile hi⟩
  rw [Command.opened, hp]
  dsimp only
  rw [hfind, ho]
  rfl

/-- A file that is there and cannot be read ends a run, unlike one that is not there. -/
theorem failure?_of_unreadable (ha : Command.ofArgs {} args = .ok command)
    (hp : command.file = some path) (hf : files.find? path ≠ none) {e : IoError}
    (hr : files.readText path = .error e) :
    failure? args files user = some (.openFailed path (.io path e)) := by
  have hprepare : command.prepare user files = .error (.openFailed path (.io path e)) := by
    have hopened (options : Options) :
        command.opened options files = .error (.openFailed path (.io path e)) := by
      rw [Command.opened, hp]
      dsimp only
      rw [if_neg (by rwa [Option.isNone_iff_eq_none]), Sheet.openAt, hr]
      rfl
    rw [Command.prepare, hp, Option.isNone_some, Bool.and_false, Command.edited, hopened]
    rfl
  obtain ⟨err, hs⟩ := run_session command user files
  rw [failure?_of_command ha, hs, hprepare]

/-- Where nothing else is wrong, a run fails if its file cannot be written. -/
theorem failure?_of_unwritable (ha : Command.ofArgs {} args = .ok command)
    (hw : command.write = true) (hp : command.file = some path)
    (hedited : command.edited (command.sheetOptions user files) files = .ok sheet) {text : String}
    (hshown : shown sheet command.deps = .ok text) {e : IoError}
    (ht : files.target path = .error e) :
    failure? args files user = some (.saveFailed path (.io path e)) := by
  have hprepare : command.prepare user files = .ok (sheet, text) := by
    rw [Command.prepare, hp, Option.isNone_some, Bool.and_false, hedited]
    exact congrArg (Except.map _) hshown
  have htargets : command.targets = path :: command.output.toList := by
    rw [Command.targets, hw, hp]
    rfl
  obtain ⟨err, hs⟩ := run_session command user files
  rw [failure?_of_command ha, hs, hprepare]
  dsimp only
  rw [run_save, htargets, List.foldlM_cons, run_bind_error (run_saveAt_error ht sheet)]

example : (Failure.saveFailed "f" (.io "f" .readOnly)).messages =
    ["Failed to save f", "IO error on f: Read-only file system (os error 30)",
      "Read-only file system (os error 30)"] := by decide

/-- A run that fails for another reason than a failed save prints and saves nothing. No run changes
other files than those that it is told to save, and if the first of these cannot be saved, the other
one is not saved either. -/
theorem run_saves (args : List String) (files : FileTree) (user : UserConfig) :
    ((run args files user).code ≠ 0 →
      (∀ path cause, failure? args files user ≠ some (.saveFailed path cause)) →
      (run args files user).console.out = "" ∧ (run args files user).console.files = files) ∧
    (∀ place, (run args files user).console.files.entries[place]? = files.entries[place]? ∨
      ∃ command path, Command.ofArgs {} args = .ok command ∧
        (command.write = true ∧ command.file = some path ∨ command.output = some path) ∧
        files.locate path = .ok place ∧
        ∃ bytes, (run args files user).console.files.entries[place]? = some (.file bytes)) ∧
    ∀ command path cause, Command.ofArgs {} args = .ok command → command.write = true →
      command.file = some path → failure? args files user = some (.saveFailed path cause) →
      (run args files user).console.files = files := by
  cases ha : Command.ofArgs {} args with
  | error refusal =>
    rw [run_of_refusal ha]
    exact ⟨fun _ _ => ⟨rfl, rfl⟩, fun _ => .inl rfl, fun _ _ _ hc => nomatch hc⟩
  | ok command =>
    obtain ⟨hout, hfiles, hcode⟩ := run_of_command ha files user
    rw [Ne, hout, hfiles, hcode]
    refine ⟨fun hc hf => ?_, fun place => ?_, fun _ path cause hcommand hw hp hf => ?_⟩
    · cases hr : ((session command user).run.run { files }).1 with
      | ok _ => exact absurd hr hc
      | error e =>
        refine session_failed hr fun path cause he => ?_
        rw [he] at hr
        exact hf path cause ((failure?_of_command ha).2 hr)
    · rcases session_files command user files place with h | ⟨path, hm, ht, hb⟩
      · exact .inl h
      · exact .inr ⟨command, path, rfl, mem_targets_iff.1 hm, FileTree.locate_of_target ht, hb⟩
    · cases hcommand
      exact session_saveFailed hw hp ((failure?_of_command ha).1 hf)

/-- Three runs that save nothing: one with an edit that is refused after another was accepted, one
on a file that cannot be read, and one on a file that can be read but not written. The last is told
to save the sheet in another file too. -/
theorem run_saves_refused :
    (failure? ["f", "-w", "-s", "A1=x", "-s", "B1==B1"] {} {} =
        some (.setFailed "B1" (.circular "B1" ["B1", "B1"])) ∧
      (run ["f", "-w", "-s", "A1=x", "-s", "B1==B1"] {} {}).code = 1 ∧
      (run ["f", "-w", "-s", "A1=x", "-s", "B1==B1"] {} {}).console.out = "" ∧
      (run ["f", "-w", "-s", "A1=x", "-s", "B1==B1"] {} {}).console.files = {}) ∧
    (∃ files, files.find? "f" = some (.file (Sheet.toFile {}).render.toUTF8) ∧
      failure? ["f", "-w", "-s", "A1=x"] files {} = some (.openFailed "f" (.io "f" .denied)) ∧
      (run ["f", "-w", "-s", "A1=x"] files {}).code = 1 ∧
      (run ["f", "-w", "-s", "A1=x"] files {}).console.out = "" ∧
      (run ["f", "-w", "-s", "A1=x"] files {}).console.files = files) ∧
    ∃ files, files.readText "f" = .ok (Sheet.toFile {}).render ∧
      failure? ["f", "-w", "-o", "g", "-s", "A1=x"] files {} =
        some (.saveFailed "f" (.io "f" .readOnly)) ∧
      (run ["f", "-w", "-o", "g", "-s", "A1=x"] files {}).code = 1 ∧
      (run ["f", "-w", "-o", "g", "-s", "A1=x"] files {}).console.files = files := by
  let text : String := (Sheet.toFile {}).render
  let saved : FileTree := FileTree.withFile {} ["f"] text.toUTF8
  have ht : FileTree.target {} "f" = .ok ["f"] := by cbv
  have hnf := FileTree.not_folder_of_target ht
  have hl : saved.locate "f" = .ok ["f"] :=
    (FileTree.sameFolders_withFile hnf).locate (FileTree.locate_of_target ht)
  have he : saved.entry? ["f"] = some (.file text.toUTF8) :=
    (FileTree.entry?_withFile hnf _).trans (if_pos rfl)
  refine ⟨?_, ?_, ?_⟩
  · have ha : Command.ofArgs {} ["f", "-w", "-s", "A1=x", "-s", "B1==B1"] =
        .ok { file := some "f", edits := ["A1=x", "B1==B1"], write := true } := by
      simp [Command.ofArgs, ValueOption.ofArg?, flag?, ValueOption.apply]
    have hs : ((session { file := some "f", edits := ["A1=x", "B1==B1"], write := true } {}).run.run
        { files := {} }).1 = .error (.setFailed "B1" (.circular "B1" ["B1", "B1"])) := by cbv
    have hf := (failure?_of_command ha).2 hs
    have hc := code_of_failure? hf
    refine ⟨hf, hc, (run_saves ["f", "-w", "-s", "A1=x", "-s", "B1==B1"] {} {}).1
      (hc ▸ Nat.one_ne_zero) fun path cause h => ?_⟩
    rw [hf] at h
    cases h
  · have ha : Command.ofArgs {} ["f", "-w", "-s", "A1=x"] =
        .ok { file := some "f", edits := ["A1=x"], write := true } := by
      simp [Command.ofArgs, ValueOption.ofArg?, flag?, ValueOption.apply]
    have hp : (saved.refuse .read ["f"] .denied).find? "f" = some (.file text.toUTF8) := by
      rw [FileTree.find?, (FileTree.sameFolders_refuse (by decide)).locate hl]
      exact he
    have hf : failure? ["f", "-w", "-s", "A1=x"] (saved.refuse .read ["f"] .denied) {} =
        some (.openFailed "f" (.io "f" .denied)) :=
      failure?_of_unreadable ha rfl (hp ▸ Option.some_ne_none _) (FileTree.readText_refuse hl he)
    have hc := code_of_failure? hf
    refine ⟨_, hp, hf, hc, (run_saves ["f", "-w", "-s", "A1=x"] _ {}).1
      (hc ▸ Nat.one_ne_zero) fun path cause h => ?_⟩
    rw [hf] at h
    cases h
  · let files : FileTree := saved.refuse .write ["f"] .readOnly
    let command : Command :=
      { file := some "f", edits := ["A1=x"], write := true, output := some "g" }
    have ha : Command.ofArgs {} ["f", "-w", "-o", "g", "-s", "A1=x"] = .ok command := by
      simp [command, Command.ofArgs, ValueOption.ofArg?, flag?, ValueOption.apply]
    have hr : files.readText "f" = .ok text := FileTree.readText_refuse_write
      (FileTree.readText_withFile hnf (FileTree.locate_of_target ht)) _
    have hentered : enter {} "A1=x" = .ok (Sheet.set {} "A1" "x").2 :=
      enter_eq_ok_iff.2 ⟨"A1", "x", ⟨["A1"], true⟩, by cbv, Prod.ext (by cbv) rfl⟩
    have hedited : command.edited (command.sheetOptions {} files) files =
        .ok (Sheet.set {} "A1" "x").2 :=
      bind_eq_ok_iff.2 ⟨{}, opened_of_readText rfl .empty (fun _ => rfl) hr,
        bind_eq_ok_iff.2 ⟨_, hentered, rfl⟩⟩
    have ht' : files.target "f" = .error .readOnly :=
      FileTree.target_refuse ((FileTree.target_withFile hnf).2 ht)
    have hf : failure? ["f", "-w", "-o", "g", "-s", "A1=x"] files {} =
        some (.saveFailed "f" (.io "f" .readOnly)) :=
      failure?_of_unwritable ha rfl rfl hedited rfl ht'
    exact ⟨files, hr, hf, code_of_failure? hf,
      (run_saves _ files {}).2.2 command "f" _ ha rfl rfl hf⟩

end FormulaSheet.CommandLine
