import Mathlib
import FormulaSheet.Proofs.CommandLine.Saving
import FormulaSheet.Proofs.Settings.Read
import FormulaSheet.Proofs.Sheet.Unsaved

namespace FormulaSheet

namespace Sheet

variable {s s' : Sheet} {name input : String} {r : Recalculation}

theorem refresh_changed (s : Sheet) (b : Bool) (n : String) :
    { s with changed := b }.refresh n = { s.refresh n with changed := b } := by
  unfold refresh
  dsimp only
  split <;> rfl

theorem refreshAll_changed (s : Sheet) (b : Bool) (names : List String) :
    names.foldl refresh { s with changed := b } = { names.foldl refresh s with changed := b } := by
  induction names generalizing s with
  | nil => rfl
  | cons n names ih => rw [List.foldl_cons, List.foldl_cons, refresh_changed, ih]

theorem store_changed (s : Sheet) (b : Bool) (n : String) (c : Content) :
    { s with changed := b }.store n c = { s.store n c with changed := b } := by
  unfold store
  split
  · rfl
  · split <;> rfl
  · rfl

theorem edited_changed (s : Sheet) (b : Bool) (n : String) (c : Content) (order : List String) :
    { s with changed := b }.edited n c order = s.edited n c order := by
  unfold edited
  dsimp only
  rw [store_changed { s with graph := s.graph.replaceDependees n c.reads }, refreshAll_changed]

/-- An accepted edit leads to the same sheet whether there was something to save before or not. -/
theorem set_changed (h : s.set name input = (.ok r, s')) (b : Bool) :
    { s with changed := b }.set name input = (.ok r, s') := by
  rcases s.set_cases name input with ⟨e, he⟩ | ⟨n, c, hn, hc, hp⟩
  · rw [he] at h
    cases h
  have hname : { s with changed := b }.cellName name = .ok n := hn
  rw [hp] at h
  cases ho : (s.graph.replaceDependees n c.reads).recalculationOrder n with
  | error e =>
    rw [put, ho] at h
    cases h
  | ok order =>
    have hput : { s with changed := b }.put n c =
      (.ok ⟨order, true⟩, { s with changed := b }.edited n c order) := put_of_ok ho
    rw [put_of_ok ho] at h
    rw [set, hname, hc]
    dsimp only
    rw [hput, edited_changed, h]

end Sheet

namespace CommandLine

variable {command : Command} {user : UserConfig} {options : Options} {files : FileTree}
  {sheet sheet' : Sheet} {path : String} {place : Place} {args xs ys : List String}

theorem enter_changed {edit : String} (h : enter sheet edit = .ok sheet') (b : Bool) :
    enter { sheet with changed := b } edit = .ok sheet' := by
  obtain ⟨cell, input, r, he, hs⟩ := enter_eq_ok_iff.1 h
  exact enter_eq_ok_iff.2 ⟨cell, input, r, he, Sheet.set_changed hs b⟩

theorem foldlM_enter_changed {edits : List String} (h : edits.foldlM enter sheet = .ok sheet')
    (b : Bool) :
    ∃ b', edits.foldlM enter { sheet with changed := b } = .ok { sheet' with changed := b' } := by
  cases edits with
  | nil =>
    cases h
    exact ⟨b, rfl⟩
  | cons edit edits =>
    rw [List.foldlM_cons] at h
    obtain ⟨next, hn, h⟩ := bind_eq_ok_iff.1 h
    refine ⟨sheet'.changed, ?_⟩
    rw [List.foldlM_cons, enter_changed hn]
    exact h

structure Command.Updates (command : Command) (path : String) : Prop where
  file : command.file = some path
  write : command.write = true
  output : command.output = none
  deps : command.deps = none

theorem Command.Updates.withEdits (h : command.Updates path) (edits : List String) :
    Command.Updates { command with edits } path :=
  ⟨h.file, h.write, h.output, h.deps⟩

theorem Command.Updates.prepare_eq (h : command.Updates path) :
    command.prepare user files =
      (command.edited (command.sheetOptions user files) files).map fun sheet =>
        (sheet, listing sheet) := by
  rw [Command.prepare, h.write, h.file, h.deps]
  cases command.edited (command.sheetOptions user files) files <;> rfl

section Updates

variable (h : command.Updates path) (ha : Command.ofArgs {} args = .ok command)
include h

theorem Command.Updates.targets_eq : command.targets = [path] := by
  rw [Command.targets, h.write, h.file, h.output]
  rfl

include ha

/-- A run that updates a file prints the sheet after the edits, and then it is in the file. -/
theorem Command.Updates.run_eq
    (he : command.edited (command.sheetOptions user files) files = .ok sheet)
    (ht : files.target path = .ok place) :
    (run args files user).code = 0 ∧ (run args files user).console.out = listing sheet ∧
      (run args files user).console.files =
        files.withFile place sheet.toFile.render.toUTF8 := by
  obtain ⟨hout, hfiles, hcode⟩ := run_of_command ha files user
  obtain ⟨err, hs⟩ := run_session command user files
  rw [h.prepare_eq, he] at hs
  dsimp only [Except.map] at hs
  rw [run_save, h.targets_eq, List.foldlM_cons, run_bind_ok (run_saveAt ht sheet)] at hs
  rw [hout, hfiles, hcode, hs]
  exact ⟨rfl, rfl, rfl⟩

theorem Command.Updates.exists_of_code (hc : (run args files user).code = 0) :
    ∃ sheet place, command.edited (command.sheetOptions user files) files = .ok sheet ∧
      files.target path = .ok place := by
  have hok := (run_of_command ha files user).2.2.1 hc
  obtain ⟨err, hs⟩ := run_session command user files
  rw [hs, h.prepare_eq] at hok
  cases he : command.edited (command.sheetOptions user files) files with
  | error e =>
    rw [he] at hok
    cases hok
  | ok sheet =>
    rw [he] at hok
    dsimp only [Except.map] at hok
    cases ht : files.target path with
    | error e =>
      rw [run_save, h.targets_eq, List.foldlM_cons,
        run_bind_error (run_saveAt_error ht sheet)] at hok
      cases hok
    | ok place => exact ⟨sheet, place, rfl, rfl⟩

end Updates

/-- Saving a sheet does not change the settings, not even where they are read from the same file:
there are none in it, neither before nor afterwards. -/
theorem settings_saved {options : Options} (hf : command.file = some path)
    (h : command.opened options files = .ok sheet) (ht : files.target path = .ok place)
    (saved : Sheet) :
    command.settings user (files.withFile place saved.toFile.render.toUTF8) =
      command.settings user files := by
  have hfolder := FileTree.not_folder_of_target ht
  have hlocate := FileTree.locate_of_target ht
  unfold Command.settings Command.source
  cases command.config with
  | none => rfl
  | some config =>
    dsimp only
    by_cases hl : files.locate config = .ok place
    · have hsame : files.find? config = files.find? path := by
        rw [FileTree.find?, FileTree.find?, hl, hlocate]
      have hbefore : (Settings.load (.named config (files.find? config)
          (files.readRefusal? config))).1 = {} := by
        rw [hsame]
        rcases opened_cases h with ⟨-, hn⟩ | ⟨_, hp, ho⟩
        · rw [hn path hf]
          rfl
        · obtain rfl := Option.some_inj.1 (hf.symm.trans hp)
          obtain ⟨text, file, ht, hr, -⟩ := Sheet.openAt_eq_ok_iff.1 ho
          obtain ⟨_, bytes, hp, hb, -, hu⟩ := FileTree.readText_eq_ok_iff.1 ht
          rw [FileTree.find?, hp, Except.toOption, Option.bind_some, hb]
          exact Settings.load_sheet hu hr _
      have hafter (refusal? : Option IoError) : (Settings.load (.named config
          (some (.file saved.toFile.render.toUTF8)) refusal?)).1 = {} :=
        Settings.load_sheet (dif_pos saved.toFile.render.isValidUTF8) saved.read?_toFile _
      rw [FileTree.find?_withFile_self hfolder hl, hbefore, hafter]
    · rw [FileTree.find?_withFile_of_ne hfolder hl,
        FileTree.readRefusal?_withFile_of_ne hfolder hl]

/-- Once a sheet is saved, a session starts from it. -/
theorem opened_saved {options : Options} (hf : command.file = some path)
    (hr : Sheet.Reachable options sheet) (hi : options.naming.Idempotent)
    (ht : files.target path = .ok place) :
    command.opened options (files.withFile place sheet.toFile.render.toUTF8) =
      .ok { sheet with changed := false } :=
  opened_of_readText hf hr hi (FileTree.readText_withFile
    (FileTree.not_folder_of_target ht) (FileTree.locate_of_target ht))

/-- A run of edits that succeeds can be split: the runs of the two parts, one after the other,
succeed too, leave the same files, and the second prints what the run of all edits prints: the sheet
after these edits, which is then in the file. -/
theorem run_append {argsX argsY : List String} (h : command.Updates path)
    (ha : Command.ofArgs {} args = .ok { command with edits := xs ++ ys })
    (hx : Command.ofArgs {} argsX = .ok { command with edits := xs })
    (hy : Command.ofArgs {} argsY = .ok { command with edits := ys })
    (hc : (run args files user).code = 0) :
    (run argsX files user).code = 0 ∧
      (run argsY (run argsX files user).console.files user).code = 0 ∧
      (run argsY (run argsX files user).console.files user).console.files =
        (run args files user).console.files ∧
      (run argsY (run argsX files user).console.files user).console.out =
        (run args files user).console.out ∧
      ∃ sheet, Command.edited { command with edits := xs ++ ys }
          (command.sheetOptions user files) files = .ok sheet ∧
        (run args files user).console.out = listing sheet ∧
        (run args files user).console.files.readText path = .ok sheet.toFile.render := by
  obtain ⟨last, place, he, ht⟩ := (h.withEdits (xs ++ ys)).exists_of_code ha hc
  obtain ⟨opened, hopened, hedits⟩ := bind_eq_ok_iff.1 he
  rw [List.foldlM_append] at hedits
  obtain ⟨middle, hmiddle, hlast⟩ := bind_eq_ok_iff.1 hedits
  -- The first run stops in the middle, where nothing is wrong yet.
  have hex : Command.edited { command with edits := xs } (command.sheetOptions user files) files =
      .ok middle := bind_eq_ok_iff.2 ⟨opened, hopened, hmiddle⟩
  obtain ⟨hcx, -, hfx⟩ := (h.withEdits xs).run_eq hx hex ht
  rw [hfx]
  -- The second one goes on with the sheet that was saved, under the same options.
  let saved := files.withFile place middle.toFile.render.toUTF8
  have hoptions : command.sheetOptions user saved = command.sheetOptions user files := by
    rw [Command.sheetOptions, settings_saved h.file hopened ht, Command.sheetOptions]
  have hresumed : command.opened (command.sheetOptions user saved) saved =
      .ok { middle with changed := false } := by
    rw [hoptions]
    exact opened_saved h.file (reachable_edited hex)
      (idempotent_sheetOptions command user files) ht
  obtain ⟨b, hb⟩ := foldlM_enter_changed hlast false
  have hey : Command.edited { command with edits := ys } (command.sheetOptions user saved) saved =
      .ok { last with changed := b } := bind_eq_ok_iff.2 ⟨_, hresumed, hb⟩
  have hty : saved.target path = .ok place :=
    (FileTree.target_withFile (FileTree.not_folder_of_target ht)).2 ht
  obtain ⟨hcy, houty, hfy⟩ := (h.withEdits ys).run_eq hy hey hty
  obtain ⟨-, hout, hf⟩ := (h.withEdits (xs ++ ys)).run_eq ha he ht
  refine ⟨hcx, hcy, ?_, ?_, last, he, hout, ?_⟩
  · rw [hfy, hf]
    exact FileTree.withFile_withFile ..
  · rw [houty, hout]
    rfl
  · rw [hf]
    exact FileTree.readText_withFile (FileTree.not_folder_of_target ht)
      (FileTree.locate_of_target ht)

/-- Between the two runs, the file holds a formula over a cell that is still empty. -/
theorem run_append_two :
    (run ["f", "-w", "-s", "A1==B1"] {} {}).code = 0 ∧
    (run ["f", "-w", "-s", "B1=x"] (run ["f", "-w", "-s", "A1==B1"] {} {}).console.files {}).code =
      0 ∧
    (run ["f", "-w", "-s", "B1=x"] (run ["f", "-w", "-s", "A1==B1"] {} {}).console.files
        {}).console.out = "A1\t=B1\t#ERR: B1 is not a number\nB1\tx\tx\n" ∧
    (run ["f", "-w", "-s", "B1=x"] (run ["f", "-w", "-s", "A1==B1"] {} {}).console.files
        {}).console.files.readText "f" =
      .ok (SheetFile.render ⟨[("A1", "=B1"), ("B1", "x")], "default", by decide⟩) := by
  have h : Command.Updates { file := some "f", write := true } "f" := ⟨rfl, rfl, rfl, rfl⟩
  have ha : Command.ofArgs {} ["f", "-w", "-s", "A1==B1", "-s", "B1=x"] =
      .ok { file := some "f", write := true, edits := ["A1==B1"] ++ ["B1=x"] } := by
    simp [Command.ofArgs, ValueOption.ofArg?, flag?, ValueOption.apply]
  have hx : Command.ofArgs {} ["f", "-w", "-s", "A1==B1"] =
      .ok { file := some "f", write := true, edits := ["A1==B1"] } := by
    simp [Command.ofArgs, ValueOption.ofArg?, flag?, ValueOption.apply]
  have hy : Command.ofArgs {} ["f", "-w", "-s", "B1=x"] =
      .ok { file := some "f", write := true, edits := ["B1=x"] } := by
    simp [Command.ofArgs, ValueOption.ofArg?, flag?, ValueOption.apply]
  obtain ⟨between, hbetween⟩ : ∃ s, Sheet.set {} "A1" "=B1" = (.ok ⟨["A1"], true⟩, s) :=
    ⟨_, Prod.ext (by cbv) rfl⟩
  obtain ⟨last, hlast⟩ : ∃ s, between.set "B1" "x" = (.ok ⟨["B1", "A1"], true⟩, s) := by
    obtain rfl : (Sheet.set {} "A1" "=B1").2 = between := congrArg Prod.snd hbetween
    exact ⟨_, Prod.ext (by cbv) rfl⟩
  have hedits : (["A1==B1"] ++ ["B1=x"]).foldlM enter {} = .ok last := by
    refine bind_eq_ok_iff.2 ⟨between, ?_, bind_eq_ok_iff.2 ⟨last, ?_, rfl⟩⟩
    · exact enter_eq_ok_iff.2 ⟨"A1", "=B1", _, by cbv, hbetween⟩
    · exact enter_eq_ok_iff.2 ⟨"B1", "x", _, by cbv, hlast⟩
  have hopened : Command.opened { file := some "f", write := true, edits := ["A1==B1"] ++ ["B1=x"] }
      (Command.sheetOptions { file := some "f", write := true } {} {}) {} = .ok {} := by
    have hnone : FileTree.find? {} "f" = none := by cbv
    rw [Command.opened]
    dsimp only
    rw [hnone]
    rfl
  have he : Command.edited { file := some "f", write := true, edits := ["A1==B1"] ++ ["B1=x"] }
      (Command.sheetOptions { file := some "f", write := true } {} {}) {} = .ok last :=
    bind_eq_ok_iff.2 ⟨{}, hopened, hedits⟩
  have ht : FileTree.target {} "f" = .ok ["f"] := by cbv
  obtain ⟨hcx, hcy, hfiles, hout, sheet, hs, hlisting, hread⟩ :=
    run_append h ha hx hy ((h.withEdits _).run_eq ha he ht).1
  obtain rfl : last = sheet := Except.ok.inj (he.symm.trans hs)
  obtain rfl : ((Sheet.set {} "A1" "=B1").2.set "B1" "x").2 = last := by rw [hbetween, hlast]
  have hcells : ((Sheet.set {} "A1" "=B1").2.set "B1" "x").2.cells.toList =
      [("A1", .formula ⟨[.name "B1"]⟩ (.error (.notNumber "B1"))), ("B1", .text "x")] := by cbv
  have hfile : ((Sheet.set {} "A1" "=B1").2.set "B1" "x").2.toFile =
      ⟨[("A1", "=B1"), ("B1", "x")], "default", by decide⟩ := by
    cbv
  refine ⟨hcx, hcy, ?_, ?_⟩
  · rw [hout, hlisting, listing, hcells]
    decide
  · rw [hfiles, hread, hfile]

end CommandLine

end FormulaSheet
