import Mathlib
import FormulaSheet.CommandLine.Session
import FormulaSheet.Proofs.Except
import FormulaSheet.Proofs.FileTree
import FormulaSheet.Proofs.Sheet.Reload

namespace FormulaSheet.CommandLine

section Steps

variable {α β σ : Type} {m : Session α} {f : α → Session β} {c : Console}

theorem run_get_bind {f : Console → Session β} :
    (get >>= f : Session β).run.run c = (f c).run.run c := rfl

/-- A step that leaves the console alone is a computation without it. -/
theorem run_bind_of_frame {x : Except Failure α} :
    m.run.run c = (x, c) → (m >>= f).run.run c =
      match x with
      | .ok a => (f a).run.run c
      | .error e => (.error e, c) := by
  intro h
  cases x with
  | ok a => exact run_bind_ok h
  | error e => exact run_bind_error h

theorem run_foldlM {step : σ → α → Session σ} {next : σ → α → Except Failure σ}
    (h : ∀ s a c, (step s a).run.run c = (next s a, c)) (xs : List α) (s : σ) (c : Console) :
    (xs.foldlM step s).run.run c = (xs.foldlM next s, c) := by
  induction xs generalizing s with
  | nil => rfl
  | cons x xs ih =>
    rw [List.foldlM_cons, List.foldlM_cons, run_bind_of_frame (h s x c)]
    cases next s x with
    | error e => rfl
    | ok s' => exact ih s'

/-- Steps that never fail. -/
theorem run_forM {step : α → Session Unit} {next : Console → α → Console} {xs : List α}
    (h : ∀ a ∈ xs, ∀ c, (step a).run.run c = (.ok (), next c a)) (c : Console) :
    (xs.forM step).run.run c = (.ok (), xs.foldl next c) := by
  induction xs generalizing c with
  | nil => rfl
  | cons x xs ih =>
    obtain ⟨hx, hxs⟩ := List.forall_mem_cons.1 h
    show (step x >>= fun _ => xs.forM step).run.run c = _
    rw [run_bind_ok (hx c), ih hxs]
    rfl

end Steps

variable {command : Command} {user : UserConfig} {options : Options} {files : FileTree}
  {sheet : Sheet} {path : String} {c : Console}

section Opening

def Command.source (command : Command) (user : UserConfig) (files : FileTree) : Settings.Source :=
  match command.config with
  | some path => .named path (files.find? path) (files.readRefusal? path)
  | none => .usual user.path user.entry user.refusal?

def Command.settings (command : Command) (user : UserConfig) (files : FileTree) : Settings :=
  if command.noConfig then {} else (Settings.load (command.source user files)).1

theorem foldl_warn (warnings : List Settings.Warning) (c : Console) :
    ∃ err, warnings.foldl (fun c w => { c with err := c.err ++ s!"Warning: {w.message}\n" }) c =
      { c with err } := by
  induction warnings generalizing c with
  | nil => exact ⟨c.err, rfl⟩
  | cons w warnings ih => exact ih _

/-- Settings never end a session; what is wrong with them is told on the side. -/
theorem run_settings (command : Command) (user : UserConfig) (c : Console) :
    ∃ err, (settings command user).run.run c =
      (.ok (command.settings user c.files), { c with err }) := by
  unfold settings Command.settings
  cases command.noConfig with
  | true => exact ⟨c.err, rfl⟩
  | false =>
    obtain ⟨err, he⟩ := foldl_warn (Settings.load (command.source user c.files)).2 c
    refine ⟨err, ?_⟩
    rw [if_neg Bool.false_ne_true, if_neg Bool.false_ne_true, run_get_bind, ← he]
    exact run_bind_ok (run_forM (fun _ _ _ => rfl) c)

def Command.opened (command : Command) (options : Options) (files : FileTree) :
    Except Failure Sheet :=
  match command.file with
  | none => .ok { options }
  | some path =>
    if (files.find? path).isNone then .ok { options }
    else (Sheet.openAt files options path).mapError (.openFailed path)

theorem run_openSheet (command : Command) (options : Options) (c : Console) :
    (openSheet command options).run.run c = (command.opened options c.files, c) := by
  unfold openSheet Command.opened
  rw [run_get_bind]
  cases command.file with
  | none => rfl
  | some path =>
    dsimp only
    cases (c.files.find? path).isNone with
    | true => rfl
    | false => cases Sheet.openAt c.files options path <;> rfl

/-- A session starts from an empty sheet if there is no file, else from the sheet in it. -/
theorem opened_cases (h : command.opened options files = .ok sheet) :
    (sheet = { options } ∧ ∀ path, command.file = some path → files.find? path = none) ∨
    ∃ path, command.file = some path ∧ Sheet.openAt files options path = .ok sheet := by
  unfold Command.opened at h
  cases hf : command.file with
  | none =>
    rw [hf] at h
    exact .inl ⟨(Except.ok.inj h).symm, nofun⟩
  | some path =>
    rw [hf] at h
    dsimp only at h
    split at h
    · next hn =>
      refine .inl ⟨(Except.ok.inj h).symm, ?_⟩
      rintro _ ⟨⟩
      exact Option.isNone_iff_eq_none.1 hn
    · refine .inr ⟨path, rfl, ?_⟩
      cases ho : Sheet.openAt files options path with
      | error e =>
        rw [ho] at h
        cases h
      | ok opened =>
        rw [ho] at h
        exact congrArg _ (Except.ok.inj h)

def enter (sheet : Sheet) (edit : String) : Except Failure Sheet :=
  match splitEdit edit with
  | none => .error (.invalidEdit edit)
  | some (cell, input) =>
    match sheet.set cell input with
    | (.ok _, sheet) => .ok sheet
    | (.error e, _) => .error (.setFailed cell e)

theorem run_applyEdit (sheet : Sheet) (edit : String) (c : Console) :
    (applyEdit sheet edit).run.run c = (enter sheet edit, c) := by
  unfold applyEdit enter
  rcases splitEdit edit with - | ⟨cell, input⟩
  · rfl
  · dsimp only
    rcases sheet.set cell input with ⟨e | r, sheet'⟩
    · rfl
    · rfl

theorem enter_eq_ok_iff {sheet' : Sheet} {edit : String} : enter sheet edit = .ok sheet' ↔
    ∃ cell input r,
      splitEdit edit = some (cell, input) ∧ sheet.set cell input = (.ok r, sheet') := by
  unfold enter
  rcases splitEdit edit with - | ⟨cell, input⟩
  · simp
  · dsimp only
    rcases hs : sheet.set cell input with ⟨e | r, s⟩
    · simp [hs]
    · simp [hs]

end Opening

section Printing

def cellLine (cell : String × Cell) : String :=
  s!"{cell.1}\t{cell.2.content.input}\t{cell.2.value.display}\n"

def listing (sheet : Sheet) : String := String.join (sheet.cells.toList.map cellLine)

theorem run_printCell {cell : String × Cell} (h : sheet.cells[cell.1]? = some cell.2)
    (hn : sheet.cellName cell.1 = .ok cell.1) (c : Console) :
    (printCell sheet cell.1).run.run c = (.ok (), { c with out := c.out ++ cellLine cell }) := by
  unfold printCell Sheet.contents Sheet.value
  rw [hn]
  simp only [Except.map, h]
  rfl

theorem foldl_print (cells : List (String × Cell)) (c : Console) :
    cells.foldl (fun c cell => { c with out := c.out ++ cellLine cell }) c =
      { c with out := c.out ++ String.join (cells.map cellLine) } := by
  induction cells generalizing c with
  | nil => simp
  | cons cell cells ih =>
    rw [List.foldl_cons, ih, List.map_cons, String.join_cons, String.append_assoc]

/-- The names of cells are in normal form, so that every cell is found by its name. -/
theorem run_listCells (h : sheet.Entered) (hi : sheet.options.naming.Idempotent) (c : Console) :
    (sheet.names.forM (printCell sheet)).run.run c =
      (.ok (), { c with out := c.out ++ listing sheet }) := by
  have hline : ∀ cell ∈ sheet.cells.toList, ∀ c : Console,
      (printCell sheet cell.1).run.run c = (.ok (), { c with out := c.out ++ cellLine cell }) := by
    intro cell hm c
    have hc := Std.ExtTreeMap.mem_toList_iff_getElem?_eq_some.1 hm
    have he := (h.enters_input hi (n := cell.1) (c := cell.2.content) (by
      rw [Sheet.content?, hc]
      rfl)).1
    exact run_printCell hc (Sheet.cellName_eq_ok_iff.2 ⟨he.normalize, he.isCellName, he.accepts⟩) c
  have hnames : sheet.names.forM (printCell sheet) =
      sheet.cells.toList.forM fun cell => printCell sheet cell.1 := by
    rw [Sheet.names, ← Std.ExtTreeMap.map_fst_toList_eq_keys]
    exact List.forM_map
  rw [hnames, run_forM hline, foldl_print]
  rfl

def shown (sheet : Sheet) : Option String → Except Failure String
  | none => .ok (listing sheet)
  | some cell =>
    match sheet.allDependents cell with
    | .ok order => .ok (String.intercalate " " order ++ "\n")
    | .error e => .error (.dependentsFailed cell e)

theorem run_printSheet (h : sheet.Entered) (hi : sheet.options.naming.Idempotent)
    (deps : Option String) (c : Console) :
    (printSheet sheet deps).run.run c =
      match shown sheet deps with
      | .ok text => (.ok (), { c with out := c.out ++ text })
      | .error e => (.error e, c) := by
  cases deps with
  | none => exact run_listCells h hi c
  | some cell =>
    unfold printSheet shown
    dsimp only
    cases sheet.allDependents cell <;> rfl

end Printing

section Saving

theorem run_saveAt {place : Place} (h : c.files.target path = .ok place) (sheet : Sheet) :
    (saveAt sheet path).run.run c = (.ok { sheet with changed := false },
      { c with files := c.files.withFile place sheet.toFile.render.toUTF8 }) := by
  unfold saveAt
  rw [run_get_bind, Sheet.save_eq, h]
  rfl

theorem run_saveAt_error {e : IoError} (h : c.files.target path = .error e) (sheet : Sheet) :
    (saveAt sheet path).run.run c = (.error (.saveFailed path (.io path e)), c) := by
  unfold saveAt
  rw [run_get_bind, Sheet.save_eq, h]
  rfl

def save (command : Command) (sheet : Sheet) : Session Unit := do
  let sheet ← if command.write then command.file.toList.foldlM saveAt sheet else pure sheet
  let _ ← command.output.toList.foldlM saveAt sheet

theorem save_eq (command : Command) (sheet : Sheet) :
    save command sheet = (do let _ ← command.targets.foldlM saveAt sheet) := by
  rw [save, Command.targets, List.foldlM_append, bind_assoc]
  cases command.write <;> rfl

end Saving

section Session

def Command.edited (command : Command) (options : Options) (files : FileTree) :
    Except Failure Sheet := do
  let sheet ← command.opened options files
  command.edits.foldlM enter sheet

theorem run_edited (command : Command) (options : Options) (c : Console) :
    (openSheet command options >>= command.edits.foldlM applyEdit).run.run c =
      (command.edited options c.files, c) := by
  rw [run_bind_of_frame (run_openSheet command options c), Command.edited]
  cases command.opened options c.files with
  | error e => rfl
  | ok opened => exact run_foldlM run_applyEdit command.edits opened c

theorem reachable_opened (h : command.opened options files = .ok sheet) :
    Sheet.Reachable options sheet := by
  rcases opened_cases h with ⟨rfl, -⟩ | ⟨path, -, ho⟩
  · exact .empty
  · obtain ⟨_, file, -, -, hf⟩ := Sheet.openAt_eq_ok_iff.1 ho
    exact .ofFile file hf

theorem reachable_foldlM {sheet' : Sheet} {edits : List String}
    (hr : Sheet.Reachable options sheet) (h : edits.foldlM enter sheet = .ok sheet') :
    Sheet.Reachable options sheet' := by
  induction edits generalizing sheet with
  | nil =>
    cases h
    exact hr
  | cons edit edits ih =>
    rw [List.foldlM_cons] at h
    obtain ⟨next, hn, h⟩ := bind_eq_ok_iff.1 h
    obtain ⟨cell, input, r, -, hs⟩ := enter_eq_ok_iff.1 hn
    have hnext := hr.set cell input
    rw [hs] at hnext
    exact ih hnext h

theorem reachable_edited (h : command.edited options files = .ok sheet) :
    Sheet.Reachable options sheet := by
  obtain ⟨opened, ho, h⟩ := bind_eq_ok_iff.1 h
  exact reachable_foldlM (reachable_opened ho) h

def Command.sheetOptions (command : Command) (user : UserConfig) (files : FileTree) : Options :=
  (command.settings user files).options command.sheetVersion

theorem idempotent_sheetOptions (command : Command) (user : UserConfig) (files : FileTree) :
    (command.sheetOptions user files).naming.Idempotent := by
  unfold Command.sheetOptions Settings.options
  dsimp only
  split
  · exact idempotent_uppercase {}
  · exact fun _ => rfl

/-- What a session does before it saves: the sheet after the edits, and what is printed of it. -/
def Command.prepare (command : Command) (user : UserConfig) (files : FileTree) :
    Except Failure (Sheet × String) :=
  if command.write && command.file.isNone then .error .writeWithoutFile
  else
    (command.edited (command.sheetOptions user files) files).bind fun sheet =>
      (shown sheet command.deps).map fun text => (sheet, text)

theorem session_eq (command : Command) (user : UserConfig) :
    session command user = (do
      if command.write && command.file.isNone then throw .writeWithoutFile
      let settings ← settings command user
      let sheet ← openSheet command (settings.options command.sheetVersion) >>=
        command.edits.foldlM applyEdit
      printSheet sheet command.deps
      save command sheet) := by
  unfold session save
  simp only [bind_assoc]

theorem run_session (command : Command) (user : UserConfig) (files : FileTree) :
    ∃ err, (session command user).run.run { files } =
      match command.prepare user files with
      | .error e => (.error e, { err, files })
      | .ok (sheet, text) => (save command sheet).run.run { out := text, err, files } := by
  rw [session_eq, Command.prepare, Command.sheetOptions]
  cases command.write && command.file.isNone with
  | true => exact ⟨"", rfl⟩
  | false =>
    obtain ⟨err, hs⟩ := run_settings command user { files }
    refine ⟨err, ?_⟩
    simp only [Bool.false_eq_true, if_false]
    rw [run_bind_ok hs, run_bind_of_frame (run_edited ..)]
    dsimp only
    cases he : command.edited ((command.settings user files).options command.sheetVersion)
        files with
    | error e => rfl
    | ok sheet =>
      have hr := reachable_edited he
      have hi : sheet.options.naming.Idempotent :=
        hr.options_eq ▸ idempotent_sheetOptions command user files
      have hp := run_printSheet hr.entered hi command.deps { err, files }
      dsimp only [Except.bind]
      cases ht : shown sheet command.deps with
      | error e =>
        rw [ht] at hp
        exact run_bind_error hp
      | ok text =>
        rw [ht] at hp
        rw [run_bind_ok hp]
        simp [Except.map]

end Session

end FormulaSheet.CommandLine
