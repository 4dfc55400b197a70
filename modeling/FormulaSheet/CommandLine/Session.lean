import FormulaSheet.CommandLine.Arguments
import FormulaSheet.Settings.Load
import FormulaSheet.Sheet.Storage

namespace FormulaSheet.CommandLine

inductive Failure where
  | writeWithoutFile
  | openFailed (path : String) (cause : SheetError)
  | invalidEdit (edit : String)
  | setFailed (cell : String) (cause : SheetError)
  | dependentsFailed (cell : String) (cause : SheetError)
  | readFailed (cause : SheetError)
  | saveFailed (path : String) (cause : SheetError)
deriving DecidableEq, Repr

def Failure.messages : Failure → List String
  | writeWithoutFile => ["--write requires a FILE"]
  | openFailed path cause => s!"Failed to open {path}" :: cause.messages
  | invalidEdit edit => [s!"Invalid edit '{edit}'. Expected CELL=CONTENT"]
  | setFailed cell cause => s!"Failed to set {cell}" :: cause.messages
  | dependentsFailed cell cause => s!"Failed to compute dependents of {cell}" :: cause.messages
  | readFailed cause => cause.messages
  | saveFailed path cause => s!"Failed to save {path}" :: cause.messages

structure Console where
  out : String := ""
  err : String := ""
  files : FileTree := {}

/-- What a session has printed and saved stays when it fails. -/
abbrev Session := ExceptT Failure (StateM Console)

def print (text : String) : Session Unit :=
  modify fun c => { c with out := c.out ++ text }

def warn (text : String) : Session Unit :=
  modify fun c => { c with err := c.err ++ text }

structure UserConfig where
  path : String := "~/.config/sheetflow/config.toml"
  entry : Option Entry := none
  refusal? : Option IoError := none

def settings (command : Command) (user : UserConfig) : Session Settings := do
  if command.noConfig then return {}
  let files := (← get).files
  let source :=
    match command.config with
    | some path => Settings.Source.named path (files.find? path) (files.readRefusal? path)
    | none => Settings.Source.usual user.path user.entry user.refusal?
  let (settings, warnings) := Settings.load source
  warnings.forM fun w => warn s!"Warning: {w.message}\n"
  return settings

def openSheet (command : Command) (options : Options) : Session Sheet := do
  let files := (← get).files
  match command.file with
  | none => return { options }
  | some path =>
    if (files.find? path).isNone then return { options }
    match Sheet.openAt files options path with
    | .ok sheet => return sheet
    | .error e => throw (.openFailed path e)

/-- The cell and the input of an edit: the text on the two sides of the first `=`. -/
def splitEdit (edit : String) : Option (String × String) :=
  match edit.toList.dropWhile (· != '=') with
  | [] => none
  | _ :: input =>
    some (String.ofList (trim (edit.toList.takeWhile (· != '='))), String.ofList input)

def applyEdit (sheet : Sheet) (edit : String) : Session Sheet :=
  match splitEdit edit with
  | none => throw (.invalidEdit edit)
  | some (cell, input) =>
    match sheet.set cell input with
    | (.ok _, sheet) => return sheet
    | (.error e, _) => throw (.setFailed cell e)

def printCell (sheet : Sheet) (name : String) : Session Unit :=
  match sheet.contents name, sheet.value name with
  | .ok content, .ok value => print s!"{name}\t{content.input}\t{value.display}\n"
  | .error e, _ => throw (.readFailed e)
  | .ok _, .error e => throw (.readFailed e)

def printSheet (sheet : Sheet) : Option String → Session Unit
  | none => sheet.names.forM (printCell sheet)
  | some cell =>
    match sheet.allDependents cell with
    | .ok order => print (String.intercalate " " order ++ "\n")
    | .error e => throw (.dependentsFailed cell e)

def saveAt (sheet : Sheet) (path : String) : Session Sheet := do
  match sheet.save (← get).files path with
  | (.ok _, sheet, files) =>
    modify fun c => { c with files }
    return sheet
  | (.error e, _) => throw (.saveFailed path e)

def session (command : Command) (user : UserConfig) : Session Unit := do
  if command.write && command.file.isNone then throw .writeWithoutFile
  let settings ← settings command user
  let sheet ← openSheet command (settings.options command.sheetVersion)
  let sheet ← command.edits.foldlM applyEdit sheet
  printSheet sheet command.deps
  let sheet ← if command.write then command.file.toList.foldlM saveAt sheet else pure sheet
  let _ ← command.output.toList.foldlM saveAt sheet
  return

def failure? (args : List String) (files : FileTree) (user : UserConfig) : Option Failure :=
  match Command.ofArgs {} args with
  | .error _ => none
  | .ok command =>
    match ((session command user).run.run { files }).1 with
    | .ok () => none
    | .error failure => some failure

structure Report where
  code : Nat
  console : Console

def run (args : List String) (files : FileTree) (user : UserConfig) : Report :=
  match Command.ofArgs {} args with
  | .error refusal => ⟨refusal.code, { err := refusal.message, files }⟩
  | .ok command =>
    match (session command user).run.run { files } with
    | (.ok (), console) => ⟨0, console⟩
    | (.error failure, console) =>
      let message := String.intercalate ": " failure.messages
      ⟨1, { console with err := console.err ++ s!"Error: {message}\n" }⟩

end FormulaSheet.CommandLine
