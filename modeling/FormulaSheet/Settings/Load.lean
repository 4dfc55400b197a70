import FormulaSheet.FileTree
import FormulaSheet.Settings.Read

namespace FormulaSheet.Settings

inductive Warning where
  | missing (path : String)
  | tooLarge (path : String) (bytes : Nat)
  | unreadable (path : String) (cause : IoError)
  | malformed (path : String)
deriving DecidableEq, Repr

def maxBytes : Nat := 65536

/-- Stands for what is wrong with a text that is no settings file. -/
def tomlDetail : String := "<toml error>"

def Warning.message : Warning → String
  | missing path => s!"Config file not found: {path}"
  | tooLarge path bytes =>
    s!"Refusing to read {path}: file too large ({bytes} bytes, max {maxBytes})"
  | unreadable path cause => s!"Failed to read {path}: {cause.message}"
  | malformed path => s!"Failed to parse {path}: {tomlDetail}"

/-- The settings in what stands at a path. Its size is known even where it cannot be read. -/
def ofEntry (path : String) (entry : Entry) (refusal? : Option IoError) :
    Except Warning Settings :=
  if maxBytes < entry.size then .error (.tooLarge path entry.size)
  else
    match entry.read refusal? with
    | .error e => .error (.unreadable path e)
    | .ok text =>
      match read? text with
      | none => .error (.malformed path)
      | some settings => .ok settings

/-- Where settings come from: a file named by the user, which has to exist, or one that may. -/
inductive Source where
  | named (path : String) (entry : Option Entry) (refusal? : Option IoError := none)
  | usual (path : String) (entry : Option Entry) (refusal? : Option IoError := none)

def load : Source → Settings × List Warning
  | .named path none _ => ({}, [.missing path])
  | .usual _ none _ => ({}, [])
  | .named path (some entry) refusal? | .usual path (some entry) refusal? =>
    match ofEntry path entry refusal? with
    | .ok settings => (settings, [])
    | .error warning => ({}, [warning])

end FormulaSheet.Settings
