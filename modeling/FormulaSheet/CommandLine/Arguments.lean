namespace FormulaSheet.CommandLine

structure Command where
  file : Option String := none
  edits : List String := []
  write : Bool := false
  output : Option String := none
  deps : Option String := none
  sheetVersion : Option String := none
  config : Option String := none
  noConfig : Bool := false
  verbose : Bool := false
deriving DecidableEq, Repr

/-- The paths at which a command saves, in order. -/
def Command.targets (c : Command) : List String :=
  (if c.write then c.file.toList else []) ++ c.output.toList

inductive ValueOption where
  | set
  | output
  | deps
  | sheetVersion
  | config
deriving DecidableEq, Repr

inductive Refusal where
  | help
  | missingValue (option : ValueOption)
  | unknownOption (arg : String)
  | unexpected (arg : String)
deriving DecidableEq, Repr

def ValueOption.ofArg? : String → Option ValueOption
  | "-s" | "--set" => some set
  | "-o" | "--output" => some output
  | "-d" | "--deps" => some deps
  | "--sheet-version" => some sheetVersion
  | "--config" => some config
  | _ => none

/-- The command with the value of an option: edits add up, other values replace earlier ones. -/
def ValueOption.apply (c : Command) (value : String) : ValueOption → Command
  | set => { c with edits := c.edits ++ [value] }
  | output => { c with output := some value }
  | deps => { c with deps := some value }
  | sheetVersion => { c with sheetVersion := some value }
  | config => { c with config := some value }

def ValueOption.missing : ValueOption → String
  | set => "--set requires CELL=CONTENT"
  | output => "--output requires a file path"
  | deps => "--deps requires a cell name"
  | sheetVersion => "--sheet-version requires a value"
  | config => "--config requires a file path"

def flag? (c : Command) : String → Option Command
  | "-w" | "--write" => some { c with write := true }
  | "--no-config" => some { c with noConfig := true }
  | "-v" | "--verbose" => some { c with verbose := true }
  | _ => none

/-- Reads the arguments from left to right; the first one that is refused ends the reading. -/
def Command.ofArgs (c : Command) : List String → Except Refusal Command
  | [] => .ok c
  | arg :: args =>
    if arg = "-h" ∨ arg = "--help" then .error .help
    else
      match ValueOption.ofArg? arg, flag? c arg with
      | some option, _ =>
        match args with
        | value :: args => ofArgs (option.apply c value) args
        | [] => .error (.missingValue option)
      | none, some c => ofArgs c args
      | none, none =>
        if arg.startsWith "-" then .error (.unknownOption arg)
        else if c.file.isSome then .error (.unexpected arg)
        else ofArgs { c with file := some arg } args

def usageLines : List String :=
  ["Usage: sheetflow [OPTIONS] [FILE]",
   "",
   "Arguments:",
   "  [FILE]                    Spreadsheet file to open (.json)",
   "",
   "Options:",
   "  -s, --set <CELL=CONTENT>  Set a cell (can be repeated, applied in order)",
   "  -w, --write               Save back to FILE after applying edits",
   "  -o, --output <FILE>       Save to another file",
   "  -d, --deps <CELL>         Print the recalculation order for a cell",
   "  --sheet-version <TAG>     Version tag for the spreadsheet file",
   "  --config <FILE>           Load settings from TOML file",
   "  --no-config               Ignore the user config file",
   "  -v, --verbose             Log to stderr (filter with RUST_LOG)",
   "  -h, --help                Print help"]

def usage : String := String.join (usageLines.map (· ++ "\n"))

def Refusal.code : Refusal → Nat
  | help => 0
  | _ => 1

def Refusal.message : Refusal → String
  | help => usage
  | missingValue option => s!"Error: {option.missing}\n"
  | unknownOption arg => s!"Error: Unknown option: {arg}\n{usage}"
  | unexpected arg => s!"Error: Unexpected argument: {arg}\n{usage}"

end FormulaSheet.CommandLine
