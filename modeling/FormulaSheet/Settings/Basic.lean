import FormulaSheet.Sheet.Basic

namespace FormulaSheet

structure Settings where
  version : Option String := none
  uppercaseNames : Bool := false
deriving DecidableEq, Repr

/-- The options of a sheet; a version given by hand counts before the one of the settings. -/
def Settings.options (s : Settings) (version : Option String) : Options where
  version := (version <|> s.version).getD "default"
  naming := if s.uppercaseNames then Naming.uppercase {} else {}

end FormulaSheet
