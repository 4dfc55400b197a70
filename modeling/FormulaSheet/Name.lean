namespace FormulaSheet

def isNameStart (c : Char) : Bool := c.isAlpha || c == '_'

def isNamePart (c : Char) : Bool := c.isAlphanum || c == '_'

/-- A variable is an ASCII letter or underscore, then letters, digits and underscores. -/
def isVariable (name : String) : Bool :=
  match name.toList with
  | [] => false
  | c :: cs => isNameStart c && cs.all isNamePart

/-- A cell name is ASCII letters, then digits, at least one of each. -/
def isCellName (name : String) : Bool :=
  let digits := name.toList.dropWhile Char.isAlpha
  (name.toList.takeWhile Char.isAlpha) != [] && digits != [] && digits.all Char.isDigit

/-- How names are spelled: every name is normalized before use, and the normal form has to be
accepted. -/
structure Naming where
  normalize : String → String := id
  accepts : String → Bool := fun _ => true

/-- `a1` and `A1` are the same name. -/
def Naming.uppercase (rules : Naming) : Naming :=
  { rules with normalize := fun name => name.map Char.toUpper }

end FormulaSheet
