import FormulaSheet.Formula.Token
import Std.Data.ExtTreeSet

namespace FormulaSheet

structure Formula where
  tokens : List Token

namespace Formula

def text (f : Formula) : String :=
  String.join (f.tokens.map Token.text)

/-- Formulas are compared by their text. -/
instance : BEq Formula where
  beq f g := f.text == g.text

instance : Hashable Formula where
  hash f := hash f.text

def names (f : Formula) : Std.ExtTreeSet String :=
  Std.ExtTreeSet.ofList (f.tokens.filterMap Token.name?)

end Formula

end FormulaSheet
