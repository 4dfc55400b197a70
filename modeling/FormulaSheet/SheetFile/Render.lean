import FormulaSheet.SheetFile.Basic

namespace FormulaSheet.SheetFile

def escape (c : Char) : List Char :=
  if c = '"' then ['\\', '"']
  else if c = '\\' then ['\\', '\\']
  else if c = '\x08' then ['\\', 'b']
  else if c = '\x0c' then ['\\', 'f']
  else if c = '\n' then ['\\', 'n']
  else if c = '\r' then ['\\', 'r']
  else if c = '\t' then ['\\', 't']
  else if c.toNat < 0x20 then
    ['\\', 'u', '0', '0', Nat.digitChar (c.toNat / 16), Nat.digitChar (c.toNat % 16)]
  else [c]

def quote (s : String) : List Char := '"' :: (s.toList.flatMap escape ++ ['"'])

def renderCell : String × String → List Char
  | (name, form) =>
    "\n    ".toList ++ quote name ++ ": \x7b\n      \"stringForm\": ".toList ++ quote form ++
      "\n    \x7d".toList

def renderCells (cells : List (String × String)) : List Char :=
  match cells with
  | [] => "\x7b\x7d".toList
  | cells => '\x7b' :: (List.intercalate [','] (cells.map renderCell) ++ "\n  \x7d".toList)

/-- The JSON text of a sheet, indented by two spaces, with a line break at its end. -/
def render (file : SheetFile) : String :=
  String.ofList ("\x7b\n  \"cells\": ".toList ++ renderCells file.cells ++
    ",\n  \"Version\": ".toList ++ quote file.version ++ "\n\x7d\n".toList)

end FormulaSheet.SheetFile
