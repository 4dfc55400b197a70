import FormulaSheet.Sheet.Edit
import FormulaSheet.SheetFile.Read
import FormulaSheet.SheetFile.Render

namespace FormulaSheet.Sheet

/-- What is saved of a sheet: the inputs that give its cells again, by name. -/
def toFile (s : Sheet) : SheetFile where
  cells := s.cells.toList.map fun (name, cell) => (name, cell.content.input)
  version := s.options.version
  distinct := by
    have h : (fun c : String × Cell => (c.1, c.2.content.input).1) = Prod.fst := rfl
    rw [List.map_map]
    simp only [Function.comp_def, Std.ExtTreeMap.map_fst_toList_eq_keys]
    exact Std.ExtTreeMap.nodup_keys

def restoreCell (s : Sheet) : String × String → Except SheetError Sheet
  | (name, input) =>
    match s.set name input with
    | (.ok _, s) => .ok s
    | (.error e, _) => .error (.invalidCell name e)

def ofFile (options : Options) (file : SheetFile) : Except SheetError Sheet :=
  if file.version = options.version then
    (file.cells.foldlM restoreCell { options }).map fun s => { s with changed := false }
  else .error (.versionMismatch options.version file.version)

/-- The sheet that a text spells; errors name `path` as its source. -/
def ofText (options : Options) (path text : String) : Except SheetError Sheet :=
  match SheetFile.read? text with
  | some file => ofFile options file
  | none => .error (.malformed path)

def openAt (files : FileTree) (options : Options) (path : String) : Except SheetError Sheet :=
  match files.readText path with
  | .ok text => ofText options path text
  | .error e => .error (.io path e)

def load (s : Sheet) (files : FileTree) (path : String) : Except SheetError Unit × Sheet :=
  match openAt files s.options path with
  | .ok loaded => (.ok (), loaded)
  | .error e => (.error e, s)

def save (s : Sheet) (files : FileTree) (path : String) :
    Except SheetError Unit × Sheet × FileTree :=
  match files.writeText path s.toFile.render with
  | .ok files => (.ok (), { s with changed := false }, files)
  | .error e => (.error (.io path e), s, files)

end FormulaSheet.Sheet
