import Std.Data.ExtTreeMap

namespace FormulaSheet

inductive IoError where
  | notFound
  | notFolder
  | isFolder
  | nameTooLong
  | nulInName
  | notText
  | denied
  | readOnly
  | diskFull
  | other (code : Nat) (text : String)
deriving DecidableEq, Repr

def IoError.message : IoError → String
  | notFound => "No such file or directory (os error 2)"
  | notFolder => "Not a directory (os error 20)"
  | isFolder => "Is a directory (os error 21)"
  | nameTooLong => "File name too long (os error 36)"
  | nulInName => "file name contained an unexpected NUL byte"
  | notText => "stream did not contain valid UTF-8"
  | denied => "Permission denied (os error 13)"
  | readOnly => "Read-only file system (os error 30)"
  | diskFull => "No space left on device (os error 28)"
  | other code text => s!"{text} (os error {code})"

inductive Entry where
  | file (bytes : ByteArray)
  | folder

def Entry.text : Entry → Except IoError String
  | .folder => .error .isFolder
  | .file bytes =>
    match String.fromUTF8? bytes with
    | some text => .ok text
    | none => .error .notText

def Entry.read (refusal? : Option IoError) (entry : Entry) : Except IoError String :=
  match refusal? with
  | some e => .error e
  | none => entry.text

def Entry.size : Entry → Nat
  | .folder => 0
  | .file bytes => bytes.size

/-- The parts of a path from the working folder on, the innermost first. The part `/` stands for
the root, and `..` only for folders above the working folder. -/
abbrev Place := List String

def Place.parent : Place → Place
  | [] => [".."]
  | ".." :: place => ".." :: ".." :: place
  | ["/"] => ["/"]
  | _ :: place => place

/-- What a place is asked for. A folder is searched for the names in it; to write at a place is to
replace the file there or to create one. -/
inductive Access where
  | search
  | read
  | write
deriving DecidableEq, Repr

/-- The files and folders that can be reached, and what the system refuses to do at their places:
they may belong to another user, and the disk may be full or fail. -/
@[ext]
structure FileTree where
  entries : Std.ExtTreeMap Place Entry := ∅
  refusal? : Access → Place → Option IoError := fun _ _ => none

namespace FileTree

def entry? (t : FileTree) (place : Place) : Option Entry :=
  if place = ["/"] ∨ place.all (· == "..") then some .folder else t.entries[place]?

/-- Why a part of a path cannot be looked up in a folder. Nothing is looked up for an empty part,
nor for the root. -/
def searchRefusal? (t : FileTree) (place : Place) (part : String) : Option IoError :=
  if part = "" ∨ part = "/" then none else t.refusal? .search place

/-- The place that the parts lead to: all but the last have to lead to folders. -/
def locateFrom (t : FileTree) (place : Place) : List String → Except IoError Place
  | [] => .ok place
  | part :: parts =>
    match t.entry? place, t.searchRefusal? place part with
    | none, _ => .error .notFound
    | some (.file _), _ => .error .notFolder
    | some .folder, some e => .error e
    | some .folder, none =>
      -- The name is judged only after the right to search for it.
      if part = "" ∨ part = "." then t.locateFrom place parts
      else if part = ".." then t.locateFrom place.parent parts
      else if 255 < part.utf8ByteSize then .error .nameTooLong
      else t.locateFrom (part :: place) parts

/-- The parts of a path between its slashes. The first is `/` for a path from the root; where
slashes meet and after a last one there is an empty part. -/
def parts (path : String) : List String :=
  match path.splitOn "/" with
  | "" :: rest => "/" :: rest
  | rest => rest

def parts? (path : String) : Except IoError (List String) :=
  if path.toList.contains '\x00' then .error .nulInName
  else if path = "" then .error .notFound
  else if 4096 ≤ path.utf8ByteSize then .error .nameTooLong
  else .ok (parts path)

def locate (t : FileTree) (path : String) : Except IoError Place := do
  let parts ← parts? path
  t.locateFrom [] parts

def find? (t : FileTree) (path : String) : Option Entry :=
  (t.locate path).toOption.bind t.entry?

def readRefusal? (t : FileTree) (path : String) : Option IoError :=
  (t.locate path).toOption.bind (t.refusal? .read)

def readText (t : FileTree) (path : String) : Except IoError String := do
  let place ← t.locate path
  match t.entry? place with
  | some entry => entry.read (t.refusal? .read place)
  | none => throw .notFound

/-- The parts before the last name. The slashes after that name are left out with it. -/
def partsBefore (parts : List String) : List String :=
  (parts.reverse.dropWhile (· = "")).tail.reverse

def writeRefusal? (t : FileTree) (place : Place) : Option IoError :=
  match t.entry? place with
  | some .folder => some .isFolder
  | _ => t.refusal? .write place

/-- The place of the file to be written at the parts of a path. A slash at the end asks for a
folder, so the last name is not looked up then. -/
def locateFile (t : FileTree) (parts : List String) : Except IoError Place :=
  if parts.getLast? = some "" then do
    let _ ← t.locateFrom [] (partsBefore parts ++ [""])
    throw .isFolder
  else do
    let place ← t.locateFrom [] parts
    match t.writeRefusal? place with
    | some e => throw e
    | none => return place

def target (t : FileTree) (path : String) : Except IoError Place := do
  let parts ← parts? path
  t.locateFile parts

/-- The tree with a file at a place. What was written there can be read. -/
def withFile (t : FileTree) (place : Place) (bytes : ByteArray) : FileTree where
  entries := t.entries.insert place (.file bytes)
  refusal? access p := if access = .read ∧ p = place then none else t.refusal? access p

def refuse (t : FileTree) (access : Access) (place : Place) (e : IoError) : FileTree :=
  { t with refusal? := fun a p => if a = access ∧ p = place then some e else t.refusal? a p }

def write (t : FileTree) (path : String) (bytes : ByteArray) : Except IoError FileTree :=
  (t.target path).map fun place => t.withFile place bytes

def writeText (t : FileTree) (path text : String) : Except IoError FileTree :=
  t.write path text.toUTF8

def makeFolders (t : FileTree) (path : String) : FileTree :=
  let parts := (parts? path).toOption.getD []
  (List.range parts.length).foldl
    (fun t n =>
      match t.locateFrom [] (parts.take (n + 1)) with
      | .ok place =>
        if (t.entry? place).isNone ∧ (t.refusal? .write place).isNone then
          { t with entries := t.entries.insert place .folder }
        else t
      | .error _ => t) t

/-- The files below the working folder with their paths. -/
def files (t : FileTree) : List (String × ByteArray) :=
  t.entries.toList.filterMap fun (place, entry) =>
    match entry, place.getLast? with
    | .folder, _ | _, some ".." | _, some "/" => none
    | .file bytes, _ => some (String.intercalate "/" place.reverse, bytes)

end FileTree

end FormulaSheet
