import FormulaSheet.CommandLine.Session

open FormulaSheet CommandLine

/-- The error with a number of the system. Some come with the sign changed, from the layer that
looks files up. -/
def systemError (code : UInt32) (text : String) : IoError :=
  match min code.toNat (0 - code).toNat with
  | 2 => .notFound
  | 13 => .denied
  | 20 => .notFolder
  | 21 => .isFolder
  | 28 => .diskFull
  | 30 => .readOnly
  | 36 => .nameTooLong
  | n => .other n text

def diskError : IO.Error → IoError
  | .noFileOrDirectory _ code text | .interrupted _ code text | .alreadyExists _ code text
  | .inappropriateType _ code text | .invalidArgument _ code text
  | .permissionDenied _ code text | .resourceExhausted _ code text | .noSuchThing _ code text
  | .otherError code text | .resourceBusy code text | .resourceVanished code text
  | .unsupportedOperation code text | .hardwareFault code text | .illegalOperation code text
  | .protocolError code text | .timeExpired code text | .unsatisfiedConstraints code text =>
    systemError code text
  | .unexpectedEof => .other 0 "end of file"
  | .userError text => .other 0 text

def answer {α : Type} (act : IO α) : IO (Except IoError α) := do
  try
    return .ok (← act)
  catch e =>
    return .error (diskError e)

/-- Whether a file or a folder stands at a path of the disk, and why the folder cannot be searched.
A folder may only refuse to be read: then it is asked for a name longer than those of files, which
it has to look up. -/
def lookUp (path : String) : IO (Option Entry × Option IoError) := do
  match ← answer (IO.FS.readBinFile (path ++ "/.")) with
  | .error .isFolder => return (some .folder, none)
  | .error .notFolder => return (some (.file .empty), none)
  | .error .denied =>
    match ← answer (IO.FS.readBinFile (path ++ "/" ++ "".pushn '-' 256)) with
    | .error .denied => return (some .folder, some .denied)
    | _ => return (some .folder, none)
  | _ => return (none, none)

/-- Adds what stands at a path and at the folders above it, but not what a file there holds. -/
def lookAt (files : FileTree) (path : String) : IO FileTree := do
  let parts := FileTree.parts path
  let mut files := files
  for n in List.range parts.length do
    let beginning := parts.take (n + 1)
    if let .ok place := files.locateFrom [] beginning then
      let (entry, refusal) ← lookUp (String.intercalate "/" beginning)
      if let some entry := entry then
        files := { files with entries := files.entries.insertIfNew place entry }
      if let some e := refusal then
        files := files.refuse .search place e
  return files

def readAt (files : FileTree) (path : String) : IO FileTree := do
  let files ← lookAt files path
  match files.locate path, ← answer (IO.FS.readBinFile path) with
  | .ok place, .ok bytes => return files.withFile place bytes
  | .ok _, .error .isFolder | .ok _, .error .notFound | .error _, _ => return files
  | .ok place, .error e => return files.refuse .read place e

def userConfigOnDisk : IO UserConfig := do
  let folder ←
    match ← IO.getEnv "XDG_CONFIG_HOME" with
    | some folder => pure folder
    | none => pure ((← IO.getEnv "HOME").getD "" ++ "/.config")
  let path := folder ++ "/sheetflow/config.toml"
  let files ← readAt {} path
  return { path, entry := files.find? path, refusal? := files.readRefusal? path }

def writeFile (path : String) (bytes : ByteArray) : IO Unit :=
  IO.FS.withFile path .write fun handle => do
    handle.write bytes
    handle.flush

/-- Writes what a run has saved, up to the first path at which it failed to, and gives the first
place that the disk refuses to take it at. -/
def writeBack (files : FileTree) : List String → IO (Option (Place × IoError))
  | [] => return none
  | path :: paths => do
    let .ok place := files.target path | return none
    if let some (.file bytes) := files.entry? place then
      if let .error e ← answer (writeFile path bytes) then
        return some (place, e)
    writeBack files paths

/-- Runs a command on the disk. What the disk refuses to take shows only when it is written; then
the report is that of a run which knows of it, and what that run saves has been written already. -/
def runOnDisk (args : List String) (user : UserConfig) (targets : List String)
    (files : FileTree) : IO Report := do
  let report := run args files user
  let refused ←
    match failure? args files user with
    | none | some (.saveFailed _ _) => writeBack report.console.files targets
    | some _ => pure none
  match refused with
  | none => return report
  | some (place, e) => return run args (files.refuse .write place e) user

def main (args : List String) : IO UInt32 := do
  let command := (Command.ofArgs {} args).toOption.getD {}
  let files ← lookAt {} "."
  let files ← (command.file.toList ++ command.config.toList).foldlM readAt files
  let files ← command.output.toList.foldlM lookAt files
  let report ← runOnDisk args (← userConfigOnDisk) command.targets files
  IO.print report.console.out
  IO.eprint report.console.err
  return report.code.toUInt32
