import StreamScript.Application

/-!
# The program

The outer layer of the command: it looks for files, reads and prints.
-/

namespace StreamScript

/-- An error of the system as the error of a file. -/
def FileError.ofSystem (e : IO.Error) : FileError :=
  match e with
  | .noFileOrDirectory _ _ _ => .notFound
  | .inappropriateType _ code details | .illegalOperation code details =>
    if code == 20 then .notAFolder else if code == 21 then .isAFolder
        else .other details
  | e => .other (toString e)

/-- Tries something that may fail with an error of the system. -/
def tryFile {α : Type} (act : IO α) : IO (Except FileError α) := do
  match ← act.toBaseIO with
  | .ok a => return .ok a
  | .error e => return .error (.ofSystem e)

/-- The contents of a file. -/
def readFile (path : String) : IO (Except FileError String) := do
  let bytes ← tryFile (IO.FS.readBinFile path)
  return bytes.bind fun bytes => textOfFile bytes.toList

/-- The entries of a folder. Only regular files are read. -/
def listEntries (path : String) :
    IO (Except FileError (List (String × FileNode))) := do
  let here ← IO.currentDir
  tryFile do
    let entries ← (here / path).readDir
    entries.toList.mapM fun entry => do
      let info ← entry.path.metadata
      match info.type with
      | .file =>
        return (entry.fileName,
          FileNode.file (← IO.FS.readBinFile entry.path).toList)
      | _ => return (entry.fileName, .folder)

/-- Where the user keeps settings. -/
def userSettingsPath : IO (Option String) := do
  match ← IO.getEnv "XDG_CONFIG_HOME", ← IO.getEnv "HOME" with
  | some config, home =>
    if config.startsWith "/" then return some (config ++ "/sift/siftrc")
    else return home.map (· ++ "/.config/sift/siftrc")
  | none, home => return home.map (· ++ "/.config/sift/siftrc")

/-- The surroundings of a program of the system. -/
def systemSurroundings : Surroundings IO where
  readText := readFile
  isThere path := do
    let here ← IO.currentDir
    (here / path).pathExists
  listFolder := listEntries
  readInput := do
    let input ← IO.getStdin
    let bytes ← input.readBinToEnd
    return bytes.toList
  userSettings := userSettingsPath

end StreamScript

open StreamScript in
/-- The program. -/
def main (arguments : List String) : IO UInt32 := do
  let output ← Application.run systemSurroundings arguments
  IO.print output.out
  IO.eprint output.err
  return output.status.toUInt32
