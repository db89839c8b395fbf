import StreamScript.Files.Tree
import StreamScript.Host

/-!
# A folder as the surroundings of a run

A script run from the command line sees one folder: it can ask for the names of
the files in it and for the contents of each. It gets nothing else, because it
can name a file only by a plain name, and the file that is opened then is the
one at the path of the folder continued by that name. What it puts aside is
kept in order.

Whoever opens files may have a state of their own (`OpenFolder`). The command
has none: its folder is what it was when the run began, so that a `Folder`
holds its path, which messages mention, and its entries, or the reason why they
cannot be listed. An empty path cannot be listed at all, but files are found
through it as they are through the path of the working folder.
-/

namespace StreamScript

/-! ## Folders that are opened file by file -/

/-- **A folder**, and what happens when one of its files is opened or a value
is put aside. -/
structure OpenFolder (σ : Type) where
  path : String
  /-- The names of the files. -/
  fileNames : Except String (List String)
  /-- Opens the file at a path, and reads it as text. -/
  openFile : String → σ → Except FileError String × σ
  /-- Puts a value aside under a label. -/
  putAside : String → Value → σ → σ

namespace OpenFolder

variable {σ : Type}

/-- **Loads a file**, which has to be called by a plain name. -/
def load (f : OpenFolder σ) (name : String) (state : σ) : Reply σ String :=
  if Path.isPlainName name then
    let (text, state) := f.openFile (Path.join f.path name) state
    { answer := text.mapError fun e => name ++ ": " ++ e.message, state }
  else { answer := .error ("'" ++ name ++ "' is not a file name"), state }

/-- **The host of a folder.** -/
def host (f : OpenFolder σ) : Host σ where
  sideOutput label v state :=
    { answer := .ok (), state := f.putAside label v state }
  listFiles state := { answer := f.fileNames, state }
  loadFile := f.load

end OpenFolder

/-! ## Folders as they were found -/

/-- **A folder**, as it was found. -/
structure Folder where
  path : String
  entries : Except FileError (List (String × FileNode))

/-- The values put aside, each under its label, in order. -/
abbrev SideOutputs : Type := List (String × Value)

namespace Folder

/-- The entries, as far as they can be listed. -/
def listing (f : Folder) : Except FileError (List (String × FileNode)) :=
  if f.path.isEmpty then .error .notFound else f.entries

/-- The names of the files, in alphabetical order. Folders inside are not among
them. -/
def fileNames (f : Folder) : Except String (List String) :=
  match f.listing with
  | .error e => .error (f.path ++ ": " ++ e.message)
  | .ok entries =>
    .ok ((entries.filterMap fun (name, node) =>
      match node with
      | .file _ => some name
      | .folder => none).mergeSort fun a b => !(b < a))

/-- What a name leads to inside the folder. -/
def read (f : Folder) (name : String) : Except FileError String := do
  if holdsNul name then throw .nulInName
  let entries ← f.entries
  if isTooLong name then throw .nameTooLong
  (entries.lookup name).elim (throw .notFound) FileNode.text

/-- What a path leads to that names an entry of the folder. There is nothing
else to be found. -/
def readPath (f : Folder) (path : String) : Except FileError String :=
  match Path.fileName? path with
  | some name => f.read name
  | none => .error .isAFolder

/-- The folder, with the values that are put aside for a state. Opening files
makes no difference to it. -/
def opened (f : Folder) : OpenFolder SideOutputs where
  path := f.path
  fileNames := f.fileNames
  openFile path side := (f.readPath path, side)
  putAside label v side := side ++ [(label, v)]

/-- **The host of a folder** as it was found. -/
def host (f : Folder) : Host SideOutputs :=
  f.opened.host

end Folder

end StreamScript
