import StreamScript.Files.Path
import StreamScript.Text.Utf8

/-!
# Files

A tree of files is a list of entries, each a path and what is there: a file with
its bytes, or a folder. A path is followed part by part from the top; parts that
lead upward stay inside the tree.

What can go wrong with a file has the wording of the operating system, with its
number for the error.
-/

namespace StreamScript

/-- **Why a file cannot be read.** -/
inductive FileError where
  | notFound
  | notAFolder
  | isAFolder
  | nameTooLong
  /-- The bytes are no text. -/
  | notText
  /-- The name holds a character that no name can hold. -/
  | nulInName
  | other (message : String)
deriving DecidableEq, Repr

/-- The wording of the error. -/
def FileError.message : FileError → String
  | .notFound => "No such file or directory (os error 2)"
  | .notAFolder => "Not a directory (os error 20)"
  | .isAFolder => "Is a directory (os error 21)"
  | .nameTooLong => "File name too long (os error 36)"
  | .notText => "stream did not contain valid UTF-8"
  | .nulInName => "file name contained an unexpected NUL byte"
  | .other message => message

/-- The longest name of a file, in bytes. -/
def longestName : Nat := 255

/-- Whether a name is too long to be that of a file. -/
def isTooLong (name : String) : Bool :=
  longestName < name.utf8ByteSize

/-- Whether a path holds a character that no path can hold. -/
def holdsNul (path : String) : Bool :=
  path.toList.contains '\x00'

/-- The text of a file's bytes. -/
def textOfFile (bytes : List UInt8) : Except FileError String :=
  (Text.decode bytes).mapError fun _ => .notText

/-- **What is at a path**: a file with its bytes, or a folder. -/
inductive FileNode where
  | file (bytes : List UInt8)
  | folder
deriving DecidableEq

/-- The text of a file. A folder has none. -/
def FileNode.text : FileNode → Except FileError String
  | .file bytes => textOfFile bytes
  | .folder => .error .isAFolder

/-- **A tree of files**, as the parts of the paths that lead to its entries. -/
structure FileTree where
  entries : List (List String × FileNode)

namespace FileTree

/-- What is at the end of some parts. A folder is there also if only something
below it is listed. -/
def node? (t : FileTree) (parts : List String) : Option FileNode :=
  if parts = [] then some .folder
  else
    match t.entries.lookup parts with
    | some node => some node
    | none => if t.entries.any fun e =>
      parts.isPrefixOf e.1 then some .folder else none

/-- Follows parts from a folder on, whose own parts are held in reverse: the
parts of the place they lead to, and what is there. -/
def follow (t : FileTree) (here : List String) :
    List String → Except FileError (List String × FileNode)
  | [] =>
    match t.node? here.reverse with
    | some node => .ok (here.reverse, node)
    | none => .error .notFound
  | part :: rest =>
    match t.node? here.reverse with
    | none => .error .notFound
    | some (.file _) => .error .notAFolder
    | some .folder =>
      if isTooLong part then .error .nameTooLong
      else if part == ".." then t.follow here.tail rest
      else t.follow (part :: here) rest

/-- **The place that a path leads to**, and what is there. -/
def locate (t : FileTree) (path : String) :
    Except FileError (List String × FileNode) :=
  if path.isEmpty then .error .notFound
  else if holdsNul path then .error .nulInName
  else do
    let (place, node) ← t.follow [] (Path.parts path)
    match node with
    | .file _ =>
      if Path.asksForFolder path then throw .notAFolder
          else return (place, node)
    | .folder => return (place, node)

/-- **Reads a file** as text. -/
def readText (t : FileTree) (path : String) : Except FileError String := do
  let (_, node) ← t.locate path
  node.text

/-- What is in the folder at a place, under its name. -/
def entriesAt (t : FileTree) (place : List String) : List (String × FileNode) :=
  let names := t.entries.filterMap fun entry =>
    match place.isPrefixOf? entry.1 with
    | some (name :: _) => some name
    | _ => none
  names.eraseDups.filterMap fun name =>
    (t.node? (place ++ [name])).map fun node => (name, node)

/-- The entries of a folder. -/
def listFolder (t : FileTree) (path : String) :
    Except FileError (List (String × FileNode)) := do
  match ← t.locate path with
  | (_, .file _) => throw .notAFolder
  | (place, .folder) => return t.entriesAt place

end FileTree

end StreamScript
