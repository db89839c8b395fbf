import StreamScript.Text.Cut

/-!
# Paths

A path is a text whose parts are separated by slashes. Repeated slashes and the
part `.` mean nothing. The file that a path names is its last part, if that is a
name: a path that leads upward, or nowhere, names none.

A plain name is a name that names itself. It stays in whatever folder it is
looked up in, since it has a single part and that part leads nowhere else.

A path can be continued from a folder on. One that begins with a slash leads
from the top wherever it is continued from.
-/

namespace StreamScript.Path

/-- What stands between the slashes of a path. -/
def pieces (path : String) : List String :=
  (Text.splitOn ['/'] path.toList).map String.ofList

/-- The parts of a path that mean something. -/
def parts (path : String) : List String :=
  (pieces path).filter fun part => part ≠ "" ∧ part ≠ "."

/-- Whether a path can only lead to a folder: it ends with a slash, or with the
part `.`. -/
def asksForFolder (path : String) : Bool :=
  (pieces path).getLast?.any fun last => last == "" || last == "."

/-- **A path continued from a folder on.** -/
def join (folder path : String) : String :=
  if path.toList.head? = some '/' then path
  else if folder = "" ∨ folder.toList.getLast? = some '/' then folder ++ path
  else folder ++ "/" ++ path

/-- **The file that a path names.** -/
def fileName? (path : String) : Option String :=
  match (parts path).getLast? with
  | some part => if part = ".." then none else some part
  | none => none

/-- **Whether a text is a plain name.** -/
def isPlainName (name : String) : Bool :=
  fileName? name == some name

example : fileName? "a/b.txt" = some "b.txt" ∧ fileName? "a/b/./" = some "b"
    ∧ fileName? "a/.." = none ∧ fileName? "/" = none := by decide +kernel

example : isPlainName "b.txt" ∧ !isPlainName "a/b" ∧ !isPlainName "." ∧
    !isPlainName "" ∧ !isPlainName "a/" := by decide +kernel

end StreamScript.Path
