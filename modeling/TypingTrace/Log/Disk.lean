import TypingTrace.Fault
import TypingTrace.Log.Path
import TypingTrace.Text.Bytes

/-!
# Files

The text of every file by its path. A directory may stand in the place of a file; until it is gone
the file can be neither read nor written, and then it is there again as it was. Some paths lead to a
directory whatever is there, and some can have no file at all (`Disk.obstacle?`).
-/

namespace TypingTrace.Log

open Text

structure Disk where
  files : List (String × String) := []
  directories : List String := []

namespace Disk

/-- Why a path cannot be opened for writing, if it cannot. -/
def obstacle? (path : String) (d : Disk) : Option Fault :=
  if path.toList.contains '\x00' then some .nullInPath
  else if hasLongName path then some (.longName path)
  else if endsInDirectory path || d.directories.contains path then some (.isDirectory path)
  else none

/-- The text of a file, whether or not a directory hides it. -/
def stored? (path : String) (d : Disk) : Option String :=
  (d.files.find? fun (p, _) => p == path).map (·.2)

/-- The text of a file that can be read. -/
def read? (path : String) (d : Disk) : Option String :=
  if (d.obstacle? path).isNone then d.stored? path else none

/-- The disk with a file of given text. -/
def write (path text : String) (d : Disk) : Disk :=
  { d with files := (path, text) :: d.files.filter fun (p, _) => p != path }

/-- The disk with text added at the end of a file, which is created if it is missing. -/
def append (path text : String) (d : Disk) : Except Fault Disk :=
  match d.obstacle? path with
  | none => .ok (d.write path ((d.stored? path).getD "" ++ text))
  | some f => .error f

/-- The disk with a directory in the place of a file. -/
def block (path : String) (d : Disk) : Disk := { d with directories := path :: d.directories }

/-- The disk without a directory that was put there. -/
def unblock (path : String) (d : Disk) : Disk :=
  { d with directories := d.directories.filter (· != path) }

@[simp] theorem stored?_write (path text : String) (d : Disk) :
    (d.write path text).stored? path = some text := by
  simp [write, stored?]

end Disk

end TypingTrace.Log
