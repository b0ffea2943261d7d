import TypingTrace.Text.Bytes
import TypingTrace.Text.Lines

/-!
# Paths

A path is written with single slashes, without parts that are a lone point, and without a slash at
its end; the empty path is a lone point. Two slashes at the start, no more and no fewer, are kept. A
path without parts, or one whose last part goes up, leads to a directory.
-/

namespace TypingTrace.Log

open Text

/-- The slashes that a path starts with, as they are kept. -/
def rootOf : List Char → String
  | ['/', '/'] => "//"
  | '/' :: '/' :: c :: _ => if c = '/' then "/" else "//"
  | '/' :: _ => "/"
  | _ => ""

/-- The parts of a path. -/
def partsOf (path : String) : List String :=
  (splitAtChar '/' path).filter fun p => p != "" && p != "."

/-- A path in its normal form. -/
def normalPath (path : String) : String :=
  let written := rootOf path.toList ++ String.intercalate "/" (partsOf path)
  if written = "" then "." else written

/-- Whether a path cannot but lead to a directory. -/
def endsInDirectory (path : String) : Bool :=
  match (partsOf path).getLast? with
  | none => true
  | some name => name == ".."

/-- The number of bytes that a name may have. -/
def nameLimit : Nat := 255

/-- Whether a part of a path is longer than any name. -/
def isLongName (part : String) : Bool := nameLimit < (bytes part.toList).length

def hasLongName (path : String) : Bool := (partsOf path).any isLongName

/-- The part of a path before the first name that is too long. -/
def shortPart (path : String) : String :=
  rootOf path.toList ++
    String.intercalate "/" ((partsOf path).takeWhile fun name => !isLongName name)

/-- The parts above the last one: the directories that lead to a file. -/
def directoriesOf (path : String) : List String := (partsOf path).dropLast

example : normalPath "./a//b/" = "a/b" := by decide +kernel
example : normalPath "" = "." := by decide +kernel

end TypingTrace.Log
