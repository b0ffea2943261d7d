/-!
# Lines and blanks

A line ends with a line feed, a carriage return, or the two in this order; no other character
ends one. `lines` gives the lines without their ends, and no line after the last end.

Blanks are the white space of Unicode together with the four separators `0x1c` to `0x1f`. Around a
number the separators are no blanks (`isPadding`).
-/

namespace TypingTrace.Text

/-! ## Lines -/

/-- The lines of a text; `line` is what has been read of the first one, last character first. -/
def linesFrom (line : List Char) : List Char → List (List Char)
  | [] => if line.isEmpty then [] else [line.reverse]
  | '\r' :: '\n' :: rest => line.reverse :: linesFrom [] rest
  | '\r' :: rest => line.reverse :: linesFrom [] rest
  | '\n' :: rest => line.reverse :: linesFrom [] rest
  | c :: rest => linesFrom (c :: line) rest

def lines (s : String) : List String := (linesFrom [] s.toList).map String.ofList

/-- A text cut at each occurrence of one character; there is always a last piece. -/
def splitCharsFrom (mark : Char) (piece : List Char) : List Char → List (List Char)
  | [] => [piece.reverse]
  | c :: rest =>
    if c = mark then piece.reverse :: splitCharsFrom mark [] rest
    else splitCharsFrom mark (c :: piece) rest

def splitAtChar (mark : Char) (s : String) : List String :=
  (splitCharsFrom mark [] s.toList).map String.ofList

example : lines "a\r\nb\rc\n" = ["a", "b", "c"] := by decide +kernel
example : splitAtChar '.' "a..b" = ["a", "", "b"] := by decide +kernel

/-! ## Blanks -/

def isBlank (c : Char) : Bool :=
  let n := c.toNat
  (0x09 ≤ n && n ≤ 0x0d) || (0x1c ≤ n && n ≤ 0x20) || n == 0x85 || n == 0xa0 || n == 0x1680 ||
    (0x2000 ≤ n && n ≤ 0x200a) || n == 0x2028 || n == 0x2029 || n == 0x202f || n == 0x205f ||
    n == 0x3000

/-- Whether a character may stand around a number. -/
def isPadding (c : Char) : Bool := isBlank c && !(0x1c ≤ c.toNat && c.toNat ≤ 0x1f)

/-- The text without the characters of a class before and after it. -/
def trimChars (test : Char → Bool) (s : List Char) : List Char :=
  ((s.dropWhile test).reverse.dropWhile test).reverse

/-- The text without the blanks before and after it. -/
def stripChars (s : List Char) : List Char := trimChars isBlank s

def strip (s : String) : String := String.ofList (stripChars s.toList)

end TypingTrace.Text
