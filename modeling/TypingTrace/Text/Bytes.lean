/-!
# Halves of surrogate pairs, and texts as bytes

A character above `0xffff` is written in JSON as two code units, a high and a low half. A text from
outside may hold one half without the other, and no `Char` is a half. So a half `u` that stands
alone is held by the character `0x100000 + u` of the last private plane (`ofHalf`), and whatever
writes, quotes or compares texts asks `half?` first.

A text is stored in UTF-8, one to four bytes a character. A half of a surrogate pair has no bytes,
and a text that holds one cannot be stored.
-/

namespace TypingTrace.Text

/-! ## Halves -/

/-- Whether a code unit is the first half of a pair. -/
def isHighHalf (u : Nat) : Bool := 0xd800 ≤ u && u < 0xdc00

/-- Whether a code unit is the second half of a pair. -/
def isLowHalf (u : Nat) : Bool := 0xdc00 ≤ u && u < 0xe000

/-- The character that holds a half. -/
def ofHalf (u : Nat) : Char := Char.ofNat (0x100000 + u)

/-- The character of a code unit; a half is held by a character of its own. -/
def ofUnit (u : Nat) : Char := if isHighHalf u || isLowHalf u then ofHalf u else Char.ofNat u

/-- The half that a character holds. -/
def half? (c : Char) : Option Nat :=
  let u := c.toNat - 0x100000
  if isHighHalf u || isLowHalf u then some u else none

/-- The character of a pair. -/
def ofPair (high low : Nat) : Char :=
  Char.ofNat (0x10000 + (high - 0xd800) * 0x400 + (low - 0xdc00))

/-- The code point that a character stands for in the order of texts. -/
def codePoint (c : Char) : Nat := (half? c).getD c.toNat

def codePoints (s : String) : List Nat := s.toList.map codePoint

example : half? (ofHalf 0xd800) = some 0xd800 := by decide
example : half? 'é' = none := by decide
example : ofPair 0xd83d 0xde00 = '😀' := by decide

/-! ## Bytes -/

/-- The bytes of a text, each held as the character of its number. -/
def bytes (s : List Char) : List Char :=
  s.flatMap fun c => (String.utf8EncodeChar c).map fun b => Char.ofNat b.toNat

/-- The number of bytes of the character whose first byte is given. -/
def widthFrom (first : Char) : Nat :=
  if first.toNat < 0x80 then 1
  else if first.toNat < 0xe0 then 2
  else if first.toNat < 0xf0 then 3
  else 4

/-- Whether every character of a text has bytes. -/
def isStorable (s : List Char) : Bool := s.all fun c => (half? c).isNone

/-- The first halves of a text that stand together: how many characters come before them, the first
of them, and their number. -/
def halves? (s : List Char) : Option (Nat × Nat × Nat) :=
  match s.dropWhile fun c => (half? c).isNone with
  | [] => none
  | c :: rest =>
    some ((s.takeWhile fun c => (half? c).isNone).length, codePoint c,
      1 + (rest.takeWhile fun c => (half? c).isSome).length)

example : bytes ['a', 'é'] = ['a', 'Ã', '©'] := by decide +kernel

end TypingTrace.Text
