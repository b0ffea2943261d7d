/-!
# Decimal digits

Every script's decimal digits come in runs of ten, zero first; `zeros` lists the zeros of
Unicode 14. Numbers in free text may be written in any of them. An integer of too many digits is
neither read nor written (`digitLimit`).
-/

namespace TypingTrace.Text

/-- The code points of the digits zero. -/
def zeros : List Nat := [
  0x30, 0x660, 0x6f0, 0x7c0, 0x966, 0x9e6, 0xa66, 0xae6, 0xb66, 0xbe6, 0xc66, 0xce6, 0xd66, 0xde6,
  0xe50, 0xed0, 0xf20, 0x1040, 0x1090, 0x17e0, 0x1810, 0x1946, 0x19d0, 0x1a80, 0x1a90, 0x1b50,
  0x1bb0, 0x1c40, 0x1c50, 0xa620, 0xa8d0, 0xa900, 0xa9d0, 0xa9f0, 0xaa50, 0xabf0, 0xff10, 0x104a0,
  0x10d30, 0x11066, 0x110f0, 0x11136, 0x111d0, 0x112f0, 0x11450, 0x114d0, 0x11650, 0x116c0,
  0x11730, 0x118e0, 0x11950, 0x11c50, 0x11d50, 0x11da0, 0x16a60, 0x16ac0, 0x16b50, 0x1d7ce,
  0x1d7d8, 0x1d7e2, 0x1d7ec, 0x1d7f6, 0x1e140, 0x1e2f0, 0x1e950, 0x1fbf0]

/-- The value of a decimal digit of any script. -/
def digit? (c : Char) : Option Nat :=
  (zeros.find? fun z => z ≤ c.toNat && c.toNat < z + 10).map (c.toNat - ·)

/-- The number that a list of digit values spells, most significant first. -/
def ofDigits (ds : List Nat) : Nat := ds.foldl (fun n d => 10 * n + d) 0

/-- The decimal digits of a natural number, as characters. -/
def natChars (n : Nat) : List Char := Nat.toDigits 10 n

def natText (n : Nat) : String := String.ofList (natChars n)

def intText (n : Int) : String :=
  if n < 0 then "-" ++ natText n.natAbs else natText n.natAbs

/-- The number of digits that an integer may have in a text, be it read or written. -/
def digitLimit : Nat := 4300

/-- Whether an integer has no more digits than it may have in a text. -/
def fitsDigits (n : Int) : Bool := (natChars n.natAbs).length ≤ digitLimit

/-- A natural number in at least `width` digits, zeros in front. -/
def paddedChars (width n : Nat) : List Char :=
  let ds := natChars n
  List.replicate (width - ds.length) '0' ++ ds

def padded (width n : Nat) : String := String.ofList (paddedChars width n)

/-- The digits of a number to base sixteen, in lower case, in at least `width` places. -/
def hexChars (width n : Nat) : List Char :=
  let ds := Nat.toDigits 16 n
  List.replicate (width - ds.length) '0' ++ ds

example : digit? '٣' = some 3 := by decide
example : padded 4 76 = "0076" := by decide

end TypingTrace.Text
