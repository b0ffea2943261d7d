import TypingTrace.Text.Digit
import TypingTrace.Text.Bytes
import TypingTrace.Text.Printable

/-!
# Quoted texts in messages

A text is quoted with single quotes, or with double quotes if it holds a single quote and no
double one. The backslash and the quote in use are escaped, line feed, carriage return and tab
have letters, and any other character without a visible form, as well as half of a surrogate pair,
is written by its code point in two, four or eight hexadecimal digits.
-/

namespace TypingTrace.Text

/-- The single quote. -/
def apostrophe : Char := Char.ofNat 39

def quotationMark : Char := '"'

/-- The mark that a text is quoted with. -/
def quoteMark (s : List Char) : Char :=
  if s.contains apostrophe && !s.contains quotationMark then quotationMark else apostrophe

/-- One character inside quotes. -/
def quoteChar (mark c : Char) : List Char :=
  if c = mark ∨ c = '\\' then ['\\', c]
  else if c = '\n' then ['\\', 'n']
  else if c = '\r' then ['\\', 'r']
  else if c = '\t' then ['\\', 't']
  else if isPrintable c then [c]
  else
    let n := codePoint c
    if n ≤ 0xff then '\\' :: 'x' :: hexChars 2 n
    else if n ≤ 0xffff then '\\' :: 'u' :: hexChars 4 n
    else '\\' :: 'U' :: hexChars 8 n

def quoteChars (s : List Char) : List Char :=
  let mark := quoteMark s
  mark :: s.flatMap (quoteChar mark) ++ [mark]

def quoted (s : String) : String := String.ofList (quoteChars s.toList)

end TypingTrace.Text
