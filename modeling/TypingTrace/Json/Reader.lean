import TypingTrace.Number.Reading
import TypingTrace.Text.Bytes
import TypingTrace.Value.Basic

/-!
# Reading JSON

A text holds one value, with white space around it and between its parts. A number without
fraction and exponent is an integer, any other is a double, and the words for NaN and the
infinities are numbers too. Of several fields with one name the last counts, at the place of the
first. Control characters must be escaped inside strings.

Every production takes the rest of the text and returns what it leaves; `readJson` runs them with
as much fuel as any text of its length can use. A text that holds no value is malformed, or what it
spells is beyond a limit: on the digits of an integer, or on the depth of nesting. The first of
these that the reader meets is its answer (`Rejection`). A malformed text is answered with what is
wrong and with the place, which is told by how much of the text is left there.
-/

namespace TypingTrace.Json

open Text

def isSpace (c : Char) : Bool := c == ' ' || c == '\n' || c == '\r' || c == '\t'

def skipSpace (s : List Char) : List Char := s.dropWhile isSpace

/-! ## Rejections -/

/-- Why a text holds no value. -/
inductive Rejection where
  /-- It is not JSON where so many of its characters are left. -/
  | malformed (complaint : String) (left : Nat)
  | beyondLimit (f : Fault)

/-- A text is malformed where `rest` is left of it. -/
def reject {α : Type} (complaint : String) (rest : List Char) : Except Rejection α :=
  .error (.malformed complaint rest.length)

/-- What is wrong with a text, and where: the line, the column, and the characters before it. -/
def Rejection.text (s : String) : Rejection → String
  | malformed complaint left =>
    let before := s.toList.take (s.length - left)
    let column := (before.reverse.takeWhile (· != '\n')).length + 1
    complaint ++ ": line " ++ natText (before.count '\n' + 1) ++ " column " ++ natText column ++
      " (char " ++ natText before.length ++ ")"
  | beyondLimit f => f.text

/-! ## Strings -/

/-- The character that a letter after a backslash stands for. -/
def unescape : Char → Option Char
  | '"' => some '"'
  | '\\' => some '\\'
  | '/' => some '/'
  | 'b' => some '\x08'
  | 'f' => some '\x0c'
  | 'n' => some '\n'
  | 'r' => some '\r'
  | 't' => some '\t'
  | _ => none

def hexDigit? (c : Char) : Option Nat :=
  if c.isDigit then some (c.toNat - 48)
  else if 'a' ≤ c ∧ c ≤ 'f' then some (c.toNat - 87)
  else if 'A' ≤ c ∧ c ≤ 'F' then some (c.toNat - 55)
  else none

/-- The code unit that four hexadecimal digits spell. -/
def codeUnit? (a b c d : Char) : Option Nat := do
  some ((((← hexDigit? a) * 16 + (← hexDigit? b)) * 16 + (← hexDigit? c)) * 16 + (← hexDigit? d))

/-- The code unit of four hexadecimal digits at the start of a text that goes on after them. -/
def readUnit : List Char → Option (Nat × List Char)
  | a :: b :: c :: d :: next :: rest => (codeUnit? a b c d).map fun u => (u, next :: rest)
  | _ => none

theorem length_of_readUnit {s rest : List Char} {u : Nat} (h : readUnit s = some (u, rest)) :
    rest.length + 4 = s.length := by
  unfold readUnit at h
  split at h
  · obtain ⟨v, -, hv⟩ := Option.map_eq_some_iff.1 h
    obtain ⟨-, rfl⟩ := Prod.mk.inj hv
    simp
  · cases h

/-- The character of an escape by code units, from behind its `u`, and the rest of the text. A high
half and a low half that follow each other are one character. -/
def readPoint (s : List Char) : Except Rejection (Char × List Char) :=
  match readUnit s with
  | none => reject "Invalid \\uXXXX escape" ('u' :: s)
  | some (u, rest) =>
    match isHighHalf u, rest with
    | true, '\\' :: 'u' :: more =>
      match readUnit more with
      | none => reject "Invalid \\uXXXX escape" ('u' :: more)
      | some (v, after) => .ok (if isLowHalf v then (ofPair u v, after) else (ofUnit u, rest))
    | _, _ => .ok (ofUnit u, rest)

theorem length_of_readPoint {s rest : List Char} {c : Char} (h : readPoint s = .ok (c, rest)) :
    rest.length ≤ s.length := by
  unfold readPoint at h
  split at h
  · cases h
  · rename_i u after hfirst
    have hafter := length_of_readUnit hfirst
    split at h
    · rename_i more _
      split at h
      · cases h
      · rename_i v _ hsecond
        have hmore := length_of_readUnit hsecond
        simp only [List.length_cons] at hafter
        have hread := Except.ok.inj h
        by_cases hlow : isLowHalf v
        · rw [if_pos hlow] at hread
          obtain ⟨-, rfl⟩ := Prod.mk.inj hread
          omega
        · rw [if_neg hlow] at hread
          obtain ⟨-, rfl⟩ := Prod.mk.inj hread
          simp only [List.length_cons]
          omega
    · cases h
      omega

/-- The rest of a string up to its closing quote; `read` holds what comes before, last character
first, and `opening` is how much of the text was left at the opening quote. -/
def readText (opening : Nat) (read : List Char) :
    List Char → Except Rejection (List Char × List Char)
  | [] | ['\\'] => .error (.malformed "Unterminated string starting at" opening)
  | '"' :: rest => .ok (read.reverse, rest)
  | '\\' :: 'u' :: rest =>
    match _h : readPoint rest with
    | .error rejection => .error rejection
    | .ok (c, after) => readText opening (c :: read) after
  | '\\' :: c :: rest =>
    match unescape c with
    | some x => readText opening (x :: read) rest
    | none => reject "Invalid \\escape" ('\\' :: c :: rest)
  | c :: rest =>
    if c.toNat < 0x20 then reject "Invalid control character at" (c :: rest)
    else readText opening (c :: read) rest
termination_by s => s.length
decreasing_by
  · have hrest := length_of_readPoint _h
    simp only [List.length_cons]
    omega
  all_goals simp only [List.length_cons]; omega

/-! ## Numbers -/

/-- The integer part: a lone zero, or digits that start with another one. -/
def readWhole (s : List Char) : Option (List Nat × List Char) :=
  match s with
  | '0' :: rest => some ([0], rest)
  | _ => match takeDigits s with
    | ([], _) => none
    | (ds, rest) => some (ds, rest)

/-- The fraction, if there is one: a point with digits after it. -/
def readFraction (s : List Char) : Option (List Nat × List Char) :=
  match s with
  | '.' :: rest => match takeDigits rest with
    | ([], _) => none
    | (ds, rest) => some (ds, rest)
  | _ => none

/-- The exponent, if there is one. -/
def readPower (s : List Char) : Option (Int × List Char) :=
  match s with
  | c :: rest =>
    if c = 'e' ∨ c = 'E' then
      let (negative, rest) := takeSign rest
      match takeDigits rest with
      | ([], _) => none
      | (ds, rest) => some (if negative then -(ofDigits ds : Int) else ofDigits ds, rest)
    else none
  | [] => none

/-- An integer of given digits. -/
def readInteger (negative : Bool) (digits : List Nat) (rest : List Char) :
    Except Rejection (Value × List Char) :=
  match checkDigits digits.length with
  | .error f => .error (.beyondLimit f)
  | .ok () => .ok (.int (if negative then -(ofDigits digits : Int) else ofDigits digits), rest)

/-- A number without sign; `negative` is the sign that stood before it. The text where it starts,
with its sign, is `start`. -/
def readUnsigned (start : List Char) (negative : Bool) (s : List Char) :
    Except Rejection (Value × List Char) :=
  match readWhole s with
  | none => reject "Expecting value" start
  | some (whole, rest) =>
    let (fraction, rest) := (readFraction rest).getD ([], rest)
    match readPower rest with
    | none =>
      if fraction.isEmpty then readInteger negative whole rest
      else
        let x := ofDecimal (ofDigits (whole ++ fraction)) (-fraction.length)
        .ok (.float (if negative then -x else x), rest)
    | some (power, rest) =>
      let x := ofDecimal (ofDigits (whole ++ fraction)) (power - fraction.length)
      .ok (.float (if negative then -x else x), rest)

/-- The text after a given word, which stands for a value. -/
def readWord (word : String) (v : Value) (s : List Char) :
    Except Rejection (Value × List Char) :=
  if word.toList.isPrefixOf s then .ok (v, s.drop word.length) else reject "Expecting value" s

/-- A word that stands for a value, or a number. -/
def readAtom (s : List Char) : Except Rejection (Value × List Char) :=
  match s with
  | 'n' :: _ => readWord "null" .null s
  | 't' :: _ => readWord "true" (.bool true) s
  | 'f' :: _ => readWord "false" (.bool false) s
  | 'N' :: _ => readWord "NaN" (.float notANumber) s
  | 'I' :: _ => readWord "Infinity" (.float infinity) s
  | '-' :: 'I' :: _ => readWord "-Infinity" (.float (-infinity)) s
  | '-' :: rest => readUnsigned s true rest
  | _ => readUnsigned s false s

/-! ## Values -/

/-- How deep lists and objects may be nested. -/
def depthLimit : Nat := 990

/-- A fault unless there is room for one more list or object inside the others. -/
def checkDepth (room : Nat) (collection : String) : Except Rejection Unit :=
  if room = 0 then .error (.beyondLimit (.tooDeep collection)) else .ok ()

mutual

/-- A value at the start of the text, with room for so many levels of nesting. -/
def readValue (room : Nat) : Nat → List Char → Except Rejection (Value × List Char)
  | 0, s => reject "Expecting value" s
  | fuel + 1, s =>
    match s with
    | '"' :: rest => do
      let (text, rest) ← readText s.length [] rest
      return (.text (String.ofList text), rest)
    | '[' :: rest => do
      checkDepth room "array"
      match skipSpace rest with
      | ']' :: rest => return (.list [], rest)
      | rest =>
        let (items, rest) ← readItems (room - 1) fuel rest
        return (.list items, rest)
    | '\x7b' :: rest => do
      checkDepth room "object"
      match skipSpace rest with
      | '\x7d' :: rest => return (.object [], rest)
      | rest =>
        let (fields, rest) ← readFields (room - 1) fuel rest
        return (.object (Fields.ofList fields), rest)
    | _ => readAtom s

/-- The items of a list up to its closing bracket; there is at least one. -/
def readItems (room : Nat) : Nat → List Char → Except Rejection (List Value × List Char)
  | 0, s => reject "Expecting value" s
  | fuel + 1, s => do
    let (v, rest) ← readValue room fuel s
    match skipSpace rest with
    | ']' :: rest => return ([v], rest)
    | ',' :: rest =>
      let (items, rest) ← readItems room fuel (skipSpace rest)
      return (v :: items, rest)
    | rest => reject "Expecting ',' delimiter" rest

/-- The fields of an object up to its closing brace; there is at least one. -/
def readFields (room : Nat) :
    Nat → List Char → Except Rejection (List (String × Value) × List Char)
  | 0, s => reject "Expecting value" s
  | fuel + 1, s =>
    match s with
    | '"' :: rest => do
      let (name, rest) ← readText s.length [] rest
      match skipSpace rest with
      | ':' :: rest =>
        let (v, rest) ← readValue room fuel (skipSpace rest)
        let field := (String.ofList name, v)
        match skipSpace rest with
        | '\x7d' :: rest => return ([field], rest)
        | ',' :: rest =>
          let (fields, rest) ← readFields room fuel (skipSpace rest)
          return (field :: fields, rest)
        | rest => reject "Expecting ',' delimiter" rest
      | rest => reject "Expecting ':' delimiter" rest
    | _ => reject "Expecting property name enclosed in double quotes" s

end

/-- The value that a whole text spells. A mark of byte order may not stand before it. -/
def readJson (s : String) : Except Rejection Value := do
  let chars := s.toList
  if chars.head? = some '\ufeff' then
    reject "Unexpected UTF-8 BOM (decode using utf-8-sig)" chars
  else
    let (v, rest) ← readValue depthLimit (2 * chars.length + 2) (skipSpace chars)
    if (skipSpace rest).isEmpty then return v else reject "Extra data" (skipSpace rest)

end TypingTrace.Json
