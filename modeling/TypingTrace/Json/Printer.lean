import TypingTrace.Value.Table

/-!
# Writing JSON

Fields stand in their order, a comma and a blank divide items, and a colon and a blank follow a
name. What else a writer decides is a `Style`: whether characters outside ASCII are escaped,
whether items stand on lines of their own, and whether a value that JSON does not know is written
as its text or refused.
-/

namespace TypingTrace.Json

open Text

structure Style where
  ascii : Bool
  indented : Bool
  lenient : Bool

/-- For people: escaped, one item a line. -/
def Style.report : Style := ⟨true, true, false⟩

/-- For programs: escaped, all on one line. -/
def Style.compact : Style := ⟨true, false, false⟩

/-- For lines of a log: characters as they are, and every value accepted. -/
def Style.line : Style := ⟨false, false, true⟩

/-! ## Strings -/

def unitText (u : Nat) : List Char := '\\' :: 'u' :: hexChars 4 u

/-- A character that is escaped by its code; above `0xffff` it takes two code units. -/
def codeText (n : Nat) : List Char :=
  if n < 0x10000 then unitText n
  else unitText (0xd800 + (n - 0x10000) / 0x400) ++ unitText (0xdc00 + (n - 0x10000) % 0x400)

/-- One character inside a string. -/
def charText (ascii : Bool) (c : Char) : List Char :=
  if c = '"' then ['\\', '"']
  else if c = '\\' then ['\\', '\\']
  else if c = '\n' then ['\\', 'n']
  else if c = '\r' then ['\\', 'r']
  else if c = '\t' then ['\\', 't']
  else if c = '\x08' then ['\\', 'b']
  else if c = '\x0c' then ['\\', 'f']
  else if c.toNat < 0x20 ∨ (ascii ∧ 0x7f ≤ c.toNat) then codeText (codePoint c)
  else [c]

def stringText (ascii : Bool) (s : String) : String :=
  String.ofList ('"' :: s.toList.flatMap (charText ascii) ++ ['"'])

/-! ## Values -/

def floatJson (x : Float) : String :=
  if x.isNaN then "NaN"
  else if x.isInf then if isNegative x then "-Infinity" else "Infinity"
  else floatText x

def lineBreak (depth : Nat) : String := String.ofList ('\n' :: List.replicate (2 * depth) ' ')

/-- Written items between brackets, at a given depth of nesting. -/
def enclose (style : Style) (depth : Nat) (opening closing : String) (items : List String) :
    String :=
  if items.isEmpty then opening ++ closing
  else if style.indented then
    let inner := lineBreak (depth + 1)
    opening ++ inner ++ String.intercalate ("," ++ inner) items ++ lineBreak depth ++ closing
  else opening ++ String.intercalate ", " items ++ closing

/-- A value that JSON does not know. -/
def foreignText (style : Style) (v : Value) : Except Fault String :=
  if style.lenient then v.write.map (stringText style.ascii)
  else .error (.unserializable v.shortTypeName)

mutual

def printAt (style : Style) (depth : Nat) : Value → Except Fault String
  | .null => .ok "null"
  | .bool b => .ok (if b then "true" else "false")
  | .int n => writeInt n
  | .float x => .ok (floatJson x)
  | .text s => .ok (stringText style.ascii s)
  | .list items => do
    return enclose style depth "[" "]" (← printItems style (depth + 1) items)
  | .object fields => do
    return enclose style depth "\x7b" "\x7d" (← printFields style (depth + 1) fields)
  | .kind k => .ok (stringText style.ascii k.name)
  | .scalar (.float64 x) => .ok (floatJson x)
  | v => foreignText style v

def printItems (style : Style) (depth : Nat) : List Value → Except Fault (List String)
  | [] => .ok []
  | v :: rest => do return (← printAt style depth v) :: (← printItems style depth rest)

def printFields (style : Style) (depth : Nat) :
    List (String × Value) → Except Fault (List String)
  | [] => .ok []
  | (k, v) :: rest => do
    let text := stringText style.ascii k ++ ": " ++ (← printAt style depth v)
    return text :: (← printFields style depth rest)

end

/-- The name of a field that a value gives: a text, a kind, or the JSON text of a number, a truth
value or null. -/
def fieldName (v : Value) : Except Fault String :=
  match v, v.asText with
  | _, some s => .ok s
  | .null, _ => .ok "null"
  | .bool b, _ => .ok (if b then "true" else "false")
  | .int n, _ => writeInt n
  | .float x, _ => .ok (floatJson x)
  | .scalar (.float64 x), _ => .ok (floatJson x)
  | v, none => .error (.notAFieldName v.shortTypeName)

/-- The fields that a table is written as. -/
def fieldsOf (t : Table) : Except Fault Fields :=
  t.mapM fun (key, v) => do return (← fieldName key, v)

/-- The JSON text of a value. -/
def print (style : Style) (v : Value) : Except Fault String := printAt style 0 v

end TypingTrace.Json
