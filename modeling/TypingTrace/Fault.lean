import TypingTrace.Value.Text

/-!
# Faults

Why an operation was refused. Every cause has a `kind`, under which it is reported and logged, and
a `text` for the reader. A calculator may also raise a fault of its own, which carries no more
than a kind and perhaps one argument (`Fault.raised`); its text can be empty, and then `report`
falls back to the kind written as a call.

The text of a fault may show values (`Fault.shown`). Where one of them cannot be written, the fault
does not come about: what is reported in its place is that an integer has too many digits.
-/

namespace TypingTrace

open Text

inductive Fault where
  -- Events and batches
  | notAnEvent (type : String)
  | unknownKind (v : Value)
  | missingTime
  | invalidTime (v : Value)
  | invalidPosition (field : String) (v : Value)
  | metadataShape
  | emptyBatch
  | oversizedBatch (limit : Value)
  -- Filters
  | notAKind (v : Value)
  | datesReversed
  | negativeLimit
  | negativeOffset
  | pageBounds
  -- Sessions
  | userRequired
  | sessionNotFound (id : Value)
  | projectMismatch (id : Value) (project : Value)
  | alreadySubmitted (id : Value)
  -- Metrics and their registry
  | emptyMetricId
  | notCallable (id : Value)
  | unknownCategory (category id : Value)
  | unexpectedField (name : String)
  | repeatedField (operation name : String)
  | duplicateMetric (id : Value)
  | registryFrozen (id : Value)
  -- Runs of the engine
  | nonNumeric (v : Value)
  | nonFinite (v : Value)
  | deadlineExceeded (timeout : Value)
  | workersNotPositive
  | schedulerClosed
  /-- What a calculator raises by itself, known by its kind and the text of its argument. Some kinds
  stand for an exceeded deadline. -/
  | raised (kind : String) (argument : Option String) (late : Bool := false)
  | tooManySeconds
  | secondsOutOfRange
  -- Files and texts
  | isDirectory (path : String)
  | longName (path : String)
  | nullInPath
  | notAPath (type : String)
  | unserializable (type : String)
  | notAFieldName (type : String)
  | loneHalves (place half length : Nat)
  | tooDeep (collection : String)
  -- Numbers
  | divisionByZero
  | floatDivisionByZero
  | fractionByZero (numerator : Int)
  | integerTooLarge
  | quotientTooLarge
  | nanToInteger
  | infinityToInteger
  | notAnInteger (v : Value)
  | tooManyDigits (digits : Nat)
  | longInteger
  | noInteger (type : String)
  | noIndex (type : String)
  | notAFloat (v : Value)
  | noFloat (type : String)
  | outOfBounds (n : Int) (type : String)
  -- Decimal formats
  | missingPrecision
  | endlessPrecision
  | oversizedPrecision
  | unreadFormat (format type : String)
  | decimalText
  | noFormat (type : String)
  -- Samples
  | raggedSamples (shape : List Nat)
  | deepSamples (limit : Nat)
  | noSamples
  | noLength (type : String)
  -- Values of an unfit type
  | unsupportedOperands (op left right : String)
  | unsupportedInputs (operation : String)
  | unmatchedInputs (operation left right : String)
  | truthSubtraction
  | concatenation (left right : String)
  | notOrdered (op left right : String)
  | mixedOffsets (action : String)
  | noAttribute (type name : String)
  | notIterable (type : String)
  | notASequence (place : Nat)
  | notAPair (place length : Nat)
  | notAContainer (type : String)
  | notSubscriptable (type : String)
  | noItemAssignment (type : String)
  | listIndex
  | textIndex
  | unhashable (type : String)

namespace Fault

/-- The values that the text of a fault shows. -/
def shown : Fault → List Value
  | unknownKind v | invalidTime v | invalidPosition _ v | oversizedBatch v | notAKind v
  | alreadySubmitted v | notCallable v | duplicateMetric v | registryFrozen v | nonNumeric v
  | nonFinite v | deadlineExceeded v | notAnInteger v | notAFloat v => [v]
  | projectMismatch v w | unknownCategory v w => [v, w]
  | fractionByZero n | outOfBounds n _ => [.int n]
  | _ => []

/-- Whether the text of a fault can be written. -/
def isWritable (f : Fault) : Bool := f.shown.all Value.isWritable

/-- The kind of a fault that can be written. -/
def ownKind : Fault → String
  | notAnEvent _ | unknownKind _ | missingTime | invalidTime _ | invalidPosition _ _
  | metadataShape => "MalformedEvent"
  | emptyBatch | oversizedBatch _ => "InvalidBatch"
  | notAKind _ | datesReversed | negativeLimit | negativeOffset | userRequired | emptyMetricId
  | unknownCategory _ _ | nonFinite _ | workersNotPositive | nanToInteger | notAnInteger _
  | notAFloat _ | tooManyDigits _ | longInteger | missingPrecision | endlessPrecision
  | oversizedPrecision | unreadFormat _ _ | decimalText | raggedSamples _ | deepSamples _
  | noSamples | notAPair _ _ | nullInPath => "ValueError"
  | sessionNotFound _ => "SessionNotFound"
  | projectMismatch _ _ => "SessionProjectMismatch"
  | alreadySubmitted _ => "SessionAlreadySubmitted"
  | duplicateMetric _ => "DuplicateMetricId"
  | registryFrozen _ => "RegistryFrozen"
  | deadlineExceeded _ => "TimeoutError"
  | schedulerClosed => "RuntimeError"
  | raised k _ _ => k
  | isDirectory _ => "IsADirectoryError"
  | longName _ => "OSError"
  | loneHalves _ _ _ => "UnicodeEncodeError"
  | tooDeep _ => "RecursionError"
  | divisionByZero | floatDivisionByZero | fractionByZero _ => "ZeroDivisionError"
  | integerTooLarge | quotientTooLarge | infinityToInteger | outOfBounds _ _ | tooManySeconds
  | secondsOutOfRange => "OverflowError"
  | noAttribute _ _ => "AttributeError"
  | unmatchedInputs _ _ _ => "UFuncTypeError"
  | pageBounds | notCallable _ | unexpectedField _ | repeatedField _ _ | nonNumeric _
  | unserializable _ | notAFieldName _ | notAPath _ | noInteger _ | noIndex _ | noFloat _
  | noFormat _ | noLength _ | concatenation _ _ | unsupportedOperands _ _ _ | unsupportedInputs _
  | truthSubtraction | notOrdered _ _ _ | mixedOffsets _ | notIterable _ | notASequence _
  | notAContainer _ | notSubscriptable _ | noItemAssignment _ | listIndex | textIndex
  | unhashable _ => "TypeError"

/-- The kind that a fault is reported under. -/
def kind (f : Fault) : String := if f.isWritable then f.ownKind else longInteger.ownKind

theorem kind_of_writable {f : Fault} (h : f.isWritable) : f.kind = f.ownKind := if_pos h

theorem kind_of_not_writable {f : Fault} (h : ¬ f.isWritable) : f.kind = "ValueError" := if_neg h

/-- The kind of a fault that can be written if something can that has all values it shows. -/
theorem kind_cases {f : Fault} {writable : Bool} (h : writable → f.isWritable) :
    f.kind = f.ownKind ∨ writable = false ∧ f.kind = "ValueError" := by
  cases hw : writable with
  | true => exact .inl (kind_of_writable (h hw))
  | false =>
    by_cases hf : f.isWritable
    · exact .inl (kind_of_writable hf)
    · exact .inr ⟨rfl, kind_of_not_writable hf⟩

/-- The kinds whose text is their argument in quotes, as it is a key that was looked up. -/
def quotesArgument (kind : String) : Bool := kind == "KeyError" || kind == "SessionNotFound"

private def objectText (type rest : String) : String := quoted type ++ " object " ++ rest

/-- The lengths of lists inside lists, from outside. -/
private def shapeText : List Nat → String
  | [n] => "(" ++ natText n ++ ",)"
  | shape => "(" ++ String.intercalate ", " (shape.map natText) ++ ")"

/-- The place of halves of surrogate pairs that stand together. -/
private def halvesText (place half length : Nat) : String :=
  if length = 1 then
    "character " ++ quoted (String.singleton (ofHalf half)) ++ " in position " ++ natText place
  else "characters in position " ++ natText place ++ "-" ++ natText (place + length - 1)

/-- What is wrong, in words that can be written. -/
def ownText : Fault → String
  | notAnEvent type => "Event must be an object, got " ++ type
  | unknownKind v => "Unknown eventType: " ++ v.quote
  | missingTime => "Missing timestamp"
  | invalidTime v => "Invalid timestamp: " ++ v.quote
  | invalidPosition field v => field ++ " must be a non-negative integer, got " ++ v.quote
  | metadataShape => "metadata must be an object"
  | emptyBatch => "No events provided"
  | oversizedBatch limit =>
    "Too many events. Maximum " ++ limit.inserted ++ " events per batch."
  | notAKind v => v.quote ++ " is not a valid EventType"
  | datesReversed => "Start date must be before end date"
  | negativeLimit => "limit must be non-negative"
  | negativeOffset => "offset must be non-negative"
  | pageBounds => "slice indices must be integers or None or have an __index__ method"
  | userRequired => "External user ID is required"
  | sessionNotFound id => id.quote
  | projectMismatch id project =>
    "Session " ++ id.inserted ++ " does not belong to project " ++ project.inserted
  | alreadySubmitted id => "Session " ++ id.inserted ++ " already submitted"
  | emptyMetricId => "Metric id must be a non-empty string"
  | notCallable id => "Calculator for " ++ id.quote ++ " is not callable"
  | unknownCategory category id => "Unknown category " ++ category.quote ++ " for " ++ id.quote
  | unexpectedField name =>
    "MetricDefinition.__init__() got an unexpected keyword argument " ++ quoted name
  | repeatedField operation name =>
    operation ++ " got multiple values for argument " ++ quoted name
  | duplicateMetric id => "Metric id " ++ id.quote ++ " is already registered"
  | registryFrozen id => "Cannot register " ++ id.quote ++ ": registry is frozen"
  | nonNumeric v => "Calculator returned non-numeric value " ++ v.quote
  | nonFinite v => "Calculator returned non-finite value " ++ v.quote
  | deadlineExceeded timeout => "Calculator exceeded " ++ timeout.inserted ++ "s deadline"
  | workersNotPositive => "max_workers must be greater than 0"
  | schedulerClosed => "cannot schedule new futures after shutdown"
  | raised kind (some s) _ => if quotesArgument kind then quoted s else s
  | raised _ none _ => ""
  | tooManySeconds => "timestamp too large to convert to C _PyTime_t"
  | secondsOutOfRange => "timestamp out of range for platform time_t"
  | isDirectory path => "[Errno 21] Is a directory: " ++ quoted path
  | longName path => "[Errno 36] File name too long: " ++ quoted path
  | nullInPath => "embedded null byte"
  | notAPath type => "expected str, bytes or os.PathLike object, not " ++ type
  | unserializable type => "Object of type " ++ type ++ " is not JSON serializable"
  | notAFieldName type => "keys must be str, int, float, bool or None, not " ++ type
  | loneHalves place half length =>
    "'utf-8' codec can't encode " ++ halvesText place half length ++ ": surrogates not allowed"
  | tooDeep collection =>
    "maximum recursion depth exceeded while decoding a JSON " ++ collection ++
      " from a unicode string"
  | divisionByZero => "division by zero"
  | floatDivisionByZero => "float division by zero"
  | fractionByZero n => "Fraction(" ++ intText n ++ ", 0)"
  | integerTooLarge => "int too large to convert to float"
  | quotientTooLarge => "integer division result too large for a float"
  | nanToInteger => "cannot convert float NaN to integer"
  | infinityToInteger => "cannot convert float infinity to integer"
  | notAnInteger v =>
    "invalid literal for int() with base 10: " ++ String.ofList (v.quote.toList.take 200)
  | tooManyDigits digits =>
    "Exceeds the limit (4300 digits) for integer string conversion: value has " ++
      natText digits ++ " digits; use sys.set_int_max_str_digits() to increase the limit"
  | longInteger =>
    "Exceeds the limit (4300 digits) for integer string conversion; " ++
      "use sys.set_int_max_str_digits() to increase the limit"
  | noInteger type =>
    "int() argument must be a string, a bytes-like object or a real number, not " ++ quoted type
  | notAFloat v => "could not convert string to float: " ++ v.quote
  | noIndex type => quoted type ++ " object cannot be interpreted as an integer"
  | noFloat type => "float() argument must be a string or a real number, not " ++ quoted type
  | outOfBounds n type => "Python integer " ++ intText n ++ " out of bounds for " ++ type
  | missingPrecision => "Format specifier missing precision"
  | endlessPrecision => "Too many decimal digits in format string"
  | oversizedPrecision => "precision too big"
  | unreadFormat format type =>
    "Invalid format specifier '" ++ format ++ "' for object of type " ++ quoted type
  | decimalText => "Unknown format code 'f' for object of type 'str'"
  | noFormat type => "unsupported format string passed to " ++ type ++ ".__format__"
  | raggedSamples shape =>
    "setting an array element with a sequence. The requested array has an inhomogeneous shape " ++
      "after " ++ natText shape.length ++ " dimensions. The detected shape was " ++
      shapeText shape ++ " + inhomogeneous part."
  | deepSamples limit =>
    "setting an array element with a sequence. The requested array would exceed the maximum " ++
      "number of dimension of " ++ natText limit ++ "."
  | noSamples => "zero-size array to reduction operation minimum which has no identity"
  | noLength type => "object of type " ++ quoted type ++ " has no len()"
  | unsupportedOperands op left right =>
    "unsupported operand type(s) for " ++ op ++ ": " ++ quoted left ++ " and " ++ quoted right
  | unsupportedInputs operation =>
    "ufunc " ++ quoted operation ++ " not supported for the input types, and the inputs could " ++
      "not be safely coerced to any supported types according to the casting rule ''safe''"
  | unmatchedInputs operation left right =>
    "ufunc " ++ quoted operation ++ " did not contain a loop with signature matching types " ++
      "(" ++ left ++ ", " ++ right ++ ") -> None"
  | truthSubtraction =>
    "numpy boolean subtract, the `-` operator, is not supported, use the bitwise_xor, the `^` " ++
      "operator, or the logical_xor function instead."
  | concatenation left right =>
    "can only concatenate " ++ left ++ " (not \"" ++ right ++ "\") to " ++ left
  | notOrdered op left right =>
    quoted op ++ " not supported between instances of " ++ quoted left ++ " and " ++ quoted right
  | mixedOffsets action => "can't " ++ action ++ " offset-naive and offset-aware datetimes"
  | noAttribute type name => objectText type ("has no attribute " ++ quoted name)
  | notIterable type => objectText type "is not iterable"
  | notASequence place =>
    "cannot convert dictionary update sequence element #" ++ natText place ++ " to a sequence"
  | notAPair place length =>
    "dictionary update sequence element #" ++ natText place ++ " has length " ++ natText length ++
      "; 2 is required"
  | notAContainer type => "argument of type " ++ quoted type ++ " is not iterable"
  | notSubscriptable type => objectText type "is not subscriptable"
  | noItemAssignment type => objectText type "does not support item assignment"
  | listIndex => "list indices must be integers or slices, not str"
  | textIndex => "string indices must be integers, not 'str'"
  | unhashable type => "unhashable type: " ++ quoted type

/-- What is wrong, in words. -/
def text (f : Fault) : String := if f.isWritable then f.ownText else longInteger.ownText

/-- A fault written as a call of its kind. -/
def call : Fault → String
  | raised kind none _ => kind ++ "()"
  | f => f.kind ++ "(" ++ quoted f.text ++ ")"

/-- The text of a fault, or the call where the text is empty. -/
def report (f : Fault) : String := if f.text = "" then f.call else f.text

/-- Whether a fault stands for an exceeded deadline. -/
def isTimeout : Fault → Bool
  | raised _ _ late => late
  | deadlineExceeded _ => true
  | _ => false

end Fault

/-! ## Writing integers and values -/

/-- The text of an integer, unless it has too many digits. -/
def writeInt (n : Int) : Except Fault String :=
  if fitsDigits n then .ok (intText n) else .error .longInteger

theorem writeInt_of_fitsDigits {n : Int} (h : fitsDigits n) : writeInt n = .ok (intText n) :=
  if_pos h

/-- A value as it stands alone, unless an integer in it has too many digits. -/
def Value.write (v : Value) : Except Fault String :=
  if v.isWritable then .ok v.display else .error .longInteger

@[simp] theorem Value.write_text (s : String) : (text s).write = .ok s := rfl

/-! ## Steps -/

/-- What a sequence of two steps gives is given by the second. -/
theorem exists_of_bind_ok {ε α β : Type} {x : Except ε α} {f : α → Except ε β} {b : β}
    (h : x >>= f = .ok b) : ∃ a, x = .ok a ∧ f a = .ok b := by
  cases x with
  | error e => cases h
  | ok a => exact ⟨a, rfl, h⟩

/-! ## Steps that all succeed -/

theorem mapM_eq_ok {α β : Type} {f : α → Except Fault β} {g : α → β} {l : List α}
    (h : ∀ a ∈ l, f a = .ok (g a)) : l.mapM f = .ok (l.map g) := by
  induction l with
  | nil => rfl
  | cons a l ih =>
    rw [List.mapM_cons, h a List.mem_cons_self, ih fun b hb => h b (List.mem_cons_of_mem a hb)]
    rfl

theorem filterAuxM_eq_ok {α : Type} {f : α → Except Fault Bool} {p : α → Bool}
    (h : ∀ a, f a = .ok (p a)) (l kept : List α) :
    l.filterAuxM f kept = .ok ((l.filter p).reverse ++ kept) := by
  induction l generalizing kept with
  | nil => rfl
  | cons a l ih =>
    rw [List.filterAuxM, h a]
    show List.filterAuxM f l (bif p a then a :: kept else kept) = _
    rw [ih, List.filter_cons]
    cases p a <;> simp

theorem filterM_eq_ok {α : Type} {f : α → Except Fault Bool} {p : α → Bool}
    (h : ∀ a, f a = .ok (p a)) (l : List α) : l.filterM f = .ok (l.filter p) := by
  rw [List.filterM, filterAuxM_eq_ok h, List.append_nil]
  exact congrArg Except.ok (List.reverse_reverse _)

end TypingTrace
