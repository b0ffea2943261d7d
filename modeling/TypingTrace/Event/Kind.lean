/-!
# Kinds of interaction

The closed set of interactions that a capture layer reports, their names on the wire, and the four
families they fall into.
-/

namespace TypingTrace

inductive EventKind where
  | keydown | keyup | paste | copy | cut | focus | blur | input | delete | select
  | fontFamilyChange | fontSizeChange | textColorChange | highlightColorChange | bold | italic
  | underline | strikethrough | code | subscript | superscript | headingChange | listCreate
  | listDelete | listIndent | listOutdent | listItemCheck | alignmentChange | findOpen
  | findSearch | findNext | findPrevious | replace | replaceAll | findClose | lineSpacingChange
  | indentChange | clearFormatting
  deriving DecidableEq, Repr

namespace EventKind

/-- Every kind, in the order of declaration. -/
def all : List EventKind := [
  .keydown, .keyup, .paste, .copy, .cut, .focus, .blur, .input, .delete, .select,
  .fontFamilyChange, .fontSizeChange, .textColorChange, .highlightColorChange, .bold, .italic,
  .underline, .strikethrough, .code, .subscript, .superscript, .headingChange, .listCreate,
  .listDelete, .listIndent, .listOutdent, .listItemCheck, .alignmentChange, .findOpen,
  .findSearch, .findNext, .findPrevious, .replace, .replaceAll, .findClose, .lineSpacingChange,
  .indentChange, .clearFormatting]

/-- The name of a kind on the wire. -/
def name : EventKind → String
  | .keydown => "keydown"
  | .keyup => "keyup"
  | .paste => "paste"
  | .copy => "copy"
  | .cut => "cut"
  | .focus => "focus"
  | .blur => "blur"
  | .input => "input"
  | .delete => "delete"
  | .select => "select"
  | .fontFamilyChange => "font-family-change"
  | .fontSizeChange => "font-size-change"
  | .textColorChange => "text-color-change"
  | .highlightColorChange => "highlight-color-change"
  | .bold => "bold"
  | .italic => "italic"
  | .underline => "underline"
  | .strikethrough => "strikethrough"
  | .code => "code"
  | .subscript => "subscript"
  | .superscript => "superscript"
  | .headingChange => "heading-change"
  | .listCreate => "list-create"
  | .listDelete => "list-delete"
  | .listIndent => "list-indent"
  | .listOutdent => "list-outdent"
  | .listItemCheck => "list-item-check"
  | .alignmentChange => "alignment-change"
  | .findOpen => "find-open"
  | .findSearch => "find-search"
  | .findNext => "find-next"
  | .findPrevious => "find-previous"
  | .replace => "replace"
  | .replaceAll => "replace-all"
  | .findClose => "find-close"
  | .lineSpacingChange => "line-spacing-change"
  | .indentChange => "indent-change"
  | .clearFormatting => "clear-formatting"

/-- The kind with a given name. -/
def ofName? (s : String) : Option EventKind := all.find? fun k => k.name == s

/-- The symbol of a kind: its name in capitals, with underscores for hyphens. -/
def symbol (k : EventKind) : String :=
  String.ofList (k.name.toList.map fun c => if c = '-' then '_' else c.toUpper)

/-! ## Families -/

/-- Typing, the clipboard, and the focus of the field. -/
def isInput : EventKind → Bool
  | .keydown | .keyup | .paste | .copy | .cut | .focus | .blur | .input | .delete | .select => true
  | _ => false

/-- Fonts, colours, styles, headings, alignment and indents. -/
def isFormatting : EventKind → Bool
  | .fontFamilyChange | .fontSizeChange | .textColorChange | .highlightColorChange | .bold
  | .italic | .underline | .strikethrough | .code | .subscript | .superscript | .headingChange
  | .alignmentChange | .lineSpacingChange | .indentChange | .clearFormatting => true
  | _ => false

/-- Changes of lists. -/
def isStructural : EventKind → Bool
  | .listCreate | .listDelete | .listIndent | .listOutdent | .listItemCheck => true
  | _ => false

/-- Searching and replacing. -/
def isFindReplace : EventKind → Bool
  | .findOpen | .findSearch | .findNext | .findPrevious | .replace | .replaceAll
  | .findClose => true
  | _ => false

/-! ## Names determine kinds -/

theorem ofName?_name (k : EventKind) : ofName? k.name = some k := by cases k <;> decide

theorem name_of_ofName? {s : String} {k : EventKind} (h : ofName? s = some k) : k.name = s := by
  simpa using List.find?_some h

theorem ofName?_eq_some_iff {s : String} {k : EventKind} : ofName? s = some k ↔ k.name = s :=
  ⟨name_of_ofName?, fun h => h ▸ ofName?_name k⟩

end EventKind

end TypingTrace
