/-!
# Writing JSON

Objects and arrays are written either on one line without blanks, or with every part on a line of
its own, indented by two blanks for each open bracket. An empty one is a pair of brackets in both.
-/

namespace FlightRecorder

/-- How the parts of a text are set apart. -/
inductive JsonLayout
  | compact
  /-- On lines of their own; `depth` counts the brackets around. -/
  | indented (depth : Nat)
  deriving DecidableEq, Repr

namespace JsonLayout

/-- The layout inside one more bracket. -/
def inner : JsonLayout → JsonLayout
  | compact => compact
  | indented depth => indented (depth + 1)

/-- What stands before a part. -/
def lead : JsonLayout → List Char
  | compact => []
  | indented depth => '\n' :: List.replicate (2 * depth) ' '

/-- Parts between two brackets, with commas between them. -/
def enclose (layout : JsonLayout) (opening closing : Char) : List (List Char) → List Char
  | [] => [opening, closing]
  | parts =>
    [opening] ++ [','].intercalate (parts.map (layout.inner.lead ++ ·)) ++ layout.lead ++ [closing]

/-- A key and its value. The key must not need escapes. -/
def member (layout : JsonLayout) (key : String) (value : List Char) : List Char :=
  ['"'] ++ key.toList ++ ['"', ':'] ++ (if layout = .compact then [] else [' ']) ++ value

/-- An object with the given members. -/
def object (layout : JsonLayout) (members : List (List Char)) : List Char :=
  layout.enclose '\x7b' '\x7d' members

/-- An array with the given items. -/
def array (layout : JsonLayout) (items : List (List Char)) : List Char :=
  layout.enclose '[' ']' items

end JsonLayout

end FlightRecorder
