import BlockScript.Text.Case

/-!
# Modes

A parameter has a mode that says what kind of item it takes.
-/

namespace BlockScript

inductive Mode where
  | text
  | number
  | variable
  | location
  | array
  | item
  | block
  | vector
  | any
  | other
deriving DecidableEq

namespace Mode

def names : List (Text × Mode) :=
  [("TEXT", .text), ("NUMBER", .number), ("VARIABLE", .variable), ("LOCATION", .location), ("ARRAY", .array),
   ("ITEM", .item), ("BLOCK", .block), ("VECTOR", .vector), ("ANY", .any)]

def ofText (t : Text) : Mode := (names.lookup t.upper).getD .other

def name (m : Mode) : Text := ((names.find? fun n => n.2 == m).map (·.1)).getD []

end Mode
end BlockScript
