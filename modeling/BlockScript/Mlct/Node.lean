import BlockScript.Mlct.Value

/-!
# Nodes

The parser turns a program into a flat list of nodes: lines of code open and close, actions and their arguments stand in
between, and so do the levels of conditions.
-/

namespace BlockScript.Mlct

inductive Node where
  /-- What starts a line of code, with how often it repeats. -/
  | activator (handler variant : Text) (delay : Option Text)
  | openLine
  | closeLine
  /-- An action or a condition, with the group of objects that it selects. -/
  | action (handler : Text) (variant group : Option Text)
  | closeAction
  | modifier (name : Text)
  | argument (name : Text)
  | value (v : Slot)
  | openList
  | closeList
  | openLevel
  | closeLevel
  | comment (name : Text) (values : List Text)

namespace Node

def describe (type : Text) (variant value : Option Text) (other : Json.Fields) : Text :=
  let variant : Text := match variant with
    | some t => "<" ++ t ++ ">"
    | none => []
  let value : Text := match value with
    | some t => ": '" ++ t ++ "'"
    | none => []
  let other : Text := if other.isEmpty then [] else " " ++ (Json.obj other).shown
  "Node(" ++ type ++ variant ++ value ++ other ++ ")"

/-- A node that a document describes as it is shown; null stands for what is not there. -/
def describeJson (type variant value : Json) (other : Json.Fields) : Text :=
  let given (v : Json) : Option Text := if v.isNull then none else some v.spell
  describe type.spell (given variant) (given value) (other.filter fun f => !f.2.isNull)

def field (key : Text) (v : Option Text) : Json.Fields := (v.map fun t => (key, Json.str t)).toList

def shown : Node → Except Fault Text
  | activator h v delay => .ok (describe "ACTIVATOR" (some h) (some v) (field "delay" delay))
  | openLine => .ok (describe "OPEN_LINE" (some "OPEN_LINE") none [])
  | closeLine => .ok (describe "CLOSE_LINE" none none [])
  | action h v group => .ok (describe "ACTION" (some h) v (field "selectionCondition" group))
  | closeAction => .ok (describe "CLOSE_ACTION" none none [])
  | modifier name => .ok (describe "BRACE_VALUE" none (some name) [])
  | argument name => .ok (describe "PARENT" none (some name) [])
  | value v => do return describe "VALUE" none (some (← v.shown)) []
  | openList => .ok (describe "OPEN_LIST" none none [])
  | closeList => .ok (describe "CLOSE_LIST" none none [])
  | openLevel => .ok (describe "ADD_CONDITION_LEVEL" none none [])
  | closeLevel => .ok (describe "END_CONDITION_LEVEL" none none [])
  | comment name values =>
    .ok (describe "GLOBAL_COMMENT" (some name) (some (Json.texts values).shown) [])

end Node
end BlockScript.Mlct
