import BlockScript.Fault
import BlockScript.Json.Printer

/-!
# Tables keyed by values

A table whose keys are single values of a document: texts, numbers, truth values or null. Lists and records are no keys.
Keys are the same when the values are, so 1 and 1.0 are one key. In a document every key is written as a text.
-/

namespace BlockScript

abbrev Keyed (α : Type) := List (Json × α)

namespace Keyed
variable {α : Type}

def check : Json → Except Fault Json
  | .arr _ => .error .wrongKind
  | .obj _ => .error .wrongKind
  | v => .ok v

def get? (key : Json) (t : Keyed α) : Option α := (t.find? fun e => e.1.same key).map (·.2)

/-- Enter a value: in its place if the key is there, else at the end. -/
def set (key : Json) (v : α) : Keyed α → Keyed α
  | [] => [(key, v)]
  | (k, w) :: rest => if k.same key then (k, v) :: rest else (k, w) :: set key v rest

def keyText : Json → Text
  | .str t => t
  | v => v.inline

def toJson (f : α → Json) (t : Keyed α) : Json := .obj (t.map fun e => (keyText e.1, f e.2))

end Keyed
end BlockScript
