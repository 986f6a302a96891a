import BlockScript.Fault
import BlockScript.Json.Reader

/-!
# Document files

A file that should hold a document may be missing, or hold something else.
-/

namespace BlockScript

inductive Document where
  | missing
  | malformed
  | value (v : Json)

namespace Document

def ofText (t : Text) : Document :=
  match Json.read? t with
  | some v => .value v
  | none => .malformed

def value? : Document → Option Json
  | .value v => some v
  | _ => none

def need : Document → Except Fault Json
  | .missing => .error .missingFile
  | .malformed => .error .notJson
  | .value v => .ok v

end Document
end BlockScript
