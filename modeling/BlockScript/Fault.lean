import BlockScript.Json.Basic
import BlockScript.Number.Integer

/-!
# Faults in data

What goes wrong when a document does not have the shape that a step relies on, and the readers that report it.
-/

namespace BlockScript

/-- A document has the wrong shape for what is asked of it. -/
inductive Fault where
  | missingField (key : Text)
  | wrongKind
  /-- A value has no fields or methods of the name asked for. -/
  | notARecord
  | outOfRange
  | notANumber
  | tooLarge
  | divisionByZero
  | notJson
  | missingFile
  | isFolder
deriving DecidableEq

namespace Json

/-- The value of a field, null if the record lacks it. -/
def get (key : Text) : Json → Except Fault Json
  | .obj fs => .ok ((Table.get? key fs).getD .null)
  | _ => .error .notARecord

def need (key : Text) : Json → Except Fault Json
  | .obj fs =>
    match Table.get? key fs with
    | some v => .ok v
    | none => .error (.missingField key)
  | _ => .error .wrongKind

variable (v : Json)

/-- A text, where anything that counts as nothing is the empty text. -/
def asText : Except Fault Text :=
  if v.isTruthy then
    match v with
    | .str t => .ok t
    | _ => .error .wrongKind
  else .ok []

def getText (key : Text) (v : Json) : Except Fault Text := do
  asText (← v.get key)

/-- The fields of a record, where anything that counts as nothing is the empty record. -/
def asFields : Except Fault Fields :=
  if v.isTruthy then
    match v with
    | .obj fs => .ok fs
    | _ => .error .notARecord
  else .ok []

/-- The values a loop over `v` goes through, where anything that counts as nothing is the empty list: the
items of a list, the names of a record's fields, the characters of a text. -/
def asItems : Except Fault (List Json) :=
  if v.isTruthy then
    match v with
    | .arr xs => .ok xs
    | .obj fs => .ok (fs.map fun f => .str f.1)
    | .str t => .ok (t.map fun c => .str [c])
    | _ => .error .wrongKind
  else .ok []

/-- Whether `t` is among the items of a list, the names of a record's fields, or the parts of a text. -/
def mentions (t : Text) : Json → Except Fault Bool
  | .arr xs => .ok (xs.any fun x => x.same (.str t))
  | .obj fs => .ok (fs.any fun f => f.1 == t)
  | .str s => .ok (s.hasInfix t)
  | _ => .error .wrongKind

/-! ### Strict readers -/

def getOr (key : Text) (d : Json) : Except Fault Json :=
  match v with
  | .obj fs => .ok ((Table.get? key fs).getD d)
  | _ => .error .notARecord

def record : Json → Except Fault Fields
  | .obj fs => .ok fs
  | _ => .error .notARecord

/-- The values that a loop goes through: the items of a list, the names of a record's fields, the characters of a
text. -/
def loop : Json → Except Fault (List Json)
  | .arr xs => .ok xs
  | .obj fs => .ok (fs.map fun f => .str f.1)
  | .str t => .ok (t.map fun c => .str [c])
  | _ => .error .wrongKind

/-- The value at a place of a list, or the character at a place of a text. -/
def item (n : Nat) : Json → Except Fault Json
  | .arr xs => (xs[n]?).elim (.error .outOfRange) .ok
  | .str t => (t[n]?).elim (.error .outOfRange) fun c => .ok (.str [c])
  | .obj _ => .error (.missingField (Text.ofNat n))
  | _ => .error .wrongKind

def count : Json → Except Fault Nat
  | .arr xs => .ok xs.length
  | .obj fs => .ok fs.length
  | .str t => .ok t.length
  | _ => .error .wrongKind

def textOr (fault : Fault) : Json → Except Fault Text
  | .str t => .ok t
  | _ => .error fault

def asInt : Json → Except Fault Int
  | .int n => .ok n
  | .bool b => .ok (if b then 1 else 0)
  | .real x => match x.truncate? with
    | some n => .ok n
    | none => .error (match x with
      | .nan => .notANumber
      | _ => .tooLarge)
  | .str t => match t.toInt? with
    | some n => .ok n
    | none => .error .notANumber
  | _ => .error .wrongKind

def orElse (a b : Json) : Json := if a.isTruthy then a else b

end Json
end BlockScript
