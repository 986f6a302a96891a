import BlockScript.Table
import BlockScript.Number.Shortest

/-!
# JSON documents

A document is a value: null, a truth value, a number, a text, a list, or a record whose fields keep the order in
which they were written. A field written twice keeps its first place and takes its last value.
-/

namespace BlockScript

inductive Json where
  | null
  | bool (b : Bool)
  | int (n : Int)
  | real (x : Binary64)
  | str (t : Text)
  | arr (items : List Json)
  | obj (fields : List (Text × Json))

namespace Json

instance : Inhabited Json := ⟨.null⟩

abbrev Fields := Table Json

/-! ### Views -/

def text? : Json → Option Text
  | .str t => some t
  | _ => none

/-- The integer, if the value is one; a truth value counts as 1 or 0. -/
def int? : Json → Option Int
  | .int n => some n
  | .bool b => some (if b then 1 else 0)
  | _ => none

def items? : Json → Option (List Json)
  | .arr xs => some xs
  | _ => none

def fields? : Json → Option Fields
  | .obj fs => some fs
  | _ => none

/-- The value of a field; none if the value is no record or has no such field. -/
def field? (key : Text) : Json → Option Json
  | .obj fs => Table.get? key fs
  | _ => none

/-- A value that counts as something: not null, false, zero or empty. -/
def isTruthy : Json → Bool
  | .null => false
  | .bool b => b
  | .int n => n != 0
  | .real x => !x.isZero
  | .str t => !t.isEmpty
  | .arr xs => !xs.isEmpty
  | .obj fs => !fs.isEmpty

def isNull : Json → Bool
  | .null => true
  | _ => false

def ofOption : Option Text → Json
  | some t => .str t
  | none => .null

def texts (ts : List Text) : Json := .arr (ts.map .str)

/-! ### Equality -/

/-- The numbers among the values: integers, reals, and truth values as 1 and 0. -/
def number? : Json → Option (Sum Int Binary64)
  | .int n => some (.inl n)
  | .bool b => some (.inl (if b then 1 else 0))
  | .real x => some (.inr x)
  | _ => none

def sameNumber : Sum Int Binary64 → Sum Int Binary64 → Bool
  | .inl a, .inl b => a == b
  | .inr a, .inr b => a.eq b
  | .inl a, .inr b => (Binary64.round (a < 0) a.natAbs 1).eq b && b.truncate? == some a
  | .inr a, .inl b => (Binary64.round (b < 0) b.natAbs 1).eq a && a.truncate? == some b

mutual

/-- Equality of values. Numbers of different kinds may be equal, and the order of fields does not matter. -/
def same : Json → Json → Bool
  | .null, .null => true
  | .str s, .str t => s == t
  | .arr xs, .arr ys => sameItems xs ys
  | .obj fs, .obj gs => fs.length == gs.length && sameFields fs gs
  | a, b =>
    match a.number?, b.number? with
    | some x, some y => sameNumber x y
    | _, _ => false

def sameItems : List Json → List Json → Bool
  | [], [] => true
  | x :: xs, y :: ys => same x y && sameItems xs ys
  | _, _ => false

/-- Every field of the first record has an equal value in the second. -/
def sameFields : List (Text × Json) → Fields → Bool
  | [], _ => true
  | (k, v) :: rest, gs =>
    (match Table.get? k gs with
      | some w => same v w
      | none => false) && sameFields rest gs

end

instance : BEq Json := ⟨same⟩

end Json
end BlockScript
