import BlockScript.Console
import BlockScript.Fault

/-!
# The cipher

A text is hidden by moving every character on by the key, around a circle of code points. A last character tells the
key: it lies the key away from the mean of the moved characters, rounded to the nearest number, a half to the even one.
-/

namespace BlockScript.Cipher

/-- The number of code points on the circle. -/
def size : Nat := 55295

/-- The mean of some code points; none for no code points. -/
def mean? (ns : List Nat) : Option Nat :=
  if ns.isEmpty then none else some (Binary64.divNearest (ns.foldl (· + ·) 0) ns.length)

def codes (t : Text) : List Nat := t.map Char.toNat

def mean (t : Text) : Except Fault Nat := (mean? (codes t)).elim (.error .divisionByZero) .ok

def charAt (n : Int) : Except Fault Char := if n < 0 then .error .notANumber else .ok (Char.ofNat n.toNat)

def shift (key : Int) (c : Char) : Char := Char.ofNat ((c.toNat + key).emod size).toNat

/-- Hide a text. A key whose mark lies beyond the circle cannot be told. -/
def encrypt (key : Int) (t : Text) : Run Fault Text := do
  let moved := t.map (shift key)
  let m ← Run.ofExcept (mean moved)
  Run.say ("sred " ++ Text.ofNat m)
  let mark : Int := m + key
  Run.say (Text.ofInt mark)
  if size ≤ mark then throw .wrongKind
  return moved ++ [← Run.ofExcept (charAt mark)]

/-- What is written before a mark that lies beyond the circle. -/
def overflowSign : Char := '`'

/-- Find a hidden text: the key is the distance of the last character from the mean of the others. -/
def decrypt (t : Text) : Except Fault Text := do
  let moved := Text.without overflowSign t.dropLast
  let m ← mean moved
  let mark : Int := (t.getLast?.map fun c => (c.toNat : Int)).getD 0
  let key := mark - m + if t.contains overflowSign then (size : Int) else 0
  moved.mapM fun c => charAt (c.toNat - key.natAbs)

end BlockScript.Cipher
