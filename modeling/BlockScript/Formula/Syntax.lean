import BlockScript.Number.Shortest

/-!
# Formulas

A formula is an arithmetic expression over numbers and variables. Formulas are written in a larger expression
language; what that language has beyond arithmetic is read, and kept as `Formula.other`.
-/

namespace BlockScript

inductive Sign where
  | plus
  | minus
deriving DecidableEq

inductive BinOp where
  | add
  | sub
  | mul
  | div
deriving DecidableEq

inductive Formula where
  | int (n : Nat)
  | real (x : Binary64)
  | truth (b : Bool)
  | var (name : Text)
  | sign (s : Sign) (a : Formula)
  | bin (op : BinOp) (a b : Formula)
  | other
deriving DecidableEq

namespace Formula

def isArithmetic : Formula → Bool
  | .sign _ a => a.isArithmetic
  | .bin _ a b => a.isArithmetic && b.isArithmetic
  | .other => false
  | _ => true

/-- The formula is a sign or an operation applied to formulas. -/
def isCompound : Formula → Bool
  | .sign _ _ => true
  | .bin _ _ _ => true
  | _ => false

end Formula
end BlockScript
