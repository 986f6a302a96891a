import BlockScript.Action.Placed

/-!
# Arithmetic

A formula becomes a list of arithmetic actions. Each action sets a variable to the sum, difference, product or
quotient of up to ten operands; a part of a formula that is no operand by itself is first computed into a variable
of its own. Sums and products are flattened on both sides, differences and quotients on the left.
-/

namespace BlockScript
open Script (Compile Error)
namespace Library

def call (lib : Library) (module func : Text) (args : List Text) : Compile Placed :=
  Placed.ofCall lib ⟨module, func, Text.joinWith ", " args⟩

def setValue (lib : Library) (target value : Text) : Compile Placed :=
  lib.call "var" "set_value" ["var=" ++ target, "value=" ++ value]

end Library
namespace Arithmetic

def maxOperands : Nat := 10

def actionName : BinOp → Text
  | .add => "set_sum"
  | .sub => "set_difference"
  | .mul => "set_product"
  | .div => "set_quotient"

/-- Operands by name, numbered from `n`; the first has no number. -/
def operandArgs (n : Nat) : List Text → List Text
  | [] => []
  | op :: ops => ("num" ++ (if n ≤ 1 then [] else Text.ofNat n) ++ "=" ++ op) :: operandArgs (n + 1) ops

variable (lib : Library)

def emit (op : BinOp) (target : Text) (operands : List Text) : Compile Placed :=
  lib.call "var" (actionName op) (("var=" ++ target) :: operandArgs 1 operands)

/-- Set `target` to the operation on any number of operands; too many are gathered in variables of their own, ten
at a time. `n` numbers those variables. -/
def emitAll (lib : Library) (op : BinOp) (target : Text) : Nat → Nat → List Text → Compile (List Placed)
  | 0, _, operands => do return [← emit lib op target operands]
  | fuel + 1, n, operands => do
    if operands.length ≤ maxOperands then return [← emit lib op target operands]
    else
      let acc : Text := "__mlcc_acc" ++ Text.ofNat n
      let first ← emit lib op (Value.wrap "var" acc) (operands.take maxOperands)
      let rest ← emitAll lib op target fuel (n + 1)
        (("num(%var(" ++ acc ++ ")%)") :: operands.drop maxOperands)
      return first :: rest

structure State where
  parts : Nat
  actions : List Placed

abbrev Lower (α : Type) := StateT State Compile α

def push (ps : List Placed) : Lower Unit := modify fun s => { s with actions := s.actions ++ ps }

def freshPart : Lower Text := do
  let n := (← get).parts + 1
  modify fun s => { s with parts := n }
  return "__mlcc_tmp" ++ Text.ofNat n

structure Lowered where
  /-- Emit actions that set a variable to the formula. -/
  into : Text → Lower Unit
  /-- The token of the formula as an operand; a part is computed first. -/
  operand : Lower Text
  /-- The tokens of the formula's operands under an operation. -/
  operands : BinOp → Lower (List Text)

variable (into : Text → Lower Unit)

/-- The use of a formula that `into` computes and that stands for itself as `operand`. Under an operation its
operands are those in `flat`, or else itself. -/
def uses (operand : Lower Text) (flat : BinOp → Option (Lower (List Text))) : Lowered where
  into := into
  operand := operand
  operands op := (flat op).getD do return [← operand]

/-- The operand of a formula that has to be computed into a variable first. -/
def part : Lower Text := do
  let v := Value.wrap "var" (← freshPart)
  into v
  return v

def assign (token : Lower Text) (target : Text) : Lower Unit := do
  push [← lib.setValue target (← token)]

/-- The operands of an operation that its right side gives: a difference or a quotient is not flattened there. -/
def rightOperands (op : BinOp) (b : Lowered) : Lower (List Text) :=
  match op with
  | .add | .mul => b.operands op
  | .sub | .div => do return [← b.operand]

def sides (op : BinOp) (a b : Lowered) : Lower (List Text) := do
  return (← a.operands op) ++ (← rightOperands op b)

/-- The use of a formula: by its value if it has one, else as `into` computes it. -/
def usesOf (f : Formula) (into : Text → Lower Unit) (flat : BinOp → Option (Lower (List Text))) : Lowered :=
  match f.value? with
  | some v =>
    let token : Lower Text := liftM (Formula.valueToken v)
    uses (assign lib token) token flat
  | none => uses into (part into) flat

def leaf (f : Formula) (token : Text) : Lowered :=
  let token : Lower Text := match f.value? with
    | some v => liftM (Formula.valueToken v)
    | none => return token
  uses (assign lib token) token fun _ => none

def lower (lib : Library) (names : Formula.Names) (f : Formula) : Lowered :=
  match f with
  | .int n => leaf lib f (Value.wrap "num" (Text.ofNat n))
  | .real x => leaf lib f (Value.wrap "num" x.render)
  | .truth b => leaf lib f (if b then "num(1)" else "num(0)")
  | .var name => leaf lib f (Value.wrap "var" (names.resolve name))
  | .sign .plus a =>
    let a := lower lib names a
    usesOf lib f a.into fun _ => none
  | .sign .minus a =>
    let a := lower lib names a
    usesOf lib f (fun target => do push (← emitAll lib .mul target 1 1 [← a.operand, "num(-1)"])) fun _ => none
  | .bin op a b =>
    let operands := sides op (lower lib names a) (lower lib names b)
    usesOf lib f (fun target => do
      let ops ← operands
      push (← emitAll lib op target ops.length 1 ops)) fun o => if o = op then some operands else none
  | .other => usesOf lib f (fun _ => throw Error.unsupportedFormula) fun _ => none

def warnCount (target : Text) (n : Nat) : Compile Unit :=
  if 1 < n then
    Script.warn ("formula for " ++ target ++ " compiled into " ++ Text.ofNat n ++ " actions (+"
      ++ Text.ofNat (n - 1) ++ ")")
  else pure ()

def compile (names : Formula.Names) (target : Text) (f : Formula) : Compile (List Placed) := do
  let ((), s) ← ((lower lib names f).into target).run ⟨0, []⟩
  warnCount target s.actions.length
  return s.actions

end Arithmetic
end BlockScript
