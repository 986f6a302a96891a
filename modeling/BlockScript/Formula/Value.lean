import BlockScript.Fault
import BlockScript.Formula.Parser

/-!
# Values of constant formulas

A formula without variables has a value: every number in it is rounded to floating point and the operations are
carried out there. The value is written as an integer where it is one up to a billionth.
-/

namespace BlockScript.Formula

def BinOp.apply? : BinOp → Binary64 → Binary64 → Option Binary64
  | .add, x, y => some (x.add y)
  | .sub, x, y => some (x.sub y)
  | .mul, x, y => some (x.mul y)
  | .div, x, y => x.div? y

def Sign.apply : Sign → Binary64 → Binary64
  | .plus, x => x
  | .minus, x => x.neg

def truthValue (b : Bool) : Binary64 := Binary64.round false (if b then 1 else 0) 1

/-- The value of a formula without variables; none if it has a variable, a part that is not arithmetic, an
integer too large to round, or a division by zero. -/
def value? : Formula → Option Binary64
  | .int n => Binary64.ofInt? n
  | .real x => some x
  | .truth b => some (truthValue b)
  | .var _ => none
  | .sign s a => a.value?.map (Sign.apply s)
  | .bin op a b =>
    match a.value?, b.value? with
    | some x, some y => BinOp.apply? op x y
    | _, _ => none
  | .other => none

def textValue? (t : Text) : Option Binary64 := (parse? t).bind value?

/-! ### Factors -/

/-- The factors of a part of the formula `whole`; none if the part is no product of numbers. A negated product of
several factors is replaced by the negated value of the whole formula. -/
def factorsIn (whole : Formula) : Formula → Except Fault (Option (List Binary64))
  | .int n =>
    match Binary64.ofInt? n with
    | some x => .ok (some [x])
    | none => .error .tooLarge
  | .real x => .ok (some [x])
  | .truth b => .ok (some [truthValue b])
  | .sign s a => do
    match ← factorsIn whole a, s with
    | none, _ => .ok none
    | some fs, .plus => .ok (some fs)
    | some [x], .minus => .ok (some [x.neg])
    | some _, .minus =>
      match whole.value? with
      | some v => .ok (some [v.neg])
      | none => .error .wrongKind
  | .bin .mul a b => do
    let left ← factorsIn whole a
    let right ← factorsIn whole b
    match left, right with
    | some xs, some ys => .ok (some (xs ++ ys))
    | _, _ => .ok none
  | _ => .ok none

def factors (t : Text) : Except Fault (Option (List Binary64)) :=
  match parse? t with
  | some f => factorsIn f f
  | none => .ok none

def tolerance : Binary64 := Binary64.ofDecimal false 1 (-9)

/-- The text of a number: its integer part if it is an integer up to the tolerance, else its shortest decimal. -/
def valueText (x : Binary64) : Except Fault Text :=
  match x.truncate? with
  | none => .error (if x == .nan then .notANumber else .tooLarge)
  | some i =>
    let whole := Binary64.round (i < 0) i.natAbs 1
    if (x.sub whole).abs.lt tolerance then .ok (Text.ofInt i) else .ok x.render

def valueToken (x : Binary64) : Except Fault Text := do
  .ok ("num(" ++ (← valueText x) ++ ")")

end BlockScript.Formula
