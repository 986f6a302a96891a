import BlockScript.Script.Arithmetic

/-!
# Conditions

The conditions of `if` and `iftext`: a variable exists, a number lies between bounds or on one side of a bound, a
text equals one of several. Each becomes one action of the library.
-/

namespace BlockScript
open Text (trim)
open Script (Compile)
namespace Operand

/-- A signed decimal number: its sign, the digits before the point and, if there is a point, those behind it. -/
def numberPattern : Pattern :=
  .opt (.anyOf "+-") ++ .many1 .digit
    ++ .opt (.lit "." ++ .many1 .digit)

def isNumber (t : Text) : Bool := (numberPattern.fullMatch? t).isSome

/-- A wrapped value: a Latin name and parentheses that close at the end. -/
def wrappedPattern : Pattern :=
  .atStart ++ .char Formula.isLatinStart ++ .many (.char Formula.isLatinWord) ++ .lit "("
    ++ .rest ++ .lit ")" ++ .atEnd

def numberToken (raw : Text) : Compile Text := do
  let s := trim raw
  if s.isEmpty then throw .emptyOperand
  let s := if s.isQuotedOrQuote then s.inner else s
  if isNumber s then
    if s.contains '.' then
      match Text.toReal? s with
      | some x => return Value.wrap "num" x.render
      | none => throw (.data .notANumber)
    else match s.toInt? with
      | some n => return Value.wrap "num" (Text.ofInt n)
      | none => throw (.data .notANumber)
  else if wrappedPattern.fits s then return s
  else return Value.wrap "var" s

def textToken (raw : Text) : Compile Text := do
  let s := trim raw
  if s.isEmpty then throw .emptyOperand
  else if s.isQuotedOrQuote then return Value.wrap "text" s.inner
  else if isNumber s then return Value.wrap "text" s
  else if wrappedPattern.fits s then return s
  else return Value.wrap "var" s

end Operand
namespace Condition

def varName : Pattern := .many1 (.char isVarChar)

/-- `exists(x)`. -/
def existsCall : Pattern :=
  .atStart ++ .alt (.word "ifexists") (.word "exists") ++ .blanks ++ .lit "("
    ++ .blanks ++ .group 1 varName ++ .blanks ++ .lit ")" ++ .blanks ++ .atEnd

/-- `exists x`. -/
def existsWord : Pattern :=
  .atStart ++ .alt (.word "ifexists") (.word "exists") ++ .blanks1 ++ .group 1 varName
    ++ .blanks ++ .atEnd

def existence? (t : Text) : Option Text :=
  match existsCall.match? t with
  | some m => some (m.group 1)
  | none => (existsWord.match? t).map fun m => m.group 1

def operator (ops : List String) : Pattern := .oneOf ((texts ops).map .lit)

/-- `a ≤ x ≤ b`. -/
def rangePattern : Pattern :=
  .atStart ++ .group 1 (.many1Lazy .any) ++ .blanks
    ++ .group 2 (operator ["<=", "<", ">=", ">"]) ++ .blanks ++ .group 3 varName ++ .blanks
    ++ .group 4 (operator ["<=", "<", ">=", ">"]) ++ .blanks
    ++ .group 5 (.many1Lazy .any) ++ .atEnd

/-- `a < b`. -/
def comparisonPattern : Pattern :=
  .atStart ++ .group 1 (.many1Lazy .any) ++ .blanks
    ++ .group 2 (operator [">=", "<=", ">", "<"]) ++ .blanks
    ++ .group 3 (.many1Lazy .any) ++ .atEnd

/-- A variable between two bounds, each of which may be taken in. -/
structure Range where
  middle : Text
  low : Text
  high : Text
  lowIn : Bool
  highIn : Bool

/-- The range that a text spells: two comparisons in the same direction. -/
def range? (t : Text) : Option Range :=
  match rangePattern.match? t with
  | none => none
  | some m =>
    let a := trim (m.group 1)
    let b := trim (m.group 5)
    let op1 := m.group 2
    let op2 := m.group 4
    let up (op : Text) := op == "<" || op == "<="
    if up op1 && up op2 then some ⟨m.group 3, a, b, op1 == "<=", op2 == "<="⟩
    else if !up op1 && !up op2 then some ⟨m.group 3, b, a, op2 == ">=", op1 == ">="⟩
    else none

variable (included : Bool)

def greaterLabel : Text := if included then "≥ (Больше или равно)" else "> (Больше)"

def lessLabel : Text := if included then "≤ (Меньше или равно)" else "< (Меньше)"

def greaterArg : Text := "tip_proverki_dlya_bolshe=\"" ++ greaterLabel included ++ "\""

def lessArg : Text := "tip_proverki_dlya_menshe=\"" ++ lessLabel included ++ "\""

variable (lib : Library)

def ofRange (r : Range) : Compile Placed := do
  let num ← Operand.numberToken r.middle
  let low ← Operand.numberToken r.low
  let high ← Operand.numberToken r.high
  lib.call "if_value" "number_2"
    ["num=" ++ num, "num2=" ++ low, "num3=" ++ high, greaterArg r.lowIn, lessArg r.highIn]

/-- The action that checks one comparison. A comparison that takes its bound in clicks for it. -/
def ofComparison (lhs op rhs : Text) : Compile Placed := do
  let num ← Operand.numberToken lhs
  let bound ← Operand.numberToken rhs
  if op == "<" || op == "<=" then
    lib.call "if_value" "number_2"
      (["num=" ++ num, "num3=" ++ bound] ++ if op == "<=" then [lessArg true] else [])
  else
    lib.call "if_value" "number_2"
      (["num=" ++ num, "num2=" ++ bound] ++ if op == ">=" then [greaterArg true] else [])

def isConditionCall (t : Text) : Bool :=
  t.startsWith "if_value." || t.startsWith "if_player." || t.startsWith "if_game."

/-- The action of an `if` condition; none if the condition begins like a call and is none. -/
def compile (text : Text) : Compile (Option Placed) := do
  let e := trim text
  if e.isEmpty then throw .emptyCondition
  match existence? e with
  | some v => return some (← lib.call "if_value" "var" ["var=" ++ Value.wrap "var" v])
  | none =>
    match range? e with
    | some r => return some (← ofRange lib r)
    | none =>
      match comparisonPattern.match? e with
      | some m =>
        return some (← ofComparison lib (trim (m.group 1)) (m.group 2) (trim (m.group 3)))
      | none => if isConditionCall e then placeLine lib e else throw (.unsupportedCondition e)

/-! ### Texts -/

/-- `target == options`. -/
def textPattern : Pattern :=
  .atStart ++ .group 1 (.many1Lazy .any) ++ .blanks ++ operator ["==", "="]
    ++ .blanks ++ .group 2 (.many1Lazy .any) ++ .atEnd

/-- What stands between options: the word `or`, or two bars. -/
def orPattern : Pattern := .alt (.wordEdge ++ .word "or" ++ .wordEdge) (.lit "||")

def optionArgs (n : Nat) : List Text → List Text
  | [] => []
  | v :: vs => ("text" ++ Text.ofNat n ++ "=" ++ v) :: optionArgs (n + 1) vs

/-- The action of an `iftext` condition. At most seven options are compared with. -/
def compileText (text : Text) : Compile Placed := do
  let e := trim text
  if e.isEmpty then throw .emptyTextCondition
  match textPattern.match? e with
  | none => throw .noTextComparison
  | some m =>
    let parts := ((orPattern.split (trim (m.group 2))).map trim).filter (!·.isEmpty)
    if parts.isEmpty then throw .noTextOptions
    let target ← Operand.textToken (trim (m.group 1))
    let opts ← (parts.take 7).mapM Operand.textToken
    lib.call "if_value" "text" (("text=" ++ target) :: optionArgs 2 opts)

end Condition
end BlockScript
