import BlockScript.Text.Pattern
import BlockScript.Formula.Value

/-!
# Placeholder variables in formulas

A variable may be named with a placeholder in front, `%selected%counter`. The expression language has no such
names, so each is hidden behind a name of its own, and a table tells what it stands for.
-/

namespace BlockScript.Formula

/-- Names with the placeholder variables they stand for, in the order of their first use. -/
abbrev Names := List (Text × Text)

namespace Names

/-- The variable a name stands for; a name that is not in the table stands for itself. -/
def resolve (names : Names) (name : Text) : Text := (names.lookup name).getD name

end Names

def isLatinStart (c : Char) : Bool := c.isAlpha || c == '_'

def isLatinWord (c : Char) : Bool := c.isAlphanum || c == '_'

def isSuffixChar (c : Char) : Bool := isLatinWord c || isCyrillic c

/-- A placeholder variable: a Latin name between percent signs and a name behind it. -/
def placeholderPattern : Pattern :=
  .lit "%" ++ .char isLatinStart ++ .many (.char isLatinWord) ++ .lit "%"
    ++ .many1 (.char isSuffixChar)

def isPlaceholderVar (t : Text) : Bool := (placeholderPattern.fullMatch? t).isSome

/-- Hide the given placeholder variables in a text, numbering their names from `n + 1`. -/
def hideAll : Nat → Text → List Text → Text × Names
  | _, t, [] => (t, [])
  | n, t, v :: vs =>
    let name : Text := "__mlccv" ++ Text.ofNat (n + 1)
    let (out, names) := hideAll (n + 1) (Text.replace v name t) vs
    (out, (name, v) :: names)

def hidePlaceholders (t : Text) : Text × Names :=
  hideAll 0 t ((placeholderPattern.findAll t).map Pattern.Match.text)

/-- The token of a single operand: a number, a variable, or the value of a constant formula. -/
def operandToken (names : Names) : Formula → Except Fault (Option Text)
  | .int n => .ok (some ("num(" ++ Text.ofNat n ++ ")"))
  | .real x => .ok (some ("num(" ++ x.render ++ ")"))
  | .truth b => .ok (some (if b then "num(1)" else "num(0)"))
  | .var name => .ok (some ("var(" ++ names.resolve name ++ ")"))
  | f =>
    match f.value? with
    | some v => do .ok (some (← valueToken v))
    | none => .ok none

end BlockScript.Formula
