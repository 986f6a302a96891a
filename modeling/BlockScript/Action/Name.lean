import BlockScript.Text.Category

/-!
# Names in scripts

Modules, functions and variables are named with letters, numerals and underscores of any script; everything in the
Cyrillic block counts. The name of a variable may also hold percent signs, for placeholders in it.
-/

namespace BlockScript

def isNameChar (c : Char) : Bool := isWordChar c || isCyrillic c

def isVarChar (c : Char) : Bool := isNameChar c || c == '%'

variable (t : Text)

def dropFeed : Text := if t.getLast? == some '\n' then t.dropLast else t

/-- The text is the name of a variable. A line feed at its end does not matter. -/
def isVarName : Bool :=
  let body := dropFeed t
  !body.isEmpty && body.all isVarChar

def isLatinName : Bool :=
  match t with
  | [] => false
  | c :: rest => (c.isAlpha || c == '_') && rest.all fun d => d.isAlphanum || d == '_'

/-! ### Calls -/

/-- What stands in the parentheses of a call, from behind the opening one to the end of the line. Behind the
closing one there may be a semicolon. -/
def argsToEnd? : Option Text :=
  let body := t.trimEnd
  let body := if body.getLast? == some ';' then Text.trimEnd body.dropLast else body
  if body.getLast? == some ')' && !body.contains '\n' then some body.dropLast else none

structure Call where
  module : Text
  func : Text
  args : Text
deriving DecidableEq

def afterParen? : Option Text :=
  match t.trimStart with
  | '(' :: rest => some rest
  | _ => none

namespace Call

def ofLine? (line : Text) : Option Call :=
  let t := line.trimStart
  let module := t.takeWhile isNameChar
  match t.drop module.length with
  | '.' :: t =>
    let func := t.takeWhile isNameChar
    if module.isEmpty || func.isEmpty then none
    else match (afterParen? (t.drop func.length)).bind argsToEnd? with
      | some args => some ⟨module, func, args⟩
      | none => none
  | _ => none

def toLine (c : Call) : Text := c.module ++ "." ++ c.func ++ "(" ++ c.args ++ ")"

end Call

/-- The name and the arguments of a call without a module, if a line consists of one. -/
def bareCall? (line : Text) : Option (Text × Text) :=
  let t := line.trimStart
  let name := t.takeWhile isNameChar
  if name.isEmpty then none
  else match (afterParen? (t.drop name.length)).bind argsToEnd? with
    | some args => some (name, args)
    | none => none

end BlockScript
