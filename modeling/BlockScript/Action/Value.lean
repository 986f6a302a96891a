import BlockScript.Action.GameValue
import BlockScript.Action.Mode
import BlockScript.Action.Name
import BlockScript.Formula.Placeholder
import BlockScript.Script.Error

/-!
# Argument values

A parameter has a mode that says what kind of item it takes. An argument is written as a literal, a variable or a
wrapped value such as `num(5)`; `wrapValue` writes it as the token for the mode.
-/

namespace BlockScript
namespace Value

/-! ### Parts of an argument -/

def wrapperHeads : List Text := texts
  ["text", "num", "var", "var_save", "arr", "arr_save", "array", "loc", "apple", "gamevalue", "gameval", "item"]

/-- A Latin name with parentheses behind it, which close at the end. -/
def wrapperPattern : Pattern :=
  .atStart ++ .group 1 (.char Formula.isLatinStart ++ .many (.char Formula.isLatinWord)) ++ .blanks
    ++ .lit "(" ++ .rest ++ .lit ")" ++ .blanks ++ .atEnd

def wrapperHead? (v : Text) : Option Text :=
  (wrapperPattern.match? v).bind fun m =>
    let head := Text.lower (m.group 1)
    if wrapperHeads.contains head then some head else none

/-- A call: a name, possibly with a module, and parentheses that close at the end. -/
def callPattern : Pattern :=
  .atStart ++ .many1 (.char isNameChar) ++ .opt (.lit "." ++ .many1 (.char isNameChar))
    ++ .blanks ++ .lit "(" ++ .rest ++ .lit ")" ++ .blanks ++ .atEnd

/-- Write the section sign for every ampersand; an escaped ampersand loses its backslash. -/
def ampersands : Text → Text
  | [] => []
  | '\\' :: '&' :: rest => '&' :: ampersands rest
  | '&' :: rest => '§' :: ampersands rest
  | c :: rest => c :: ampersands rest

def wrappedPattern (head : Text) : Pattern :=
  .atStart ++ .word head ++ .blanks ++ .lit "(" ++ .blanks
    ++ .group 1 .restLazy ++ .blanks ++ .lit ")" ++ .blanks ++ .atEnd

def typeKeyPattern : Pattern :=
  .atStart ++ .word "type" ++ .blanks ++ .lit "=" ++ .blanks
    ++ .group 1 (.many1 (.noneOf ",)")) ++ .blanks
    ++ .opt (.lit "," ++ .blanks ++ .group 2 .rest) ++ .atEnd

def normalizeItem (v : Text) : Text :=
  let raw := ampersands v.trim
  match (wrappedPattern "item").match? raw with
  | none => raw
  | some m =>
    match typeKeyPattern.match? (Text.trim (m.group 1)) with
    | none => raw
    | some t =>
      let rest := Text.trim (t.group 2)
      let tail : Text := if rest.isEmpty then [] else ", " ++ rest
      "item(" ++ Text.trim (t.group 1) ++ tail ++ ")"

/-- A location as a sheet of paper that carries it as its name. -/
def locationItem (v : Text) : Text :=
  let raw := ampersands (Text.unquote v.trim)
  let raw := Text.replace "\"" "\\\"" (Text.replace "\\" "\\\\" raw)
  "item(minecraft:paper, name=\"" ++ raw ++ "\")"

/-- The text is the name of a variable and not a number or a truth value. -/
def isVariable (t : Text) : Bool := isVarName t && (Formula.textValue? t).isNone

def refersToVariable (t : Text) : Bool := Formula.isPlaceholderVar t || isVariable t

def wrap (head v : Text) : Text := head ++ "(" ++ v ++ ")"

def headsOf : Mode → List Text
  | .variable => texts ["var", "var_save"]
  | .location => texts ["loc", "var", "var_save", "item"]
  | .array => texts ["arr", "arr_save", "array", "var", "var_save"]
  | .item | .block | .vector => texts ["item", "var", "var_save"]
  | _ => wrapperHeads

def nonNumberHeads : List Text := texts ["item", "loc", "arr", "arr_save", "array"]

/-! ### Tokens -/

open Script (Compile)

def wrapped (mode : Mode) (head v : Text) : Compile Text :=
  match mode with
  | .text =>
    if head == "text" then
      match (wrappedPattern "text").match? v with
      | some m => pure (wrap "text" (ampersands (m.group 1)))
      | none => pure (ampersands v)
    else pure (ampersands v)
  | .number =>
    if nonNumberHeads.contains head then throw (.wrongWrapper mode.name v head) else pure v
  | .variable => do
    if head == "item" then
      Script.warn ("VARIABLE-аргумент `" ++ v
        ++ "` передан как item(...): пропускаю как есть для runtime-совместимости")
      pure (normalizeItem v)
    else if !(headsOf mode).contains head then throw (.wrongWrapper mode.name v head)
    else pure v
  | .location =>
    if !(headsOf mode).contains head then throw (.wrongWrapper mode.name v head)
    else if head == "item" then pure (normalizeItem v)
    else if head == "loc" then
      let inner := match (wrappedPattern "loc").match? v with
        | some m => m.group 1
        | none => v
      pure (locationItem inner.trim)
    else pure v
  | .array =>
    if !(headsOf mode).contains head then throw (.wrongWrapper mode.name v head) else pure v
  | .item | .block | .vector =>
    if !(headsOf mode).contains head then throw (.wrongWrapper mode.name v head)
    else if head == "item" then pure (normalizeItem v)
    else pure v
  | .any | .other => pure v

def plain (mode : Mode) (v : Text) : Compile Text :=
  let bare := v.unquote
  match mode with
  | .text =>
    let shown := ampersands bare
    if !v.isQuoted && isVariable shown then pure (wrap "var" shown) else pure (wrap "text" shown)
  | .number =>
    if Formula.isPlaceholderVar bare then pure (wrap "var" bare)
    else if bare.contains '%' && bare.any fun c => ("+-*/()" : Text).contains c then
      throw (.placeholderExpression v)
    else if isVariable v then pure (wrap "var" v)
    else pure (wrap "num" v)
  | .variable => pure (wrap "var" v)
  | .location => pure (locationItem v)
  | .array => pure (wrap "arr" v)
  | .item | .block =>
    if refersToVariable bare then pure (wrap "var" bare) else pure (wrap "item" (ampersands v))
  | .vector => if refersToVariable bare then pure (wrap "var" bare) else pure (ampersands v)
  | .any => if refersToVariable bare then pure (wrap "var" bare) else pure v
  | .other => pure v

end Value
open Script (Compile)

def wrapValue (values : GameValues) (mode : Mode) (value : Text) : Compile Text :=
  let v := value.trim
  if v.isEmpty then pure []
  else match values.token? v with
    | some t => pure t
    | none =>
      match Value.wrapperHead? v with
      | some head => Value.wrapped mode head v
      | none => if Value.callPattern.fits v then throw (.nestedCall v) else Value.plain mode v

end BlockScript
