import BlockScript.Assistant.Reference
import BlockScript.Text.Pattern

/-!
# Checking programs for the assistant

Before the assistant keeps a program, it looks for calls of unknown actions and for unknown named arguments. A call is
found by its shape, in a text without strings and comments.
-/

namespace BlockScript.Assistant

/-! ### Texts -/

/-- A text with blanks in place of its strings. `inString` and `escaped` tell about the characters before. -/
def blankStrings : Bool → Bool → Text → Text
  | _, _, [] => []
  | true, true, _ :: rest => ' ' :: blankStrings true false rest
  | true, false, c :: rest => ' ' :: blankStrings (c != '"') (c == '\\') rest
  | false, _, c :: rest => if c == '"' then ' ' :: blankStrings true false rest else c :: blankStrings false false rest

variable (t : Text)

def codeOnly : Text :=
  Text.joinLines ((Text.lines (blankStrings false false t)).map fun l => l.takeWhile (· != '#'))

structure Reader where
  inString : Bool
  escaped : Bool
  depth : Nat

def Reader.step (r : Reader) (c : Char) : Reader :=
  if r.inString then
    if r.escaped then { r with escaped := false }
    else if c == '\\' then { r with escaped := true }
    else { r with inString := c != '"' }
  else if c == '"' then { r with inString := true }
  else if c == '(' then { r with depth := r.depth + 1 }
  else if c == ')' then { r with depth := r.depth - 1 }
  else r

/-- The parts between commas outside strings and parentheses, from a state on. -/
def argumentsFrom (r : Reader) (part : Text) : Text → List Text
  | [] => [part.reverse]
  | c :: rest =>
    if c == ',' && !r.inString && r.depth == 0 then part.reverse :: argumentsFrom r [] rest
    else argumentsFrom (r.step c) (c :: part) rest

def splitArguments : List Text :=
  ((argumentsFrom ⟨false, false, 0⟩ [] t).map Text.trim).filter (!·.isEmpty)

def unfence : Text :=
  let t := t.trim
  let fence : Text := "```"
  if t.startsWith fence then
    let lines := t.lines.drop 1
    let lines := match lines.getLast? with
      | some l => if Text.startsWith l.trim fence then lines.dropLast else lines
      | none => lines
    Text.trim (Text.joinLines lines)
  else t

inductive Refusal where
  | noAction (t : Text)
  | absolutePath
  | outside

def Refusal.message : Refusal → Text
  | .noAction t => "--use expects module.func, got: " ++ t.shown
  | .absolutePath => "absolute paths are not allowed"
  | .outside => "path escapes repo root"

/-- A module and an action, with a point or a blank between them. -/
def parseUse : Except Refusal (Text × Text) :=
  let t := t.trim
  match Text.cutAt? "." t with
  | some (a, b) => .ok (a.trim, b.trim)
  | none =>
    match Text.words t with
    | a :: b :: _ => .ok (a, b)
    | _ => .error (.noAction t)

def pathInside (root : Path) (t : Text) : Except Refusal Path :=
  let p := Path.ofText t
  if p.absolute then .error .absolutePath
  else
    let full := root.resolve p
    if root.parts.isPrefixOf full.parts then .ok full else .error .outside

/-! ### Calls -/

/-- The characters of the names in a call: Cyrillic letters of the basic alphabet, the underscore, the letter w and the
backslash. -/
def isNameChar (c : Char) : Bool := c == '\\' || c == 'w' || c == '_' || ('А' ≤ c && c ≤ 'я')

/-- The shape of a call: a module, a backslash and any character, the action, a backslash, any number of the letter s,
and the arguments between backslashes. -/
def callPattern : Pattern :=
  .notBehind isNameChar ++ .group 1 (.many1 (.char isNameChar)) ++ .char (· == '\\') ++ .char (fun _ => true)
    ++ .group 2 (.many1 (.char isNameChar)) ++ .char (· == '\\') ++ .many (.char (· == 's')) ++ .char (· == '\\')
    ++ .group 3 (.many (.char (· != ')')) ++ .char (· == '\\'))

structure Call where
  module : Text
  action : Text
  arguments : Text

def calls (source : Text) : List Call :=
  (callPattern.findAll (codeOnly source)).map fun m => ⟨m.group 1, m.group 2, m.group 3⟩

def namesIn (vs : List Json) : List Text :=
  vs.filterMap fun v => match v with
    | .obj fs => ((Table.get? "name" fs).filter Json.isTruthy).map Json.spell
    | _ => none

def argumentNames (spec : Json) : Except Fault (List Text) := do
  let spec := if spec.isTruthy then spec else .obj []
  return namesIn (← listed "params" spec) ++ namesIn (← listed "enums" spec)

def givenName? (argument : Text) : Option Text :=
  match Text.findInfix? argument "=" with
  | some (n + 1) => some (Text.trim (argument.take (n + 1)))
  | _ => none

def unknownArgument (f : Found) (allowed : List Text) (key : Text) : Text :=
  f.module ++ "." ++ f.name ++ ": unknown kw arg " ++ code key ++ " (allowed: "
    ++ Text.joinWith ", " (Text.sort (keepFirst allowed)) ++ ")"

def callErrors (api : Json) (c : Call) : Except Fault (List Text) := do
  match ← resolve api c.module c.action with
  | none => return ["unknown function: " ++ c.module ++ "." ++ c.action]
  | some f =>
    let allowed ← argumentNames f.spec
    let given := (splitArguments c.arguments).filterMap givenName?
    return (given.filter fun k => !allowed.isEmpty && !allowed.contains k).map (unknownArgument f allowed)

def sourceErrors (api : Json) (source : Text) : Except Fault (List Text) := do
  return (← (calls source).mapM (callErrors api)).flatten

def verdict (api : Json) (source : Text) : Except Fault Json := do
  let errors ← sourceErrors api source
  return .obj [("ok", .bool errors.isEmpty), ("errors", .texts errors), ("warnings", .arr [])]

end BlockScript.Assistant
