import BlockScript.Fault
import BlockScript.Json.Spelling
import BlockScript.Path
import BlockScript.Text.Case
import BlockScript.Text.Lines

/-!
# Looking up actions for the assistant

The assistant that helps to write programs looks actions up by loose names: letter case, blanks, dashes and underscores
do not matter, and modules have native names too. It shows the page of an action from the generated documentation, or a
short page made from the table of actions.
-/

namespace BlockScript.Assistant

/-- A name without letter case, blanks, dashes and underscores. -/
def looseName (t : Text) : Text :=
  (Text.lower t.trim).filter fun c => !(c == '_' || c == ' ' || c == '-' || c == '\t')

def moduleNames : Table Text := Table.ofStrings
  [("player", "player"), ("игрок", "player"), ("game", "game"), ("игра", "game"), ("var", "var"), ("перем", "var"),
   ("переменная", "var"), ("array", "array"), ("массив", "array"), ("if_player", "if_player"),
   ("ifplayer", "if_player"), ("еслиигрок", "if_player"), ("если_игрок", "if_player"), ("if_game", "if_game"),
   ("ifgame", "if_game"), ("еслиигра", "if_game"), ("если_игра", "if_game"), ("if_value", "if_value"),
   ("ifvalue", "if_value"), ("еслипеременная", "if_value"), ("если_переменная", "if_value"), ("misc", "misc")]

def moduleOf (name : Text) : Text := moduleNames.getD (looseName name) name

structure Found where
  module : Text
  name : Text
  spec : Json

/-- A loose name of a document; what counts as nothing has the empty one. -/
def looseNameOf (v : Json) : Except Fault Text :=
  if v.isTruthy then do return looseName (← v.textOr .notARecord) else .ok []

def anyLoose (name : Text) : List Json → Except Fault Bool
  | [] => .ok false
  | v :: rest => do
    if name == (← looseNameOf v) then return true
    anyLoose name rest

def fitsAction (name canon : Text) (spec : Json) : Except Fault Bool := do
  let aliases ← spec.get "aliases"
  let aliases := if aliases.isTruthy then aliases else .arr []
  if ← aliases.mentions name then return true
  let loose := looseName name
  if loose.isEmpty then return false
  if loose == looseName canon then return true
  anyLoose loose (← aliases.loop)

def firstFitting (module name : Text) : Json.Fields → Except Fault (Option Found)
  | [] => .ok none
  | (canon, spec) :: rest => do
    if ← fitsAction name canon spec then return some ⟨module, canon, spec⟩
    firstFitting module name rest

def resolve (api : Json) (module name : Text) : Except Fault (Option Found) := do
  let key := moduleOf module
  let actions ← api.get key
  if !actions.isTruthy then return none
  if ← actions.mentions name then return some ⟨key, name, ← actions.need name⟩
  firstFitting key name (← actions.record)

def modules (api : Json) : Except Fault (List Text) := do
  return Text.sort (Table.names (← api.record))

def actions (api : Json) (module : Text) : Except Fault (List Text) := do
  let actions ← api.get (moduleOf module)
  if actions.isTruthy then return Text.sort (Table.names (← actions.record)) else return []

/-! ### Pages -/

def code (t : Text) : Text := "`" ++ t ++ "`"

def trimmed (key : Text) (spec : Json) : Except Fault Text := do
  let v ← spec.get key
  if v.isTruthy then return Text.trim (← v.textOr .notARecord) else return []

def listed (key : Text) (spec : Json) : Except Fault (List Json) := do (← spec.get key).asItems

def parameterLine (p : Json) : Except Fault Text := do
  return "- " ++ code (← p.getOr "name" (.str [])).spell ++ ": " ++ code (← p.getOr "mode" (.str [])).spell
    ++ " slot " ++ code (← p.get "slot").spell

def choiceLine (e : Json) : Except Fault Text := do
  return "- " ++ code (← e.get "name").spell ++ ": slot " ++ code (← e.get "slot").spell

def specPage (f : Found) : Except Fault Text := do
  let parameters ← listed "params" f.spec
  let choices ← listed "enums" f.spec
  let aliases ← listed "aliases" f.spec
  let description ← trimmed "description" f.spec
  let gui ← trimmed "gui" f.spec
  let sign1 ← trimmed "sign1" f.spec
  let sign2 ← trimmed "sign2" f.spec
  let number ← trimmed "id" f.spec
  let field (key : Text) (v : Text) : Text := "- " ++ code key ++ ": " ++ code v
  let block (title : Text) (ls : List Text) : List Text := if ls.isEmpty then [] else title :: (ls ++ [[]])
  let names : Text := Text.joinWith ", " (aliases.map fun a => code a.spell)
  let head : List Text := ["# " ++ code (f.module ++ "." ++ f.name ++ "(... )"), []]
  let lines : List Text := head ++ (if gui.isEmpty then [] else [field "gui" gui])
    ++ [field "sign1" sign1, field "sign2" sign2, field "id" number]
    ++ (if aliases.isEmpty then [] else ["- " ++ code "aliases" ++ ": " ++ names]) ++ [[]]
    ++ block "## Description" (if description.isEmpty then [] else ["```", description, "```"])
    ++ block "## Params" (← parameters.mapM parameterLine) ++ block "## Enums" (← choices.mapM choiceLine)
  return Text.joinLines lines ++ "\n"

def page (docs : Path) (files : Files) (f : Found) : Except Fault Text :=
  let path := (docs.child f.module).child (f.name ++ ".md")
  match files.get? (docs.resolve path).toText with
  | some t => .ok t.unifyLineEnds
  | none => specPage f

end BlockScript.Assistant
