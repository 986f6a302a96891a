import BlockScript.Fault
import BlockScript.Label

/-!
# Actions of the library

The library of actions is a document: modules by name, in each of them actions by name. An action has the labels of
its sign and menu, other names it goes by, parameters and choices. The document is read as it is used, so a part
that nothing asks for may have any shape.
-/

namespace BlockScript

abbrev Api := Json

abbrev Spec := Json

namespace Spec

/-! ### Labels -/

/-- A label of an action as it is shown, trimmed; empty where it is missing. -/
def label (key : Text) (spec : Spec) : Except Fault Text := do
  return Text.trim (Label.display (← spec.getText key))

def sign1 (spec : Spec) : Except Fault Text := label "sign1" spec

def sign2 (spec : Spec) : Except Fault Text := label "sign2" spec

def menu (spec : Spec) : Except Fault Text := label "menu" spec

def gui (spec : Spec) : Except Fault Text := label "gui" spec

def firstLabel (a b : Except Fault Text) : Except Fault Text := do
  let t ← a
  if t.isEmpty then b else return t

/-- The name under which the action is clicked: its menu title, or the second line of its sign, or the title of
its window. -/
def menuName (spec : Spec) : Except Fault Text := firstLabel spec.menu (firstLabel spec.sign2 spec.gui)

def expectedSign2 (spec : Spec) : Except Fault Text := firstLabel spec.sign2 spec.gui

def hasAlias (name : Text) (spec : Spec) : Except Fault Bool := do
  let aliases ← spec.get "aliases"
  if aliases.isTruthy then aliases.mentions name else return false

end Spec
namespace Api

def moduleAliases : Table Text :=
  [("игрок", "player"), ("событие", "event"), ("выборка", "select")]

def selectShorthands : Table Text :=
  [("allplayer", "vse_igroki"), ("randomplayer", "sluchaynyy_igrok"), ("randommob", "sluchaynyy_mob"),
   ("randentity", "sluchaynaya_suschnost"), ("randomentity", "sluchaynaya_suschnost"),
   ("defaultplayer", "igrok_po_umolchaniyu"), ("defaultentity", "suschnost_po_umolchaniyu")]

/-- The form in which short names of selections are compared: lower case, without underscores, backslashes and
the letter `s`. -/
def shorthandKey (func : Text) : Text :=
  (Text.lower func.trim).filter fun c => c != '_' && c != '\\' && c != 's'

def findAlias (func : Text) : List (Text × Json) → Except Fault (Option (Text × Spec))
  | [] => .ok none
  | (canon, spec) :: rest => do
    if ← Spec.hasAlias func spec then return some (canon, spec) else findAlias func rest

def findIn (func : Text) (mod : Json) : Except Fault (Option (Text × Spec)) :=
  match mod with
  | .obj fs =>
    match Table.get? func fs with
    | some spec => .ok (some (func, spec))
    | none => findAlias func fs
  | _ => do
    if ← mod.mentions func then .error .wrongKind else .error .notARecord

/-- The module that stands for another one; selections were once kept under `misc`. -/
def resolveModule (api : Api) (module : Text) : Except Fault Text := do
  let module := moduleAliases.getD module module
  if module == "select" then
    let select ← api.get "select"
    if !select.isTruthy && (← api.get "misc").isTruthy then return "misc"
  return module

def find (api : Api) (module func : Text) : Except Fault (Option (Text × Spec)) := do
  let resolved ← api.resolveModule module
  let mod ← api.get resolved
  if resolved == "misc" && func.startsWith "vybrat_" then
    let select ← api.get "select"
    if select.isTruthy then
      if let some found ← findIn func select then return some found
  if !mod.isTruthy then return none
  let func := if module == "select" || module == "выборка" then
      selectShorthands.getD (shorthandKey func) func
    else func
  findIn func mod

end Api
end BlockScript
