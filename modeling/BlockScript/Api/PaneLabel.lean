import BlockScript.Console
import BlockScript.Json.Document
import BlockScript.Json.Keyed

/-!
# Panes in the library

The parameters of the library can be given the name and the colour of the panes that mark them in the catalog.
-/

namespace BlockScript.PaneLabel

structure Pane where
  name : Json
  variety : Json
  mode : Json

def byId (catalog : Json) : Except Fault (Keyed Json) := do
  (← catalog.loop).foldlM (fun t item => do
    if ← item.mentions "id" then return t.set (← Keyed.check (← item.need "id")) item else return t) []

def panes (action : Json) : Except Fault (Keyed Pane) := do
  (← (← action.getOr "args" (.arr [])).loop).foldlM (fun t arg => do
    if ← arg.mentions "argSlot" then
      let slot ← Keyed.check (← arg.need "argSlot")
      return t.set slot ⟨← arg.getOr "glassName" (.str "Аргумент"), ← arg.getOr "glassMeta" (.int 0),
        ← arg.getOr "mode" (.str "ANY")⟩
    else return t) []

/-- A parameter with what its pane says. A mode that takes anything becomes that of the pane. -/
def label (panes : Keyed Pane) (param : Json) : Except Fault Json := do
  let fs ← param.record
  let slot ← Keyed.check (← param.get "slot")
  match panes.get? slot with
  | none => return param
  | some p =>
    let fs := (fs.set "glassName" p.name).set "glassMeta" p.variety
    let isAny := ((fs.get? "mode").getD .null).same (.str "ANY")
    return .obj (if isAny then fs.set "mode" p.mode else fs)

def labelSpec? (actions : Keyed Json) (spec : Json) : Except Fault (Option Json) := do
  let id ← spec.get "id"
  if !id.isTruthy then return none
  match actions.get? (← Keyed.check id) with
  | none => return none
  | some action =>
    let known ← panes action
    let params ← (← spec.getOr "params" (.arr [])).loop
    let labelled ← params.mapM (label known)
    match spec.field? "params", spec with
    | some (.arr _), .obj fs => return some (.obj (Table.set "params" (.arr labelled) fs))
    | _, _ => return some spec

/-- A library with labelled parameters, and how many actions the catalog knows. -/
def labelApi (actions : Keyed Json) (api : Json) : Except Fault (Json × Nat) := do
  let modules ← (← api.record).mapM fun (module, v) => do
    let specs ← (← v.record).mapM fun (name, spec) => do return (name, spec, ← labelSpec? actions spec)
    return (module, specs)
  let count := modules.foldl (fun n m => n + m.2.countP fun s => s.2.2.isSome) 0
  return (.obj (modules.map fun m => (m.1, .obj (m.2.map fun (name, spec, new) => (name, new.getD spec)))), count)

def isMissing : Document → Bool
  | .missing => true
  | _ => false

/-- Label the parameters of a library. Both files have to be there before anything is said. -/
def enrich (catalog api : Document) : Run Fault Json := do
  if isMissing catalog || isMissing api then throw .missingFile
  Run.say "Загрузка данных..."
  let actions ← Run.ofExcept (do byId (← catalog.need))
  let api ← Run.ofExcept api.need
  Run.say "Обогащение API данными о стеклах..."
  let (new, count) ← Run.ofExcept (labelApi actions api)
  Run.say ("Готово! Обновлено записей: " ++ Text.ofNat count)
  Run.say "Теперь в api_aliases.json есть информация о цветных стеклах."
  return new

end BlockScript.PaneLabel
