import BlockScript.Api.Parameter
import BlockScript.Json.Keyed

/-!
# The table of aliases

A table of all actions by the first line of their signs and a name made from the second, with their parameters and
switches. A name is used once in the whole table: one used before gets the beginning of the action's id.
-/

namespace BlockScript.AliasTable

def slug (label : Text) : Text := Naming.toSnake (Naming.latin (Label.plain label))

/-- A label without colours, trimmed; null and the like are empty. -/
def shown (v : Json) : Except Fault Text := do return Text.trim (Label.plain (← v.asText))

/-- The parameters of an action. Texts are numbered from the first on, other stems from the second. -/
def params (action : Json) : Except Fault (List Json) := do
  let args ← (← action.getOr "args" (.arr [])).loop
  let stems ← args.mapM fun arg => do
    let pane := Text.lower (Label.plain (← (← arg.getOr "glassName" (.str [])).asText))
    return (Parameter.stemOf pane (← Parameter.modeKey arg), arg)
  (Parameter.numberFrom [] stems).mapM fun (stem, n, arg) => do
    let name := if stem == "text" then stem ++ Text.ofNat n else Parameter.numbered stem n
    return .obj [("name", .str name), ("mode", ← arg.get "mode"), ("slot", ← arg.get "argSlot"),
      ("glass", .obj [("name", ← arg.get "glassName"), ("meta", ← arg.get "glassMeta")])]

def choiceName (label : Text) : Text :=
  let key := Text.lower (Label.plain label)
  if key.hasInfix "раздел" then "separator"
  else if key.hasInfix "учитывать" && key.hasInfix "пуст" then "include_empty"
  else (slug label).take 32

def choice (item : Json) : Except Fault Json := do
  let variety := (← item.get "variant").orElse (.obj [])
  let labels ← ((← variety.get "options").orElse (.arr [])).loop
  let keys ← labels.mapM Keyed.check
  let options : Keyed Nat := keys.zipIdx.foldl (fun t (k, i) => t.set k i) []
  let name := choiceName (← (← item.getOr "name" (.str [])).asText)
  return .obj [("name", .str name), ("slot", ← item.get "slot"), ("options", options.toJson fun (n : Nat) => .int n)]

def shortId (id : Json) : Except Fault Text := do
  if !id.isTruthy then return "unknown"
  let t ← id.textOr .notARecord
  return (((Text.cutAt? "|" t).map (·.1)).getD t).take 8

structure State where
  groups : Table Json.Fields := []
  used : List Text := []

def add (s : State) (action : Json) : Except Fault State := do
  let signs := (← action.get "signs").orElse (.texts [[], [], [], []])
  let orText (a b : Text) : Text := if a.isEmpty then b else a
  let group := orText (← shown (← signs.item 0)) "Unknown"
  let second ← shown (← signs.item 1)
  let gui ← shown (← action.getOr "gui" (.str []))
  let title := orText second (orText gui "UnknownAction")
  let call := slug title
  let call ← if s.used.contains call then do
      pure (call ++ "_" ++ (← shortId (← action.getOr "id" (.str []))))
    else pure call
  let entry : Json := .obj [("id", ← action.get "id"), ("sign1", .str group), ("sign2", .str title),
    ("gui", .str gui), ("params", .arr (← params action)),
    ("enums", .arr (← (← (← action.getOr "enums" (.arr [])).loop).mapM choice))]
  let key := slug group
  return ⟨s.groups.set key ((s.groups.getD key []).set call entry), call :: s.used⟩

def ofCatalog (catalog : Json) : Except Fault Json := do
  let s ← (← catalog.loop).foldlM add {}
  return .obj (s.groups.map fun g => (g.1, .obj g.2))

end BlockScript.AliasTable
