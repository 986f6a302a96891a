import BlockScript.Api.Naming
import BlockScript.Fault
import BlockScript.Json.Spelling

/-!
# Parameters of an action

The catalog gives an action its argument slots with the panes that mark them. A parameter gets a name after the kind of
value it takes, a number if there are several, and a label from the name of the pane.
-/

namespace BlockScript.Parameter
open Text (hasInfix lower trim)

/-! ### Names and labels -/

def legibleField (key : Text) (v : Json) : Except Fault Text := do
  return Label.legible (← (← v.getOr key (.str [])).asText)

/-- The stem of a parameter's name, by the shown name of its pane in lower case and by its mode in lower case. -/
def stemOf (pane mode : Text) : Text :=
  if hasInfix pane "динамическ" || hasInfix pane "переменн" then "var"
  else if hasInfix pane "текст" then "text"
  else if hasInfix pane "числ" then "num"
  else if mode == "location" then "loc"
  else if mode == "array" then "arr"
  else if mode == "any" then "value"
  else if mode.isEmpty then "arg"
  else mode

def modeKey (arg : Json) : Except Fault Text := do
  let mode ← arg.get "mode"
  if mode.isTruthy then return lower (← mode.textOr .notARecord) else return []

def kinds : List Text := texts
  ["число", "текст", "предмет", "блок", "массив", "местоположение", "местоположение(я)", "переменная"]

/-- What the shown name of a pane says about the argument: the part after the kind, or the whole. -/
def labelOf (pane : Text) : Text :=
  let raw := trim (Text.without '*' (trim pane))
  match Text.cutAt? " - " raw with
  | some (left, right) =>
    let label := trim right
    if kinds.contains (lower (trim left)) && !label.isEmpty then label else raw
  | none => raw

def label (arg : Json) : Except Fault Text := do
  return labelOf (← legibleField "glassName" arg)

def numbered (stem : Text) (n : Nat) : Text := if n == 1 then stem else stem ++ Text.ofNat n

/-- Name things after their stems: the first by the stem, the following with their number. -/
def numberFrom {α : Type} (seen : List Text) : List (Text × α) → List (Text × Nat × α)
  | [] => []
  | (stem, a) :: rest => (stem, seen.count stem + 1, a) :: numberFrom (stem :: seen) rest

def ofAction (action : Json) : Except Fault (List Json) := do
  let args ← (← action.getOr "args" (.arr [])).loop
  let stems ← args.mapM fun arg => do
    let pane ← legibleField "glassName" arg
    let stem := stemOf (lower pane) (← modeKey arg)
    return (stem, (← arg.get "mode", ← arg.get "argSlot", labelOf pane))
  return (numberFrom [] stems).map fun (stem, n, mode, slot, label) =>
    .obj [("name", .str (numbered stem n)), ("mode", mode), ("slot", slot), ("label", .str label)]

/-! ### Known windows -/

def known (name mode : Text) (slot : Nat) (label : Text) : Json :=
  .obj [("name", .str name), ("mode", .str mode), ("slot", .int slot), ("label", .str label)]

/-- The parameters of actions whose windows are often recorded wrongly. -/
def fallback? (sign1 sign2 : Text) : Option (List Json) :=
  let first := Label.legibleKey sign1
  let second := Label.legibleKey sign2
  if first == "действие игрока" && second == "сообщение" then
    some ([27, 28, 29, 30, 32, 33, 34, 35].zipIdx.map fun (slot, i) =>
      known (numbered "text" (i + 1)) "TEXT" slot "Текст сообщения")
  else if first == "игровое действие" && second == "заполнить область" then
    some [known "value" "ANY" 13 "Значение/блок", known "loc" "LOCATION" 19 "Первая точка области",
      known "loc2" "LOCATION" 25 "Вторая точка области", known "num" "NUMBER" 40 "Режим заполнения"]
  else none

/-- The slot of a parameter, if it is a record. A slot has to be a single value. -/
def slot? (p : Json) : Except Fault (Option Json) :=
  match p with
  | .obj fs =>
    match (Table.get? "slot" fs).getD .null with
    | .arr _ => .error .wrongKind
    | .obj _ => .error .wrongKind
    | v => .ok (some v)
  | _ => .ok none

/-- Add to the parameters those of `extra` whose slot is not used yet. -/
def merge (primary extra : Json) : Except Fault (List Json) := do
  let first ← primary.asItems
  let used ← first.filterMapM slot?
  let (merged, _) ← (← extra.asItems).foldlM (fun (merged, used) p => do
    match ← slot? p with
    | none => return (merged, used)
    | some s => return if used.any (·.same s) then (merged, used) else (merged ++ [p], used ++ [s])) (first, used)
  return merged

/-! ### Names by mode -/

def modeStem (mode : Text) : Text :=
  let m := Text.upper (trim (Label.legible mode))
  let stems := Table.ofStrings [("VARIABLE", "var"), ("TEXT", "text"), ("NUMBER", "num"), ("LOCATION", "loc"),
    ("ARRAY", "arr"), ("ITEM", "item"), ("BLOCK", "block"), ("ANY", "value")]
  Table.getD m stems "arg"

def modeText (p : Json.Fields) : Text := (((p.get? "mode").getD .null).orElse (.str [])).spell

variable (ps : List Json.Fields)

def rename : List Json.Fields :=
  (numberFrom [] (ps.map fun p => (modeStem (modeText p), p))).map fun (stem, n, p) =>
    p.set "name" (.str (numbered stem n))

/-- The slot of a parameter as a number, or `d` if there is none. -/
def slotNumber (d : Int) (p : Json.Fields) : Except Fault Int :=
  (((p.get? "slot").getD .null).orElse (.int d)).asInt

def isVariable (p : Json.Fields) : Bool := Text.upper (modeText p) == "VARIABLE"

/-- Of several parameters for a variable, the one with the least slot. -/
def leastVariable : Except Fault (Option Json.Fields) := do
  let keyed ← (ps.filter isVariable).mapM fun p => do return (← slotNumber 1000000000 p, p)
  match keyed with
  | [] | [_] => return none
  | _ => return ((keyed.mergeSort fun a b => a.1 ≤ b.1).head?).map (·.2)

def contextKey (key : Text) (context : Json) : Except Fault Text := do
  return Label.legibleKey ((← context.get key).orElse (.str [])).spell

def asksExistence (context : Json) : Except Fault Bool := do
  let exists' : Text := "переменная существует"
  let first ← contextKey "sign1" context
  let second ← contextKey "sign2" context
  let gui ← contextKey "gui" context
  let menu ← contextKey "menu" context
  return (first == "если переменная" && second == exists')
    || ((Naming.scope? second).isSome && (gui == exists' || menu == exists' || second == exists'))

/-- Keep one parameter for a variable: those in the slot of the first. -/
def keepVariable : Except Fault (List Json.Fields) := do
  match ← leastVariable ps with
  | none => return ps
  | some least =>
    let slot ← slotNumber 0 least
    ps.filterM fun p => do
      if isVariable p then return (← slotNumber 0 p) == slot else return true

/-- The parameters of an action, named after their modes, and whether some were dropped. An action that asks whether a
variable exists has one variable. -/
def normalize (context : Json) (params : List Json) : Except Fault (List Json × Bool) := do
  let records := params.filterMap Json.fields?
  let kept ← if ← asksExistence context then keepVariable records else pure records
  return ((rename kept).map .obj, kept.length < records.length)

end BlockScript.Parameter
