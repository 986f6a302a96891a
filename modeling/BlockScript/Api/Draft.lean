import BlockScript.Api.Condition
import BlockScript.Window.Pane

/-!
# The draft library

A smaller library made straight from the catalog: actions go by the second line of their signs, in their own letters and
in Latin ones, and the actions that the compiler relies on get fixed names for themselves and their parameters. An
action that goes by several names is one entry, so what it gains under one name shows under all.
-/

namespace BlockScript.DraftApi

/-! ### Fixed names -/

/-- The actions that the compiler relies on: the module, the name, and the menu title by which they are found. -/
def fixedActions : List (Text × Text × Text) :=
  ([("player", "message", "Отправить сообщение"), ("player", "teleport", "Телепортация"),
    ("player", "give_item", "Выдать предметы"), ("var", "set_value", "Установить (=)"),
    ("var", "set_sum", "Установить (+)"), ("var", "set_difference", "Установить (-)"),
    ("var", "set_product", "Установить (*)"), ("var", "set_quotient", "Установить (÷)"),
    ("var", "set_remainder", "Установить (%)"), ("if_value", "number_2", "Сравнить числа"),
    ("if_value", "text", "Текст равняется"), ("if_value", "var", "Переменная существует"),
    ("game", "call_function", "Вызвать функцию"), ("game", "start_loops", "Запустить цикл"),
    ("game", "stop_loops", "Остановить цикл")] : List (String × String × String)).map
    fun (m, n, t) => (m.toList, n.toList, t.toList)

def series (stem : Text) (n : Nat) : List Text :=
  (List.range n).map fun i => if i == 0 then stem else stem ++ Text.ofNat (i + 1)

def fixedParams (path : Text) : List Text :=
  let numbers (n : Nat) : List Text := "var".toList :: series "num" n
  if path == "var.set_value" then texts ["var", "value"]
  else if path == "var.set_sum" || path == "var.set_product" then numbers 10
  else if path == "var.set_difference" || path == "var.set_quotient" || path == "var.set_remainder" then numbers 2
  else if path == "if_value.number_2" then series "num" 3
  else if path == "player.message" then series "text" 8
  else if path == "player.give_item" then series "item" 6
  else []

/-! ### Labels -/

def shown (t : Text) : Text :=
  Text.trim ((Label.dropColorCodes t).filter fun c => c != '●' && c != '○')

def menuTitle (item : Json) : Except Fault Text := do
  let t ← item.asText
  let t := ((Text.cutAt? "]" t).map (·.2)).getD t
  return shown (((Text.cutAt? "|" t).map (·.1)).getD t)

def operators : List Text := texts ["+", "-", "*", "/", "%", "=", "+=", "-=", "*=", "/="]

def codeName (label : Text) : Text :=
  let t := Text.lower (shown label)
  if operators.contains t then t
  else Naming.trimUnderscores (Naming.fillGaps (· != '_') '_' (ConditionApi.underscored t))

def moduleOf (first : Text) : Text :=
  let has (w : Text) : Bool := first.hasInfix w
  if has "если игрок" then "if_player"
  else if has "если игра" then "if_game"
  else if has "значение" || has "переменная" then "if_value"
  else if has "действие игрока" then "player"
  else if has "игровое действие" then "game"
  else if has "присв" || has "перемен" then "var"
  else "misc"

/-! ### Parameters -/

structure Param where
  name : Text
  mode : Json
  slot : Json

def Param.toJson (p : Param) : Json := .obj [("name", .str p.name), ("mode", p.mode), ("slot", p.slot)]

def paneMode (variety : Json) (name : Text) : Text :=
  let is (n : Int) : Bool := variety.same (.int n)
  let key := name.lower
  if is 4 then "ITEM"
  else if is 14 then "NUMBER"
  else if is 3 || is 11 then "TEXT"
  else if is 1 then "VARIABLE"
  else if is 5 then "LOCATION"
  else if key.hasInfix "текст" then "TEXT"
  else if key.hasInfix "числ" then "NUMBER"
  else "ANY"

def isPane (item : Json) : Except Fault Bool := do return (← item.get "id").same (.str Window.paneId)

/-- The slots next to a slot of a chest: below, left, right, above. -/
def neighbours (slot : Int) : List Int :=
  let row := slot.fdiv 9
  let col := slot.fmod 9
  let places : List (Int × Int) := [(row + 1, col), (row, col - 1), (row, col + 1), (row - 1, col)]
  (places.filter fun (r, c) => 0 ≤ r && r < 6 && 0 ≤ c && c < 9).map fun (r, c) => r * 9 + c

/-- The first slot of some that is not taken and holds no pane. -/
def findSlot? (items : Json.Fields) (taken : List Int) : List Int → Except Fault (Option Int)
  | [] => .ok none
  | s :: rest => do
    if taken.contains s then findSlot? items taken rest
    else
      match items.get? (Text.ofInt s) with
      | none => return some s
      | some item => if ← isPane item then findSlot? items taken rest else return some s

/-- The panes of a window that mark arguments, in the order of their slots. -/
def panes (items : Json.Fields) : Except Fault (List (Int × Json)) := do
  let found ← items.filterMapM fun (slot, item) => do
    if (← isPane item) && !((← item.get "meta").same (.int 15)) then
      return some (← (Json.str slot).asInt, item)
    else return none
  return found.mergeSort fun a b => a.1 ≤ b.1

/-- The parameters that the panes of a window mark. Two actions may take the slot of the pane itself. -/
def windowParams (action : Json) : Except Fault (List Param) := do
  let window ← action.getOr "items" (.obj [])
  if !window.isTruthy then return []
  let items ← window.record
  let mut params := []
  let mut taken : List Int := []
  for (slot, item) in ← panes items do
    let free ← findSlot? items taken (neighbours slot)
    let menu ← menuTitle (← action.getOr "subitem" (.str []))
    let place := match free with
      | some s => some s
      | none => if menu == "Отправить сообщение" || menu == "Выдать предметы" then some slot else none
    if let some s := place then
      taken := s :: taken
      let name := codeName (← (← item.getOr "name" (.str "arg")).asText)
      let mode := paneMode (← item.get "meta") (← (← item.get "name").textOr .notARecord)
      params := params ++ [⟨name, .str mode, .int s⟩]
  return params

def listedParams (action : Json) : Except Fault (List Param) := do
  (← (← action.get "args").asItems).mapM fun arg => do
    return ⟨codeName (← (← arg.getOr "glassName" (.str "arg")).asText), ← arg.getOr "mode" (.str "ANY"),
      ← arg.get "argSlot"⟩

/-! ### Entries -/

structure Entry where
  id : Json
  sign1 : Json
  sign2 : Text
  title : Text
  params : List Param
  aliases : List Text
  choices : Json

def Entry.toJson (e : Entry) : Json := .obj [("id", e.id), ("sign1", e.sign1), ("sign2", .str e.sign2),
  ("gui", .str e.title), ("menu", .str e.title), ("params", .arr (e.params.map Param.toJson)),
  ("aliases", .texts e.aliases), ("enums", e.choices)]

/-- The draft: all entries, and in each module the number of the entry that goes by a name. -/
structure Draft where
  entries : List Entry := []
  modules : Table (Table Nat) :=
    (texts ["player", "game", "if_player", "if_game", "if_value", "var", "select", "misc"]).map fun m => (m, [])

def Draft.name (d : Draft) (module name : Text) (n : Nat) : Draft :=
  { d with modules := d.modules.set module ((d.modules.getD module []).set name n) }

def Draft.toJson (d : Draft) : Json :=
  .obj (d.modules.map fun m => (m.1, .obj (m.2.map fun (name, n) =>
    (name, ((d.entries[n]?).map Entry.toJson).getD .null))))

def Draft.add (d : Draft) (action : Json) : Except Fault Draft := do
  let raw ← (← action.getOr "signs" (.texts [[]])).item 0
  let first := Text.lower (shown (← raw.asText))
  let second := shown (← (← (← action.getOr "signs" (.texts [[], []])).item 1).asText)
  let title ← menuTitle (← action.getOr "subitem" (.str []))
  let title := if title.isEmpty then second else title
  let own := codeName second
  let key := if own.isEmpty then codeName title else own
  if key.isEmpty then return d
  let marked ← windowParams action
  let params ← if marked.isEmpty then listedParams action else pure marked
  let module := moduleOf first
  let latin := Naming.respell key
  let entry : Entry := {
    id := ← action.get "id"
    sign1 := raw
    sign2 := second
    title := title
    params := params
    aliases := [key, latin]
    choices := ← action.getOr "enums" (.arr []) }
  let n := d.entries.length
  return ({ d with entries := d.entries ++ [entry] }.name module key n).name module latin n

def renameParams (names : List Text) (params : List Param) : List Param :=
  params.zipIdx.map fun (p, i) => { p with name := (names[i]?).getD p.name }

/-- Let an action of a module go by a fixed name, and its parameters too. -/
def Draft.fix (d : Draft) (module name title : Text) : Run Fault Draft := do
  let path := module ++ "." ++ name
  let found := (d.modules.getD module []).find? fun e => (d.entries[e.2]?).any (·.title == title)
  match found with
  | none =>
    Run.say ("  [FAIL] " ++ path ++ " не найден (искал '" ++ title ++ "')")
    return d
  | some (_, n) =>
    Run.say ("  [OK] " ++ path ++ " -> '" ++ title ++ "'")
    let entries := d.entries.modify n fun e =>
      { e with aliases := e.aliases ++ [name], params := renameParams (fixedParams path) e.params }
    return { d with entries := entries }.name module name n

def ofCatalog (catalog : Json) : Run Fault Json := do
  Run.say "Генерация полного API (обычные + системные)..."
  let d ← Run.ofExcept (do (← catalog.loop).foldlM Draft.add {})
  Run.say "Привязка системных алиасов..."
  let d ← fixedActions.foldlM (fun (d : Draft) (module, name, title) => d.fix module name title) d
  Run.say "\nAPI готов."
  return d.toJson

def ofDocument (catalog : Document) : Run Fault Json := do
  match catalog with
  | .missing => Run.say "Нет каталога"
  | _ => pure ()
  ofCatalog (← Run.ofExcept catalog.need)

end BlockScript.DraftApi
