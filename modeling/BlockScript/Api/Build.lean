import BlockScript.Api.Parameter
import BlockScript.Json.Printer

/-!
# The library of actions

`Api.ofCatalog` makes the library out of the catalog: every action gets a module by its sign and a name by its menu
title, unless a table of names gives it another one. A name taken in its module gets a number.
-/

namespace BlockScript.Api

/-! ### Entries -/

structure Choice where
  name : Text
  slot : Json
  options : Table Nat

structure Entry where
  id : Json
  sign1 : Text
  sign2 : Text
  gui : Text
  menu : Text
  aliases : List Text
  description : Text
  rawDescription : Text
  params : List Json
  choices : List Choice
  isNormalized : Bool

def Choice.toJson (c : Choice) : Json :=
  .obj [("name", .str c.name), ("slot", c.slot), ("options", .obj (c.options.map fun o => (o.1, .int o.2)))]

def Entry.toJson (e : Entry) : Json := .obj [
  ("id", e.id),
  ("sign1", .str e.sign1),
  ("sign2", .str e.sign2),
  ("gui", .str e.gui),
  ("menu", .str e.menu),
  ("aliases", .texts e.aliases),
  ("description", .str e.description),
  ("descriptionRaw", .str e.rawDescription),
  ("params", .arr e.params),
  ("enums", .arr (e.choices.map Choice.toJson)),
  ("meta", .obj [("paramSource", .str (if e.isNormalized then "normalized" else "raw"))])]

abbrev Modules := Table (Table Entry)

def Modules.put (m : Modules) (module name : Text) (e : Entry) : Modules :=
  m.set module ((m.getD module []).set name e)

def Modules.toJson (m : Modules) : Json := .obj (m.map fun f => (f.1, .obj (f.2.map fun e => (e.1, e.2.toJson))))

/-! ### Descriptions -/

/-- Write every run of three or more line feeds as two. `n` counts the line feeds before. -/
def closeUp (n : Nat) : Text → Text
  | [] => []
  | c :: rest =>
    if c == '\n' then if n < 2 then c :: closeUp (n + 1) rest else closeUp (n + 1) rest
    else c :: closeUp 0 rest

def describe (raw : Text) : Text :=
  let t := Text.replace "\\n" "\n" raw
  let t := ((Text.cutAt? " | " t).map (·.2)).getD t
  closeUp 0 t.trim

variable (action : Json)

def menuItem : Except Fault Json := do
  return ((← action.get "subitem").orElse (← action.get "category")).orElse (.str [])

def description : Except Fault Text := do
  return describe (Label.legible (← (← menuItem action).asText))

def rawDescription : Except Fault Text := do
  return describe (← (← menuItem action).textOr .notARecord)

/-! ### Switches -/

def choiceNameOf (label : Text) : Text :=
  let key := Text.lower (Label.legible label)
  let has (w : Text) : Bool := key.hasInfix w
  if has "синхрон" || (has "запуск" && has "функц") then "async"
  else if has "раздел" then "separator"
  else if has "учитывать" && has "пуст" then "include_empty"
  else (Naming.snake label).take 32

def choiceName (item : Json) : Except Fault Text := do
  return choiceNameOf (← (← item.getOr "name" (.str [])).asText)

/-- The options of a switch, each with its number; a repeated one keeps its place and has the last number. -/
def optionsOf (labels : List Text) : Table Nat :=
  Table.ofList (labels.zipIdx.map fun (l, i) => (Text.trim (Label.legible l), i))

def choice (item : Json) : Except Fault Choice := do
  let shown := (← item.get "variant").orElse (.obj [])
  let labels ← ((← shown.get "options").orElse (.arr [])).loop
  let name ← choiceName item
  return ⟨name, ← item.get "slot", optionsOf (← labels.mapM Json.asText)⟩

def choices : Except Fault (List Choice) := do
  (← (← action.getOr "enums" (.arr [])).loop).mapM choice

/-! ### Names -/

def reserved : List Text := texts
  ["player", "event", "game", "var", "array", "misc", "if_player", "if_game", "if_value"]

/-- The names of the actions that compute a variable, by the operator on their sign. -/
def operatorNames : Table Text := Table.ofStrings
  [("=", "set_value"), ("+", "set_sum"), ("-", "set_difference"), ("*", "set_product"), ("/", "set_quotient")]

def firstOf (a b : Text) : Text := if a.isEmpty then b else a

/-- What the table of names says about an action: under its id, or else under its module and name. -/
def givenNames (names : Json) (id : Json) (path : Text) : Except Fault Json := do
  let byId ← match id with
    | .arr _ => .error .wrongKind
    | .obj _ => .error .wrongKind
    | .str t => names.get t
    | _ => do let _ ← names.record; pure .null
  return (byId.orElse (← names.get path)).orElse (.obj [])

def givenName (given : Json) : Except Fault (Option Text) := do
  let name ← given.get "name"
  if !name.isTruthy then return none
  let t ← name.textOr .wrongKind
  return if reserved.contains (Text.lower t.trim) then none else some t

def givenAliases (given : Json) : Except Fault (List Text) := do
  (← (← given.get "aliases").asItems).mapM (Json.textOr .wrongKind)

/-- How often each name was taken when it came up again, by module and name. -/
abbrev Taken := Table Nat

structure Draft where
  modules : Modules := []
  taken : Taken := []

def numberedName (name : Text) (n : Nat) : Text := name ++ "_" ++ Text.ofNat n

def Draft.free (d : Draft) (module name : Text) : Text × Taken :=
  if (d.modules.getD module []).has name then
    let path := module ++ "." ++ name
    let n := d.taken.getD path 0 + 1
    (numberedName name n, d.taken.set path n)
  else (name, d.taken)

def sortedSet (ts : List Text) : List Text := Text.sort (keepFirst ts)

structure Labels where
  sign1 : Text
  sign2 : Text
  gui : Text
  menu : Text

def Labels.ofAction : Except Fault Labels := do
  let signs := (← action.get "signs").orElse (.texts [[], [], [], []])
  let shown (v : Json) : Except Fault Text := do return Text.trim (Label.legible (← v.asText))
  let sign1 ← shown (← signs.item 0)
  let sign2 ← shown (← signs.item 1)
  let gui ← shown (← action.getOr "gui" (.str []))
  return ⟨sign1, sign2, gui, Naming.menuTitle (← (← menuItem action).asText)⟩

def Labels.name (l : Labels) (module : Text) : Text :=
  match if module == "var" then operatorNames.get? l.sign2 else none with
  | some name => name
  | none => Naming.snake (firstOf l.menu (firstOf l.sign2 l.gui))

def Labels.aliases (l : Labels) : List Text :=
  let second := firstOf l.sign2 l.gui
  let gui := Naming.dropPage l.gui
  [Naming.snake second, Naming.english second, Naming.native second, Naming.native gui, Naming.english gui]
    ++ Naming.menuNames l.menu

/-- The parameters of an action with some labels, and whether some of the catalog's were dropped. -/
def Labels.params (l : Labels) (action : Json) : Except Fault (List Json × Bool) := do
  let merged ← Parameter.merge (.arr (← Parameter.ofAction action))
    (.arr ((Parameter.fallback? l.sign1 l.sign2).getD []))
  let context : Json := .obj [("sign1", .str l.sign1), ("sign2", .str l.sign2), ("gui", .str l.gui),
    ("menu", .str l.menu)]
  Parameter.normalize context merged

/-- What an action asks for in the library: a module, a name there, and what is entered under the name it gets. -/
structure Request where
  module : Text
  name : Text
  entry : Text → Entry

def Request.ofAction (names action : Json) : Except Fault Request := do
  let l ← Labels.ofAction action
  let id ← action.getOr "id" (.str [])
  let module := Naming.moduleOf l.sign1
  let scope := if module == "select" then Naming.scope? l.sign2 else none
  let func := l.name module
  let given ← givenNames names id (module ++ "." ++ func)
  let own ← givenName given
  let others ← givenAliases given
  let wanted := match scope with
    | some s => s ++ "_" ++ func
    | none => own.getD func
  let (params, dropped) ← l.params action
  let bridge := if scope.isSome then [func] else []
  let id ← action.get "id"
  let shown ← description action
  let raw ← rawDescription action
  let switches ← choices action
  return ⟨module, wanted, fun name => {
    id := id
    sign1 := l.sign1
    sign2 := l.sign2
    gui := l.gui
    menu := l.menu
    aliases := sortedSet ([name] ++ others ++ l.aliases ++ own.toList ++ bridge)
    description := shown
    rawDescription := raw
    params := params
    choices := switches
    isNormalized := dropped }⟩

def Draft.enter (d : Draft) (r : Request) : Draft :=
  let (name, taken) := d.free r.module r.name
  ⟨d.modules.put r.module name (r.entry name), taken⟩

def Draft.add (names : Json) (d : Draft) (action : Json) : Except Fault Draft := do
  return d.enter (← Request.ofAction names action)

/-- The library of a catalog, with a table of names by id or by module and name. -/
def ofCatalog (catalog names : Json) : Except Fault Modules := do
  let names := names.orElse (.obj [])
  return (← (← catalog.loop).foldlM (Draft.add names) {}).modules

end BlockScript.Api
