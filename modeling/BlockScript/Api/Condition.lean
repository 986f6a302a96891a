import BlockScript.Api.Naming
import BlockScript.Console
import BlockScript.Json.Document
import BlockScript.Json.Spelling

/-!
# Conditions of the library

The modules of conditions on a player and on the game can be made from the table of an older language, which lists the
conditions with their arguments, or from the catalog.
-/

namespace BlockScript.ConditionApi
open Text (lower ofNat)
open Json (Fields)

/-! ### Kinds of conditions -/

/-- A module of conditions: its name, its list in the older language's table, its sign and what it checks. -/
structure Kind where
  module : Text
  list : Text
  sign1 : Text
  checks : Text

def Kind.player : Kind := ⟨"if_player", "IF_PLAYER", "Если игрок", "Проверка игрока: "⟩

def Kind.game : Kind := ⟨"if_game", "IF_GAME", "Если игра", "Проверка игры: "⟩

variable (k : Kind)

def Kind.entry (id name : Text) (params : List Json) : Json := .obj [
  ("id", .str id),
  ("sign1", .str k.sign1),
  ("sign2", .str name),
  ("gui", .str name),
  ("menu", .str name),
  ("aliases", .texts [name.lower, name]),
  ("description", .str (k.checks ++ name)),
  ("descriptionRaw", .str ("§7" ++ k.checks ++ name)),
  ("params", .arr params),
  ("enums", .arr [])]

def replaceModules (api : Json) (player game : Fields) : Except Fault Json :=
  match api with
  | .obj fs => .ok (.obj (Table.set "if_game" (.obj game) (Table.set "if_player" (.obj player) fs)))
  | _ => .error .wrongKind

def summary (player game : Fields) : List Text :=
  ["\nОбновлено api_aliases.json",
   "Добавлено функций if_player: " ++ ofNat player.length,
   "Добавлено функций if_game: " ++ ofNat game.length]

/-! ### With their arguments -/

/-- Parameters from the arguments of a condition. Slots are given out from the ninth on, and an argument that is a list
takes as many as it may have items. -/
def params (args : Json) : Except Fault (List Json) := do
  let (ps, _) ← (← args.record).foldlM (fun ((ps : List Json), (slot : Int)) (name, info) => do
    let kind ← (← info.getOr "type" (.str "value")).textOr .notARecord
    let mode := kind.upper
    let mode : Text := if mode == "VALUE" then "TEXT" else mode
    let param (name : Text) (slot : Int) : Json := .obj [("name", .str name), ("mode", .str mode), ("slot", .int slot)]
    if (← info.get "listed").isTruthy then
      match (← info.getOr "max" (.int 1)).int? with
      | none => .error .wrongKind
      | some n =>
        let items := (List.range n.toNat).map fun i =>
          param (if i == 0 then name else name ++ ofNat (i + 1)) (slot + i)
        return (ps ++ items, slot + n)
    else return (ps ++ [param name slot], slot + 1)) (([] : List Json), (9 : Int))
  return ps

/-- The name of a condition; none if it lacks one of its two names. -/
def nameOf? (func : Json) : Except Fault (Option (Json × Text)) := do
  let name ← func.getOr "name" (.str [])
  let custom ← func.getOr "customName" (.str [])
  if name.isTruthy && custom.isTruthy then return some (name, ← custom.textOr .notARecord) else return none

/-- The conditions of a kind in the older language's table, with their arguments. -/
def listed (lang : Json) : Run Fault Fields := do
  let mut table : Fields := []
  for func in ← Run.ofExcept (do (← lang.getOr k.list (.arr [])).loop) do
    if let some (_, name) ← Run.ofExcept (nameOf? func) then
      let ps ← Run.ofExcept (do params (← func.getOr "args" (.obj [])))
      let low := name.lower
      table := table.set low (k.entry (k.module ++ "_" ++ low) name ps)
      Run.say ("Добавлена функция " ++ k.module ++ ": " ++ name ++ " с " ++ ofNat ps.length ++ " параметрами")
  return table

/-- Make both modules from the older language's table. -/
def update (lang api : Json) : Run Fault Json := do
  let player ← listed .player lang
  let game ← listed .game lang
  let new ← Run.ofExcept (replaceModules api player game)
  (summary player game).forM Run.say
  return new

/-! ### Without arguments -/

/-- The conditions added, if the older language knows them. -/
def Kind.wanted : List Text :=
  if k.module == "if_player" then texts
    ["IsSprinting", "IsSneaking", "HasItem", "GamemodeEquals", "PlayerNameEquals", "PlayerMessageEquals",
     "HoldingItem", "HavePermissions", "InteractionType", "HandUsedEquals"]
  else texts ["BlockEquals", "ContainerHasItem", "SignContains"]

def knownNames (funcs : Json) : Run Fault (List Text) := do
  let mut names := []
  for func in ← Run.ofExcept funcs.loop do
    if let some (name, custom) ← Run.ofExcept (nameOf? func) then
      names := names ++ [custom.lower]
      Run.say ("  " ++ k.list ++ ": " ++ custom ++ " -> " ++ name.spell)
  return names

def placeholders (names : List Text) : Run Fault Fields := do
  let mut table : Fields := []
  for name in k.wanted do
    let low := name.lower
    if names.contains low then
      table := table.set low (k.entry (k.module ++ "_" ++ low ++ "_placeholder") name [])
      Run.say ("Добавлена функция " ++ k.module ++ ": " ++ name)
    else Run.say ("Функция " ++ k.module ++ " " ++ name ++ " не найдена в LangTokens.json")
  return table

def countLine (lead : Text) (v : Json) (tail : Text) : Run Fault Unit := do
  Run.say (lead ++ ofNat (← Run.ofExcept v.count) ++ tail)

/-- Make both modules from the conditions that are always wanted. -/
def addWanted (lang api : Json) : Run Fault Json := do
  let playerFuncs ← Run.ofExcept (lang.getOr "IF_PLAYER" (.arr []))
  let gameFuncs ← Run.ofExcept (lang.getOr "IF_GAME" (.arr []))
  countLine "Найдено " playerFuncs " функций IF_PLAYER в LangTokens.json"
  countLine "Найдено " gameFuncs " функций IF_GAME в LangTokens.json"
  let names ← knownNames .player playerFuncs
  let names := names ++ (← knownNames .game gameFuncs)
  let oldPlayer ← Run.ofExcept (api.getOr "if_player" (.obj []))
  let oldGame ← Run.ofExcept (api.getOr "if_game" (.obj []))
  countLine "\nФункций в модуле if_player: " oldPlayer []
  countLine "Функций в модуле if_game: " oldGame []
  let player ← placeholders .player names
  let game ← placeholders .game names
  let new ← Run.ofExcept (replaceModules api player game)
  (summary player game).forM Run.say
  return new

/-! ### From the catalog -/

def englishNames : Table Text := Table.ofStrings
  [("Летает", "is_flying"), ("Бежит", "is_sprinting"), ("Приседает", "is_sneaking"), ("На элитрах", "is_gliding"),
   ("Планирует", "is_gliding"), ("На земле", "is_grounded"), ("Плавает", "is_swimming"), ("Блокирует", "is_blocking"),
   ("Горит", "is_burning"), ("Имеет предмет", "has_item"), ("Держит предмет", "holding_item"),
   ("Игровой режим", "gamemode"), ("Имя равно", "name_equals"), ("Стоит на блоке", "standing_on"),
   ("Рядом", "is_near"), ("В регионе", "in_region"), ("Эффект зелья", "potion_effect"),
   ("Имеет права", "has_permission"), ("Тип взаимодействия", "interaction_type"), ("Блок равен", "block_equals"),
   ("Контейнер имеет", "container_has"), ("Табличка содерж.", "sign_contains"), ("День", "is_day"),
   ("Дождь", "is_raining"), ("Гроза", "is_thundering"), ("Сообщение", "message"), ("Выдать предмет", "give_item"),
   ("Установить переменную", "set_var"), ("Телепортация", "teleport"), ("Телепорт", "teleport")]

def shown (t : Text) : Text := Text.trim (Label.dropColorCodes t)

/-- A small letter of the two alphabets, a digit or an underscore. -/
def isPlainChar (c : Char) : Bool := Naming.isSnakeChar c || c == '_' || ('а' ≤ c && c ≤ 'я')

/-- Write every run of white space and hyphens as an underscore, and drop what is no letter, digit or underscore. -/
def underscored (t : Text) : Text :=
  (Naming.fillGaps (fun c => !(isBlank c || c == '-')) '_' t).filter isPlainChar

def latinName (label : Text) : Text := Naming.respell (underscored (lower (shown label)))

/-- The name of a label: an English one, or else in Latin letters. -/
def nameOf (label : Text) : Text := (englishNames.get? (shown label)).getD (latinName (shown label))

def nativeName (label : Text) : Text :=
  (Text.replaceChar ' ' '_' (lower (shown label))).filter isPlainChar

/-- The label of a condition: the second line of its sign, or the title of its window or menu item. -/
def labelOf (action : Json) (second : Text) : Except Fault Text := do
  if !second.isEmpty then return second
  let gui := shown (← (← action.getOr "gui" (.str [])).textOr .wrongKind)
  if !gui.isEmpty then return gui
  match action.field? "subitem" with
  | none => return []
  | some v =>
    let raw := (Text.splitChar '|' (← v.textOr .notARecord)).headD []
    let raw := match Text.splitChar ']' raw with
      | _ :: after :: _ => after
      | _ => raw
    return shown raw

structure Modules where
  api : Fields
  player : Nat := 0
  game : Nat := 0

def enterAs (module name : Text) (entry : Json) (api : Fields) : Except Fault Fields :=
  match api.get? module with
  | some (.obj fs) => .ok (api.set module (.obj (Table.set name entry fs)))
  | _ => .error .wrongKind

def enter (m : Modules) (action : Json) : Except Fault Modules := do
  let signs ← action.getOr "signs" (.texts [[], [], [], []])
  let raw ← signs.item 0
  let first := lower (shown (← raw.textOr .wrongKind))
  let second := shown (← (← signs.item 1).textOr .wrongKind)
  let label ← labelOf action second
  let isPlayer := first.hasInfix "если игрок"
  if first.isEmpty || label.isEmpty || !(isPlayer || first.hasInfix "если игра") then return m
  let module : Text := if isPlayer then "if_player" else "if_game"
  let name := nameOf label
  let joined := Text.without '_' name
  let entry : Json := .obj [
    ("id", ← action.getOr "id" (.str "unknown")),
    ("sign1", raw),
    ("sign2", .str label),
    ("gui", .str label),
    ("menu", .str label),
    ("aliases", .texts (Text.sort (keepFirst [name, joined, latinName label, nativeName label]))),
    ("description", .str ("Check: " ++ label)),
    ("params", ← action.getOr "args" (.arr [])),
    ("enums", ← action.getOr "enums" (.arr []))]
  let api ← enterAs module joined entry (← enterAs module name entry m.api)
  return if isPlayer then { m with api := api, player := m.player + 1 } else { m with api := api, game := m.game + 1 }

/-- Put the conditions of a catalog into a library, each under its name and its name without underscores. -/
def ofCatalog (catalog api : Json) : Run Fault Json := do
  let old ← Run.ofExcept api.record
  let start : Modules := { api := (old.setNew "if_player" (.obj [])).setNew "if_game" (.obj []) }
  let m ← Run.ofExcept (do (← catalog.loop).foldlM enter start)
  Run.say ("Готово! Обработано IF_PLAYER: " ++ ofNat m.player ++ ", IF_GAME: " ++ ofNat m.game)
  Run.say "Теперь 'if_player.is_flying' и 'if_player.isflying' создадут блок 'is_flying'"
  return .obj m.api

/-- Put the conditions of a catalog into a library; a library that is missing is empty. -/
def ofDocuments (catalog api : Document) : Run Fault Json := do
  let catalog ← Run.ofExcept catalog.need
  let api ← match api with
    | .missing => pure (.obj [])
    | api => Run.ofExcept api.need
  ofCatalog catalog api

end BlockScript.ConditionApi
