import BlockScript.World.Index
import BlockScript.World.Item

/-!
# Blocks of an exported world

A block has a sign, perhaps a chest with items, and perhaps the titles of its menu and window. The action is told by
these labels; of several actions with the same labels the one that fits the items best is taken. The items then give
the arguments of the call.
-/

namespace BlockScript.World
open Text (hasInfix ofInt ofNat shown trim)

/-- The line of a sign, empty where it counts as nothing. -/
def signLine (n : Nat) (block : Json) : Except Fault Json := do
  let sign ← block.get "sign"
  if !sign.isTruthy then return .str []
  match sign with
  | .arr xs => return ((xs.drop n).head?.filter Json.isTruthy).getD (.str [])
  | .str t => return .str ((t.drop n).take 1)
  | .obj fs => if n < fs.length then .error (.missingField (ofNat n)) else return .str []
  | _ => .error .wrongKind

/-- The items of a chest by slot, in the order of the slots. -/
abbrev Slots := List (Int × Json)

namespace Slots

def put (slot : Int) (item : Json) : Slots → Slots
  | [] => [(slot, item)]
  | (s, i) :: rest =>
    if slot < s then (slot, item) :: (s, i) :: rest
    else if slot = s then (slot, item) :: rest
    else (s, i) :: put slot item rest

def get? (slot : Int) (s : Slots) : Option Json := s.lookup slot

/-- The records of a list that have a slot, by slot; the last one of a slot counts. -/
def ofRecords (f : Json → Json) (xs : List Json) : Slots :=
  xs.foldl (fun slots v =>
    match v with
    | .obj _ =>
      let v := f v
      match (v.field? "slot").bind Json.int? with
      | some n => put n v slots
      | none => slots
    | _ => slots) []

end Slots

/-- What is known of a block: the labels on it and the items in its chest. -/
structure Placement where
  block : Json
  sign1 : Json
  sign2 : Json
  sign3 : Json
  gui : Text
  menu : Text
  hasChest : Bool
  content : Json
  slots : Slots

namespace Placement

def ofBlock (block : Json) : Except Fault Placement := do
  let sign1 ← signLine 0 block
  let sign2 ← signLine 1 block
  let sign3 ← signLine 2 block
  let gui := trim (← spelt "gui" block)
  let menu := trim (← spelt "menu" block)
  let chest ← block.get "chest"
  let hasChest := (← block.get "hasChest").isTruthy || chest.fields?.isSome
  let items ← block.get "chestItems"
  let listed := items.isTruthy && items.items?.isSome
  let content ← if !listed && chest.fields?.isSome then chest.get "slots" else pure items
  return ⟨block, sign1, sign2, sign3, gui, menu, hasChest, content, []⟩

def withSlots (p : Placement) : Except Fault Placement := do
  return { p with slots := .ofRecords normalizeItem (← p.content.asItems) }

end Placement

/-- A line of script for a block, with what is to be said about it. -/
structure Written where
  line : Text
  warnings : List Text
deriving DecidableEq

/-! ### The action -/

/-- The actions that the labels may mean, by the best kind of label that means any. -/
def candidates (idx : Index) (p : Placement) : List Known :=
  let s1 := keysOf p.sign1
  let s2 := keysOf p.sign2
  let tries : List (List Text) :=
    [s1.flatMap fun a => Index.tagged ("s12:" ++ a ++ "|") s2, Index.tagged "gui:" (keys p.gui),
     Index.tagged "menu:" (keys p.menu), Index.tagged "menu:" s2, Index.tagged "s1:" (s1.take 1)]
  ((tries.map idx.find).find? fun found => !found.isEmpty).getD []

def recordsIn (k : Text) (spec : Spec) : Except Fault (List Json) := do
  return (← (← spec.get k).asItems).filter fun v => v.fields?.isSome

variable (slots : Slots)

def choiceScore (e : Json) : Except Fault Int := do
  match (e.field? "slot").bind Json.int? with
  | none => return 0
  | some n =>
    match slots.get? n with
    | none => return 0
    | some item =>
      match (← chosenOption? item).filter (!·.isEmpty) with
      | none => return 0
      | some picked =>
        let options := (e.field? "options").getD .null
        return if ((matchOption? options picked).filter (!·.isEmpty)).isSome then 35 else -90

def paramScore (p : Json) : Except Fault Int := do
  match (p.field? "slot").bind Json.int? with
  | none => return 0
  | some n =>
    match slots.get? n with
    | none => return 0
    | some item =>
      if ← isPane item then return 0
      let r ← restore (← spelt "mode" p) item
      return if r.value.isNone then -6 else if r.warnings.isEmpty then 12 else 4

variable (a : Known)

def score : Except Fault Int := do
  let choices ← (← recordsIn "enums" a.spec).mapM (choiceScore slots)
  let params ← (← recordsIn "params" a.spec).mapM (paramScore slots)
  return (choices ++ params).foldl (· + ·) 0

/-- The action that fits the items best; of equally good ones the first. -/
def best (first : Known) (others : List Known) : Except Fault Known := do
  let start ← score slots first
  let (a, _) ← others.foldlM (fun (a, n) b => do
    let m ← score slots b
    return if n < m then (b, m) else (a, n)) (first, start)
  return a

/-! ### The call -/

def selectScope (sign2 : Text) : Text :=
  if hasInfix sign2 "игрок по условию" then "ifplayer."
  else if hasInfix sign2 "моб по условию" then "ifmob."
  else if hasInfix sign2 "сущност" && hasInfix sign2 "по условию" then "ifentity."
  else []

def callText (args : Text) : Except Fault Text := do
  let sign1 := key (← spelt "sign1" a.spec)
  let isSelect := (a.module == "misc" || a.module == "select")
    && (sign1 == "выбрать обьект" || sign1 == "выбрать объект")
  let head ← if isSelect then do
      pure ("select." ++ selectScope (key (← spelt "sign2" a.spec)) ++ a.name)
    else pure (a.module ++ "." ++ a.name)
  return head ++ "(" ++ args ++ ")"

/-- An argument by name, if there is one, with warnings. -/
structure Argument where
  given : Option (Text × Text)
  warnings : List Text

def choiceArgument (slot : Int) (e : Json) : Except Fault Argument := do
  let name := trim (← spelt "name" e)
  let warning (t : Text) : Argument := ⟨none, ["enum " ++ name ++ ": " ++ t]⟩
  if name.isEmpty then return ⟨none, []⟩
  match slots.get? slot with
  | none => return warning ("слот " ++ ofInt slot ++ " пуст")
  | some item =>
    match (← chosenOption? item).filter (!·.isEmpty) with
    | none => return warning "не удалось определить выбранный вариант"
    | some picked =>
      let options ← e.get "options"
      if !(options.isTruthy && options.fields?.isSome) then return warning "нет списка options в api_aliases"
      match (matchOption? options picked).filter (!·.isEmpty) with
      | none => return warning ("значение " ++ shown picked ++ " не найдено в options")
      | some k => return ⟨some (name, Json.quote k), []⟩

def paramArgument (slot : Int) (p : Json) : Except Fault Argument := do
  let name := trim (← spelt "name" p)
  let mode := trim (← spelt "mode" p)
  match if name.isEmpty then none else slots.get? slot with
  | none => return ⟨none, []⟩
  | some item =>
    let r ← restore mode item
    let warnings := r.warnings.map fun w => name ++ ": " ++ w
    match r.value with
    | some v => return ⟨some (name, v), warnings⟩
    | none =>
      return ⟨none, warnings ++ [name ++ ": не удалось восстановить значение (slot=" ++ ofInt slot ++ ")"]⟩

/-- How an item that nothing describes is reported, if it has a chosen option. -/
def strayOption? (entry : Int × Json) : Except Fault (Option Text) := do
  match (← chosenOption? entry.2).filter (!·.isEmpty) with
  | none => return none
  | some picked =>
    let title := trim (dropColors (← spelt "displayName" entry.2))
    return some ("slot=" ++ ofInt entry.1 ++ " title=" ++ shown title ++ " value=" ++ shown picked)

def strayWarnings (gui : Text) (mapped : List Int) (slots : Slots) : Except Fault (List Text) := do
  let stray ← slots.filterM fun (slot, item) => do
    return !mapped.contains slot && !(← isPane item)
  if stray.isEmpty then return []
  let high := (stray.filter fun s => 54 ≤ s.1).length
  let count : Text := "api_aliases не покрывает часть слотов: mapped=" ++ ofNat mapped.length ++ " unresolved="
    ++ ofNat stray.length ++ " unresolvedPage2plus=" ++ ofNat high
  let pages : List Text := if 0 < high && hasInfix gui "1 из 5" then
      ["похоже используется схема GUI '1 из N' из api_aliases; слоты 2+ страниц не описаны и не будут "
        ++ "конвертированы в аргументы"]
    else []
  let options := (← stray.filterMapM strayOption?).take 8
  let listed : List Text := if options.isEmpty then []
    else ["нераспознанные enum-слоты: " ++ Text.joinWith "; " options]
  return [count] ++ pages ++ listed

def labelOf (k : Text) (a : Known) : Text := ((a.spec.field? k).map Json.spell).getD []

def described : Text :=
  a.module ++ "." ++ a.name ++ " ('" ++ labelOf "sign1" a ++ " | " ++ labelOf "sign2" a ++ "')"

def switchWarning (first chosen : Known) : List Text :=
  if first.module == chosen.module && first.name == chosen.name then []
  else ["автоподбор действия по сундуку: from=" ++ described first ++ " -> to=" ++ described chosen]

def callWithItems (slots : Slots) (warnings : List Text) : Except Fault Written := do
  let paramsValue ← a.spec.get "params"
  let enumsValue ← a.spec.get "enums"
  if !paramsValue.isTruthy && !enumsValue.isTruthy then return ⟨← callText a [], warnings⟩
  let params := Slots.ofRecords id (← paramsValue.asItems)
  let enums := Slots.ofRecords id (← enumsValue.asItems)
  let choices ← enums.mapM fun (slot, e) => choiceArgument slots slot e
  let values ← params.mapM fun (slot, p) => paramArgument slots slot p
  let args := choices ++ values
  let mapped := keepFirst ((params ++ enums).map (·.1))
  let stray ← strayWarnings (← spelt "gui" a.spec) mapped slots
  let warnings := warnings ++ args.flatMap (·.warnings) ++ stray
  let given := args.filterMap (·.given)
  if given.isEmpty then
    let none : Text := "аргументы не восстановлены (ни один слот не распознан)"
    return ⟨← callText a [], warnings ++ [none]⟩
  else return ⟨← callText a (Text.joinWith ", " (given.map fun (k, v) => k ++ "=" ++ v)), warnings⟩

/-! ### Blocks without an action -/

/-- What stands for a block with an empty second line, by the first line without blanks. -/
def emptySigns : List (String × String) :=
  [("событиеигрока", "event(\"Вход игрока\")"), ("событиеигры", "event(\"Старт игры\")"),
   ("еслиигрок", "if_player.noaction()"), ("еслиигра", "if_game.noaction()"),
   ("еслиперем", "if_value.noaction()"), ("еслизнач", "if_value.noaction()"),
   ("действиеигрока", "player.noaction()"), ("действиеигры", "game.noaction()")]

variable (p : Placement)

/-- What stands for a block whose sign has no second line. -/
def emptySign? : Option Text :=
  if (keysOf p.sign2).isEmpty then
    let s := ((keysOf p.sign1).headD []).filter (· != ' ')
    (emptySigns.find? fun e => hasInfix s e.1).map fun e => e.2.toList
  else none

def unknownText : Except Fault Text := do
  return "# UNKNOWN: " ++ p.sign1.spell ++ " || " ++ p.sign2.spell ++ " (block=" ++ (← p.block.get "block").spell ++ ")"

def functionCall? : Except Fault (Option Text) := do
  if !(keysOf p.sign1).any fun k => hasInfix k "вызвать функцию" then return none
  let name := trim (dropColors (← Json.textOr .wrongKind p.sign2))
  if name.isEmpty then return none
  let mode := Text.replaceChar 'ё' 'е' ((keysOf p.sign3).headD [])
  let async : Text := if hasInfix mode "асинхронно" then ", async=true" else []
  return some ("call(" ++ Json.quote name ++ async ++ ")")

def isBare : Bool :=
  (keysOf p.sign1).isEmpty && (keysOf p.sign2).isEmpty && (keys p.gui).isEmpty && (keys p.menu).isEmpty

def unmatched : Except Fault Written := do
  match emptySign? p with
  | some t => return ⟨t, ["пустая табличка: применен noaction-плейсхолдер"]⟩
  | none =>
    return ⟨← unknownText p, ["нет совпадения в api_aliases для sign1/sign2/gui/menu: " ++ p.sign1.shown ++ " / "
      ++ p.sign2.shown ++ " / " ++ shown p.gui ++ " / " ++ shown p.menu]⟩

def matched (first : Known) (others : List Known) : Except Fault Written := do
  let p ← p.withSlots
  let a ← best p.slots first others
  if !p.hasChest then
    return ⟨← callText a [], ["у блока нет сундука параметров (hasChest=false) — аргументы восстановить нельзя"]⟩
  if !(p.content.isTruthy && p.content.items?.isSome) then
    return ⟨← callText a [],
      ["сундук параметров пустой/не детектирован (chestItems/slots пусты) — аргументы восстановить нельзя"]⟩
  callWithItems a p.slots (switchWarning first a)

def writeBlock (idx : Index) (block : Json) : Except Fault Written := do
  let p ← Placement.ofBlock block
  if isBare p then
    return ⟨← unknownText p, ["пустая табличка: sign1/sign2/gui/menu пустые после нормализации; "
      ++ "пересканируй таблички в моде и повтори export/publish"]⟩
  match ← functionCall? p with
  | some t => return ⟨t, []⟩
  | none =>
    match candidates idx p with
    | [] => unmatched p
    | first :: others => matched p first others

end BlockScript.World
