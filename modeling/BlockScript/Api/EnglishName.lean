import BlockScript.Api.Naming
import BlockScript.Json.Keyed

/-!
# English names

A rough English name for an action: a phrase of its label known as a whole, or else its words one by one, without
the small ones. Names that come up again in a module get a number.
-/

namespace BlockScript.EnglishName
variable (label : Text)

def searched : Text := Text.lower (Text.trim (Label.plain label))

/-- Phrases that give an action its name. The first one that occurs counts. -/
def phrases : Table Text := Table.ofStrings
  [("вызвать функцию", "call_function"), ("установить переменную", "set_var"), ("присв. переменную", "set_var"),
   ("присвоить переменную", "set_var"), ("очистить инвентарь", "clear_inventory"),
   ("удалить предметы", "remove_items"), ("выдать предметы", "give_items"), ("выдать предмет", "give_item"),
   ("надеть броню", "equip_armor"), ("отправить сообщение", "message"), ("сообщение", "message"),
   ("телепортировать", "teleport"), ("телепорт", "teleport"), ("установить предмет", "set_item"),
   ("установить предметы", "set_items"), ("поставить предмет", "place_item"), ("урон", "damage"), ("исцел", "heal"),
   ("объединить тексты", "concat_texts"), ("объединить текст", "concat_texts")]

/-- Beginnings of words. The first one that fits counts. -/
def stems : Table Text := Table.ofStrings
  [("выдать", "give"), ("дать", "give"), ("установ", "set"), ("присв", "set"), ("удал", "remove"), ("очист", "clear"),
   ("получ", "get"), ("добав", "add"), ("созда", "create"), ("сохран", "save"), ("загруз", "load"), ("отправ", "send"),
   ("сообщ", "message"), ("телепорт", "teleport"), ("урон", "damage"), ("исцел", "heal"), ("предмет", "item"),
   ("предметы", "items"), ("инвент", "inventory"), ("брон", "armor"), ("текст", "text"), ("тексты", "texts"),
   ("числ", "number"), ("перемен", "var"), ("массив", "array"), ("местополож", "location"), ("функц", "function"),
   ("игрок", "player"), ("существо", "entity")]

def smallWords : List Text := texts
  ["в", "на", "по", "для", "и", "или", "с", "со", "из", "к", "от", "до", "это", "все"]

def snake : Text := Naming.toSnake (Text.lower (Label.plain label))

def ofWord (word : Text) : Text :=
  ((stems.find? fun s => word.startsWith s.1).map (·.2)).getD word

def words : List Text :=
  (Text.splitBy (fun c => isBlank c || c == '_' || c == '/') label).filterMap fun w =>
    let w := w.filter fun c => Naming.isSnakeChar c || isCyrillic c
    if w.isEmpty || smallWords.contains w then none else some w

def ofLabel : Text :=
  let t := (searched label).filter fun c => c != '’' && c != '\'' && c != '`'
  let t := Text.replace "эндер-сундук" "ender_chest" (Text.replace "эндер сундук" "ender_chest" t)
  match phrases.find? fun p => t.hasInfix p.1 with
  | some p => p.2
  | none => snake (Text.joinWith "_" ((words t).map ofWord))

def moduleOf (sign1 : Text) : Text :=
  Naming.moduleWith (texts ["выбрать объект"]) (texts ["сущ", "моб"]) (texts ["значение", "переменная"])
    (searched sign1)

structure Named where
  id : Json
  module : Text
  stem : Text
  label : Text

def read (action : Json) : Except Fault (Option Named) := do
  let id ← action.get "id"
  if !id.isTruthy then return none
  let signs := (← action.get "signs").orElse (.texts [[], [], [], []])
  let first ← signs.item 0
  let second ← if 1 < (← signs.count) then signs.item 1 else pure (.str [])
  let gui := (← action.getOr "gui" (.str [])).orElse (.str [])
  let module := moduleOf (← first.asText)
  let label ← (second.orElse gui).asText
  return some ⟨← Keyed.check id, module, ofLabel label, Text.trim (Label.plain label)⟩

/-- The names of the actions of a module, numbered when they come up again. -/
def numberFrom (seen : List (Text × Text)) : List Named → List (Named × Text)
  | [] => []
  | a :: rest =>
    let n := seen.count (a.module, a.stem) + 1
    let name := if n == 1 then a.stem else a.stem ++ "_" ++ Text.ofNat n
    (a, name) :: numberFrom ((a.module, a.stem) :: seen) rest

def ofCatalog (catalog : Json) : Except Fault Json := do
  let actions ← (← catalog.loop).filterMapM read
  let table : Keyed Json := (numberFrom [] actions).foldl (fun t (a, name) =>
    t.set a.id (.obj [("name", .str name), ("aliases", .texts [a.label])])) []
  return table.toJson id

end BlockScript.EnglishName
