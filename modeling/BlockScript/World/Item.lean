import BlockScript.Fault
import BlockScript.Json.Printer
import BlockScript.Json.Spelling
import BlockScript.Text.Pattern
import BlockScript.World.Spelling

/-!
# Items of an exported chest

A chest beside a block holds its arguments as items: a book is a text, a ball of slime a number, and so on. The name of
the item is the value; its lore marks the chosen option of a switch.
-/

namespace BlockScript.World
open Text (endsWith hasInfix lower replace trim)

/-! ### Stored tags -/

/-- A text between quotes in stored tags, without the quotes. A backslash stands only in pairs, with a character behind
them. -/
def quotedTag : Pattern :=
  .lit "\"" ++ .group 1 (.many (.alt (.lit "\\\\" ++ .any) (.noneOf "\"\\")))
    ++ .lit "\""

/-- The text that stands between quotes in stored tags. -/
def unescapeTag (t : Text) : Text := replace "\\\"" "\"" (replace "\\\\" "\\" t)

/-- What is read of a list in stored tags: whether the reader is in quotes, whether the next character is escaped, and
how many lists are open. -/
structure TagState where
  quoted : Bool
  escaped : Bool
  depth : Nat

/-- A list in stored tags up to the bracket that closes it. -/
def tagList (s : TagState) : Text → Text
  | [] => []
  | c :: rest =>
    if s.escaped then c :: tagList { s with escaped := false } rest
    else if c == '\\' then c :: tagList { s with escaped := true } rest
    else if c == '"' then c :: tagList { s with quoted := !s.quoted } rest
    else if s.quoted then c :: tagList s rest
    else if c == '[' then c :: tagList { s with depth := s.depth + 1 } rest
    else if c == ']' then
      if s.depth = 0 then [] else c :: tagList { s with depth := s.depth - 1 } rest
    else c :: tagList s rest

def tagLore (tags : Text) : List Text :=
  match Text.cutAt? "Lore:[" tags with
  | none => []
  | some (_, rest) => (quotedTag.findAll (tagList ⟨false, false, 0⟩ rest)).map fun m => unescapeTag (m.group 1)

def displayPattern : Pattern :=
  .lit "display:\x7b" ++ .group 1 (.manyLazy .anyChar) ++ .lit "\x7d"

def tagName (tags : Text) : Text :=
  let part := match displayPattern.search? tags with
    | some m => m.group 1
    | none => tags
  match (.lit "Name:" ++ quotedTag).search? part with
  | some m => unescapeTag (m.group 1)
  | none => []

/-! ### Fields of items -/

def spelt (k : Text) (item : Json) : Except Fault Text := do
  let v ← item.get k
  return if v.isTruthy then v.spell else []

def lore (item : Json) : Except Fault Json := do
  let v ← item.get "lore"
  if v.isTruthy then return v else return Json.texts (tagLore (← spelt "nbt" item))

variable (item : Json)

def loreLines : Except Fault (List Text) := do
  return (((← lore item).items?).getD []).map fun v => if v.isTruthy then v.spell else []

def rawName : Except Fault Text := do
  let name ← spelt "displayName" item
  if name.isEmpty then return tagName (← spelt "nbt" item) else return name

def identifier : Except Fault Text := do
  match ← item.get "id" with
  | .str t => return t
  | v => if v.isTruthy then .error .notARecord else return []

def isPane : Except Fault Bool := do
  return trim (lower (← spelt "id" item)) == "minecraft:stained_glass_pane"

/-- The value of a field, or of the first of some others that counts as something. -/
def orElse (k : Text) (others : List Text) (fs : Json.Fields) : Json.Fields :=
  let truthy (k : Text) : Option Json := (fs.get? k).filter Json.isTruthy
  if (truthy k).isSome then fs else Table.set k ((others.findSome? truthy).getD (.str [])) fs

/-- An item in which the fields of older exports have their newer names. -/
def normalizeItem : Json :=
  match item with
  | .obj fs => .obj (Table.setNew "count" (.int 1)
      (orElse "displayName" ["display", "displayClean"] (orElse "id" ["registry"] fs)))
  | _ => .obj []

/-! ### Options -/

def chosenMarks : List Text := texts ["●", "•", "в—Џ"]

def otherMarks : List Text := texts ["○", "в—‹"]

def chosenColors : List Text := texts ["§a", "&a", "в§a"]

def chosenIn? (line : Text) : Option Text :=
  let clean := trim (dropColors line)
  if chosenMarks.any (hasInfix clean) || chosenColors.any (hasInfix (lower line)) then
    let bare := (chosenMarks ++ otherMarks).foldl (fun t m => replace m [] t) clean
    let bare := Text.trimBy (fun c => (" -:\t" : Text).contains c) bare
    if bare.isEmpty then none else some bare
  else none

def listedOption? : Except Fault (Option Text) := do
  let isEnum ← item.get "isEnum"
  match isEnum.isTruthy, ← item.get "enumOptions", (← item.get "enumSelectedIndex").int? with
  | true, .arr opts, some i =>
    if i < 0 then return none
    else return ((opts.drop i.toNat).head?).map fun v =>
      trim (dropColors (if v.isTruthy then v.spell else []))
  | _, _, _ => return none

def chosenOption? : Except Fault (Option Text) := do
  match ← listedOption? item with
  | some t => return some t
  | none => return (← loreLines item).findSome? chosenIn?

/-- How well two keys of options go together: the difference of their lengths, if one is a part of the other. -/
def closeness? (a b : Text) : Option Nat :=
  if hasInfix b a || hasInfix a b then some (max a.length b.length - min a.length b.length) else none

/-- The name of the option picked: one with an equal key, or else the closest one. -/
def matchOption? (options : Json) (picked : Text) : Option Text :=
  match options with
  | .obj fs =>
    let wanted := optionKeys picked
    let names := Table.names fs
    match names.find? fun n => (optionKeys n).any wanted.contains with
    | some n => some n
    | none =>
      let close := names.filterMap fun n =>
        (wanted.flatMap fun w => (optionKeys n).filterMap (closeness? w)).min?.map fun d => (d, n)
      ((close.mergeSort fun a b => a.1 < b.1 || (a.1 == b.1 && Text.le a.2 b.2)).head?).map (·.2)
  | _ => none

/-- An argument restored from an item, with what is to be said about it. -/
structure Restored where
  value : Option Text
  warnings : List Text
deriving DecidableEq

namespace Restored

def plain (t : Text) : Restored := ⟨some t, []⟩

def failed (warning : Text) : Restored := ⟨none, [warning]⟩

end Restored

def variablePattern : Pattern :=
  .atStart ++ .oneOf ((texts ["var", "var_save", "arr", "arr_save"]).map .word) ++ .lit "("
    ++ .many1 .any ++ .lit ")" ++ .atEnd

def placeholder : Pattern := .lit "%" ++ .many1 (.noneOf "%") ++ .lit "%"

def isVariableLike (name : Text) : Bool :=
  let t := trim name
  !t.isEmpty && (variablePattern.fits t || placeholder.occurs t)

/-- What is needed of an item to restore an argument. -/
structure ItemView where
  item : Json
  raw : Text
  name : Text
  lore : List Text
  id : Text

def ItemView.ofItem : Except Fault ItemView := do
  let raw ← rawName item
  let lore ← loreLines item
  let id ← identifier item
  return ⟨item, raw, trim (dropColors raw), lore.map fun l => trim (dropColors l), trim (lower id)⟩

namespace ItemView
variable (v : ItemView)

def isSaved : Bool := v.lore.any fun l => hasInfix (lower l) "сохран"

def savedName : Text := if v.isSaved then "var_save(" ++ v.name ++ ")" else v.name

def reference? : Option Text :=
  if v.name.isEmpty then none
  else if isVariableLike v.name then some v.name
  else if endsWith v.id "magma_cream" then some v.savedName
  else none

/-- A variable, or else the value of the name; a warning if there is no name. -/
def variableOr (mode : Text) (empty : Option Text) (f : Text → Text) : Restored :=
  match v.reference? with
  | some t => .plain t
  | none => if v.name.isEmpty then ⟨empty, [mode ++ ": пустое имя предмета"]⟩ else .plain (f v.name)

/-- A text: the name or, if the name is formatting only, the formatting, or else the first line of the lore. -/
def text : Restored :=
  match v.reference? with
  | some t => .plain t
  | none =>
    if !v.name.isEmpty then .plain (Json.quote v.name)
    else
      let format := trim (replace "§r" [] v.raw)
      if !format.isEmpty then .plain (Json.quote format)
      else
        let first := v.lore.headD []
        if first.isEmpty then ⟨some "\"\"", ["TEXT: пустое имя предмета"]⟩ else .plain (Json.quote first)

def inferredMode? : Option Text :=
  if endsWith v.id "book" then some "TEXT"
  else if endsWith v.id "slime_ball" then some "NUMBER"
  else if endsWith v.id "magma_cream" then some "VARIABLE"
  else if endsWith v.id "paper" then some "LOCATION"
  else if endsWith v.id "item_frame" then some "ARRAY"
  else if !v.id.isEmpty then some "ITEM"
  else none

def isIdentifier (t : Text) : Bool :=
  match (if t.getLast? == some '\n' then t.dropLast else t) with
  | [] => false
  | c :: rest => (c.isAlpha || c == '_') && rest.all fun d => d.isAlphanum || d == '_'

def gameValue (name : Text) : Text :=
  if Text.startsWith (lower name) "apple." then name
  else if isIdentifier name then "apple." ++ name
  else name

/-- An array; a mark at the end of its name says that it is kept. -/
def array : Restored :=
  if v.name.isEmpty then .failed "ARRAY: пустое имя предмета"
  else if v.name.getLast? == some '⎘' then .plain ("arr_save(" ++ Text.trimEnd v.name.dropLast ++ ")")
  else .plain v.name

def asItem : Except Fault Restored := do
  let id := trim (← identifier v.item)
  let kind := Json.quote (if id.isEmpty then "minecraft:stone" else id)
  let count : List Text := match (← v.item.get "count").int? with
    | some n => if 1 < n then ["count=" ++ Text.ofInt n] else []
    | none => []
  let shown ← v.item.get "displayName"
  let name : List Text :=
    if v.name.isEmpty then [] else ["name=" ++ (if shown.isTruthy then shown.inline else "\"\"")]
  return ⟨some ("item(" ++ Text.joinWith ", " ([kind] ++ count ++ name) ++ ")"),
    if id.isEmpty then ["ITEM: пустой id предмета"] else []⟩

def restoreAs (mode shownMode : Text) : Except Fault Restored :=
  if mode == "TEXT" then .ok v.text
  else if mode == "NUMBER" then .ok (v.variableOr mode (some "0") fun t => t)
  else if mode == "VARIABLE" then
    .ok (if v.name.isEmpty then .failed "VARIABLE: пустое имя предмета" else .plain v.savedName)
  else if mode == "ARRAY" then .ok v.array
  else if mode == "LOCATION" then .ok (v.variableOr mode none fun t => t)
  else if mode == "APPLE" then .ok (v.variableOr mode (some []) gameValue)
  else if mode == "ITEM" then v.asItem
  else .ok (.failed ("неизвестный режим аргумента: " ++ shownMode.shown))

def restore (mode : Text) : Except Fault Restored :=
  let m := trim mode.upper
  if m == "ANY" then
    match v.inferredMode? with
    | some inferred => v.restoreAs inferred inferred
    | none => .ok (.failed "ANY: не удалось определить тип по id предмета")
  else v.restoreAs m mode

end ItemView

def restore (mode : Text) (item : Json) : Except Fault Restored := do
  (← ItemView.ofItem item).restore mode

end BlockScript.World
