import BlockScript.Json.Document
import BlockScript.Json.Spelling
import BlockScript.Label
import BlockScript.Path
import BlockScript.Text.Lines

/-!
# The guide to the library

The pages of the guide: one for every action, an index, a list of all actions and a list of the events of a player.
Pages are written in a light markup in which names stand between backquotes.
-/

namespace BlockScript.Guide
open Text (le replace trim)

/-! ### Parts of a page -/

/-- A text in which backquotes are escaped; null and the like are empty. -/
def escaped (v : Json) : Except Fault Text := do
  return replace "`" "\\`" (← (v.orElse (.str [])).textOr .notARecord)

def code (t : Text) : Text := "`" ++ t ++ "`"

def fieldLine (name : Text) (value : Text) : Text := "- " ++ code name ++ ": " ++ code value

def specLine (name : Text) (spec : Json) : Except Fault Text := do
  return fieldLine name (← escaped (← spec.getOr name (.str [])))

def aliasLines (spec : Json) : Except Fault (List Text) := do
  let names ← (← spec.get "aliases").asItems
  if names.isEmpty then return []
  let shown ← names.mapM fun a => do return code (← escaped a)
  return ["- `aliases`: " ++ Text.joinWith ", " shown]

def windowLines (spec : Json) : Except Fault (List Text) := do
  if (← spec.get "gui").isTruthy then return [← specLine "gui" spec] else return []

def trimmed (key : Text) (v : Json) : Except Fault Text := do
  return trim (← ((← v.get key).orElse (.str [])).textOr .notARecord)

def textSection (head : Text) (body : Text) : List Text :=
  if body.isEmpty then [] else ["## " ++ head, "```", body, "```", []]

/-! ### Actions -/

def paramText (p : Json) : Except Fault Text := do
  let name := (← p.get "name").orElse (.str [])
  let mode := (← p.get "mode").orElse (.str [])
  let slot ← p.get "slot"
  if !mode.isTruthy then name.textOr .wrongKind
  else if slot.isNull then return name.spell ++ ": " ++ mode.spell
  else return name.spell ++ ": " ++ mode.spell ++ " (slot " ++ slot.spell ++ ")"

def paramsOf (spec : Json) : Except Fault (List Json) := do (← spec.get "params").asItems

def signature (path : Text) (params : List Json) : Except Fault Text := do
  return path ++ "(" ++ Text.joinWith ", " (← params.mapM paramText) ++ ")"

def paramLine (p : Json) : Except Fault Text := do
  let label ← trimmed "label" p
  let name ← p.getOr "name" (.str [])
  let mode ← p.getOr "mode" (.str [])
  let tail : Text := if label.isEmpty then [] else " — " ++ label
  return fieldLine name.spell mode.spell ++ " slot " ++ code (← p.get "slot").spell ++ tail

def choiceLines (e : Json) : Except Fault (List Text) := do
  let head := "- " ++ code (← e.get "name").spell ++ ": slot " ++ code (← e.get "slot").spell
  let options ← ((← e.get "options").orElse (.obj [])).record
  let lines ← options.mapM fun (label, n) => do
    return "  - " ++ code (← escaped (.str label)) ++ " -> clicks " ++ code n.spell
  return head :: lines

structure Entry where
  path : Text
  page : Text
  signature : Text
  body : List Text
  listing : List Text

def firstLine (t : Text) : Text := trim ((Text.lines (trim t)).headD [])

def pageLines (sig : Text) (spec : Json) (params : List Json) : Except Fault (List Text) := do
  let choices ← (← spec.get "enums").asItems
  let description ← trimmed "description" spec
  let raw ← trimmed "descriptionRaw" spec
  let head : List Text := ["# " ++ code sig, []]
  let head := head ++ (← aliasLines spec) ++ [← specLine "sign1" spec, ← specLine "sign2" spec]
    ++ (← windowLines spec) ++ [← specLine "id" spec, []]
  let shownParams ← params.mapM paramLine
  let shownChoices ← choices.mapM choiceLines
  let paramPart : List Text := if params.isEmpty then [] else "## Params".toList :: shownParams ++ [[]]
  let choicePart : List Text := if choices.isEmpty then [] else "## Enums".toList :: shownChoices.flatten ++ [[]]
  return head ++ textSection "Description" description
    ++ (if raw == description then [] else textSection "DescriptionRaw" raw) ++ paramPart ++ choicePart

def listingLines (path page sig : Text) (spec : Json) : Except Fault (List Text) := do
  let first := firstLine (← trimmed "description" spec)
  let raw ← trimmed "descriptionRaw" spec
  let summary := if first.isEmpty then firstLine raw else first
  let head : List Text := ["## " ++ code path, [], fieldLine "signature" sig, fieldLine "doc" page]
  let tail : List Text := if summary.isEmpty then [[]]
    else ["- `summary`: " ++ replace "`" "\\`" summary, []]
  return head ++ (← windowLines spec) ++ [← specLine "sign1" spec, ← specLine "sign2" spec]
    ++ (← aliasLines spec) ++ tail

/-- The guide's entry for an action. A name that leads into another directory has no page. -/
def entry (module name : Text) (spec : Json) : Except Fault Entry := do
  let path := module ++ "." ++ name
  let page := ((Path.ofText module).child (name ++ ".md")).toText
  let params ← paramsOf spec
  let sig ← signature path params
  let body ← pageLines sig spec params
  if name.contains '/' then throw .missingFile
  return ⟨path, page, sig, body, ← listingLines path page sig spec⟩

def inOrder (fs : Json.Fields) : Json.Fields := fs.mergeSort fun a b => le a.1 b.1

def entries (api : Json) : Except Fault (List (Text × List Entry)) := do
  (inOrder (← api.record)).mapM fun (module, v) => do
    return (module, ← (inOrder (← v.record)).mapM fun (name, spec) => entry module name spec)

/-! ### Events -/

structure Event where
  name : Text
  window : Text
  description : Text

/-- The description behind the first bar of a menu item. -/
def eventDescription (item : Text) : Text :=
  match Text.cutAt? "|" (Label.plain item) with
  | some (_, after) => trim (replace "\\n" "\n" after)
  | none => []

def event? (action : Json) : Except Fault (Option Event) := do
  let signs := (← action.get "signs").orElse (.texts [[], [], [], []])
  let shown (v : Json) : Except Fault Text := do return trim (Label.plain (← v.asText))
  let first ← shown (← signs.item 0)
  let second ← shown (← signs.item 1)
  if first != "Событие игрока" || second.isEmpty then return none
  let window ← trimmed "gui" action
  return some ⟨second, window, eventDescription (← (← action.get "subitem").asText)⟩

/-- The events with different names, in the order of their names in lower case. -/
def arrange (events : List Event) : List Event :=
  let once := events.foldl (fun kept e => if kept.any (·.name == e.name) then kept else kept ++ [e]) []
  once.mergeSort fun a b => le (Text.lower a.name) (Text.lower b.name)

def Event.lines (e : Event) : List Text :=
  let quoted (t : Text) : Text := code (replace "`" "\\`" t)
  let window : List Text := if e.window.isEmpty then [] else ["- GUI: " ++ quoted e.window]
  let body : List Text := if e.description.isEmpty then [] else ["```", e.description, "```"]
  let head : List Text := ["## " ++ quoted e.name]
  head ++ window ++ body ++ [[]]

def eventPage (catalog : Json) : Except Fault (List Text) := do
  let events ← (← catalog.loop).filterMapM event?
  let head : List Text := texts ["# События игрока (из regallactions_export)", "",
    "Это список `sign2` для блока `Событие игрока` (diamond_block).",
    "В MLDSL можно писать `событие(<имя>) \x7b ... \x7d`.",
    "Если имя не найдено в этом списке — компилятор выдаст предупреждение (но всё равно попытается напечатать).", ""]
  return head ++ (arrange events).flatMap Event.lines

/-! ### The guide -/

structure Companions where
  quickStart : Bool
  handbook : Bool
  events : Bool

def indexHead (c : Companions) : List Text :=
  let quick : Text := if c.quickStart then "- Русский: [Быстрый старт](QUICKSTART_RU.md)"
    else "- Русский: (not found) — add `docs/QUICKSTART_RU.md` or `out/language_quickstart_ru.md`"
  let book : Text := if c.handbook then "- Русский: [Гайд](MLDSL_GUIDE_RU.md)" else "- Русский: (not found)"
  let events : List Text := if c.events then ["- Русский: [События игрока](EVENTS_RU.md)"] else []
  let start : List Text := ["# MLDSL API", [], "## Quickstart", [], quick, "- English: [QUICKSTART](QUICKSTART.md)", [],
    "## Guides", [], book, "- English: [Guide](MLDSL_GUIDE.md)"]
  start ++ events ++ [[], "## Full API".toList, [], "- [ALL_FUNCTIONS](ALL_FUNCTIONS.md)".toList, []]

def indexModule (module : Text) (es : List Entry) : List Text :=
  let head : List Text := ["## " ++ code module, []]
  head ++ es.map (fun e => "- [" ++ code e.path ++ "](" ++ e.page ++ ")") ++ [[]]

def page (ls : List Text) : Text := Text.joinLines ls ++ "\n"

/-- The pages of the guide by path. A catalog that is no document has no page on events. -/
def generate (api : Json) (catalog : Document) (quickStart handbook : Bool) : Except Fault (Table Text) := do
  let hasCatalog := match catalog with
    | .missing => false
    | _ => true
  let modules ← entries api
  let all := modules.flatMap (·.2)
  let index := indexHead ⟨quickStart, handbook, hasCatalog⟩ ++ modules.flatMap fun m => indexModule m.1 m.2
  let listHead := texts ["# MLDSL API (All Functions)", "", "Autogenerated from `out/api_aliases.json`.", ""]
  let events : Table Text ← match catalog with
    | .value v => do pure [(("EVENTS_RU.md" : Text), page (← eventPage v))]
    | _ => pure []
  let pages : Table Text := all.map fun e => (e.page, page e.body)
  let front : Table Text :=
    [("README.md", page index), ("ALL_FUNCTIONS.md", page (listHead ++ all.flatMap (·.listing)))]
  return Table.ofList (pages ++ front ++ events)

end BlockScript.Guide
