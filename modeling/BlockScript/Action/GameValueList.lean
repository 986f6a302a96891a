import BlockScript.Action.GameValue
import BlockScript.Fault
import BlockScript.Json.Printer
import BlockScript.Json.Reader
import BlockScript.Json.Spelling

/-!
# The list of game values

Game values are copied from the game as a mixture of chat lines and documents. A document that lists slots gives the
values with their location names; where a document is cut off, the location names are still found in the text. The list
can be put back as one clean document, which is read directly.
-/

namespace BlockScript.GameValueList

variable (t : Text)

/-- The label without colours and controls. A control character that stands for the section sign counts as one. -/
def shown : Text := Label.plain (Text.replaceChar '\x15' '§' t)

/-- The form in which the names of values are compared. -/
def key : Text :=
  Text.trim ((Text.lower (shown t)).filter fun c => !(isBlank c || c == '_' || c == '-'))

/-! ### Documents in a text -/

/-- Where a search for documents stands: how many braces are open, the text since the first of them, last character
first, the quotation mark of an open text, and whether the next character is escaped. -/
structure Search where
  depth : Nat := 0
  read : Text := []
  quote : Option Char := none
  isEscaped : Bool := false

/-- Go on by a character. A document that ends here is handed out. -/
def Search.step (s : Search) (c : Char) : Search × Option Text :=
  let s' := if 0 < s.depth then { s with read := c :: s.read } else s
  if s.isEscaped then ({ s' with isEscaped := false }, none)
  else if c == '\\' then ({ s' with isEscaped := true }, none)
  else if c == '"' || c == '\'' then
    match s.quote with
    | some q => (if q == c then { s' with quote := none } else s', none)
    | none => ({ s' with quote := some c }, none)
  else if s.quote.isSome then (s', none)
  else if c == '\x7b' then
    ({ s' with depth := s.depth + 1, read := if s.depth == 0 then [c] else s'.read }, none)
  else if c == '\x7d' then
    if s.depth == 0 then (s', none)
    else if s.depth == 1 then ({ s' with depth := 0, read := [] }, some s'.read.reverse)
    else ({ s' with depth := s.depth - 1 }, none)
  else (s', none)

def braced (s : Search) : Text → List Text
  | [] => []
  | c :: rest =>
    let (s', found) := s.step c
    found.toList ++ braced s' rest

def documents : List Json := (braced {} t).filterMap Json.read?

/-! ### Values -/

structure Value where
  name : Text
  display : Text
  id : Json
  variety : Int
  lore : Text

def Value.toJson (v : Value) : Json := .obj [("locName", .str v.name), ("display", .str v.display), ("id", v.id),
  ("meta", .int v.variety), ("lore", .str v.lore)]

/-- The values by location name, and the location names by the keys of the names under which they are shown. -/
structure Index where
  values : Table Value := []
  keys : Table Text := []

/-- Enter a value. A value entered again replaces the former one; the first value with a key keeps the key. -/
def Index.add (x : Index) (v : Value) : Index :=
  let k := key v.display
  ⟨x.values.set v.name v, if v.display.isEmpty || k.isEmpty then x.keys else x.keys.setNew k v.name⟩

def Index.of (vs : List Value) : Index := vs.foldl Index.add {}

def textField (v : Json) : Except Fault Text := (v.orElse (.str [])).textOr .notARecord

def valueOf (name display : Text) (item : Json) : Except Fault Value := do
  let id := (← item.get "id").orElse (.str [])
  let variety ← ((← item.get "meta").orElse (.int 0)).asInt
  return ⟨name, display, id, variety, shown (← textField (← item.get "lore"))⟩

def cleanValue? (item : Json) : Except Fault (Option Value) := do
  match item with
  | .obj _ =>
    let name := Text.trim ((← item.get "locName").orElse (.str [])).spell
    if name.isEmpty then return none
    let display := shown (← textField (← item.get "display"))
    return some (← valueOf name display item)
  | _ => return none

def isNameChar (c : Char) : Bool := ('A' ≤ c && c ≤ 'Z') || ('0' ≤ c && c ≤ '9') || c == '_'

def tagPattern : Pattern :=
  .lit "LocName:\"" ++ .group 1 (.many1 (.char isNameChar)) ++ .lit "\""

/-- A location name in tags whose field names are quoted too. -/
def quotedTagPattern : Pattern :=
  let gap : Pattern := .lit "\\" ++ .many (.lit "s")
  .lit "\"LocName\"" ++ gap ++ .lit ":" ++ gap ++ .lit "\""
    ++ .group 1 (.many1 (.char isNameChar)) ++ .lit "\""

def slotValue? (item : Json) : Except Fault (Option Value) := do
  match item with
  | .obj _ =>
    let tags ← ((← item.get "nbt").orElse (.str [])).textOr .wrongKind
    match (tagPattern.search? tags).or (quotedTagPattern.search? tags) with
    | none => return none
    | some m =>
      let display := (← item.get "display").orElse (← item.get "displayName")
      let display := shown (← textField display)
      return some (← valueOf (m.group 1) display item)
  | _ => return none

def slots (doc : Json) : List Json :=
  match doc.field? "slots" with
  | some (.arr items) => items
  | _ => []

def escapedQuote : Pattern := .lit "\\\""

/-- A location name in tags inside a quoted text. -/
def escapedTagPattern : Pattern :=
  .lit "LocName:" ++ escapedQuote ++ .group 1 (.many1 (.char isNameChar)) ++ escapedQuote

def escapedNamePattern : Pattern :=
  .lit "Name:" ++ escapedQuote ++ .group 1 (.many1 (.noneOf "\\\"")) ++ escapedQuote

def escapedIdPattern : Pattern :=
  let word : Pattern := .many1 (.char fun c => ('a' ≤ c && c ≤ 'z') || ('0' ≤ c && c ≤ '9') || c == '_')
  .lit "id:" ++ escapedQuote ++ .group 1 (word ++ .lit ":" ++ word) ++ escapedQuote

/-- The value with a location name found in the text, from what stands in the 600 characters from it on. -/
def foundValue (m : Pattern.Match) : Value :=
  let window := m.start.rest.take 600
  let display := ((escapedNamePattern.search? window).map fun n => shown (n.group 1)).getD []
  let id := ((escapedIdPattern.search? window).map fun n => n.group 1).getD []
  ⟨m.group 1, display, .str id, 0, []⟩

/-- Add a value found in the text unless there is one with its location name. -/
def addFound (vs : List Value) (m : Pattern.Match) : List Value :=
  if vs.any (·.name == m.group 1) then vs else vs ++ [foundValue m]

def cleanItems? : Option (List Json) :=
  match (Json.read? t).bind (·.field? "values") with
  | some (.arr items) => some items
  | _ => none

def registered : Except Fault (List Value) := do
  match cleanItems? t with
  | some items => return (← items.mapM cleanValue?).filterMap id
  | none =>
    let vs ← ((documents t).flatMap slots).mapM slotValue?
    return (escapedTagPattern.findAll t).foldl addFound (vs.filterMap id)

/-! ### Files -/

def Index.payload (x : Index) : Json := .obj [
  ("version", .int 1),
  ("count", .int x.values.length),
  ("byLocName", .obj (x.values.map fun v => (v.1, v.2.toJson))),
  ("byKey", .obj (x.keys.map fun k => (k.1, .str k.2)))]

def Index.clean (x : Index) : Json := .obj [
  ("version", .int 1),
  ("count", .int x.values.length),
  ("values", .arr (x.values.map fun v => v.2.toJson))]

structure Built where
  table : Text
  /-- The clean list, and whether the list before was kept under another name. -/
  cleaned : Option (Text × Bool)

/-- Build the table from a list, and clean the list if wanted. A list that is clean already stays as it is. -/
def build (list : Text) (cleaning : Bool) : Except Fault Built := do
  let x := Index.of (← registered list)
  let isClean := (cleanItems? list).isSome
  return ⟨x.payload.fileText, if cleaning then some (if isClean then list else x.clean.fileText, !isClean) else none⟩

def missingList (place : Text) : Text :=
  "Не найден файл `apples.txt` (список игровых значений).\nПоложи его в одно из мест:\n"
    ++ "- `apples.txt` рядом с репозиторием\n- или `" ++ place ++ "`\n- или `~/Documents/apples.txt`\n\n"
    ++ "Либо укажи путь через `MLDSL_APPLES_TXT=<путь>`.\n"

def missingFile (path : Text) : Text := "Не найден файл: " ++ path

end BlockScript.GameValueList
