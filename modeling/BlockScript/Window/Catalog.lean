import BlockScript.Text.Lines
import BlockScript.Text.Wide
import BlockScript.Window.Argument

/-!
# The catalog of actions

The catalog lists what the recorded windows say about the actions: key, signs, arguments and switches. Beside it stands
a table of the second sign lines by the first, in which names for the actions can be filled in.
-/

namespace BlockScript.Window

variable (bytes : Bytes)

def plainLines : List Text := Text.lines (CodePage.utf8 (bytes.filter (· != 0)))

/-- The text of a file that may hold two-byte text: it starts with a byte order mark, or more than one byte in twenty is
zero. -/
def wideText : Text :=
  match bytes with
  | 0xFF :: 0xFE :: rest => CodePage.wide true rest
  | 0xFE :: 0xFF :: rest => CodePage.wide false rest
  | _ => if bytes.length < 20 * bytes.count 0 then CodePage.wide true bytes else CodePage.utf8 bytes

def wideLines : List Text := Text.feedLines (Text.unifyLineEnds (wideText bytes))

def Reading.fileLines : Reading → Bytes → List Text
  | .near => plainLines
  | .wide => wideLines

/-! ### Entries -/

def Options.toJson (o : Options) : Json :=
  .obj [("options", .texts o.labels), ("selectedIndex", .int o.chosen), ("clicks", .int o.chosen)]

def Options.toJson? : Option Options → Json
  | some o => o.toJson
  | none => .null

def Argument.toJson (a : Argument) : Json := .obj [
  ("glassSlot", .int a.pane),
  ("glassMeta", .int a.marker.variety),
  ("glassMetaFilter", if a.marker.variety == 0 then .null else .int a.marker.variety),
  ("glassName", .str a.marker.name),
  ("keyNorm", .str a.marker.key),
  ("mode", .str a.marker.mode.name),
  ("argSlot", .int a.slot),
  ("argHasItem", .bool a.isFilled),
  ("variant", Options.toJson? a.options)]

def Switch.toJson (s : Switch) : Json := .obj [
  ("slot", .int s.slot),
  ("id", .str s.item.id),
  ("meta", .int s.item.variety),
  ("name", .str (Text.trim (Label.plain s.item.name))),
  ("variant", s.options.toJson)]

def Record.entry (keyName : Text) (reading : Reading) (aliases : Json) (r : Record) : Except Fault Json := do
  return .obj [
    (keyName, .str (← r.key aliases)),
    ("path", .str r.path),
    ("category", .str r.category),
    ("subitem", .str r.subitem),
    ("gui", .str r.title),
    ("signs", .texts r.signs.toList),
    ("args", .arr ((arguments reading r).map Argument.toJson)),
    ("enums", .arr ((switches reading r.items).map Switch.toJson))]

/-! ### Documents -/

/-- The spellings of sign lines that stand for others. -/
def signAliases : Option Json → Except Fault Json
  | none => .ok (.obj [])
  | some v =>
    match v with
    | .obj fs => .ok ((Table.get? "sign1" fs).getD (.obj []))
    | _ => .error .notARecord

variable (reading : Reading)

def windowList (aliases : Option Json) (bytes : Bytes) : Except Fault Json := do
  let names ← signAliases aliases
  let records ← Record.all (plainLines bytes)
  return .arr (← records.mapM (Record.entry "key" reading names))

/-- Enter the signs of a record in the table of names to be filled in. -/
def suggest (table : Table (Table Text)) (r : Record) : Table (Table Text) :=
  let first := r.signs.first
  let second := r.signs.second
  let isNamed := match reading with
    | .near => !first.isEmpty && !second.isEmpty
    | .wide => !second.isEmpty
  if isNamed then Table.set first (Table.setNew second [] (Table.getD first table [])) table else table

/-- The catalog of a file and the table of names to be filled in. The readings differ in how they take the file and in
whether an action without a first sign line is named; the windows get the near reading in both. -/
def catalog (aliases : Option Json) (bytes : Bytes) : Except Fault (Json × Table (Table Text)) := do
  let names ← signAliases aliases
  let records ← Record.all (reading.fileLines bytes)
  return (.arr (← records.mapM (Record.entry "id" .near names)), records.foldl (suggest reading) [])

end BlockScript.Window
