import BlockScript.Fault
import BlockScript.Label
import BlockScript.Text.Pattern

/-!
# Recorded windows

The game shows the arguments of an action in a window: a chest with an item in some of its slots. A record holds the
signs of the action, the way to it through the menus and the items of its window. Records are written as lines of the
form `name=value` under a line that starts with `# record`.
-/

namespace BlockScript.Window

structure Item where
  id : Text
  variety : Nat
  name : Text
  lore : Text
deriving DecidableEq

abbrev Slots := List (Nat × Item)

namespace Slots

def get? (slot : Nat) (items : Slots) : Option Item := items.lookup slot

def has (slot : Nat) (items : Slots) : Bool := (get? slot items).isSome

/-- Put an item into a slot. A slot that held one keeps its place in the order. -/
def put (slot : Nat) (x : Item) : Slots → Slots
  | [] => [(slot, x)]
  | (s, y) :: rest => if s == slot then (s, x) :: rest else (s, y) :: put slot x rest

def sorted (items : Slots) : Slots := items.mergeSort fun a b => a.1 ≤ b.1

end Slots

/-! ### Records -/

structure Signs where
  first : Text := []
  second : Text := []
  third : Text := []
  fourth : Text := []
deriving DecidableEq

def Signs.toList (s : Signs) : List Text := [s.first, s.second, s.third, s.fourth]

structure Record where
  path : Text := []
  category : Text := []
  subitem : Text := []
  title : Text := []
  signs : Signs := {}
  hasChest : Bool := false
  items : Slots := []
deriving DecidableEq

/-- The line of an item: its slot, its id and variety in brackets, its name and lore. -/
def itemPattern : Pattern :=
  .atStart ++ .lit "item=slot" ++ .blanks1 ++ .group 1 (.many1 .digit) ++ .lit ":"
    ++ .blanks1 ++ .lit "[" ++ .group 2 (.many1 (.char fun c => !isBlank c)) ++ .blanks1
    ++ .lit "meta=" ++ .group 3 (.many1 .digit) ++ .lit "]" ++ .blanks1
    ++ .group 4 .rest ++ .atEnd

def count (t : Text) : Except Fault Nat :=
  match t.toInt? with
  | some n => .ok n.toNat
  | none => .error .notANumber

def readItem (line : Text) : Except Fault (Option (Nat × Item)) :=
  match itemPattern.match? line with
  | none => .ok none
  | some m => do
    let slot ← count (m.group 1)
    let variety ← count (m.group 3)
    let (name, lore) := (Text.cutAt? " | " (m.group 4)).getD (m.group 4, [])
    return some (slot, ⟨m.group 2, variety, name.trim, lore.trim⟩)

namespace Record

/-- The names of plain fields, and how a value is entered. -/
def writers : List (Text × (Text → Record → Record)) := [
  ("path=", fun v r => { r with path := v }),
  ("category=", fun v r => { r with category := v }),
  ("subitem=", fun v r => { r with subitem := v }),
  ("gui=", fun v r => { r with title := v }),
  ("sign1=", fun v r => { r with signs := { r.signs with first := v } }),
  ("sign2=", fun v r => { r with signs := { r.signs with second := v } }),
  ("sign3=", fun v r => { r with signs := { r.signs with third := v } }),
  ("sign4=", fun v r => { r with signs := { r.signs with fourth := v } }),
  ("hasChest=", fun v r => { r with hasChest := Text.lower v.trim == "true" })]

/-- Enter what a line says. Lines that say nothing are passed over. -/
def enter (r : Record) (line : Text) : Except Fault Record :=
  match writers.findSome? fun w => (Text.dropLead? w.1 line).map (w.2 · r) with
  | some r' => .ok r'
  | none => do
    match ← readItem line with
    | some (slot, x) => return { r with items := Slots.put slot x r.items }
    | none => return r

def ofLines (lines : List Text) : Except Fault Record := lines.foldlM enter {}

/-- Cut the lines of a file at the heads of its records. `pending` holds the lines of the record being read, last line
first. A record without lines is left out. -/
def chunksFrom (pending : List Text) : List Text → List (List Text)
  | [] => if pending.isEmpty then [] else [pending.reverse]
  | line :: rest =>
    if line.startsWith "# record" then
      if pending.isEmpty then chunksFrom [] rest else pending.reverse :: chunksFrom [] rest
    else if line.startsWith "records=" then chunksFrom pending rest
    else chunksFrom (line :: pending) rest

def all (lines : List Text) : Except Fault (List Record) := (chunksFrom [] lines).mapM ofLines

/-! ### Documents -/

def textField (v : Json) (key : Text) : Text := ((v.field? key).bind Json.text?).getD []

def numberField (v : Json) (key : Text) : Nat := (((v.field? key).bind Json.int?).getD 0).toNat

def itemOfJson : Json → Nat × Item
  | .arr [.int n, x] => (n.toNat, ⟨textField x "id", numberField x "meta", textField x "name", textField x "lore"⟩)
  | _ => (0, ⟨[], 0, [], []⟩)

def slotsOfJson (v : Json) : Slots :=
  ((v.items?.getD []).map itemOfJson).foldl (fun t e => Slots.put e.1 e.2 t) []

/-- The record that a document describes; what is missing in it is empty. -/
def ofJson (v : Json) : Record :=
  let signs := ((v.field? "signs").bind Json.items?).getD []
  let sign (i : Nat) : Text := ((signs[i]?).bind Json.text?).getD []
  ⟨textField v "path", textField v "category", textField v "subitem", textField v "gui",
    ⟨sign 0, sign 1, sign 2, sign 3⟩, ((v.field? "hasChest").map Json.isTruthy).getD false,
    slotsOfJson ((v.field? "items").getD .null)⟩

def toJson (r : Record) : Json :=
  .obj [("path", .str r.path), ("category", .str r.category), ("subitem", .str r.subitem), ("gui", .str r.title),
    ("signs", .texts r.signs.toList), ("hasChest", .bool r.hasChest),
    ("items", .arr (r.items.map fun (n, x) => .arr [.int n, .obj [("id", .str x.id), ("meta", .int x.variety),
      ("name", .str x.name), ("lore", .str x.lore)]]))]

/-- A sign line as it is compared, where a line may stand for another one. -/
def signKey (aliases : Json) (line : Text) : Except Fault Text := do
  if line.isEmpty then return []
  let shown := Text.trim (Label.plain line)
  if ← aliases.mentions shown then
    return Label.plainKey (← (← aliases.need shown).asText)
  return Label.plainKey shown

/-- The key of a record: where it was found, its window and its signs. -/
def key (aliases : Json) (r : Record) : Except Fault Text := do
  let signs ← r.signs.toList.mapM (signKey aliases)
  return Text.joinWith "|" ([r.path, r.category, r.subitem, r.title].map Label.plainKey ++ signs)

end Record
end BlockScript.Window
