import BlockScript.Window.Catalog

/-!
# Audit

Windows recorded too early hold no panes and no switches. The audit counts the records and lists those windows,
and those that hold switches only.
-/

namespace BlockScript.Window

structure Numbered where
  number : Int
  record : Record
deriving DecidableEq

def headNumber (line : Text) : Except Fault Int :=
  match (Text.words line).getLast?.bind Text.toInt? with
  | some n => .ok n
  | none => .error .notANumber

/-- The numbered records of a file. `current` is the record being read; lines before the first head are passed over. -/
def numberedFrom (current : Option Numbered) : List Text → Except Fault (List Numbered)
  | [] => .ok current.toList
  | line :: rest => do
    if line.startsWith "# record " then
      let number ← headNumber line
      return current.toList ++ (← numberedFrom (some ⟨number, {}⟩) rest)
    match current with
    | none => numberedFrom none rest
    | some c => numberedFrom (some { c with record := ← c.record.enter line }) rest

def numbered (bytes : Bytes) : Except Fault (List Numbered) := numberedFrom none (plainLines bytes)

def showsOptions (lore : Text) : Bool := lore.contains '●' || lore.contains '○'

structure Contents where
  items : Nat
  panes : Nat
  markers : Nat
  switches : Nat

def Contents.of (items : Slots) : Contents where
  items := items.length
  panes := items.countP fun e => e.2.isPane
  markers := items.countP fun e => e.2.isMarker
  switches := items.countP fun e => !e.2.isPane && showsOptions e.2.lore

def menuIcons : List Text := texts
  ["minecraft:beacon", "minecraft:chest", "minecraft:painting", "minecraft:leather_boots", "minecraft:apple"]

def looksLikeMenu (items : Slots) : Bool :=
  items.any fun e => e.1 < rowSize && menuIcons.contains e.2.id

namespace Numbered

def labels (n : Numbered) : Json.Fields :=
  let shown (t : Text) : Json := .str (Text.trim (Label.plain t))
  [("record", .int n.number), ("sign1", shown n.record.signs.first), ("sign2", shown n.record.signs.second),
   ("gui", shown n.record.title)]

def broken? (n : Numbered) : Option Json :=
  let c := Contents.of n.record.items
  if n.record.hasChest && c.markers == 0 && c.switches == 0 then
    let counts : Json.Fields := [("items", .int c.items), ("glass", .int c.panes), ("enumItems", .int c.switches),
      ("looksLikeMenuSnapshot", .bool (looksLikeMenu n.record.items))]
    some (.obj (n.labels ++ counts))
  else none

def switchesOnly? (n : Numbered) : Option Json :=
  let c := Contents.of n.record.items
  if n.record.hasChest && c.markers == 0 && c.switches != 0 then
    let counts : Json.Fields := [("items", .int c.items), ("enumItems", .int c.switches)]
    some (.obj (n.labels ++ counts))
  else none

end Numbered

def missingExport (path : Text) : Text :=
  "Не найден `regallactions_export.txt`.\nОжидаемый путь: " ++ path
    ++ "\nПоложи экспорт в `.minecraft/regallactions_export.txt` или укажи `MLDSL_REGALLACTIONS_EXPORT`."

def audit (bytes : Bytes) : Except Fault Json := do
  let records ← numbered bytes
  let withChest := records.countP (·.record.hasChest)
  return .obj [
    ("recordsTotal", .int records.length),
    ("brokenLikely", .arr (records.filterMap Numbered.broken?)),
    ("noArgsButHasEnums", .arr (records.filterMap Numbered.switchesOnly?)),
    ("stats", .obj [("hasChestTrue", .int withChest), ("hasChestFalse", .int (records.length - withChest : Nat))])]

end BlockScript.Window
