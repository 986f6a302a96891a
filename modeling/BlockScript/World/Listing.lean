import BlockScript.World.Block

/-!
# Listing of an exported world

An exported world is a list of rows of blocks. A row is read from its header to the left: at every second place stands
an action, and the piston at the side of a place opens or closes a scope.
-/

namespace BlockScript.World
open Text (ofNat trim)

inductive ListingError where
  | data (f : Fault)
  /-- A row has no header with a place, or no other block with one. -/
  | geometry (row : Nat) (x0 : Json) (count : Nat)

def ListingError.message : ListingError → Text
  | .data _ => []
  | .geometry row x0 count =>
    "row[" ++ ofNat row ++ "] has no valid geometry for strict parser: x0=" ++ x0.shown ++ ", parsed_x_count="
      ++ ofNat count

/-! ### Headers -/

variable (block : Json)

def headerName : Except Fault Text := do
  let s2 := trim (← Json.textOr .notARecord (← signLine 1 block))
  if s2.isEmpty then return trim (← Json.textOr .notARecord (← signLine 0 block)) else return s2

def header (row : Nat) : Except Fault Text := do
  let kind ← block.get "block"
  let s1 := key (← Json.textOr .wrongKind (← signLine 0 block))
  let isKind (t : Text) : Bool := kind.same (.str t)
  let name ← headerName block
  let named (word : Text) : Text := if name.isEmpty then word ++ "_noaction_" ++ ofNat row else name
  let brace : Text := ") \x7b"
  if isKind "minecraft:diamond_block" || s1.hasInfix "событие" then
    return if name.isEmpty then "event(" ++ brace else "event(" ++ Json.quote name ++ brace
  else if isKind "minecraft:lapis_block" then return "func(" ++ named "func" ++ brace
  else if isKind "minecraft:emerald_block" then
    let ticks := trim (← Json.textOr .notARecord (← signLine 2 block))
    return "loop(" ++ named "loop" ++ ", " ++ (if ticks.isEmpty then ['2', '0'] else ticks) ++ brace
  else return "row(" ++ Json.quote (if name.isEmpty then "row_" ++ ofNat row else name) ++ brace

/-! ### Places -/

def placeOf : Json :=
  match block.field? "pos" with
  | some (.obj fs) => ((Table.get? "x" fs)).getD .null
  | _ => .null

/-- The place by which blocks are sorted; blocks without one come last. -/
def sortPlace : Except Fault Int :=
  match block.field? "pos" with
  | some (.obj _) => (placeOf block).asInt
  | _ => .ok (-1000000000)

def sortBlocks (blocks : List Json) : Except Fault (List Json) := do
  let placed ← blocks.mapM fun b => do return (← sortPlace b, b)
  return (placed.mergeSort fun a b => b.1 ≤ a.1).map (·.2)

def kindOf : Text := ((block.field? "block").map fun v => if v.isTruthy then v.spell else []).getD []

def isPiston : Bool :=
  kindOf block == "minecraft:piston" || kindOf block == "minecraft:sticky_piston"

def isAir : Bool :=
  let k := trim (Text.lower (kindOf block))
  k == "minecraft:air" || k == "air"

/-! ### Rows -/

def margin (level : Nat) : Text := List.replicate (4 * level) ' '

def entryLines (idx : Index) (level : Nat) (block : Json) : Except Fault (List Text) := do
  if (keysOf (← signLine 1 block)).contains "иначе" || (keysOf (← signLine 0 block)).contains "иначе" then
    return [margin level ++ "else"]
  let w ← writeBlock idx block
  return w.warnings.map (fun t => margin level ++ "# WARN: " ++ t) ++ [margin level ++ w.line]

def pistonLines (level : Nat) (piston : Json) : List Text × Nat :=
  let facing := Text.lower (((piston.field? "facing").map fun v => if v.isTruthy then v.spell else []).getD [])
  if facing == "west" then ([margin level ++ "\x7b"], level + 1)
  else if facing == "east" && 1 < level then ([margin (level - 1) ++ "\x7d"], level - 1)
  else ([], level)

/-- The lines of a row behind its header: `steps` places from the place `x` on. -/
def placeLines (idx : Index) (blocks : List (Int × Json)) : Nat → Int → Nat → Except Fault (List Text)
  | 0, _, _ => .ok []
  | steps + 1, x, level => do
    let at_ (x : Int) : List Json := (blocks.filter fun b => b.1 == x).map (·.2)
    let entry ← match ((at_ x).find? fun b => !isPiston b).filter fun b => !isAir b with
      | some b => entryLines idx level b
      | none => pure []
    let (brace, level) := match (at_ (x - 1)).find? isPiston with
      | some p => pistonLines level p
      | none => ([], level)
    return entry ++ brace ++ (← placeLines idx blocks steps (x - 2) level)

def rowLines (idx : Index) (n : Nat) (row : Json) : Except ListingError (List Text) := do
  let data {α : Type} (x : Except Fault α) : Except ListingError α := x.mapError .data
  let all ← data do (← row.get "blocks").asItems
  match ← data (sortBlocks (all.filter fun b => b.fields?.isSome)) with
  | [] => return []
  | first :: rest =>
    let head ← data (header first n)
    let placed := rest.filterMap fun b => (placeOf b).int?.map fun x => (x, b)
    let x0 := placeOf first
    match x0.int?, (placed.map (·.1)).min? with
    | some start, some last =>
      let steps := ((start - last) / 2 + 4).toNat
      let body ← data (placeLines idx placed steps (start - 2) 1)
      return [head] ++ body ++ [['\x7d'], []]
    | _, _ => .error (.geometry n x0 placed.length)

def rowsLines (idx : Index) : Nat → List Json → Except ListingError (List Text)
  | _, [] => .ok []
  | n, row :: rest => do return (← rowLines idx n row) ++ (← rowsLines idx (n + 1) rest)

def versionLines (world : Json) : Except Fault (List Text) := do
  match ← world.get "version" with
  | .null => return []
  | v =>
    if (← Json.asInt v) < 2 then
      return ["# WARN: exportcode version < 2; возможна неполная детекция enum/аргументов.", []]
    else return []

def listing (world : Json) (api : Api) : Except ListingError Text := do
  let data {α : Type} (x : Except Fault α) : Except ListingError α := x.mapError .data
  let idx ← data (Index.ofApi api)
  let rows ← data (world.get "rows")
  let remark ← data (versionLines world)
  let lines ← rowsLines idx 0 (← data rows.asItems)
  return Text.trimEnd (Text.joinWith "\n" (remark ++ lines)) ++ "\n"

end BlockScript.World
