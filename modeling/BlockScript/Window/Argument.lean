import BlockScript.Window.Lane
import BlockScript.Window.Options

/-!
# Arguments of a window

Every pane that marks an argument takes one slot, in the order of the slots, and no slot is taken twice. Lanes come
after the single panes. Panes that belong to a lane, and panes that only repeat what a lane says, take no slot of their
own.
-/

namespace BlockScript.Window

structure Argument where
  pane : Nat
  marker : Marker
  slot : Nat
  isFilled : Bool
  options : Option Options
deriving DecidableEq

variable (reading : Reading)
variable (items : Slots)

def Argument.place (pane : Nat) (marker : Marker) (slot : Nat) : Argument :=
  let held := Slots.get? slot items
  ⟨pane, marker, slot, held.isSome, held.bind fun x => Options.ofLore? reading x.lore⟩

def Reading.mode? (slot : Nat) (x : Item) : Option Mode :=
  match reading with
  | .near => paneModeAmong? items slot x.variety x.name
  | .wide => paneMode? x.variety x.name

def Reading.slot? (taken : List Nat) (mode : Mode) (slot : Nat) : Option Nat :=
  match reading with
  | .near => nearSlot? items taken mode (lastRow items) slot
  | .wide => wideSlot? items taken (bounds items).1 (bounds items).2 slot

/-- The lanes of a window, in the order they are filled, and with the mode of the panes they stand for. -/
def Reading.lanes (r : Record) : List (Option Mode × Lane) :=
  let joined := match reading with
    | .near => []
    | .wide => [(none, joinedLane r)]
  joined ++ laneModes.map fun mode => (some mode, repeatedLane r.items mode)

/-- A pane belongs to a lane or repeats what a lane says. -/
def inLane (lanes : List (Option Mode × Lane)) (slot : Nat) (x : Item) : Bool :=
  lanes.any fun (mode, lane) =>
    lane.any (·.slot == slot) || (!lane.isEmpty && mode.any (isRepeated · x))

def single? (lanes : List (Option Mode × Lane)) (taken : List Nat) (slot : Nat) (x : Item) : Option Argument :=
  if !x.isMarker || inLane lanes slot x then none
  else (reading.mode? items slot x).bind fun mode =>
    (reading.slot? items taken mode slot).map (.place reading items slot (.ofItem x mode x.name))

/-- The arguments of the single panes, where the slots in `taken` are taken. -/
def singles (reading : Reading) (items : Slots) (lanes : List (Option Mode × Lane)) (taken : List Nat) :
    Slots → List Argument
  | [] => []
  | (slot, x) :: rest =>
    match single? reading items lanes taken slot x with
    | some a => a :: singles reading items lanes (a.slot :: taken) rest
    | none => singles reading items lanes taken rest

/-- The arguments of lanes, where the slots in `taken` are taken. -/
def laneArguments (reading : Reading) (items : Slots) (taken : List Nat) : List (Column × Nat) → List Argument
  | [] => []
  | (c, slot) :: rest =>
    if taken.contains slot then laneArguments reading items taken rest
    else .place reading items c.slot c.marker slot :: laneArguments reading items (slot :: taken) rest

def arguments (r : Record) : List Argument :=
  let lanes := reading.lanes r
  let own := singles reading r.items lanes [] (Slots.sorted r.items)
  own ++ laneArguments reading r.items (own.map (·.slot)) (lanes.flatMap (·.2.places))

end BlockScript.Window
