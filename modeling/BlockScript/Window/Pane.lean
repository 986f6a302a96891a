import BlockScript.Action.Mode
import BlockScript.Window.Record

/-!
# Panes

A pane of stained glass marks the place of an argument, and its colour says which kind of item belongs there. There are
two ways of reading a window. The near reading goes by the colour and what lies around the pane, and takes a slot next
to it. The wide reading goes by colour and name, and searches the row of the window on the closer side when no slot
next to the pane is free.
-/

namespace BlockScript.Window

/-- How the places of arguments are found in a window. -/
inductive Reading where
  | near
  | wide
deriving DecidableEq

def paneId : Text := "minecraft:stained_glass_pane"

def Item.isPane (x : Item) : Bool := x.id == paneId

def blackPane : Nat := 15

def Item.isMarker (x : Item) : Bool := x.isPane && x.variety != blackPane

def rowSize : Nat := 9

variable (items : Slots)

/-- The row of the last item, or the last row of a chest if there is none. -/
def lastRow : Nat :=
  if items.isEmpty then 5 else (items.map (·.1)).foldl max 0 / rowSize

/-- The slots next to a slot in the rows up to `last`, in the order they are tried: below, left, right,
above. -/
def neighbours (slot last : Nat) : List Nat :=
  let row := slot / rowSize
  let col := slot % rowSize
  let places := [(row + 1, col)] ++ (if 0 < col then [(row, col - 1)] else [])
    ++ (if col + 1 < rowSize then [(row, col + 1)] else []) ++ (if 0 < row then [(row - 1, col)] else [])
  (places.filter fun p => p.1 ≤ last).map fun p => p.1 * rowSize + p.2

/-! ### Modes -/

def namedMode? (shown : Text) : Option Mode :=
  if shown.startsWith "вектор" || shown.startsWith "vector" then some .vector
  else if shown.hasInfix "блок" then some .block
  else none

def paneMode? (variety : Nat) (name : Text) : Option Mode :=
  let shown := Text.lower (Label.plain name)
  (namedMode? shown).or <| match variety with
    | 9 => some .vector
    | 0 => some .any
    | 3 => if shown.startsWith "текст" then some .text else none
    | 14 => some .number
    | 1 => some .variable
    | 4 => some .item
    | 5 => if shown.hasInfix "местополож" then some .location else some .array
    | _ => none

/-- Whether a place or an array is meant, by the first sheet of paper or item frame next to the pane. -/
def placeOrArray (slot : Nat) : Mode :=
  ((neighbours slot (lastRow items)).findSome? fun s =>
    (Slots.get? s items).bind fun x =>
      if x.id == "minecraft:paper" then some .location
      else if x.id == "minecraft:item_frame" then some .array
      else none).getD .array

def paneModeAmong? (slot variety : Nat) (name : Text) : Option Mode :=
  let shown := Text.lower (Label.plain name)
  (namedMode? shown).or <| match variety with
    | 9 => some .vector
    | 0 => some .any
    | 3 => some .text
    | 14 => some .number
    | 1 => some .variable
    | 4 => some .item
    | 5 =>
      if shown.hasInfix "местополож" || shown.hasInfix "location" then some .location
      else some (placeOrArray items slot)
    | 13 => if (texts ["предмет", "item", "block"]).any (shown.hasInfix) then some .item else none
    | _ => none

/-! ### Free slots -/

def valueItem? : Mode → Option Text
  | .text => some "minecraft:book"
  | .number => some "minecraft:slime_ball"
  | .variable => some "minecraft:magma_cream"
  | .array => some "minecraft:item_frame"
  | .location => some "minecraft:paper"
  | _ => none

variable (taken : List Nat)

def isFree (slot : Nat) : Bool := !taken.contains slot && !Slots.has slot items

def freeNeighbour? (last slot : Nat) : Option Nat :=
  (neighbours slot last).find? (isFree items taken)

/-- The first slot next to a pane that is not taken and holds an item of a class. -/
def heldNeighbour? (last slot : Nat) (p : Item → Bool) : Option Nat :=
  (neighbours slot last).find? fun s => !taken.contains s && (Slots.get? s items).any p

/-- The slot next to a pane that its argument takes: one that holds a value of the mode already, else a free one. An
item or a block may also take the place of something that is not a pane. -/
def nearSlot? (mode : Mode) (last slot : Nat) : Option Nat :=
  (heldNeighbour? items taken last slot fun x => valueItem? mode == some x.id).or <|
    (freeNeighbour? items taken last slot).or <|
      if mode == .item || mode == .block then heldNeighbour? items taken last slot fun x => !x.isPane else none

def distance (a b : Nat) : Nat := (a - b) + (b - a)

/-- The free slot closest to a pane on the side of the closer bound: before it down to `low`, or after it up to
`high`. -/
def closerSide? (low high slot : Nat) : Option Nat :=
  let side := if distance slot low ≤ distance high slot
    then (List.range' low (slot - low)).reverse
    else List.range' (slot + 1) (high - slot)
  side.find? (isFree items taken)

/-- The slot that an argument takes between the bounds: a free slot next to the pane, else one on the closer side. -/
def wideSlot? (low high slot : Nat) : Option Nat :=
  ((neighbours slot 5).find? fun s => low ≤ s && s ≤ high && isFree items taken s).or
    (closerSide? items taken low high slot)

def bounds : Nat × Nat :=
  match items.map (·.1) with
  | [] => (0, rowSize - 1)
  | s :: rest => (rest.foldl min s / rowSize * rowSize, (rest.foldl max s / rowSize + 1) * rowSize - 1)

end BlockScript.Window
