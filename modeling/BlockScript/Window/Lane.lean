import BlockScript.Window.Pane

/-!
# Lanes

An action that takes many values of one kind has a row of panes with empty rows below it. Such a lane gives every column
of the row its own arguments, one below the other, also the columns in which something else than a pane lies.

A repeated lane is recognised by panes that say so in their name or lore. A joined lane, which only the wide reading
knows, is recognised by two or three runs of panes with one column between them, in an action that joins texts.
-/

namespace BlockScript.Window

/-- What a pane says about its argument. -/
structure Marker where
  variety : Nat
  name : Text
  key : Text
  mode : Mode
deriving DecidableEq

def Marker.ofItem (x : Item) (mode : Mode) (label : Text) : Marker :=
  ⟨x.variety, Text.trim (Label.plain x.name), if x.variety == 0 then [] else Label.plainKey label, mode⟩

/-- A column of a lane: the slot in the row of panes, and the slots of its arguments. -/
structure Column where
  slot : Nat
  marker : Marker
  places : List Nat
deriving DecidableEq

abbrev Lane := List Column

def Lane.places (lane : Lane) : List (Column × Nat) :=
  let depth := (lane.map (·.places.length)).foldl max 0
  (List.range depth).flatMap fun d => lane.filterMap fun c => (c.places[d]?).map (c, ·)

variable (items : Slots)

def rows : List Nat := keepFirst ((Slots.sorted items).map (·.1 / rowSize))

def lastSlot : Nat := 6 * rowSize - 1

def slotAt (row col : Nat) : Nat := row * rowSize + col

def below (slot n : Nat) : List Nat := (List.range n).map fun k => slot + (k + 1) * rowSize

/-- Of some columns, the one closest to `col`; the first of two that are equally close. -/
def closest? (col : Nat) : List Nat → Option Nat
  | [] => none
  | c :: rest =>
    match closest? col rest with
    | some d => if distance d col < distance c col then some d else some c
    | none => some c

/-! ### Repeated lanes -/

/-- Words that a pane for several values of a mode carries in its name. -/
def pluralWords : Mode → List Text
  | .number => texts ["число(а)", "числа"]
  | .text => texts ["текст(ы)", "тексты"]
  | .item => texts ["предмет(ы)", "предметы"]
  | .location => texts ["местоположение(я)", "местоположения", "местополож"]
  | .array => texts ["массив(ы)", "массивы"]
  | .vector => texts ["вектор(ы)", "векторы", "вектор"]
  | .any => texts ["значение(я)", "значения"]
  | _ => []

def pointsAway (lore : Text) : Bool :=
  let key := Label.plainKey lore
  key.hasInfix "ниже" || key.hasInfix "выше" || lore.contains '⇩' || lore.contains '⇧'

variable (mode : Mode)

def isRepeated (x : Item) : Bool :=
  x.isPane && paneMode? x.variety x.name == some mode
    && ((pluralWords mode).any (Text.hasInfix (Label.plainKey x.name)) || pointsAway x.lore)

/-- The columns of a row in which a pane for several values of a mode lies. -/
def repeatedColumns (row : Nat) : List Nat :=
  (List.range rowSize).filter fun col => (Slots.get? (slotAt row col) items).any (isRepeated mode)

/-- Three columns in a row are among the columns. -/
def hasRun (cols : List Nat) : Bool := cols.any fun c => cols.contains (c + 1) && cols.contains (c + 2)

def span (cols : List Nat) : List Nat :=
  match cols.head?, cols.getLast? with
  | some a, some z => List.range' a (z + 1 - a)
  | _, _ => []

/-- The column of a repeated lane: three empty slots below, and the pane in the column or the closest one. -/
def repeatedColumn? (row : Nat) (cols : List Nat) (col : Nat) : Option Column :=
  let slot := slotAt row col
  let places := below slot 3
  let source := if cols.contains col then some col else closest? col cols
  match source.bind fun c => Slots.get? (slotAt row c) items with
  | none => none
  | some x =>
    if places.all fun s => s ≤ lastSlot && !Slots.has s items then
      some ⟨slot, .ofItem x mode (Text.trim (Label.plain x.name)), places⟩
    else none

/-- The lane of a row with at least seven panes for several values of a mode, three of them side by side. -/
def repeatedLane? (row : Nat) : Option (Lane × Nat) :=
  let cols := repeatedColumns items mode row
  if cols.length < 7 || !hasRun cols then none
  else ((span cols).mapM (repeatedColumn? items mode row cols)).map (·, cols.length)

/-- Of two lanes, each with the number of its panes, the one with more columns, then with more panes, then the first. -/
def better (a b : Lane × Nat) : Lane × Nat :=
  if a.1.length < b.1.length || (a.1.length == b.1.length && a.2 < b.2) then b else a

def repeatedLane : Lane :=
  match (rows items).filterMap (repeatedLane? items mode) with
  | [] => []
  | l :: ls => (ls.foldl better l).1

/-- The modes that come in repeated lanes, in the order their lanes are filled. -/
def laneModes : List Mode := [.number, .text, .item, .location, .array, .any]

/-! ### Joined lanes -/

def saysJoin (key : Text) : Bool :=
  key == "=" || (key.hasInfix "объедин" && key.hasInfix "текст")
    || (key.hasInfix "concat" && key.hasInfix "text")

/-- The action joins texts, by its labels or by its panes: at least eight for texts and one for a variable. -/
def joinsTexts (r : Record) : Bool :=
  let labels := [r.signs.first, r.signs.second, r.signs.third, r.title, r.subitem]
  let modes := r.items.filterMap fun (_, x) => if x.isMarker then paneMode? x.variety x.name else none
  labels.any (fun l => saysJoin (Label.plainKey l)) || (8 ≤ modes.count .text && 1 ≤ modes.count .variable)

def markerAt? (row col : Nat) : Option Marker :=
  (Slots.get? (slotAt row col) items).bind fun x =>
    if x.isMarker then (paneMode? x.variety x.name).map fun mode => .ofItem x mode x.name else none

/-- The runs of columns that hold markers, each by its first and last column. -/
def markerRuns (row : Nat) : List (Nat × Nat) :=
  runs ((List.range rowSize).filter fun col => (markerAt? items row col).isSome)
where
  runs : List Nat → List (Nat × Nat)
    | [] => []
    | c :: rest =>
      match runs rest with
      | (a, z) :: more => if a == c + 1 then (c, z) :: more else (c, c) :: (a, z) :: more
      | [] => [(c, c)]

def runLength (r : Nat × Nat) : Nat := r.2 + 1 - r.1

/-- Two runs with one column between them that are long enough for a lane. -/
def pairSpan? : List (Nat × Nat) → Option (Nat × Nat)
  | a :: b :: rest =>
    if 3 ≤ runLength a && 3 ≤ runLength b && b.1 == a.2 + 2 && 7 ≤ runLength a + runLength b then some (a.1, b.2)
    else pairSpan? (b :: rest)
  | _ => none

/-- Three runs with one column between them that are long enough for a lane. -/
def tripleSpan? : List (Nat × Nat) → Option (Nat × Nat)
  | a :: b :: c :: rest =>
    if 3 ≤ runLength a && 1 ≤ runLength b && 3 ≤ runLength c && b.1 == a.2 + 2 && c.1 == b.2 + 2
        && 7 ≤ runLength a + runLength b + runLength c then some (a.1, c.2)
    else tripleSpan? (b :: c :: rest)
  | _ => none

/-- The column of a joined lane: empty slots below, at least three of them, and the marker in the column or the closest
one. A pane in the column that marks no mode spoils the lane. -/
def joinedColumn? (row depth : Nat) (cols : List Nat) (col : Nat) : Option Column :=
  let slot := slotAt row col
  let places := below slot depth
  let marker := if (Slots.get? slot items).any Item.isMarker then markerAt? items row col
    else (closest? col (cols.filter fun c => (markerAt? items row c).isSome)).bind (markerAt? items row)
  if depth < 3 || places.any (Slots.has · items) then none else marker.map (⟨slot, ·, places⟩)

/-- The lane of a row with runs of markers. It reaches down to the last row that holds items, and three rows at least,
as far as the chest goes. -/
def joinedLane? (row : Nat) : Option Lane :=
  let runs := markerRuns items row
  match (pairSpan? runs).or (tripleSpan? runs) with
  | none => none
  | some (a, z) =>
    let cols := List.range' a (z + 1 - a)
    let depth := min 5 (max (lastRow items) (row + 3)) - row
    cols.mapM (joinedColumn? items row depth cols)

def joinedLane (r : Record) : Lane :=
  if joinsTexts r then ((rows r.items).findSome? (joinedLane? r.items)).getD [] else []

end BlockScript.Window
