import BlockScript.Fault
import BlockScript.Label

/-!
# Events

An event is known by its menu title and by the second line of its sign. The catalog of actions lists the events of
players and of the world; without a catalog every name is taken as it is.
-/

namespace BlockScript

/-- A known event: its block, its menu title and the second line of its sign. -/
structure KnownEvent where
  block : Text
  menu : Text
  sign2 : Text
deriving DecidableEq

namespace KnownEvent

/-- The item of a list, or a character of a text, at a place. -/
def itemAt (n : Nat) : Json → Except Fault Json
  | .arr xs => match xs.drop n with
    | x :: _ => .ok x
    | [] => .error .outOfRange
  | .str t => match t.drop n with
    | c :: _ => .ok (.str [c])
    | [] => .error .outOfRange
  | .obj _ => .error (.missingField (Text.ofNat n))
  | _ => .error .wrongKind

def blockOf? (sign1 : Text) : Option Text :=
  let s := sign1.lower
  if !s.hasInfix "событие" then none
  else if s.hasInfix "игрока" then some "diamond_block"
  else if s.hasInfix "мира" then some "gold_block"
  else none

/-- The first of two fields that counts as something. -/
def either (a b : Text) (rec : Json) : Except Fault Json := do
  let v ← rec.get a
  if v.isTruthy then return v else rec.get b

def ofRecord (rec : Json) : Except Fault (Option KnownEvent) := do
  let signs ← rec.get "signs"
  let signs := if signs.isTruthy then signs else Json.texts [[], [], [], []]
  let sign1 := Text.trim (Label.display (← (← itemAt 0 signs).asText))
  let sign2 := Text.trim (Label.display (← (← itemAt 1 signs).asText))
  match blockOf? sign1 with
  | none => return none
  | some block =>
    let title := Label.title (← (← either "subitem" "category" rec).asText)
    let menu := if title.isEmpty then sign2 else title
    return if menu.isEmpty then none else some ⟨block, menu, if sign2.isEmpty then menu else sign2⟩

/-- Add an event under the keys of its menu title and of its sign; a key taken keeps its event. -/
def add (t : Table KnownEvent) (e : KnownEvent) : Table KnownEvent :=
  (t.setNew (Label.key e.menu) e).setNew (Label.key e.sign2) e

/-- The events of a catalog, by key. A catalog that is no list has none. -/
def ofCatalog (catalog : Json) : Except Fault (Table KnownEvent) :=
  match catalog with
  | .arr records => (records.filter fun r => r.fields?.isSome).foldlM (fun t r => do
      match ← ofRecord r with
      | some e => return add t e
      | none => return t) []
  | _ => .ok []

def nameOf (word : Text) : Text :=
  let w := Text.lower word.trim
  if (texts ["join", "вход"]).contains w then "вход"
  else if (texts ["leave", "quit", "выход"]).contains w then "выход"
  else word

end KnownEvent
end BlockScript
