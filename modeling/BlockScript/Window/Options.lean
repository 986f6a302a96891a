import BlockScript.Window.Pane

/-!
# Options

The lore of a switch shows its options, one on a line, with a filled bullet before the one chosen and an empty
bullet before the others. The near reading also takes a question mark for a filled bullet lost, and passes over
options without a text.
-/

namespace BlockScript.Window

structure Options where
  labels : List Text
  chosen : Nat
deriving DecidableEq

def loreBreak : Text := " \\n "

def afterBullet? (bullet shown : Text) : Option Text := (Text.cutAt? bullet shown).map fun p => Text.trim p.2

variable (reading : Reading)

def optionOn? (line : Text) : Option (Text × Bool) :=
  let shown := Text.trim (Label.plain line)
  let chosen (bullet : Text) := (afterBullet? bullet shown).map (·, true)
  let other := (afterBullet? "○" shown).map (·, false)
  match reading with
  | .wide => (chosen "●").or other
  | .near => (((chosen "●").or (chosen "?")).or other).filter fun o => !o.1.isEmpty

def Options.ofLore? (lore : Text) : Option Options :=
  match (Text.splitOn loreBreak lore).filterMap (optionOn? reading) with
  | [] => none
  | os => some ⟨os.map (·.1), (os.findIdx? (·.2)).getD 0⟩

/-- A switch: an item that is no pane and shows options. -/
structure Switch where
  slot : Nat
  item : Item
  options : Options
deriving DecidableEq

def switches (items : Slots) : List Switch :=
  (Slots.sorted items).filterMap fun (slot, x) =>
    if x.isPane then none else (Options.ofLore? reading x.lore).map (⟨slot, x, ·⟩)

end BlockScript.Window
