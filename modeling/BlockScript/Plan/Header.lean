import BlockScript.Plan.Entry
import BlockScript.Plan.Event

/-!
# Headers of rows

A row begins with the block of the event, function or cycle whose actions it holds.
-/

namespace BlockScript.Plan
open Script (Error)

inductive Owner where
  | event (name : Text)
  | func (name : Text)
  | loop (name : Text) (ticks : Int)
deriving DecidableEq

namespace Owner

def name : Owner → Text
  | .event n | .func n | .loop n _ => n

def kind : Owner → Text
  | .event _ => "event"
  | .func _ => "func"
  | .loop .. => "loop"

def shown (o : Owner) : Text := o.kind ++ " `" ++ o.name ++ "`"

def minTicks : Int := 5

def eventHeader (events : Table KnownEvent) (word : Text) : Except Error Entry :=
  let t := word.trim
  if t.isEmpty then .ok (.ofBlock "diamond_block" "Событие игрока||" "no")
  else
    let name := KnownEvent.nameOf t
    if events.isEmpty then .ok (.ofBlock "diamond_block" name "no")
    else match events.get? (Label.key name) with
      | some e => .ok (.ofBlock e.block (e.menu ++ "||" ++ e.sign2) "no")
      | none => .error (.unknownEvent name)

def header (events : Table KnownEvent) : Owner → Except Error Entry
  | .event word => eventHeader events word
  | .func name => .ok (.ofBlock "lapis_block" name "no")
  | .loop name ticks =>
    .ok (.ofBlock "emerald_block" name (Text.ofInt (if ticks = 0 then minTicks else max minTicks ticks)))

end Owner
end BlockScript.Plan
