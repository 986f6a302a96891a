import BlockScript.Plan.Entry

/-!
# Commands

An event is placed by one command, which lists its block and the blocks behind it with their names and arguments. A
command has a limited length.
-/

namespace BlockScript.Command
open Script (Error)

def maxLength : Nat := 240

def quoted (t : Text) : Text := "\"" ++ t ++ "\""

/-- A block of a command: its kind, its name and its arguments. -/
structure Block where
  block : Text
  name : Text
  args : Text
deriving DecidableEq

/-- The words for a block. Only the clickable part of a name is written. -/
def Block.words (b : Block) : List Text :=
  let name := match Text.cutAt? "||" b.name with
    | some (menu, _) => menu
    | none => b.name
  [b.block, quoted name, if b.args.isEmpty then "no" else quoted b.args]

def build (eventBlock eventName : Text) (blocks : List Block) : Text :=
  let head : List Text := ["/placeadvanced", eventBlock, quoted eventName, "no"]
  Text.joinWith " " (head ++ blocks.flatMap Block.words)

def isEvent (e : Entry) : Bool := e.block == "diamond_block"

def Block.ofEntry (e : Entry) : Block := ⟨e.block, e.label, e.args.getD []⟩

def checked (e : Entry) (rest : List Entry) : Except Error Text :=
  let cmd := build "diamond_block" e.label (rest.map Block.ofEntry)
  if maxLength < cmd.length then .error (.longCommand cmd.length maxLength) else .ok cmd

/-- The commands for a plan: one for each event of players. What stands before the first event is passed over. -/
def ofEntries : List Entry → Except Error (List Text)
  | [] => .ok []
  | e :: rest =>
    if isEvent e then do
      return (← checked e (rest.takeWhile (!isEvent ·))) :: (← ofEntries rest)
    else ofEntries rest

end BlockScript.Command
