import BlockScript.Action.Placed
import BlockScript.Text.Lines

/-!
# The palette

Every action is placed as a block of a certain kind, which the first line of its sign determines. The palette lists
the blocks by the keys of these lines; some lines are spelt in more than one way.
-/

namespace BlockScript

structure Palette where
  blocks : Table Text
  aliases : Json.Fields

namespace Palette

/-- An entry of the list of blocks: `[(block) label]`. -/
def entryPattern : Pattern :=
  .lit "[(" ++ .group 1 (.many1 (.noneOf "]")) ++ .lit ")" ++ .blanks1
    ++ .group 2 (.many1 (.noneOf "]")) ++ .lit "]"

def blocksOf (t : Text) : Table Text :=
  Table.ofList ((entryPattern.findAll t.unifyLineEnds).map fun m =>
    (Label.key (Label.display (Text.trim (m.group 2))), Text.trim (m.group 1)))

def aliasesOf (doc : Json) : Except Fault Json.Fields := do
  let fields ← (← doc.get "sign1").asFields
  return Table.ofList (fields.map fun f => (Label.key f.1, f.2))

/-- The key of the first line of a sign, other spellings resolved. -/
def signKey (p : Palette) (sign1 : Text) : Except Fault Text :=
  let key := Label.key sign1
  match p.aliases.get? key with
  | some v => do return Label.key (← v.asText)
  | none => .ok key

def plainBlock (block : Text) : Text := Text.replace "minecraft:" [] block

end Palette
end BlockScript
