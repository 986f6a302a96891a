import BlockScript.Script.Palette

/-!
# Plans

A plan is a list of entries: each places one block, or begins a new row. The first block of a row is its header.
-/

namespace BlockScript
open Script (Compile)

/-- An action of a script before it is put into a row. -/
structure Action where
  block : Text
  /-- The name under which the action is clicked and the text expected on its sign. -/
  name : Text
  args : Text
  negated : Bool
  opens : Bool
deriving DecidableEq

namespace Action

def skip : Action := ⟨"skip", [], "no", false, false⟩

def closes (a : Action) : Bool := a.block == "skip"

/-- The name of an action: what is clicked and, if it is known, what the sign then says. -/
def nameOf (spec : Spec) : Except Fault Text := do
  let menu ← spec.menuName
  let sign ← spec.expectedSign2
  return if sign.isEmpty then menu else menu ++ "||" ++ sign

def argsOf (pieces : List Text) : Text := if pieces.isEmpty then "no" else Text.joinWith "," pieces

def ofPlaced (palette : Palette) (p : Placed) : Compile Action := do
  let sign ← p.spec.sign1
  let _ ← p.spec.menuName
  let key ← palette.signKey sign
  match (palette.blocks.get? key).filter (!·.isEmpty) with
  | none => throw (.unknownBlock sign key)
  | some block => return ⟨Palette.plainBlock block, ← nameOf p.spec, argsOf p.pieces, false, false⟩

end Action

/-- An entry of a plan. The mark of a new row has neither name nor arguments. -/
structure Entry where
  block : Text
  name : Option Text
  args : Option Text
  negated : Bool
deriving DecidableEq

namespace Entry

def newline : Entry := ⟨"newline", none, none, false⟩

variable (e : Entry)

def isNewline : Bool := e.block == "newline"

def ofBlock (block name args : Text) : Entry := ⟨block, some name, some args, false⟩

def ofAction (a : Action) : Entry := ⟨a.block, some a.name, some (if a.args.isEmpty then "no" else a.args), a.negated⟩

def isFunc : Bool := e.block == "lapis_block"

def label : Text := e.name.getD []

def toJson : Json :=
  let field (key : Text) (v : Option Text) : Json.Fields := (v.map fun t => (key, Json.str t)).toList
  let negated : Json.Fields := if e.negated then [("negated", .bool true)] else []
  .obj (("block", .str e.block) :: (field "name" e.name ++ field "args" e.args ++ negated))

end Entry
end BlockScript
