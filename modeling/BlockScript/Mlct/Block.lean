import BlockScript.Mlct.Node

/-!
# Blocks

Nodes are collected into blocks: an activator, an action with its arguments, or a comment. Every block knows how many
conditions stand around it. The result of a compilation has a row of records for each line of code.
-/

namespace BlockScript.Mlct
open Json (Fields)

inductive Block where
  | activator (handler variant : Text) (delay : Option Text) (level : Int)
  | action (handler : Text) (variant : Option Text) (modifiers : Option (List Text))
      (args : Option (Table (List Slot))) (group : Option Text) (level : Int)
  | comment (name : Text) (values : List Text)

namespace Block

/-! ### Collecting -/

def modifierName? : Node → Option Text
  | .modifier name => some name
  | _ => none

def isArgumentPart : Node → Bool
  | .argument _ => true
  | .value _ => true
  | .openList => true
  | .closeList => true
  | _ => false

structure Collected where
  names : Table Text
  allowed : List Text
  current : Option Text
  values : List Slot
  args : Table (List Slot)

namespace Collected

def enter (c : Collected) : Table (List Slot) :=
  match c.current with
  | some name => c.args.set name c.values
  | none => c.args

def step (c : Collected) : Node → Work Collected
  | .argument given => do
    let some name := c.names.get? given | throw (.fault (.missingField given))
    if c.allowed.contains name then
      return { c with args := c.enter, values := [], current := some name, allowed := c.allowed.erase name }
    else throw (.exit (some "aa"))
  | .openList => return { c with values := [] }
  | .value v => return { c with values := c.values ++ [v] }
  | _ => return c

end Collected
variable (l : Language)

def arguments (variant : Option Text) (nodes : List Node) : Work (Table (List Slot)) := do
  let some name := variant | throw (.fault (.missingField "None"))
  let given ← Work.ofExcept (l.argumentsOf name)
  let names ← Work.ofExcept (Language.argumentNames given)
  let start : Collected := ⟨names, (given.fields?.getD []).map (·.1), none, [], []⟩
  return (← nodes.foldlM Collected.step start).enter

def ofAction (handler : Text) (variant group : Option Text) (level : Int) (rest : List Node) : Work Block := do
  let modifiers := (rest.takeWhile fun n => (modifierName? n).isSome).filterMap modifierName?
  let parts := (rest.dropWhile fun n => (modifierName? n).isSome).takeWhile isArgumentPart
  let args ← match parts with
    | .argument _ :: _ => do pure (some (← arguments l variant parts))
    | _ => pure none
  return .action handler variant (if modifiers.isEmpty then none else some modifiers) args group level

/-- What follows an action, without the node that closes it. -/
def afterAction (rest : List Node) : List Node :=
  let rest := rest.dropWhile fun n => (modifierName? n).isSome
  let rest := match rest with
    | .argument _ :: _ => rest.dropWhile isArgumentPart
    | _ => rest
  rest.drop 1

theorem length_afterAction_le (rest : List Node) : (afterAction rest).length ≤ rest.length := by
  have drop p (ns : List Node) : (ns.dropWhile p).length ≤ ns.length :=
    (List.dropWhile_suffix p).length_le
  unfold afterAction
  have h := drop (fun n => (modifierName? n).isSome) rest
  simp only [List.length_drop]
  split
  · have := drop isArgumentPart (rest.dropWhile fun n => (modifierName? n).isSome)
    omega
  · omega

/-- Collect the blocks of nodes. `inLine` says that a line of code is open, and `level` counts the conditions. -/
def collect (l : Language) (inLine : Bool) (level : Int) : List Node → Work (List Block)
  | [] => return []
  | .activator h v delay :: rest => do
    if inLine then collect l inLine level rest
    else match rest with
      | .openLine :: rest => return .activator h v delay level :: (← collect l true 0 rest)
      | _ => throw (.exit (some "строка не начата"))
  | .action h v group :: rest => do
    if inLine then
      let block ← ofAction l h v group level rest
      return block :: (← collect l inLine level (afterAction rest))
    else collect l inLine level rest
  | .comment name values :: rest => do
    if inLine then return .comment name values :: (← collect l inLine level rest)
    else collect l inLine level rest
  | .openLevel :: rest => collect l inLine (if inLine then level + 1 else level) rest
  | .closeLevel :: rest => collect l inLine (if inLine then level - 1 else level) rest
  | .closeLine :: rest => collect l false level rest
  | _ :: rest => collect l inLine level rest
termination_by ns => ns.length
decreasing_by
  all_goals first
    | exact Nat.lt_succ_of_le (length_afterAction_le _)
    | simp only [List.length_cons]; omega

def ofNodes (nodes : List Node) : Work (List Block) := collect l false 0 nodes

/-! ### Showing -/

def describe (type handler variant level : Text) (modifiers : List Text) (args other : Option (Table Text)) : Text :=
  let modifier (m : Text) : Text := " <" ++ m ++ ">"
  let arg (a : Text × Text) : Text := a.1 ++ "=" ++ a.2 ++ ", "
  let field (f : Text × Text) : Text := f.1 ++ "=" ++ f.2
  let head : Text := "Unit(" ++ type ++ ", " ++ handler ++ ", " ++ variant ++ ", level=" ++ level
    ++ modifiers.flatMap modifier
  let head : Text := match args with
    | some args =>
      let t : Text := head ++ " \x7b" ++ args.flatMap arg
      t.take (t.length - 2) ++ "\x7d"
    | none => head
  let head : Text := match other with
    | some fs => head ++ " \x7b" ++ fs.flatMap field ++ "\x7d"
    | none => head
  head ++ ")"

def firstValue (v : Json) : Except Fault Json := do
  match ← v.record with
  | f :: _ => return f.2
  | [] => .error .outOfRange

/-- A block that a document describes as it is shown; null stands for what is not there. Of each further record its
first value is shown. -/
def describeJson (type handler variant modifiers args level : Json) (other : Fields) : Except Fault Text := do
  let spelled (fs : Fields) : Table Text := fs.map fun f => (f.1, f.2.spell)
  let other ← (other.filter fun f => !f.2.isNull).mapM fun f => do return (f.1, ← firstValue f.2)
  let modifiers ← if modifiers.isNull then pure [] else modifiers.loop
  let args ← if args.isNull then pure none else do pure (some (spelled (← args.record)))
  return describe type.spell handler.spell variant.spell level.spell (modifiers.map Json.spell) args
    (if other.isEmpty then none else some (spelled other))

def shownValues (vs : List Slot) : Except Fault Text := do
  return "[" ++ Text.joinWith ", " (← vs.mapM Slot.shown) ++ "]"

def option (key : Text) (v : Option Text) : Option (Table Text) := v.map fun t => [(key, t)]

def shown : Block → Except Fault Text
  | activator h v delay level =>
    .ok (describe "ACTIVATOR" h v (Text.ofInt level) [] none (option "delay" delay))
  | action h v modifiers args group level => do
    let args ← args.mapM fun t => t.mapM fun (name, vs) => do return (name, ← shownValues vs)
    return describe "ACTION" h (v.getD "None") (Text.ofInt level) (modifiers.getD []) args
      (option "selectionGroup" group)
  | comment name values =>
    .ok (describe "GLOBAL_COMMENT" "GLOBAL_COMMENT" name "None" [] (option "values" (Json.texts values).shown) none)

/-! ### Results -/

/-- A count is at most a number of a document. -/
def atMost (n : Nat) : Json → Except Fault Bool
  | .int m => .ok (decide ((n : Int) ≤ m))
  | .bool b => .ok (decide (n ≤ if b then 1 else 0))
  | .real x => .ok (match Binary64.ofInt? n with
    | some y => y.lt x || y.eq x
    | none => false)
  | _ => .error .wrongKind

def argumentJson (spec : Json) (vs : List Slot) : Work Json := do
  let type ← Work.ofExcept (spec.need "type")
  if type.same (.str "value") then
    if ← Work.ofExcept (do atMost vs.length (← spec.getOr "max" (.int 1))) then
      return .arr (← vs.mapM fun v => do return (← Work.ofExcept v.need).toJson)
    else throw (.exit (some "Слишком много значений для списка аргумента"))
  else if type.same (.str "switch") then
    let some v := vs.head? | throw (.fault .outOfRange)
    return .int (← Work.ofExcept (do (← v.need).content.asInt))
  else throw (.exit (some "lang error"))

/-- The parameters in angle brackets in the record of a block. -/
def withModifiers (fs : Fields) (modifiers : List Text) : Fields :=
  modifiers.foldl (fun (fs : Fields) (m : Text) =>
    if m == "CONDITION_REVERSE" then Table.set m (.bool true) fs else Table.set "selector" (.str m) fs) fs

def headFields (handler : Text) (variant : Option Text) (level : Json) : Fields :=
  [("handler", .str handler), ("variant", .ofOption variant), ("level", level)]

def withField (key : Text) (v : Option Text) (fs : Fields) : Fields :=
  match v with
  | some t => Table.set key (.str t) fs
  | none => fs

def toJson : Block → Work Json
  | activator h v delay level => return .obj (withField "delay" delay (headFields h (some v) (.int level)))
  | comment name _ => return .obj (headFields "GLOBAL_COMMENT" (some name) .null)
  | action h v modifiers args group level => do
    let fs := withField "selectionGroup" group
      (withModifiers (headFields h v (.int level)) (modifiers.getD []))
    match args with
    | none => return .obj fs
    | some args =>
      let specs ← Work.ofExcept (l.argumentsOf (v.getD "None"))
      let args : Fields ← args.mapM fun (a : Text × List Slot) => do
        return (a.1, ← argumentJson (← Work.ofExcept (specs.need a.1)) a.2)
      return .obj (Table.set "args" (.obj args) fs)

def isActivator : Block → Bool
  | activator .. => true
  | _ => false

def rows : List Block → List (List Block)
  | [] => []
  | b :: rest =>
    match rest, rows rest with
    | next :: _, row :: more => if next.isActivator then [b] :: row :: more else (b :: row) :: more
    | _, more => [b] :: more

def result (blocks : List Block) : Work Json := do
  if blocks.isEmpty then throw (.fault .outOfRange)
  return .arr (← (rows blocks).mapM fun row => do return Json.arr (← row.mapM (toJson l)))

end Block
end BlockScript.Mlct
