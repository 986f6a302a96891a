import BlockScript.Script.Layout

/-!
# Multiple selections

`multiselect scope counter threshold` and the indented lines behind it select everything of a kind for which enough
conditions hold: every condition that holds changes a counter by its weight, and the counter is compared with the
threshold at the end. Such a block is written out as selections and arithmetic actions.
-/

namespace BlockScript.Multiselect
open Script (Error)

/-! ### Scopes -/

inductive Scope where
  | player
  | mob
  | entity
deriving DecidableEq

namespace Scope

def ofText? (t : Text) : Option Scope :=
  Table.get? (Label.tight t)
    [("ifplayer", .player), ("player", .player), ("ifmob", .mob), ("mob", .mob), ("ifentity", .entity),
     ("entity", .entity)]

def word : Scope → Text
  | .player => "ifplayer"
  | .mob => "ifmob"
  | .entity => "ifentity"

def words : Scope → List Text
  | .player => texts ["ifplayer", "еслиигрок"]
  | .mob => texts ["ifmob", "еслимоб"]
  | .entity => texts ["ifentity", "еслисущество", "еслисущность"]

def selectAll : Scope → Text
  | .player => "select.allplayers"
  | .mob => "select.allmobs"
  | .entity => "select.allentities"

end Scope

inductive WeightOp where
  | add
  | sub
  | mul
  | div
deriving DecidableEq

namespace WeightOp

def action : WeightOp → Text
  | .add => "var.set_sum"
  | .sub => "var.set_difference"
  | .mul => "var.set_product"
  | .div => "var.set_quotient"

def ofChar? : Char → Option WeightOp
  | '+' => some .add
  | '-' => some .sub
  | '*' => some .mul
  | '/' => some .div
  | _ => none

end WeightOp

/-- A condition and what it does to the counter when it holds. -/
structure Weighted where
  call : Text
  op : WeightOp
  weight : Text
deriving DecidableEq

/-- How many characters are read up to the last parenthesis that closes all others. `n` counts the characters before,
`depth` the open parentheses, and `found` is the place found so far. -/
def callEndFrom (s : Nesting) (n : Nat) (depth : Int) (found : Option Nat) : Text → Option Nat
  | [] => found
  | c :: rest =>
    let outside := !s.escaped && s.quote.isNone
    let depth := if outside && c == '(' then depth + 1 else if outside && c == ')' then depth - 1 else depth
    let found := if outside && c == ')' && depth == 0 then some (n + 1) else found
    callEndFrom (s.read c) (n + 1) depth found rest

/-- The weight that follows a condition: an operation and a value, one unless it is given. -/
def weight? (tail : Text) : Option (WeightOp × Text) :=
  match tail with
  | [] => some (.add, "1")
  | c :: rest =>
    (WeightOp.ofChar? c).map fun op =>
      let rhs := Text.trim (match rest with
        | '=' :: more => more
        | t => t)
      (op, if rhs.isEmpty then "1" else rhs)

def weighted (line : Text) : Except Error Weighted :=
  let t := line.trim
  if t.isEmpty then .error .weightEmpty
  else match callEndFrom .top 0 0 none t with
    | none => .error (.weightNotCall t)
    | some n =>
      let tail := Text.trim (t.drop n)
      match weight? tail with
      | some (op, rhs) => .ok ⟨Text.trim (t.take n), op, rhs⟩
      | none => .error (.weightSuffix tail)

def weightToken (raw : Text) : Text :=
  let s := raw.trim
  if s.isEmpty then "num(0)"
  else if Operand.wrappedPattern.fits s then s
  else if Operand.isNumber s then
    if s.contains '.' then
      match Text.toReal? s with
      | some x => Value.wrap "num" x.render
      | none => s
    else match s.toInt? with
      | some n => Value.wrap "num" (Text.ofInt n)
      | none => s
  else if isVarName s then Value.wrap "var" s
  else s

def checkCall (scope : Scope) (call : Text) : Except Error Unit :=
  let head := Text.trim (match Text.cutAt? "(" call with
    | some (before, _) => before
    | none => call)
  match (Text.splitChar '.' head).filter (!·.isEmpty) with
  | module :: first :: _ :: _ =>
    let m := Label.tight module
    if m != "select" && m != "выборка" then .error (.conditionModule call)
    else if !scope.words.contains (Label.tight first) then .error (.conditionScope scope.word first)
    else .ok ()
  | _ => .error (.conditionCall call)

/-! ### Blocks -/

def headPattern : Pattern :=
  .atStart ++ .blanks ++ .word "multiselect" ++ .blanks1
    ++ .group 1 (.many1 (.char isNameChar)) ++ .blanks1 ++ .group 2 Condition.varName ++ .blanks1
    ++ .group 3 (.many1Lazy .any) ++ .blanks ++ .atEnd

def conditionLines (margin : Text) (scope : Scope) (counter : Text) (line : Text) : Except Error (List Text) := do
  let w ← weighted line
  checkCall scope w.call
  return [margin ++ scope.selectAll, margin ++ w.call,
    margin ++ w.op.action ++ "(var=" ++ Value.wrap "var" counter ++ ", num=" ++ weightToken w.weight ++ ")"]

def blockLines (margin : Text) (scope : Scope) (counter threshold : Text) (body : List Text) :
    Except Error (List Text) := do
  let conditions ← (body.filter fun l => !Layout.isIdle l).mapM (conditionLines margin scope counter)
  return [margin ++ scope.selectAll, margin ++ counter ++ " = 0"] ++ conditions.flatten
    ++ [margin ++ scope.selectAll,
      margin ++ "select." ++ scope.word ++ ".сравнить_число_легко(" ++ counter ++ ", " ++ threshold
        ++ ", тип_проверки=\"≥ (Больше или равно)\")"]

/-- A line that belongs to a block whose first line has the given indentation. -/
def inBody (margin line : Text) : Bool :=
  line.allBlank || margin.length < (Layout.indent line).length

/-- Write out all blocks. `fuel` bounds the number of lines. -/
def expandFrom : Nat → List Text → Except Error (List Text)
  | 0, lines => .ok lines
  | _, [] => .ok []
  | fuel + 1, line :: rest =>
    match headPattern.match? line.trim with
    | none => do return line :: (← expandFrom fuel rest)
    | some m => do
      let margin := Layout.indent line
      match Scope.ofText? (m.group 1) with
      | none => .error (.scopeUnknown (m.group 1))
      | some scope =>
        let body := rest.takeWhile (inBody margin)
        if body.all Layout.isIdle then .error .multiselectEmpty
        else
          let lines ← blockLines margin scope (m.group 2) (m.group 3) body
          return lines ++ (← expandFrom fuel (rest.dropWhile (inBody margin)))

def expand (lines : List Text) : Except Error (List Text) := expandFrom lines.length lines

end BlockScript.Multiselect
