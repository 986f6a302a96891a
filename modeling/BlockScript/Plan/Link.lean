import BlockScript.Plan.Split

/-!
# Links between rows

A row that only calls a helper is of no use by itself. If the row is a helper, calls of it are sent to where it leads
and the row is dropped; if it is a function of the script, the helper takes the function's name and the row is dropped.
-/

namespace BlockScript
namespace Entry

/-! ### Calls of helpers -/

def identifierArg : Pattern :=
  .lit "text(" ++ .blanks
    ++ .group 1 (.char Formula.isLatinStart ++ .many (.char Formula.isLatinWord)) ++ .blanks ++ .lit ")"

def isCall (e : Entry) : Bool :=
  let key := Label.key e.label
  key.hasInfix "вызвать функцию" || key.hasInfix "call function"

def helperTarget? (e : Entry) : Option Text :=
  if e.isCall then
    match identifierArg.search? (e.args.getD []) with
    | some m => if Text.startsWith (m.group 1) Plan.helperStem then some (m.group 1) else none
    | none => none
  else none

def sendTo (old new : Text) (e : Entry) : Entry :=
  let arg := Pattern.lit "text(" ++ .blanks ++ .lit old ++ .blanks ++ .lit ")"
  { e with args := some (arg.substituteFirst (fun _ => Value.wrap "text" new) (e.args.getD [])) }

end Entry
namespace Plan

/-! ### Rows of functions -/

/-- A part of a plan: a function's header with the rest of its row, or another entry. -/
inductive Segment where
  | func (header : Entry) (body : List Entry)
  | loose (e : Entry)
deriving DecidableEq

namespace Segment

def entries : Segment → List Entry
  | .func header body => header :: body
  | .loose e => [e]

/-- The segments of a plan. Headers that `isHead` does not accept are entries like others. -/
def ofEntries (isHead : Entry → Bool) : List Entry → List Segment
  | [] => []
  | e :: rest =>
    if isHead e then
      .func e (rest.takeWhile (!·.isNewline)) :: ofEntries isHead (rest.dropWhile (!·.isNewline))
    else .loose e :: ofEntries isHead rest
termination_by es => es.length
decreasing_by
  · have := (List.dropWhile_sublist (fun e : Entry => !e.isNewline) (l := rest)).length_le
    simp only [List.length_cons]
    omega
  · simp

def flatten (ss : List Segment) : List Entry := ss.flatMap entries

/-- The name of a function and the helper that its row consists of a call of. -/
def leadsTo? : Segment → Option (Text × Text)
  | .func header [call] =>
    match call.helperTarget? with
    | some target => if target == header.label then none else some (header.label, target)
    | none => none
  | _ => none

def map (f : Entry → Entry) : Segment → Segment
  | .func header body => .func (f header) (body.map f)
  | .loose e => .loose (f e)

def isNamed (name : Text) : Segment → Bool
  | .func header _ => header.label == name
  | .loose _ => false

end Segment

/-- Drop the marks of new rows at the start, at the end and next to each other. `dropped` says that a mark would
be dropped here. -/
def tidyFrom (dropped : Bool) : List Entry → List Entry
  | [] => []
  | e :: rest =>
    if e.isNewline then if dropped then tidyFrom true rest else e :: tidyFrom true rest
    else e :: tidyFrom false rest

variable (es : List Entry)

/-- Drop the marks of new rows at the start, at the end and next to each other. -/
def tidy : List Entry :=
  let t := tidyFrom true es
  if (t.getLast?.map Entry.isNewline).getD false then t.dropLast else t

/-! ### Helpers that only call helpers -/

/-- Where a name leads, following the links that were not followed yet, at most `fuel` of them. -/
def follow (links : Table Text) : Nat → List Text → Text → Text
  | 0, _, name => name
  | fuel + 1, seen, name =>
    if seen.contains name then name
    else match links.get? name with
      | some next => follow links fuel (name :: seen) next
      | none => name

def resolveLinks (links : Table Text) : Table Text :=
  links.map fun (name, next) => (name, follow links links.length [name] next)

/-- Send a call of a helper to where the helper leads. -/
def redirect (leads : Table Text) (e : Entry) : Entry :=
  match e.helperTarget? with
  | none => e
  | some target =>
    match leads.get? target with
    | some final => if final.isEmpty || final == target then e else e.sendTo target final
    | none => e

def isOnlyHelper (e : Entry) : Bool :=
  e.isFunc && Text.startsWith e.label helperStem && (es.filter fun d => d.isFunc && d.label == e.label).length == 1

/-- Drop the helpers that only call helpers; calls of them are sent to where they lead. The result comes with the
number of helpers dropped. -/
def collapse : List Entry × Nat :=
  let segments := Segment.ofEntries (isOnlyHelper es) es
  let links := segments.filterMap Segment.leadsTo?
  if links.isEmpty then (es, 0)
  else
    let kept := segments.filter fun s => s.leadsTo?.isNone
    (tidy ((Segment.flatten kept).map (redirect (resolveLinks links))), links.length)

/-! ### Functions that only call helpers -/

def headCount (ss : List Segment) (name : Text) : Nat := (ss.filter (Segment.isNamed name)).length

/-- A function that only calls a helper, where both are begun once: its name and the helper's. -/
def wrapper? (ss : List Segment) : Option (Text × Text) :=
  ss.findSome? fun s => (s.leadsTo?).filter fun (name, target) => headCount ss name == 1 && headCount ss target == 1

def dropRow (name : Text) : List Segment → List Segment
  | [] => []
  | s :: rest =>
    if s.isNamed name then
      match rest with
      | .loose e :: more => if e.isNewline then more else rest
      | _ => rest
    else s :: dropRow name rest

def renameRow (old new : Text) : Segment → Segment
  | .func header body => .func (if header.label == old then { header with name := some new } else header) body
  | s => s

/-- Give a helper the name of the function that only calls it, and drop that function. -/
def promoteOne (name target : Text) (ss : List Segment) : List Segment :=
  (dropRow name ss).map fun s => (renameRow target name s).map fun e =>
    if e.helperTarget? == some target then e.sendTo target name else e

/-- Promote as long as there is something to promote, at most `fuel` times. -/
def promoteFrom : Nat → List Segment → List Segment × Nat
  | 0, ss => (ss, 0)
  | fuel + 1, ss =>
    match wrapper? ss with
    | none => (ss, 0)
    | some (name, target) =>
      let (out, n) := promoteFrom fuel (promoteOne name target ss)
      (out, n + 1)

/-- Give helpers the names of the functions that only call them. The result comes with the number of functions
dropped. -/
def promote : List Entry × Nat :=
  let (ss, n) := promoteFrom es.length (Segment.ofEntries Entry.isFunc es)
  (tidy (Segment.flatten ss), n)

end Plan
end BlockScript
