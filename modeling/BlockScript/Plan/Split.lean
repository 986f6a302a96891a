import BlockScript.Plan.Header
import BlockScript.Plan.Scope
import BlockScript.Script.Settings
import BlockScript.Script.Statement

/-!
# Splitting of long blocks

A row has room for a header and a limited number of actions. A longer event or function is cut at its boundaries: the
first row ends with a call of a function that holds the rest, and so on. Where no boundary is near enough, the body of
a scope is moved into a function of its own, a *helper*.

In an event the selection in force at the cut would be lost in the called function: the row then ends with the default
selection, and the function begins by making the selection again.
-/

namespace BlockScript.Plan
open Text (ofNat)
open Script (Compile Settings SplitSubject)

def rowSize : Nat := 43

def maxPayload : Nat := rowSize - 1

/-! ### Rows -/

/-- The actions of a row behind its header. `used` counts the blocks of the row so far, `n` the actions so far, and
`last` is the block before. A full row is followed by a row with the same header. -/
def rowEntriesFrom (owner : Owner) (header : Entry) (used n : Nat) (last : Text) : List Action → Compile (List Entry)
  | [] => return []
  | a :: rest => do
    if rowSize ≤ used then
      if last == "newline" then
        return .ofAction a :: (← rowEntriesFrom owner header 2 (n + 1) a.block rest)
      Script.warn ("row auto-split: exceeded " ++ ofNat rowSize ++ " actions in " ++ owner.shown
        ++ "; inserted newline before action #" ++ ofNat (n + 1))
      return .newline :: header :: .ofAction a :: (← rowEntriesFrom owner header 2 (n + 1) a.block rest)
    else return .ofAction a :: (← rowEntriesFrom owner header (used + 1) (n + 1) a.block rest)

/-- A row, or several with the same header if the actions do not fit into one. -/
def rowEntries (events : Table KnownEvent) (owner : Owner) (actions : List Action) : Compile (List Entry) := do
  match owner.header events with
  | .error e => throw e
  | .ok header => return header :: (← rowEntriesFrom owner header 1 0 header.block actions)

/-- A row: what it belongs to, its actions, and the entries that place them. -/
structure Row where
  owner : Owner
  actions : List Action
  entries : List Entry
deriving DecidableEq

def Row.of (events : Table KnownEvent) (owner : Owner) (actions : List Action) : Compile Row := do
  return ⟨owner, actions, ← rowEntries events owner actions⟩

/-- Rows each of which ends with a call of the next: those of a block or of a helper. -/
abbrev Chain := List Row

/-- The entries of a chain, with a mark between two rows. -/
def Chain.entries : Chain → List Entry
  | [] => []
  | [r] => r.entries
  | r :: rest => r.entries ++ .newline :: Chain.entries rest

def endsWithNewline (es : List Entry) : Bool := (es.getLast?.map Entry.isNewline).getD false

/-- The entries of several chains. A mark goes between two of them unless one is there. -/
def Chain.allEntries : List Chain → List Entry
  | [] => []
  | [c] => c.entries
  | c :: rest => c.entries ++ (if endsWithNewline c.entries then [] else [.newline]) ++ Chain.allEntries rest

def helperStem : Text := "__autosplit_row_"

def helperName (n : Nat) : Text := helperStem ++ ofNat n

/-- The first number from `n` on whose name is not taken, within `fuel` numbers. -/
def freshFrom (taken : List Text) : Nat → Nat → Nat
  | 0, n => n
  | fuel + 1, n => if taken.contains (helperName n) then freshFrom taken fuel (n + 1) else n

def fresh (taken : List Text) (n : Nat) : Nat := freshFrom taken taken.length n

/-! ### Cuts -/

/-- What is left to put into rows: the actions, and where they may be cut. -/
structure Remaining where
  actions : List Action
  boundaries : List Boundary
deriving DecidableEq

/-- What is left of a list of actions that no selection was recorded for. -/
def Remaining.ofActions (actions : List Action) : Remaining := ⟨actions, Plan.boundaries actions⟩

structure Cut where
  pos : Nat
  restore : Option Action
deriving DecidableEq

/-- The selection to make again behind a boundary; the default selection needs not be. -/
def restoreOf (default : Action) (b : Boundary) : Option Action := b.selection.filter (· != default)

/-- How many actions a cut adds to the row before it: a call and, before it, the default selection. -/
def Cut.extra (c : Cut) : Nat := if c.restore.isSome then 2 else 1

/-- The places at which the first row may end. Selections matter if `default` is given. -/
def cuts (default : Option Action) (r : Remaining) : List Cut :=
  (r.boundaries.map fun b => (⟨b.pos, default.bind fun d => restoreOf d b⟩ : Cut)).filter fun c =>
    0 < c.pos && c.pos < r.actions.length && c.pos + c.extra ≤ maxPayload

/-- The last place to cut at; of several at one place the first. -/
def lastCut? : List Cut → Option Cut
  | [] => none
  | c :: rest => some (rest.foldl (fun a b => if a.pos < b.pos then b else a) c)

def Cut.row (default : Option Action) (c : Cut) (r : Remaining) : List Action :=
  r.actions.take c.pos ++ if c.restore.isSome then default.toList else []

def Cut.rest (c : Cut) (r : Remaining) : Remaining :=
  let later := (r.boundaries.filter fun b => c.pos < b.pos).map fun b => { b with pos := b.pos - c.pos }
  match c.restore with
  | none => ⟨r.actions.drop c.pos, later⟩
  | some sel =>
    ⟨sel :: r.actions.drop c.pos, ⟨1, some sel⟩ :: later.map fun b => { b with pos := b.pos + 1 }⟩

/-- A cut makes what is left at most by a selection longer. -/
theorem Cut.length_rest_le (c : Cut) (r : Remaining) : (c.rest r).actions.length ≤ r.actions.length + 1 := by
  rw [Cut.rest]
  split <;> simp only [List.length_cons, List.length_drop] <;> omega

/-! ### Splitting -/

/-- What stays the same while a script is compiled. -/
structure Setting where
  cfg : Settings
  lib : Library
  palette : Palette
  events : Table KnownEvent
  defaultPlayer : Action
  defaultEntity : Action
  /-- The names of the functions and templates of the script. -/
  taken : List Text

structure Helper where
  name : Text
  actions : List Action
deriving DecidableEq

/-- The result of splitting: a chain of rows, the helpers that are still to be put into rows, the last one first, and
the number of the next helper. -/
structure Rows where
  chain : Chain
  helpers : List Helper
  next : Nat

structure SplitState where
  owner : Owner
  left : Remaining
  count : Nat
  rows : Rows

/-- What is split: what it is called in warnings and errors, and how it is called in traces. -/
structure Subject where
  subject : SplitSubject
  name : Text
  word : Text

namespace Subject
variable (s : Subject)

/-- The subject in a trace. The rows of a helper's parts have names of their own. -/
def traced (owner : Owner) : Text :=
  match s.subject with
  | .helper n => " root=" ++ n ++ " block=" ++ owner.name
  | _ => " name=" ++ s.name

def warned : Text :=
  match s.subject with
  | .helper n => "extracted helper `" ++ n ++ "`"
  | _ => "`" ++ s.name ++ "`"

def extractedText (helper : Text) : Text :=
  match s.subject with
  | .helper _ => "row auto-split: " ++ s.warned ++ " nested extraction -> call(" ++ helper ++ ")"
  | _ => "row auto-split: " ++ s.warned ++ " extracted nested scope -> call(" ++ helper ++ ")"

def extractedTrace (helper : Text) (size left : Nat) : Text :=
  match s.subject with
  | .helper n =>
    "helper_nested_extracted root=" ++ n ++ " nested=" ++ helper ++ " nested_actions=" ++ ofNat size
  | _ => s.word ++ "_extracted_helper name=" ++ s.name ++ " helper=" ++ helper ++ " helper_actions="
    ++ ofNat size ++ " left_after=" ++ ofNat left

/-- Selections are made again behind cuts in events only. -/
def keepsSelection : Bool :=
  match s.subject with
  | .event _ => true
  | _ => false

def event (name : Text) : Subject :=
  let n : Text := if name.isEmpty then "event" else name
  ⟨.event n, n, "event"⟩

def func (name : Text) : Subject :=
  let n : Text := if name.isEmpty then "func" else name
  ⟨.func n, n, "func"⟩

def helper (name : Text) : Subject := ⟨.helper name, name, "helper"⟩

def ofOwner? : Owner → Option Subject
  | .event name => some (.event name.trim)
  | .func name => some (.func name.trim)
  | .loop .. => none

end Subject
namespace Setting
variable (s : Setting)

def callHelper (name : Text) : Compile Action := do
  Action.ofPlaced s.palette (← Statement.callAction s.lib name)

def nextHelper (n : Nat) : Compile (Text × Nat) := do
  let k := fresh s.taken n
  let name := helperName k
  if k + 1 ≤ 20 || (k + 1) % 100 == 0 then
    s.cfg.traceSplit ("alloc_name=" ++ name ++ " next_counter=" ++ ofNat (k + 1))
  return (name, k + 1)

variable (subject : Subject)

/-- The row cut off: it ends with a call of the helper that holds the rest. -/
def cutOff (cut : Cut) (helper : Text) (st : SplitState) : Compile Row := do
  let default := if subject.keepsSelection then some s.defaultPlayer else none
  if cut.restore.isSome then
    Script.warn ("row auto-split: " ++ subject.warned ++ " split at active selection; forced default single-target "
      ++ "before call and restored selection in `" ++ helper ++ "`")
  let call ← s.callHelper helper
  Script.warn ("row auto-split: " ++ subject.warned ++ " part#" ++ ofNat (st.count + 1) ++ " -> call(" ++ helper
    ++ ")")
  Row.of s.events st.owner (cut.row default st.left ++ [call])

def traceStep (what : Text) (st : SplitState) (more : Text) : Compile Unit :=
  s.cfg.traceSplit (subject.word ++ "_" ++ what ++ subject.traced st.owner ++ " split_num="
    ++ ofNat (st.count + 1) ++ more)

/-- Cut rows off a block until the rest fits into a row. Each step makes one more cut, of which there may be only so
many, and adds at most one action, or makes the list of actions shorter. -/
def split (s : Setting) (subject : Subject) (st : SplitState) : Compile SplitState := do
  if st.left.actions.length ≤ maxPayload then return st
  else if _ : s.cfg.maxSplits ≤ st.count then
    throw (.splitRunaway subject.subject (st.count + 1) st.left.actions.length s.cfg.maxSplits)
  else
    let left : Text := " left=" ++ ofNat st.left.actions.length
    let (helper, next) ← s.nextHelper st.rows.next
    s.traceStep subject "split_iter" st (left ++ " next=" ++ helper)
    let found := cuts (if subject.keepsSelection then some s.defaultPlayer else none) st.left
    match lastCut? found with
    | some cut =>
      s.traceStep subject "pick_candidate" st (" pos=" ++ ofNat cut.pos ++ " candidates="
        ++ ofNat found.length)
      let row ← s.cutOff subject cut helper st
      split s subject ⟨.func helper, cut.rest st.left, st.count + 1,
        { st.rows with chain := st.rows.chain ++ [row], next }⟩
    | none =>
      s.traceStep subject "no_candidates" st left
      let call ← s.callHelper helper
      match extract? rowSize call st.left.actions with
      | none => throw (.noSplitPoint subject.subject rowSize)
      | some x =>
        if _ : x.rest.length < st.left.actions.length then
          s.cfg.traceSplit (subject.extractedTrace helper x.body.length x.rest.length)
          Script.warn (subject.extractedText helper)
          split s subject { st with left := .ofActions x.rest,
                                    rows := { st.rows with helpers := ⟨helper, x.body⟩ :: st.rows.helpers, next } }
        else throw (.noSplitProgress subject.subject st.left.actions.length x.rest.length)
termination_by 2 * (s.cfg.maxSplits - st.count) + st.left.actions.length
decreasing_by
  · have := cut.length_rest_le st.left
    omega
  · dsimp only [Remaining.ofActions]
    omega

def splitRows (owner : Owner) (left : Remaining) (next : Nat) : Compile Rows := do
  let st ← s.split subject ⟨owner, left, 0, ⟨[], [], next⟩⟩
  return { st.rows with chain := st.rows.chain ++ [← Row.of s.events st.owner st.left.actions] }

def helperRows (h : Helper) (next : Nat) : Compile Rows := do
  if h.actions.length ≤ maxPayload then
    return ⟨[← Row.of s.events (.func h.name) h.actions], [], next⟩
  else s.splitRows (.helper h.name) (.func h.name) (.ofActions h.actions) next

/-- Put helpers into rows. A helper's own helpers come next. `fuel` bounds the number of helpers. -/
def helpersRows (s : Setting) : Nat → List Helper → Nat → Compile (List Chain × Nat)
  | 0, _, next => return ([], next)
  | _, [], next => return ([], next)
  | fuel + 1, h :: rest, next => do
    s.cfg.traceSplit ("helper_process name=" ++ h.name ++ " actions=" ++ ofNat h.actions.length ++ " queue_left="
      ++ ofNat rest.length)
    let rows ← s.helperRows h next
    let (more, next) ← s.helpersRows fuel (rows.helpers ++ rest) rows.next
    return (rows.chain :: more, next)

def withHelpers (rows : Rows) : Compile (List Chain × Nat) := do
  let queue := rows.helpers.reverse
  if !queue.isEmpty then
    s.cfg.traceSplit ("helper_queue_start count=" ++ ofNat queue.length ++ " names="
      ++ Text.joinWith "," ((queue.take 5).map (·.name)))
  let bound := queue.foldl (fun n h => n + h.actions.length) 0
  let (chains, next) ← s.helpersRows bound queue rows.next
  return (rows.chain :: chains, next)

/-- The rows of a block: of an event or a function that is too long, its parts and helpers. -/
def blockRows (owner : Owner) (left : Remaining) (next : Nat) : Compile (List Chain × Nat) := do
  match (Subject.ofOwner? owner).filter fun _ => maxPayload < left.actions.length with
  | some subject =>
    s.cfg.traceSplit (subject.word ++ "_split_start name=" ++ subject.name ++ " actions="
      ++ ofNat left.actions.length ++ " max_payload=" ++ ofNat maxPayload)
    s.withHelpers (← s.splitRows subject owner left next)
  | none => return ([[← Row.of s.events owner left.actions]], next)

end Setting
end BlockScript.Plan
