import BlockScript.Plan.Link
import BlockScript.Script.FormulaCall
import BlockScript.Script.Line
import BlockScript.Script.Multiselect
import BlockScript.Script.Selector
import BlockScript.Script.Source
import BlockScript.Script.Template

/-!
# Programs

A script is compiled line by line. The blocks of events, functions and cycles are gathered and put into rows when they
end; the scopes of conditions and selections inside them are tracked, so that every scope is closed and every selection
is taken back.
-/

namespace BlockScript.Program
open Text (ofNat trim)
open Value (wrap)
open Script (Compile Error Settings)
open Plan (Boundary Chain Owner Remaining Setting)

/-! ### State -/

inductive OpenScope where
  | condition
  | selection (before : Option Action) (default : Action)
deriving DecidableEq

structure OpenBlock where
  owner : Owner
  params : List Text
  returns : Bool
  actions : List Action
  boundaries : List Boundary
  /-- The most conditions that were open at an action. -/
  depth : Nat

structure Finished where
  block : OpenBlock
  /-- All its actions, and where they could be cut. -/
  left : Remaining
  chains : List Chain

/-- The entries of blocks, with a mark between two of them. -/
def Finished.entries : List Finished → List Entry
  | [] => []
  | [f] => Chain.allEntries f.chains
  | f :: rest => Chain.allEntries f.chains ++ .newline :: Finished.entries rest

structure State where
  done : List Finished
  block : Option OpenBlock
  scopes : List OpenScope
  selection : Option Action
  nextHelper : Nat
  temps : Nat

namespace State

def start : State := ⟨[], none, [], none, 1, 0⟩

variable (s : State)

def conditions : Nat := (s.scopes.filter (· == .condition)).length

/-- The boundaries with one more; a boundary at the same place is replaced. -/
def addBoundary (bs : List Boundary) (b : Boundary) : List Boundary :=
  if (bs.getLast?.map (·.pos)) == some b.pos then bs.dropLast ++ [b] else bs ++ [b]

/-- A block with one more action. Where no scope is open, there is a boundary behind the action. -/
def extend (b : OpenBlock) (a : Action) : OpenBlock :=
  let actions := b.actions ++ [a]
  { b with
    actions
    boundaries := if s.scopes.isEmpty then addBoundary b.boundaries ⟨actions.length, s.selection⟩ else b.boundaries
    depth := max b.depth s.conditions }

def add (a : Action) : State := { s with block := s.block.map fun b => s.extend b a }

/-- The entries so far. The block that is open begins a new row. -/
def entries (s : State) : List Entry :=
  Finished.entries s.done ++ if s.block.isSome && !s.done.isEmpty then [.newline] else []

def enter (o : OpenScope) : State := { s with scopes := o :: s.scopes }

end State

structure Context extends Setting where
  signatures : Assignment.Signatures

/-! ### Blocks -/

variable (ctx : Context)

/-- The actions that take the arguments of a function from the stack. -/
def prologue (params : List Text) : Compile (List Action) := do
  let stack := ["arr=" ++ wrap "arr" argsStack, "num=" ++ wrap "num" stackTop]
  let taken ← params.mapM fun p => do
    let read ← ctx.lib.call "array" "get_array" (stack ++ ["var=" ++ wrap "var" p])
    let read ← Action.ofPlaced ctx.palette read
    let removed ← ctx.lib.call "array" "remove_array" stack
    return [read, ← Action.ofPlaced ctx.palette removed]
  return taken.flatten

def returnAction (value : Text) : Compile Action := do
  Action.ofPlaced ctx.palette (← ctx.lib.call "array" "vstavit_v_massiv"
    ["arr=" ++ wrap "arr" resultStack, "num=" ++ wrap "num" stackTop, "value=" ++ value])

/-- A block with the actions that every function has: its arguments are taken first, and something is returned. -/
def completed (s : State) (b : OpenBlock) : Compile OpenBlock := do
  match b.owner with
  | .func _ =>
    let b := { b with actions := (← prologue ctx b.params) ++ b.actions }
    if b.returns then return b else return s.extend b (← returnAction ctx "text()")
  | _ => return b

def flush (s : State) : Compile State := do
  match s.block with
  | none => return s
  | some b =>
    ctx.cfg.traceStage ("flush_block.start kind=" ++ b.owner.kind ++ " name="
      ++ (if b.owner.name.isEmpty then ['-'] else b.owner.name) ++ " actions=" ++ ofNat b.actions.length
      ++ " safe_boundaries=" ++ ofNat b.boundaries.length ++ " if_depth_max=" ++ ofNat b.depth)
    let full ← completed ctx s b
    let left : Remaining := ⟨full.actions, full.boundaries⟩
    let (chains, next) ← ctx.blockRows b.owner left s.nextHelper
    let s := { s with done := s.done ++ [⟨b, left, chains⟩], block := none, nextHelper := next }
    ctx.cfg.traceStage ("flush_block.end entries=" ++ ofNat s.entries.length ++ " auto_func_counter="
      ++ ofNat s.nextHelper)
    return s

def beginBlock (start : Line.Start) (s : State) : Compile State := do
  let s ← flush ctx s
  let opened (owner : Owner) (params : List Text) : State :=
    { s with block := some ⟨owner, params, false, [], [], 0⟩ }
  match start with
  | .event name => return opened (.event name) []
  | .func name raw =>
    let known := ctx.signatures.getD name []
    return opened (.func name) (if known.isEmpty then Text.splitTop ',' raw else known)
  | .loop name ticks =>
    match ticks.toInt? with
    | some n => return opened (.loop name n) []
    | none => throw (.data .notANumber)

/-! ### Instructions -/

/-- What a line does to a script, whatever was read before. -/
inductive Instruction where
  | idle
  | close
  | condition (a : Action)
  | start (head : Line.Start)
  /-- Make a selection; one that opens a scope comes with the default of its domain. -/
  | selection (a : Action) (negated : Bool) (scope : Option Action)
  | actions (as : List Action) (temps : Nat)
  | result (a : Action)

namespace Instruction
variable (ctx : Context)

def place (p : Placed) : Compile Action := Action.ofPlaced ctx.palette p

def conditionAction (c : Line.If) : Compile Placed := do
  match c with
  | .call module func args => Placed.ofCall ctx.lib ⟨module, func, args⟩
  | .long func => Placed.ofCall ctx.lib ⟨"if_player", func.lower, []⟩
  | .exists_ v => ctx.lib.call "if_value" "var" ["var=" ++ wrap "var" v]
  | .text t => Condition.compileText ctx.lib t
  | .plain t =>
    match ← Condition.compile ctx.lib t with
    | some p => return p
    | none => throw (.data .wrongKind)

def conditionModules : List Text := texts ["ifvalue", "ifplayer", "ifentity", "ifgame"]

/-- Selections by conditions, by the second line of the sign. -/
def conditionSigns : List Text := texts ["игрокпоусловию", "мобпоусловию", "сущностьпоусловию"]

def isConditional (module : Text) (spec : Spec) : Except Fault Bool := do
  let m := Label.tight module
  if conditionModules.contains m then return true
  else if m == "select" || m == "выборка" then
    return conditionSigns.contains (Label.tight (← spec.getText "sign2"))
  else return false

variable (negated : Bool)

def ofSelect (sel : Line.Select) : Compile Instruction := do
  if negated && sel.opens then throw .negatedSelectBlock
  let canon ← match Selector.find ctx.lib.api ctx.palette sel.chain with
    | .ok c => pure c
    | .error e => throw e
  match ← placeLine ctx.lib ("select." ++ canon ++ "(" ++ sel.args ++ ")") with
  | none => throw (.unknownAction "select" canon)
  | some p =>
    let a ← place ctx p
    if negated && !(← liftM (isConditional "select" p.spec)) then throw (.negatedSelect sel.chain)
    if sel.opens then
      let default := if ← liftM (Selector.isEntity p.spec) then ctx.defaultEntity else ctx.defaultPlayer
      return .selection a negated (some default)
    else return .selection a negated none

def ofMessage (temps : Nat) (fn args : Text) : Compile Instruction := do
  let temp := tempName ++ ofNat (temps + 1)
  match ← Statement.compile ctx.lib ctx.signatures false (temp ++ " = " ++ fn ++ "(" ++ args ++ ")") with
  | some (p :: ps) =>
    let as ← (p :: ps).mapM (place ctx)
    let shown ← ctx.lib.call "player" "message" ["\"%var(" ++ temp ++ ")%\""]
    return .actions (as ++ [← place ctx shown]) (temps + 1)
  | _ => throw (.nestedMessage fn)

def plainNumber : Pattern :=
  .atStart ++ .opt (.lit "-") ++ .many1 .digit
    ++ .opt (.lit "." ++ .many1 .digit) ++ .atEnd

def returnToken (value : Text) : Text :=
  if value.isEmpty then "text()"
  else if value.isQuotedOrQuote then wrap "text" value.inner
  else if plainNumber.fits value then wrap "num" value
  else if isVarName value then wrap "var" value
  else value

def ofReturn (owner : Owner) (value : Text) : Compile Instruction := do
  match owner with
  | .func _ => return .result (← returnAction ctx (returnToken value))
  | _ => throw .returnOutsideFunc

def moduleHint (line : Text) : Text :=
  match Text.cutAt? "(" line with
  | none => []
  | some (before, _) =>
    match Text.cutAt? "." before with
    | some (module, _) => trim module
    | none => trim before

def checkNegated (line : Text) (spec : Spec) : Compile Unit := do
  if negated && !(← liftM (isConditional (moduleHint line) spec)) then throw (.negatedAction line)

def unknownLine (ctx : Context) (n : Nat) (line : Text) : Compile Unit :=
  let e := Error.unknownLine n true line
  if ctx.cfg.strict then throw e
  else if ctx.cfg.warnUnknown then Script.warn e.message
  else pure ()

def ofPlaced (line : Text) (temps : Nat) (firsts : List Placed) (p : Placed) : Compile Instruction := do
  let as ← firsts.mapM (place ctx)
  checkNegated negated line p.spec
  return .actions (as ++ [{ ← place ctx p with negated }]) temps

def ofCall (temps n : Nat) (negated : Bool) (line : Text) : Compile Instruction := do
  match ← FormulaCall.compile ctx.lib temps line with
  | some (ps, temps) =>
    match ps.getLast? with
    | some p => ofPlaced ctx negated line temps ps.dropLast p
    | none => return .actions [] temps
  | none =>
    match ← placeLine ctx.lib line with
    | none =>
      unknownLine ctx n line
      return .idle
    | some p => ofPlaced ctx negated line temps [] p

/-- A line inside a block that neither opens nor closes anything but selections. -/
def ofInner (owner : Owner) (temps n : Nat) (negated : Bool) (line : Text) : Compile Instruction := do
  if let some sel := Line.select? line then ofSelect ctx negated sel
  else if let some (fn, args) := Line.message? line then ofMessage ctx temps fn args
  else if let some value := Line.return? line then ofReturn ctx owner value
  else match ← Statement.compile ctx.lib ctx.signatures false line with
    | some (p :: ps) =>
      if negated then throw .negatedSugar
      return .actions (← (p :: ps).mapM (place ctx)) temps
    | _ => ofCall ctx temps n negated line

/-- What a line does that is neither empty nor a comment. It depends on what was read before only by the owner of the
block that is open and the number of variables made. -/
def ofLine (owner : Option Owner) (temps n : Nat) (negated : Bool) (line : Text) : Compile Instruction := do
  if line == "\x7d" then return .close
  else if let some c := Line.If.ofLine? line then
    if negated then throw .negatedBlock
    if owner.isNone then throw (.outsideBlock c.word)
    return .condition (← place ctx (← conditionAction ctx c))
  else if let some head := Line.Start.ofLine? line then
    if negated then throw (.negatedHeader head.word)
    return .start head
  else match owner with
    | none => return .idle
    | some owner => ofInner ctx owner temps n negated line

end Instruction

/-! ### Lines -/

def closeScope (scope : OpenScope) (s : State) : State :=
  match scope with
  | .condition => s.add .skip
  | .selection (some before) _ => ({ s with selection := some before } : State).add before
  | .selection none default => { ({ s with selection := none } : State).add default with selection := some default }

def exec (s : State) : Instruction → Compile State
  | .idle => return s
  | .close =>
    match s.scopes with
    | scope :: outer => return closeScope scope { s with scopes := outer }
    | [] => flush ctx s
  | .condition a => return (s.enter .condition).add { a with opens := true }
  | .start head => beginBlock ctx head s
  | .selection a negated scope =>
    let before := s.selection
    let s := { s.add { a with negated } with selection := some a }
    match scope with
    | some default => return s.enter (.selection before default)
    | none => return s
  | .actions as temps => return as.foldl State.add { s with temps }
  | .result a => return ({ s with block := s.block.map fun b => { b with returns := true } } : State).add a

def traceLine (n : Nat) (line : Text) (s : State) : Compile Unit :=
  if n ≤ 30 || n % 20 == 0 then
    let kind : Text := (s.block.map fun b => b.owner.kind).getD "-"
    let inside : Text := if s.block.isSome then "True" else "False"
    ctx.cfg.traceStage ("line#" ++ ofNat n ++ " kind=" ++ kind ++ " in_block=" ++ inside ++ " stack_depth="
      ++ ofNat s.scopes.length ++ " actions="
      ++ ofNat ((s.block.map fun b => b.actions.length).getD 0) ++ " text=" ++ line.take 120)
  else pure ()

def line (namespaces : List Text) (n : Nat) (raw : Text) (s : State) : Compile State := do
  let t := trim raw
  traceLine ctx n t s
  if Layout.isIdle t then return s
  let (negated, t) := Line.dropNot (Source.dropNamespaces namespaces t)
  if negated && t.isEmpty then throw .negatedNothing
  exec ctx s (← Instruction.ofLine ctx (s.block.map fun b => b.owner) s.temps n negated t)

def lines (ctx : Context) (namespaces : List Text) : Nat → State → List Text → Compile State
  | _, s, [] => return s
  | n, s, raw :: rest => do lines ctx namespaces (n + 1) (← line ctx namespaces n raw s) rest

/-! ### Scripts -/

def paramsOf (name raw : Text) : Except Error (List Text) :=
  (Text.splitTop ',' raw).mapM fun p => if isVarName p then .ok p else .error (.funcParam name p)

/-- The parameters of all functions; of two functions with one name the last counts. -/
def signaturesOf (lines : List Text) : Except Error Assignment.Signatures :=
  lines.foldlM (fun sigs line =>
    match Line.Start.func? (trim line) with
    | some (name, raw) => do return sigs.set name (← paramsOf name raw)
    | none => .ok sigs) []

/-- A script whose templates and multiple selections are written out. -/
structure Prepared where
  lines : List Text
  namespaces : List Text
  templates : Table Template
  signatures : Assignment.Signatures

variable (cfg : Settings)

def traceCount (stage : Text) (lines : List Text) (more : Text) : Compile Unit :=
  cfg.traceStage ("stage." ++ stage ++ " lines=" ++ ofNat lines.length ++ more)

def checkNames (templates : Table Template) (sigs : Assignment.Signatures) : Except Error Unit :=
  match templates.names.find? sigs.has with
  | some name => .error (.nameConflict name)
  | none => .ok ()

/-- Read a script and write out what is short for something else. -/
def prepare (files : Files) (entry : Path) : Compile Prepared := do
  let loaded ← .ofExcept (Source.load files entry)
  traceCount cfg "imports" loaded.lines (" namespaces=" ++ ofNat loaded.namespaces.length)
  let lines ← Layout.joinCalls cfg none loaded.lines
  traceCount cfg "normalize_multiline" lines []
  let lines := Layout.spreadBlocks lines
  traceCount cfg "expand_inline_blocks" lines []
  let (lines, templates) ← .ofExcept (Template.collect lines.length [] lines)
  traceCount cfg "collect_vfunc" lines (" vfunc_defs=" ++ ofNat templates.length)
  let lines ← .ofExcept (Template.expand templates lines)
  traceCount cfg "expand_vfunc" lines []
  let lines ← .ofExcept (Multiselect.expand lines)
  traceCount cfg "expand_multiselect" lines []
  let sigs ← .ofExcept (signaturesOf lines)
  cfg.traceStage ("stage.collect_funcs func_defs=" ++ ofNat sigs.length)
  .ofExcept (checkNames templates sigs)
  return ⟨lines, loaded.namespaces, templates, sigs⟩

/-- Tidy up the rows: links between helpers are shortened. -/
def link (entries : List Entry) : Compile (List Entry) := do
  let (entries, n) := Plan.collapse entries
  cfg.traceStage ("after_collapse_autosplit entries=" ++ ofNat entries.length ++ " collapsed=" ++ ofNat n)
  if n != 0 then
    Script.warn ("row auto-split post-pass: collapsed " ++ ofNat n ++ " trampoline helper function(s)")
  let (entries, n) := Plan.promote entries
  cfg.traceStage ("after_promote_named entries=" ++ ofNat entries.length ++ " promoted=" ++ ofNat n)
  if n != 0 then
    Script.warn ("row auto-split post-pass: promoted " ++ ofNat n ++ " named wrapper function(s)")
  return entries

/-- Make ready to compile a script: what its lines are compiled with, and the script with all written out. -/
def setup (lib : Library) (palette : Palette) (events : Table KnownEvent) (files : Files)
    (entry : Path) : Compile (Context × Prepared) := do
  let default (func : Text) : Compile Action := do
    Action.ofPlaced palette (← lib.call "select" func [])
  let player ← default "vybrat_igroka_po_umolchaniyu"
  let entity ← default "vybrat_suschnost_po_umolchaniyu"
  let p ← prepare cfg files entry
  return (⟨⟨cfg, lib, palette, events, player, entity, p.signatures.names ++ p.templates.names⟩, p.signatures⟩, p)

def run (p : Prepared) : Compile State := do
  let s ← lines ctx p.namespaces 1 .start p.lines
  ctx.cfg.traceStage ("compile_loop.end entries_before_flush=" ++ ofNat s.entries.length)
  let s ← flush ctx s
  ctx.cfg.traceStage ("after_flush entries=" ++ ofNat s.entries.length)
  return s

def plan (s : State) : Compile (List Entry) := do
  let entries ← link cfg s.entries
  cfg.traceStage ("compile_entries.done entries=" ++ ofNat entries.length)
  return entries

end BlockScript.Program
