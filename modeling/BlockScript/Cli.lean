import BlockScript.Session
import BlockScript.Tier

/-!
# Commands

The commands of the program: compile a script to commands or to a plan, list an exported world as a script, and show
where things lie. A call without the name of a command compiles.
-/

namespace BlockScript.Cli
open Act (say space write)
open CommandLine

/-! ### Requests -/

structure CompileOptions where
  input : Text
  /-- The file for the plan; without one the commands are printed. -/
  plan : Option Text
  printPlan : Bool
  strict : Bool

structure ListOptions where
  input : Text
  api : Option Text
  out : Option Text

inductive Request where
  | buildAll
  | compile (o : CompileOptions)
  | paths
  | list (o : ListOptions)

def commands : Commands := [
  ("build-all".toList, ⟨[], []⟩),
  ("compile".toList, ⟨[⟨texts ["--plan"], .text⟩, ⟨texts ["--print-plan"], .nothing⟩,
    ⟨texts ["--strict-unknown"], .nothing⟩], [⟨"input", .one, .text⟩]⟩),
  ("paths".toList, ⟨[], []⟩),
  ("exportcode".toList, ⟨[⟨texts ["--api"], .text⟩, ⟨texts ["-o", "--out"], .text⟩], [⟨"input", .one, .text⟩]⟩)]

def given? (v : Values) (name : Text) : Option Text := (v.last? name).filter fun t => !t.isEmpty

/-- The first word that is no option, and all other words in order. A value goes with the option before it. -/
def findInput : List Text → Option Text × List Text
  | [] => (none, [])
  | t :: rest =>
    if t.head? == some '-' then
      if (texts ["--plan", "-o", "--out", "--api"]).contains t then
        match rest with
        | v :: rest =>
          let (input, others) := findInput rest
          (input, t :: v :: others)
        | [] => (none, [t])
      else
        let (input, others) := findInput rest
        (input, t :: others)
    else (some t, rest)

variable (args : List Text)

/-- The words of a call, with the name of the command in front. -/
def withCommand : List Text :=
  match args with
  | [] => []
  | first :: _ =>
    if (commands.map (·.1)).contains first then args
    else match findInput args with
      | (some input, others) => if input.isEmpty then args else "compile".toList :: input :: others
      | (none, _) => args

def parse (args : List Text) : Except Stop Request := do
  let (name, v) ← Commands.parse commands (withCommand args)
  let input := (v.last? "input").getD []
  if name == "compile" then
    return .compile ⟨input, given? v "--plan", v.has "--print-plan", v.has "--strict-unknown"⟩
  if name == "exportcode" then return .list ⟨input, given? v "--api", given? v "-o"⟩
  if name == "paths" then return .paths
  return .buildAll

/-! ### Compilation -/

def tierLine (r : Tier.Requirement) : Text :=
  let preview : Text := if r.names.isEmpty then "-" else Text.joinWith ", " (r.names.take 5)
  "[warn] required donate tier: " ++ r.tier.name ++ " (matched actions: " ++ Text.ofNat r.actions.length
    ++ "; detected: " ++ preview ++ ")"

def warnTier (source : Text) : Act Unit := do
  let w ← space
  let d := w.data
  Act.warn (tierLine (← Act.ofExcept
    (Tier.required ((w.file? w.rules).map Text.unifyLineEnds) d.api d.catalog source)))

def planDocument (es : List Entry) : Json := .obj [("entries", .arr (es.map Entry.toJson))]

def planOf (script : Path) (shown : Text) : Act (List Entry) := do
  let w ← space
  Act.ofCompile (w.data.compile (.ofVariables w.environment) w.files script shown)

def printCommands (script : Path) (shown : Text) : Act Unit := do
  let w ← space
  (← Act.ofCompile (w.data.commands (.ofVariables w.environment) w.files script shown)).forM say

def compileRead (o : CompileOptions) (script : Path) (source : Text) : Act Unit := do
  let w ← space
  match o.plan with
  | some t =>
    let plan := w.here.join (w.written t)
    Act.makeFolder plan.parent
    let text := (planDocument (← planOf script script.toText)).fileText
    write plan text
    warnTier source
    say (if o.printPlan then text else "OK: wrote " ++ plan.toText)
  | none =>
    printCommands script script.toText
    warnTier source

def compile (o : CompileOptions) : Act Unit := do
  let script := (← space).locate o.input
  let source ← Act.read script
  if o.strict then Act.withVariable "MLDSL_STRICT_UNKNOWN" "1" (compileRead o script source)
  else compileRead o script source

/-! ### Other commands -/

def paths : Act Unit := do
  let w ← space
  let line (name : Text) (p : Path) : Act Unit := say (name ++ "=" ++ p.toText)
  line "data_root" w.dataRoot
  line "out_dir" w.out
  line "docs_dir" w.docs
  line "logs_dir" w.logs
  line "inputs_dir" w.inputs
  line "api_aliases" w.api
  line "actions_catalog" w.catalog
  line "gamevalues" w.gameValues
  line "regallactions_export" w.exportFile

def readDocument (p : Path) : Act Json := do
  Act.ofExcept (Document.ofText (← Act.read p)).need

def withEnding (p : Path) (ending : Text) : Path := p.parent.child (p.stem ++ ending)

def listing (world api : Path) : Act Text := do
  let world ← readDocument world
  match World.listing world (← readDocument api) with
  | .ok t => return t
  | .error e => throw (.listing e)

def list (o : ListOptions) : Act Unit := do
  let w ← space
  let input := w.locate o.input
  let api := match o.api with
    | some t => w.here.join (w.written t)
    | none => w.api
  unless w.holds input && w.holds api do throw (.data .missingFile)
  let text ← listing input api
  let out := match o.out with
    | some t => w.here.join (w.written t)
    | none => withEnding input ".mldsl"
  Act.makeFolder out.parent
  write out text
  say ("OK: wrote " ++ out.toText)

/-! ### The compiler on its own -/

/-- The words that follow the compiler's name when it is called on its own. -/
def compilerGrammar : Grammar :=
  ⟨[⟨texts ["--plan"], .text⟩, ⟨texts ["--print-plan"], .nothing⟩], [⟨"file", .one, .text⟩]⟩

def valuesOf (g : Grammar) (args : List Text) : Act Values :=
  match g.parse args with
  | .ok v => pure v
  | .error s => throw (.stop s)

def compileOnly : Act Unit := do
  let v ← valuesOf compilerGrammar args
  let w ← space
  let written := Path.ofText ((v.last? "file").getD [])
  let script := w.here.resolve written
  let plan := given? v "--plan"
  let printPlan := v.has "--print-plan"
  if plan.isSome || printPlan then
    let doc := planDocument (← planOf script written.toText)
    if let some t := plan then write (Path.ofText t) doc.fileText
    if printPlan then say doc.render
  else printCommands script written.toText

/-! ### Other tools on their own -/

/-- List an exported world beside its file, unless another place is given. -/
def listOnly : Act (Option Nat) := do
  let v ← valuesOf ⟨[⟨texts ["--api"], .text⟩, ⟨texts ["-o", "--out"], .text⟩], [⟨"file", .one, .text⟩]⟩ args
  let path (name : Text) : Option Path := (v.last? name).map Path.ofText
  let world := (path "file").getD (.ofText [])
  let text ← listing world ((path "--api").getD (.ofText "out/api_aliases.json"))
  let out := (path "-o").getD (withEnding world ".mldsl")
  write out text
  say ("Wrote " ++ out.toText)
  return some 0

/-- Compile a script in another dialect. The reader of that dialect is not part of the program, so that only a missing
script is told from one that cannot be read. -/
def compileDialect : Act (Option Nat) := do
  let v ← valuesOf ⟨[⟨texts ["--print-mldsl"], .nothing⟩, ⟨texts ["--print-plan"], .nothing⟩],
    [⟨"path", .one, .text⟩]⟩ args
  let path := Path.ofText ((v.last? "path").getD [])
  if (← space).holds path then throw (.data .missingFile)
  Act.warn ("ERROR: file not found: " ++ path.toText)
  return some 2

end BlockScript.Cli
