import BlockScript.CommandLine
import BlockScript.Fault
import BlockScript.Path

/-!
# Machines that build

A build reads and changes a tree of files and starts other programs. What a started program does is not known to the
build, so the machine holds the outcomes in advance: every program started takes the next one.
-/

namespace BlockScript.Build

structure Process where
  command : List Text
  folder : Option Path

structure Outcome where
  writes : List (Path × Text)
  missing : Bool
  code : Int

def Outcome.success : Outcome := ⟨[], false, 0⟩

abbrev Time := Int

structure File where
  text : Text
  time : Time

structure Machine where
  repo : Path
  home : Path
  /-- The directory that installed programs lie in, and their names. -/
  toolFolder : Path
  tools : List Text
  interpreter : Text
  files : Table File
  /-- Directories made, with or without files in them. -/
  folders : List Path
  now : Time
  /-- What the programs will do that are started from now on. -/
  outcomes : List Outcome
  started : List Process
  printed : List Text

inductive Failure where
  | exit (message : Text)
  | failed (code : Int)
  | missing
  | data (f : Fault)
  | stop (s : CommandLine.Stop)

abbrev Step (α : Type) := ExceptT Failure (StateM Machine) α

namespace Machine

def isBelow (p q : Path) : Bool := q.parts.isPrefixOf p.parts

def isFolder (m : Machine) (p : Path) : Bool :=
  m.folders.any (isBelow · p) || m.files.any fun f => isBelow (.ofText f.1) p && f.1 != p.toText

def holds (m : Machine) (p : Path) : Bool := m.files.has p.toText || m.isFolder p

def time? (m : Machine) (p : Path) : Option Time := (m.files.get? p.toText).map File.time

def write (m : Machine) (p : Path) (t : Text) : Machine :=
  { m with files := m.files.set p.toText ⟨t, m.now⟩ }

def remove (m : Machine) (p : Path) : Machine :=
  { m with
    files := m.files.filter fun f => !isBelow (.ofText f.1) p
    folders := m.folders.filter fun q => !isBelow q p }

def tool? (m : Machine) (name : Text) : Option Text :=
  if m.tools.contains name then some (m.toolFolder.child name).toText else none

end Machine
namespace Step

def say (line : Text) : Step Unit := modify fun m => { m with printed := m.printed ++ [line] }

def exit {α : Type} (message : Text) : Step α := throw (.exit message)

def holds (p : Path) : Step Bool := do return (← get).holds p

def makeFolder (p : Path) : Step Unit := modify fun m => { m with folders := m.folders ++ [p] }

def remove (p : Path) : Step Unit := modify (·.remove p)

def read (p : Path) : Step Text := do
  let m ← get
  match m.files.get? p.toText with
  | some f => return f.text
  | none => throw (if m.isFolder p then .data .isFolder else .missing)

def copy (source target : Path) : Step Unit := do
  let t ← read source
  modify (·.write target t)

def copyFolder (source target : Path) : Step Unit := do
  if ← holds target then remove target
  let m ← get
  unless m.isFolder source do throw .missing
  let moved (p : Path) : Path := ⟨target.absolute, target.parts ++ p.parts.drop source.parts.length⟩
  makeFolder target
  (m.folders.filter (Machine.isBelow · source)).forM fun p => makeFolder (moved p)
  (m.files.filter fun f => Machine.isBelow (.ofText f.1) source).forM fun f =>
    modify (·.write (moved (.ofText f.1)) f.2.text)

def start (command : List Text) (folder : Option Path) : Step Unit := do
  let m ← get
  let outcome := m.outcomes.headD .success
  let after : Machine := { m with outcomes := m.outcomes.drop 1, started := m.started ++ [⟨command, folder⟩] }
  set (outcome.writes.foldl (fun m f => m.write f.1 f.2) after)
  if outcome.missing then throw .missing
  if outcome.code != 0 then throw (.failed outcome.code)

def ofGrammar (g : CommandLine.Grammar) (args : List Text) : Step CommandLine.Values :=
  match g.parse args with
  | .ok v => pure v
  | .error s => throw (.stop s)

def installerTool? : Step (Option Text) := do
  let m ← get
  let usual := m.home.child "AppData/Local/Programs/Inno Setup 6/ISCC.exe"
  match m.tool? "iscc" with
  | some t => return some t
  | none => return if m.holds usual then some usual.toText else none

/-- How a build writes a started program, and what it says if there is none. -/
structure Style where
  line : List Text → Option Path → Text
  missing : Text → Text

def run (style : Style) (command : List Text) (folder : Option Path) : Step Unit := do
  match command with
  | [] => exit "internal error: empty command"
  | name :: args =>
    let resolved := ((← get).tool? name).getD name :: args
    say (style.line resolved folder)
    try start resolved folder
    catch
      | .missing => exit (style.missing name)
      | e => throw e

def finish {α : Type} (x : Step α) (m : Machine) : Except Failure α × Machine := ExceptT.run x m

end Step

def folderText (folder : Option Path) : Text :=
  match folder with
  | some p => "(cwd=" ++ p.toText ++ ")"
  | none => []

def isPackageTool (name : Text) : Bool := name == "npm" || name == "npx"

def missingProgram (name : Text) : Text := "required command not found: " ++ name

def packExtension (style : Step.Style) (folder file : Path) : Step Unit := do
  Step.run style (texts ["npm", "ci"]) (some folder)
  Step.run style (texts ["npx", "--yes", "@vscode/vsce", "package", "--no-dependencies", "-o"] ++ [file.toText])
    (some folder)

end BlockScript.Build
