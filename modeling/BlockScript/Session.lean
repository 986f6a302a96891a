import BlockScript.Api.Contract
import BlockScript.CommandLine
import BlockScript.Console
import BlockScript.Script.Data
import BlockScript.Workspace
import BlockScript.World.Listing

/-!
# Sessions

A command reads and writes files, sets environment variables, prints and warns. What it did before it failed stays
done, so the state of the session is there in any case.
-/

namespace BlockScript

structure Session where
  space : Workspace
  printed : List Text
  warned : List Text

inductive Failure where
  | stop (s : CommandLine.Stop)
  | script (e : Script.Error)
  | listing (e : World.ListingError)
  | library (e : Api.Violation)
  | data (f : Fault)
  /-- A file lies where a directory is meant, or where one above it is. -/
  | noFolder (above : Bool)

abbrev Act (α : Type) := ExceptT Failure (StateM Session) α

namespace Act
variable {α : Type}

def space : Act Workspace := do return (← get).space

def say (line : Text) : Act Unit := modify fun s => { s with printed := s.printed ++ [line] }

def sayAll (lines : List Text) : Act Unit := lines.forM say

def warn (line : Text) : Act Unit := modify fun s => { s with warned := s.warned ++ [line] }

def ofExcept : Except Fault α → Act α
  | .ok a => pure a
  | .error e => throw (.data e)

/-- Run something that prints. What it printed stays printed, also if it fails. -/
def ofRun (x : Run Fault α) : Act α := fun s =>
  let (r, lines) := (ExceptT.run x).run []
  (r.mapError .data, { s with printed := s.printed ++ lines })

def read (p : Path) : Act Text := do
  let w ← space
  match w.file? p with
  | some t => return t.unifyLineEnds
  | none => throw (.data (if w.isFolder p then .isFolder else .missingFile))

def makeFolder (p : Path) : Act Unit := do
  let w ← space
  if (w.file? p).isSome then throw (.noFolder false)
  if w.isBlocked p then throw (.noFolder true)

def write (p : Path) (t : Text) : Act Unit := do
  if (← space).isFolder p then throw (.data .isFolder)
  modify fun s => { s with space := { s.space with
    files := s.space.files.set (s.space.here.resolve p).toText t } }

def setVariable (name : Text) (value : Option Text) : Act Unit :=
  modify fun s => { s with space := { s.space with
    environment := match value with
      | some v => s.space.environment.set name v
      | none => s.space.environment.remove name } }

/-- Run a step with an environment variable set, and give the variable its old value afterwards, also if the step
fails. -/
def withVariable (name value : Text) (body : Act α) : Act α := fun s =>
  let before := s.space.environment.get? name
  let (r, s) := (do setVariable name (some value); body : Act α) s
  let (_, s) := setVariable name before s
  (r, s)

/-- Run the compiler. Its report goes to the warnings, also if it fails. -/
def ofCompile (x : Script.Compile α) : Act α := fun s =>
  let s := { s with warned := s.warned ++ x.written }
  (match x.result with
    | .ok a => .ok a
    | .error e => .error (.script e), s)

def run (x : Act α) (w : Workspace) : Except Failure α × Session := x ⟨w, [], []⟩

end Act

def Workspace.document (w : Workspace) (p : Path) : Document :=
  match w.file? p with
  | some t => .ofText t
  | none => .missing

def Workspace.data (w : Workspace) : Data where
  api := w.document w.api
  catalog := w.document w.catalog
  gameValues := w.document w.gameValues
  aliases := match w.signNames with
    | .ok p => w.document p
    | .error _ => .missing
  blocks := match w.blocks with
    | .ok p => w.file? p
    | .error _ => none

end BlockScript
