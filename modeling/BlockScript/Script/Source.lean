import BlockScript.Action.Name
import BlockScript.Path
import BlockScript.Script.Error
import BlockScript.Text.Lines
import BlockScript.Text.Nesting
import BlockScript.Text.Pattern

/-!
# Sources and imports

A script may be spread over files. An import line is replaced by the lines of the file it names, unless that file
was read before; the name of the file may then be written before what it defines.
-/

namespace BlockScript.Source
open Script (Error)

/-- The lines of a script, and the names of the files it imports. -/
structure Loaded where
  lines : List Text
  namespaces : List Text

def importPattern : Pattern :=
  .atStart ++ .blanks ++ .oneOf [.word "import", .word "use", .word "использовать"]
    ++ .blanks1 ++ .group 1 (.many1 (.char fun c => !isBlank c && c != ';' && c != '#'))
    ++ .blanks ++ .opt (.lit ";") ++ .blanks ++ .atEnd

def import? (line : Text) : Option Text :=
  (importPattern.match? line.trim).map fun m => Text.trimBy Nesting.isQuote (m.group 1)

def suffix : Text := ".mldsl"

def importPath (base : Path) (raw : Text) : Path :=
  let rel := Text.replaceChar '\\' '/' raw
  let rel := if Text.endsWith rel.lower suffix then rel else rel ++ suffix
  base.parent.resolve (.ofText rel)

/-- The text of a file without a mark at its start, in lines. -/
def fileLines (text : Text) : List Text :=
  Text.lines (Text.unifyLineEnds (match text with
    | '\uFEFF' :: rest => rest
    | t => t))

/-- What is left to read, in order: a line of a file, or a whole file. -/
inductive Task where
  | line (file : Path) (text : Text)
  | file (path : Path)

structure State where
  visited : List Path
  lines : List Text
  namespaces : List Text

variable (files : Files)

/-- One step of reading: the tasks that take the place of the first, and what was read. -/
def step (t : Task) (s : State) : Except Error (List Task × State) :=
  match t with
  | .line file text =>
    match import? text with
    | some raw =>
      let ns := (Path.ofText raw).stem
      let namespaces := if s.namespaces.contains ns then s.namespaces else s.namespaces ++ [ns]
      .ok ([.file (importPath file raw)], { s with namespaces })
    | none => .ok ([], { s with lines := s.lines ++ [text] })
  | .file path =>
    if s.visited.contains path then .ok ([], s)
    else match files.get? path.toText with
      | none => .error (.importMissing path.toText)
      | some text => .ok ((fileLines text).map (.line path), { s with visited := s.visited ++ [path] })

/-- Read until nothing is left, in at most `fuel` steps. -/
def run (files : Files) : Nat → List Task → State → Except Error State
  | _, [], s => .ok s
  | 0, _, s => .ok s
  | fuel + 1, t :: rest, s =>
    match step files t s with
    | .error e => .error e
    | .ok (more, s) => run files fuel (more ++ rest) s

/-- A bound on the steps: every file is read once, and every line of it gives a line or one more file. -/
def stepBound : Nat :=
  files.foldl (fun n f => n + 1 + 2 * (fileLines f.2).length) 2

/-- The file with which reading begins; a path that is not absolute counts from the root. -/
def start (entry : Path) : Path := Path.resolve ⟨true, []⟩ entry

def load (entry : Path) : Except Error Loaded :=
  match run files (stepBound files) [.file (start entry)] ⟨[], [], []⟩ with
  | .ok s => .ok ⟨s.lines, s.namespaces⟩
  | .error e => .error e

/-- Drop the names of imported files before a point. -/
def dropNamespace (line ns : Text) : Text :=
  if ns.isEmpty then line
  else (Pattern.wordEdge ++ .lit ns ++ .lit ".").replaceAll [] line

def dropNamespaces (namespaces : List Text) (line : Text) : Text := namespaces.foldl dropNamespace line

end BlockScript.Source
