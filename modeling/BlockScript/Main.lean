import BlockScript.Cli

/-!
# The command line

Reads the surroundings, runs a command and carries out what it asks for: the files it wrote, the lines it printed and
its warnings. A command sees the files as they were when it started.
-/

namespace BlockScript

def Fault.message : Fault → Text
  | .missingField key => "a field is missing: " ++ key
  | .wrongKind => "a value is of the wrong kind"
  | .notARecord => "a value is no record"
  | .outOfRange => "a list is too short"
  | .notANumber => "a text does not spell a number"
  | .tooLarge => "a number is too large"
  | .divisionByZero => "a division by zero"
  | .notJson => "a file is not a JSON document"
  | .missingFile => "a file is missing"
  | .isFolder => "a directory lies where a file is meant"

def Failure.message : Failure → Text
  | .stop _ =>
    "usage: blockscript [compile] FILE [--plan FILE] [--print-plan] [--strict-unknown] | exportcode FILE | paths"
  | .script e => e.message
  | .listing (.data f) | .library (.data f) | .data f => f.message
  | .listing e => e.message
  | .library e => e.message
  | .noFolder _ => "a file lies where a directory is meant"

def Failure.code : Failure → Nat
  | .stop s => s.code
  | _ => 1

def Cli.command (args : List Text) : Act Unit := do
  match parse args with
  | .error s => throw (.stop s)
  | .ok (.compile o) => compile o
  | .ok (.list o) => list o
  | .ok .paths => paths
  | .ok .buildAll => Act.warn "build-all runs other programs; run them one by one"

/-! ### Surroundings -/

def readable : List String := [".mldsl", ".json", ".txt", ".md", ".flag", ".lean"]

def readText? (path : String) : IO (Option Text) := do
  try return some (← IO.FS.readFile path).toList
  catch _ => return none

/-- The files below a directory, at most `depth` directories deep, without those in hidden directories. -/
def filesBelow : Nat → String → IO Files
  | 0, _ => return []
  | depth + 1, path => do
    let entries ← try (← IO.FS.realPath path).readDir catch _ => pure #[]
    let mut found : Files := []
    for e in entries do
      let name := e.fileName
      let place := path ++ "/" ++ name
      unless name.startsWith "." do
        if ← e.path.isDir then found := found ++ (← filesBelow depth place)
        else if readable.any fun ending => name.endsWith ending then
          if let some t ← readText? place then found := found ++ [(place.toList, t)]
    return found

def variableNames : List String :=
  ["MLDSL_DATA_DIR", "MLDSL_PORTABLE", "MLDSL_STRICT_UNKNOWN", "MLDSL_WARN_UNKNOWN", "MLDSL_NORMALIZED_CALL_LIMIT",
   "MLDSL_AUTOSPLIT_MAX_ITERS", "MLDSL_AUTOSPLIT_DEBUG", "MLDSL_COMPILE_DEEP_DEBUG", "MLDSL_REGALLACTIONS_EXPORT",
   "MLDSL_APPLES_TXT", "LOCALAPPDATA", "APPDATA", "HOME"]

def readVariables : IO (Table Text) := do
  let mut found : Table Text := []
  for name in variableNames do
    if let some v ← IO.getEnv name then found := found.set name.toList v.toList
  return found

/-- What a command finds: the files of the working directory, of the program and of its data, and those beside a file
named in the call. -/
def readWorkspace (args : List String) : IO Workspace := do
  let here := (← IO.currentDir).toString
  let bin := ((← IO.appPath).parent.map toString).getD here
  let values ← readVariables
  let path (s : String) : Path := .ofText s.toList
  let w : Workspace := ⟨path here, path bin, .ofText (values.getD "HOME" []), path here, false, "BlockScript.lean",
    values, []⟩
  let named := args.map fun a => w.locate a.toList
  let roots := [w.here, w.bin, w.dataRoot, w.exportFile.parent] ++ named.map Path.parent
  let mut files : Files := []
  for root in roots.eraseDups do
    for (name, text) in ← filesBelow 6 (String.ofList root.toText) do
      unless (files.get? name).isSome do files := files ++ [(name, text)]
  return { w with files }

def writeFiles (before after : Files) : IO Unit := do
  for (name, text) in after do
    unless before.get? name == some text do
      IO.FS.createDirAll (String.ofList (Path.ofText name).parent.toText)
      IO.FS.writeFile (String.ofList name) (String.ofList text)

end BlockScript
open BlockScript in
def main (args : List String) : IO UInt32 := do
  let w ← readWorkspace args
  let (result, session) := (Cli.command (args.map (·.toList))).run w
  writeFiles w.files session.space.files
  for line in session.printed do IO.println (String.ofList line)
  for line in session.warned do IO.eprintln (String.ofList line)
  match result with
  | .ok () => return 0
  | .error e =>
    IO.eprintln (String.ofList e.message)
    return e.code.toUInt32
