import BlockScript.Build.Machine
import BlockScript.Json.Reader

/-!
# The pipeline

One command checks the scripts of the build, generates the data, compiles a script as a smoke test, packs the extension
of the editor and builds the installer. How far it goes depends on its mode.
-/

namespace BlockScript.Build
namespace Pipeline
open CommandLine

def style : Step.Style where
  line := fun command folder =>
    Text.joinWith " " (["+".toList, Text.joinWith " " command] ++ (folder.map fun p => folderText (some p)).toList)
  missing := fun name =>
    if isPackageTool name then
      "Node.js/npm not found in PATH. Install Node.js or use --skip-vsix. In GitHub Actions use actions/setup-node."
    else missingProgram name

def run (command : List Text) (folder : Option Path) : Step Unit := Step.run style command folder

def scripts : List Text := texts ["mldsl_cli.py", "mldsl_compile.py", "packaging/prepare_installer_payload.py",
  "tools/build_all.py", "tools/exportcode_to_mldsl.py", "tools/_premium/ai_coder.py"]

variable (repo : Path)

def checkScripts : Step Unit := do
  let paths := scripts.map repo.child
  for p in paths do
    unless ← Step.holds p do Step.exit ("missing required script: " ++ p.toText)
  let words : List Text := [(← get).interpreter, "-m", "py_compile"]
  run (words ++ paths.map Path.toText) none

def generate : Step Unit := do
  run [(← get).interpreter, (repo.child "mldsl_cli.py").toText, "build-all"] none

def candidates : Step (List Path) := do
  let m ← get
  return ((texts ["gmstick.mldsl", "test2.mldsl", "test.mldsl"]).map repo.child).filter m.holds

/-- Compile one script. Gives the number of entries of its plan, or what is wrong. -/
def smoke (repo out script : Path) : Step (Except Text Nat) := do
  let plan := out.child ("smoke." ++ script.stem ++ ".plan.json")
  let code ← try
      run [(← get).interpreter, (repo.child "mldsl_cli.py").toText, "compile", script.toText, "--plan", plan.toText]
        none
      pure 0
    catch
      | .failed code => pure code
      | e => throw e
  if code != 0 then return .error (script.name ++ ": compile failed (exit=" ++ Text.ofInt code ++ ")")
  unless ← Step.holds plan do return .error (script.name ++ ": plan not created")
  match Json.read? (← Step.read plan) with
  | none => throw (.data .notJson)
  | some v =>
    match v.field? "entries" with
    | some (.arr entries) => return .ok entries.length
    | _ => return .error (script.name ++ ": invalid plan format")

/-- Compile the scripts in turn until one succeeds. `faults` holds what was wrong with those before. -/
def smokeFirst (repo out : Path) (faults : List Text) : List Path → Step Unit
  | [] => Step.exit ("smoke compile failed for all candidates:\n- " ++ Text.joinWith "\n- " faults)
  | script :: rest => do
    match ← smoke repo out script with
    | .ok n => Step.say ("[ok] smoke compile: " ++ script.name ++ " -> entries=" ++ Text.ofNat n)
    | .error e => smokeFirst repo out (faults ++ [e]) rest

def smokeTest (repo out : Path) : Step Unit := do
  Step.makeFolder out
  match ← candidates repo with
  | [] => Step.exit "no smoke .mldsl found (expected gmstick.mldsl/test2.mldsl/test.mldsl)"
  | found => smokeFirst repo out [] found

def extension (repo out : Path) : Step Path := do
  let folder := repo.child "tools/mldsl-vscode"
  unless ← Step.holds folder do Step.exit ("extension dir not found: " ++ folder.toText)
  Step.makeFolder out
  let file := out.child "mldsl-helper.vsix"
  packExtension style folder file
  unless ← Step.holds file do Step.exit ("vsix was not created: " ++ file.toText)
  Step.say ("[ok] vsix: " ++ file.toText)
  return file

def release (version : Text) (allowMissing : Bool) : Step Unit := do
  run [(← get).interpreter, (repo.child "packaging/prepare_installer_payload.py").toText, "--use-seed"] none
  match ← Step.installerTool? with
  | none =>
    let message : Text := "Inno Setup compiler `iscc` not found in PATH."
    if allowMissing then
      Step.say ("[warn] " ++ message ++ " Skipping installer step (--allow-missing-iscc).")
    else Step.exit message
  | some tool =>
    run [tool, (repo.child "installer/MLDSL.iss").toText, "/DAppVersion=" ++ version] none
    Step.say "[ok] installer built"

def grammar : Grammar :=
  ⟨[⟨texts ["--app-version"], .text⟩, ⟨texts ["--allow-missing-iscc"], .nothing⟩, ⟨texts ["--skip-smoke"], .nothing⟩,
    ⟨texts ["--skip-vsix"], .nothing⟩], [⟨"mode", .one, .oneOf (texts ["fast", "dev", "release", "all"])⟩]⟩

def main (args : List Text) : Step Unit := do
  let v ← Step.ofGrammar grammar args
  let mode := (v.last? "mode").getD []
  let repo := (← get).repo
  let out := repo.child "dist/pipeline"
  Step.makeFolder out
  Step.say ("[pipeline] mode=" ++ mode)
  checkScripts repo
  generate repo
  unless v.has "--skip-smoke" do smokeTest repo out
  if (texts ["dev", "release", "all"]).contains mode && !v.has "--skip-vsix" then
    let _ ← extension repo out
  if (texts ["release", "all"]).contains mode then
    release repo ((v.last? "--app-version").getD "0.0.0-local") (v.has "--allow-missing-iscc")
  Step.say "[pipeline] done in 0.0s"

end Pipeline
end BlockScript.Build
