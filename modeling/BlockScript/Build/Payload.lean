import BlockScript.Build.Machine

/-!
# The payload of the installer

The installer ships the packaged program, the shipped data, generated data, the extension of the editor and, on
demand, the jars of the mod. They are gathered in one directory.
-/

namespace BlockScript.Build
namespace Payload
open CommandLine

def style : Step.Style where
  line := fun command folder =>
    Text.joinWith " " ("+".toList :: (folder.map fun p => folderText (some p)).toList ++ [Text.joinWith " " command])
  missing := fun name =>
    if isPackageTool name then
      "Node.js/npm not found in PATH. For CI use actions/setup-node, for local install Node.js, "
      ++ "or run with --no-vsix if you intentionally skip extension packaging."
    else missingProgram name

def run (command : List Text) (folder : Option Path) : Step Unit := Step.run style command folder

def clean (dist payload : Path) : Step Unit :=
  modify fun m => { m with
    files := m.files.filter fun f =>
      let p := Path.ofText f.1
      !Machine.isBelow p dist || Machine.isBelow p payload
    folders := m.folders.filter fun p => !Machine.isBelow p dist || Machine.isBelow p payload }

def package (repo app : Path) : Step Unit := do
  let words : List Text := [(← get).interpreter, "-m", "nuitka", (repo.child "mldsl_cli.py").toText, "--standalone",
    "--assume-yes-for-downloads", "--output-dir=dist", "--output-filename=mldsl.exe"]
  run words none
  let out := repo.child "dist/mldsl_cli.dist"
  unless ← Step.holds out do Step.exit ("Nuitka output not found: " ++ out.toText)
  Step.copyFolder out app

def copyAssets (repo assets : Path) : Step Unit := do
  Step.makeFolder assets
  Step.copy (repo.child "allactions.txt") (assets.child "allactions.txt")
  Step.copy (repo.child "src/assets/Aliases.json") (assets.child "Aliases.json")
  Step.copy (repo.child "src/assets/LangTokens.json") (assets.child "LangTokens.json")

def copyData (useSeed : Bool) (repo target : Path) : Step Unit := do
  if useSeed then Step.copyFolder (repo.child "seed/out") target
  else
    let generated := (← get).home.child "AppData/Local/MLDSL/out"
    unless ← Step.holds generated do Step.exit ("Expected generated out/ at: " ++ generated.toText)
    Step.copyFolder generated target

def extension (repo file : Path) : Step Unit := do
  let folder := repo.child "tools/mldsl-vscode"
  unless ← Step.holds folder do Step.exit ("VS Code extension folder not found: " ++ folder.toText)
  packExtension style folder file
  unless ← Step.holds file do Step.exit ("VSIX output not found: " ++ file.toText)

def jars : List Text := texts ["build/libs/bettercode-1.0.9.jar",
  "modern/fabric120/build/libs/bettercode-fabric120-0.1.0-fabric120.jar",
  "modern/fabric121/build/libs/bettercode-fabric121-0.1.0-fabric121.jar"]

def copyMods (source target : Path) : Step Unit := do
  let m ← get
  unless m.holds source do Step.exit ("--mods-from path not found: " ++ source.toText)
  match (jars.map source.child).filter m.holds with
  | [] => Step.exit ("No built BetterCode jars found under --mods-from. "
    ++ "Build mod first (e.g. python tools/build_matrix.py all --task build).")
  | found =>
    Step.remove target
    Step.makeFolder target
    for jar in found do Step.copy jar (target.child jar.name)

def grammar : Grammar :=
  ⟨[⟨texts ["--use-seed"], .nothing⟩, ⟨texts ["--no-vsix"], .nothing⟩, ⟨texts ["--mods-from"], .text⟩], []⟩

def main (args : List Text) : Step Unit := do
  let v ← Step.ofGrammar grammar args
  let repo := (← get).repo
  let useSeed := v.has "--use-seed"
  let mods := (v.last? "--mods-from").getD []
  let payload := repo.child "dist/payload"
  Step.makeFolder payload
  if useSeed then
    let seed := repo.child "seed/out"
    unless ← Step.holds seed do Step.exit ("--use-seed was set but seed/out was not found: " ++ seed.toText)
  else run [(← get).interpreter, (repo.child "tools/build_all.py").toText] none
  clean (repo.child "dist") payload
  package repo (payload.child "app")
  copyAssets repo (payload.child "assets")
  copyData useSeed repo (payload.child "seed_out")
  let file := payload.child "mldsl-helper.vsix"
  unless v.has "--no-vsix" do extension repo file
  unless mods.isEmpty do copyMods (repo.resolve (.ofText mods)) (payload.child "mods")
  Step.say []
  Step.say ("OK: prepared payload at: " ++ payload.toText)
  Step.say ("- app: " ++ (payload.child "app").toText)
  Step.say ("- assets: " ++ (payload.child "assets").toText)
  Step.say ("- seed_out: " ++ (payload.child "seed_out").toText)
  unless mods.isEmpty do Step.say ("- mods: " ++ (payload.child "mods").toText)
  unless v.has "--no-vsix" do Step.say ("- vsix: " ++ file.toText)
  Step.say []

end Payload
end BlockScript.Build
