import BlockScript.Build.Machine

/-!
# The installer for development

It bundles the jars of the mod from a directory on the same machine.
-/

namespace BlockScript.Build
namespace Installer
open CommandLine

def run (command : List Text) (folder : Option Path) : Step Unit := do
  Step.say ("+ " ++ Text.joinWith " " command ++ " " ++ folderText folder)
  Step.start command folder

def grammar : Grammar :=
  ⟨[⟨texts ["--app-version"], .text⟩, ⟨texts ["--mods-from"], .text⟩, ⟨texts ["--skip-vsix"], .nothing⟩], []⟩

def main (args : List Text) : Step Unit := do
  let v ← Step.ofGrammar grammar args
  let m ← get
  let mods := m.repo.resolve (.ofText ((v.last? "--mods-from").getD "k:\\mymod"))
  unless m.holds mods do Step.exit ("--mods-from not found: " ++ mods.toText)
  let words : List Text := [m.interpreter, (m.repo.child "packaging/prepare_installer_payload.py").toText, "--use-seed",
    "--mods-from", mods.toText]
  run (if v.has "--skip-vsix" then words ++ texts ["--no-vsix"] else words) none
  match ← Step.installerTool? with
  | none => Step.exit ("ISCC not found. Install Inno Setup or add ISCC.exe to PATH.\n"
    ++ "Expected fallback: %LOCALAPPDATA%\\Programs\\Inno Setup 6\\ISCC.exe")
  | some tool =>
    run [tool, (m.repo.child "installer/MLDSL.iss").toText,
      "/DAppVersion=" ++ (v.last? "--app-version").getD "0.1.17-dev", "/DDevInstaller=1"] none
    Step.say "[ok] dev installer built in dist/release"

end Installer
end BlockScript.Build
