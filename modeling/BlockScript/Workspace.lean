import BlockScript.Path
import BlockScript.Text.Case
import BlockScript.Text.Lines

/-!
# Where things lie

A workspace is what a command finds when it starts: the directories, the environment variables and the files. From
these follow the places of the generated data, the shipped data and the inputs.
-/

namespace BlockScript

structure Workspace where
  /-- The directory that the program and its shipped data lie in. -/
  install : Path
  bin : Path
  home : Path
  here : Path
  /-- The program is packaged, so that it does not lie in a checkout of its sources. -/
  packaged : Bool
  marker : Text
  environment : Table Text
  files : Files

namespace Workspace
variable (w : Workspace)

/-- The value of an environment variable without blanks around it, if it has one. -/
def variableOf (name : Text) : Option Text :=
  let t := Text.trim (w.environment.getD name [])
  if t.isEmpty then none else some t

variable (p : Path)

/-- A path is a directory: the working directory or one above it, or one that holds a file. -/
def isFolder : Bool :=
  let parts := (w.here.resolve p).parts
  parts.isPrefixOf w.here.parts || w.files.any fun f =>
    let file := (Path.ofText f.1).parts
    parts.isPrefixOf file && parts.length < file.length

/-- A file lies where a directory on the way to a path is meant. -/
def isBlocked : Bool :=
  let parts := (w.here.resolve p).parts
  w.files.any fun f =>
    let file := (Path.ofText f.1).parts
    file.isPrefixOf parts && file.length < parts.length

def file? : Option Text := w.files.get? (w.here.resolve p).toText

def holds : Bool := (w.file? p).isSome || w.isFolder p

/-- The path that the user wrote, where a tilde stands for the home directory. -/
def written (t : Text) : Path :=
  let p := Path.ofText t
  match p.absolute, p.parts with
  | false, name :: rest => if name == "~" then ⟨w.home.absolute, w.home.parts ++ rest⟩ else p
  | _, _ => p

def locate (t : Text) : Path := w.here.resolve (w.written t)

/-! ### The data directory -/

def isPortable : Bool :=
  let v := Text.lower (Text.trim (w.environment.getD "MLDSL_PORTABLE" []))
  if (texts ["1", "true", "yes", "y", "on"]).contains v then true
  else if (texts ["0", "false", "no", "n", "off"]).contains v then false
  else w.holds (w.bin.child "portable.flag")

def isCheckout : Bool :=
  !w.packaged && w.holds (w.install.child w.marker) && w.holds (w.install.child "src/assets/Aliases.json")

def dataRoot : Path :=
  match w.variableOf "MLDSL_DATA_DIR" with
  | some t => w.locate t
  | none =>
    if w.isPortable then w.here.resolve (w.bin.child "MLDSL")
    else if w.isCheckout then w.install
    else match w.variableOf "LOCALAPPDATA" with
      | some t => w.here.resolve ((Path.ofText t).child "MLDSL")
      | none => w.here.resolve (w.home.child ".mldsl")

def out : Path := w.dataRoot.child "out"

def docs : Path := w.out.child "docs"

def logs : Path := w.dataRoot.child "logs"

def inputs : Path := w.dataRoot.child "inputs"

def api : Path := w.out.child "api_aliases.json"

def catalog : Path := w.out.child "actions_catalog.json"

def actionNames : Path := w.out.child "action_aliases.json"

def quickStart : Path := w.out.child "language_quickstart.md"

def gameValues : Path := w.out.child "gamevalues.json"

def audit : Path := w.out.child "export_audit.json"

def issues : Path := w.out.child "arg_parse_issues.json"

def namesByRecord : Path := w.install.child "tools/action_translations_by_id.json"

def namesByHand : Path := w.install.child "tools/action_translations.json"

def nameTemplate : Path := w.out.child "action_translations_template.json"

def rules : Path := w.install.child "donaterequire.txt"

/-! ### Shipped data and inputs -/

def firstOf? (ps : List Path) : Option Path := ps.find? w.holds

/-- A shipped file at one of the places it may be at, or all these places. -/
def shipped (inSources name : Text) : Except (List Path) Path :=
  let places := [w.install.child inSources, (w.bin.child "assets").child name, (w.dataRoot.child "assets").child name]
  match w.firstOf? places with
  | some p => .ok p
  | none => .error places

def signNames : Except (List Path) Path := w.shipped "src/assets/Aliases.json" "Aliases.json"

def languageWords : Except (List Path) Path := w.shipped "src/assets/LangTokens.json" "LangTokens.json"

def blocks : Except (List Path) Path := w.shipped "allactions.txt" "allactions.txt"

def missingShipped (name : Text) (places : List Path) : Text :=
  "Не найден `" ++ name ++ "`.\nОжидалось в одном из путей:\n"
    ++ Text.joinLines (places.map fun p => "- " ++ p.toText)

def gameDir : Path :=
  match w.variableOf "APPDATA" with
  | some t => (Path.ofText t).child ".minecraft"
  | none => w.home.child ".minecraft"

def exportFile : Path :=
  match w.variableOf "MLDSL_REGALLACTIONS_EXPORT" with
  | some t => w.locate t
  | none =>
    let inGame := w.gameDir.child "regallactions_export.txt"
    (w.firstOf? [inGame, w.install.child "seed/inputs/regallactions_export.txt"]).getD inGame

def valueList? : Option Path :=
  match w.variableOf "MLDSL_APPLES_TXT" with
  | some t => some (w.locate t)
  | none => w.firstOf? [w.install.child "apples.txt", w.install.child "seed/inputs/apples.txt",
      w.inputs.child "apples.txt", w.home.child "Documents/apples.txt"]

def places : List (Text × Path) :=
  [("data_root", w.dataRoot), ("out_dir", w.out), ("docs_dir", w.docs), ("logs_dir", w.logs),
   ("inputs_dir", w.inputs), ("api_aliases_path", w.api), ("actions_catalog_path", w.catalog),
   ("action_aliases_path", w.actionNames), ("language_quickstart_path", w.quickStart),
   ("gamevalues_path", w.gameValues), ("export_audit_path", w.audit), ("arg_parse_issues_path", w.issues),
   ("action_translations_by_id_path", w.namesByRecord), ("action_translations_path", w.namesByHand),
   ("action_translations_template_path", w.nameTemplate), ("default_minecraft_dir", w.gameDir),
   ("default_minecraft_export_path", w.exportFile)]

end Workspace
end BlockScript
