import BlockScript.Json.Document
import BlockScript.Json.Printer
import BlockScript.Plan.Command
import BlockScript.Script.Program

/-!
# Data files

The compiler reads the library of actions, the catalog, the game values, other spellings of signs and the list of
blocks. Only the library has to be there.
-/

namespace BlockScript
open Script (Compile Settings)

structure Data where
  api : Document
  catalog : Document
  gameValues : Document
  aliases : Document
  blocks : Option Text

namespace Data
variable (d : Data)

def loadApi : Compile Api :=
  match d.api with
  | .missing => throw .noLibrary
  | .malformed => throw (.data .notJson)
  | .value v => pure v

def loadAliases : Except Fault Json.Fields :=
  match d.aliases with
  | .missing => .ok []
  | .malformed => .error .notJson
  | .value v => Palette.aliasesOf v

def loadBlocks : Table Text := (d.blocks.map Palette.blocksOf).getD []

def loadEvents : Except Fault (Table KnownEvent) :=
  (d.catalog.value?.map KnownEvent.ofCatalog).getD (.ok [])

def loadValues : GameValues := (d.gameValues.value?.map GameValues.ofJson).getD []

def size : Json → Except Fault Nat
  | .obj fs => .ok fs.length
  | .arr xs => .ok xs.length
  | .str t => .ok t.length
  | _ => .error .wrongKind

/-- Make ready to compile a script. `shown` is the path as the user wrote it. -/
def setup (cfg : Settings) (d : Data) (files : Files) (entry : Path) (shown : Text) :
    Compile (Program.Context × Program.Prepared) := do
  cfg.traceStage ("compile_entries.start path=" ++ shown)
  let api ← d.loadApi
  let aliases ← liftM d.loadAliases
  let blocks := d.loadBlocks
  let events ← liftM d.loadEvents
  let n ← liftM (size api)
  cfg.traceStage ("loaded api_modules=" ++ Text.ofNat n ++ " sign1_aliases=" ++ Text.ofNat aliases.length ++ " blocks="
    ++ Text.ofNat blocks.length ++ " known_events=" ++ Text.ofNat events.length)
  Program.setup cfg ⟨api, d.loadValues⟩ ⟨blocks, aliases⟩ events files entry

def compile (cfg : Settings) (d : Data) (files : Files) (entry : Path) (shown : Text) : Compile (List Entry) := do
  let (ctx, p) ← d.setup cfg files entry shown
  Program.plan cfg (← Program.run ctx p)

def commands (cfg : Settings) (d : Data) (files : Files) (entry : Path) (shown : Text) : Compile (List Text) := do
  Compile.ofExcept (Command.ofEntries (← d.compile cfg files entry shown))

end Data
end BlockScript
