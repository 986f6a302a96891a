import BlockScript.Build.Machine
import BlockScript.Workspace

/-!
# Generating the data

The data is generated in four steps, each by a script that turns input files into output files. A step is run again
only if it has to be: an output or the stamp of its last run is missing, or an input is newer than an output or the
stamp.
-/

namespace BlockScript.Build
namespace Generation
open CommandLine

structure Stage where
  name : Text
  script : Text
  inputs : List Path
  outputs : List Path

def stages (repo : Path) (w : Workspace) : List Stage :=
  let tool (name : Text) : Path := (repo.child "tools").child name
  [{ name := "actions_catalog"
     script := "build_actions_catalog.py"
     inputs := [tool "build_actions_catalog.py", tool "extract_regallactions_args.py", w.exportFile,
       repo.child "src/assets/Aliases.json"]
     outputs := [w.catalog, w.actionNames, w.quickStart] },
   { name := "api_aliases"
     script := "build_api_aliases.py"
     inputs := [tool "build_api_aliases.py", w.catalog, tool "action_translations.json",
       tool "action_translations_by_id.json"]
     outputs := [w.api] },
   { name := "gamevalues"
     script := "build_gamevalues.py"
     inputs := tool "build_gamevalues.py" :: w.valueList?.toList
     outputs := [w.gameValues] },
   { name := "api_docs"
     script := "generate_api_docs.py"
     inputs := [tool "generate_api_docs.py", w.api, w.catalog]
     outputs := [w.docs.child "README.md", w.docs.child "ALL_FUNCTIONS.md", w.docs.child "MLDSL_GUIDE.md"] }]

variable (w : Workspace)

def stamps : Path := w.out.child ".build_stamps"

def stamp (w : Workspace) (s : Stage) : Path := (stamps w).child (s.name ++ ".stamp")

def latest (m : Machine) (ps : List Path) : Time := (ps.filterMap m.time?).foldl max 0

def earliest (m : Machine) (ps : List Path) : Time :=
  match ps.filterMap m.time? with
  | [] => 0
  | t :: ts => ts.foldl min t

def reason? (m : Machine) (w : Workspace) (force : Bool) (s : Stage) : Option Text :=
  if force then some "force"
  else if !s.outputs.all m.holds then some "missing output"
  else match m.time? (stamp w s) with
    | none => some "missing stamp"
    | some done =>
      let newest := latest m s.inputs
      if earliest m s.outputs < newest then some "inputs newer than outputs"
      else if done < newest then some "inputs newer than stamp"
      else none

def runStage (force verbose : Bool) (s : Stage) : Step Bool := do
  let m ← get
  match reason? m w force s with
  | some reason =>
    Step.say ("[RUN ] " ++ s.name ++ ": " ++ reason)
    let command : List Text := [m.interpreter, ((m.repo.child "tools").child s.script).toText]
    Step.say ("+ " ++ Text.joinWith " " command)
    Step.start command none
    modify (·.write (stamp w s) [])
    return true
  | none =>
    Step.say ("[SKIP] " ++ s.name ++ if verbose then ": up-to-date".toList else [])
    return false

def grammar : Grammar := ⟨[⟨texts ["--force"], .nothing⟩, ⟨texts ["--verbose"], .nothing⟩], []⟩

def main (args : List Text) : Step Unit := do
  let v ← Step.ofGrammar grammar args
  let ran ← (stages (← get).repo w).mapM (runStage w (v.has "--force") (v.has "--verbose"))
  Step.say ("[DONE] executed=" ++ Text.ofNat (ran.count true) ++ " skipped=" ++ Text.ofNat (ran.count false))

end Generation
end BlockScript.Build
