import BlockScript.Assistant.Reference
import BlockScript.CommandLine
import BlockScript.Json.Document

/-!
# The command line of the assistant

The assistant lists modules and actions and shows pages. Talking to a language model needs libraries that are not part
of it; without them those commands only say what is missing.
-/

namespace BlockScript.Assistant
open CommandLine

def commands : Commands :=
  let place (name : Text) : Place := ⟨name, .one, .text⟩
  let option (takes : Takes) (name : String) : Choice := ⟨[name.toList], takes⟩
  [("modules", ⟨[], []⟩),
   ("funcs", ⟨[], [place "module"]⟩),
   ("doc", ⟨[], [place "module", place "func"]⟩),
   ("ask", ⟨["--use", "--model"].map (option .text), [place "question"]⟩),
   ("agent", ⟨["--prompt-file", "--model", "--template", "--keep-alive", "--llama-url", "--planner-model",
        "--planner-llama-url"].map (option .text)
      ++ ["--max-steps", "--num-predict", "--num-ctx", "--planner-max-tokens"].map (option .whole)
      ++ ["--ollama-timeout", "--stream-max-silence"].map (option .number)
      ++ ["--allow-write", "--builder", "--ir", "--stream", "--debug-full", "--debug"].map (option .nothing),
      [⟨"request", .atMostOne, .text⟩]⟩),
   ("prefill", ⟨[], [place "template"]⟩),
   ("ui-demo", ⟨["--no-color"].map (option .nothing), []⟩)]

inductive Ending where
  | code (n : Nat)
  | message (t : Text)

structure Reply where
  printed : List Text
  warned : List Text
  ending : Ending

structure Desk where
  root : Path
  home : Path
  api : Document
  files : Files
  colored : Bool

def Reply.warning (ls : List Text) (n : Nat) : Reply := ⟨[], ls, .code n⟩

def withoutModels : Reply := .warning
  ["Missing deps. Install:\n  uv pip install -r tools/_premium/requirements.txt",
   "No module named 'langchain_ollama'"] 2

def showLine (colored : Bool) (color line : Text) : Text :=
  if colored then "\x1b[" ++ color ++ "m" ++ line ++ "\x1b[0m" else line

def demonstration (colored : Bool) : Reply := .warning
  [showLine colored "90" "· demo thought: discovering API (list_modules/search_api/get_sig)",
   showLine colored "96" "★ SYNTHESIS ON#1: writing program",
   showLine colored "90" "· demo thought: emitting builder tool calls",
   showLine colored "96" "★ SYNTHESIS OFF: done"] 0

def promptPath (d : Desk) (t : Text) : Path :=
  let p := Path.ofText t
  let p := if p.absolute then p else match p.parts with
    | "~" :: rest => ⟨true, d.home.parts ++ rest⟩
    | _ => p
  if p.absolute then p else d.root.resolve p

/-- Talk to a language model, about a request in a file if one is named. -/
def agent (d : Desk) (file : Option Text) : Reply :=
  match file with
  | none => withoutModels
  | some [] => withoutModels
  | some t =>
    let p := promptPath d t
    match d.files.get? (d.root.resolve p).toText with
    | none => ⟨[], [], .message ("prompt file not found: " ++ p.toText)⟩
    | some text =>
      if text.allBlank then ⟨[], [], .message ("prompt file is empty: " ++ p.toText)⟩ else withoutModels

def main (d : Desk) (args : List Text) : Except Fault Reply := do
  match commands.parse args with
  | .error s => return ⟨[], [], .code s.code⟩
  | .ok (command, values) =>
    let api ← d.api.need
    let value (name : Text) : Text := (values.last? name).getD []
    match String.ofList command with
    | "modules" => return ⟨← modules api, [], .code 0⟩
    | "funcs" =>
      let names ← actions api (value "module")
      if names.isEmpty then return .warning ["no such module (or empty): " ++ value "module"] 2
      return ⟨names, [], .code 0⟩
    | "doc" =>
      match ← resolve api (value "module") (value "func") with
      | some f => return ⟨[← page (d.root.child "out/docs") d.files f], [], .code 0⟩
      | none => return .warning ["not found: " ++ value "module" ++ "." ++ value "func"] 2
    | "agent" => return agent d (values.last? "--prompt-file")
    | "ui-demo" => return demonstration (d.colored && !values.has "--no-color")
    | _ => return withoutModels

end BlockScript.Assistant
