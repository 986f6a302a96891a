import BlockScript.Json.Flaw
import BlockScript.Session

/-!
# Reports on the words of the language

Three short reports on the document that holds the words of MLCT. A document that does not have the expected shape ends
the report with a line that says why.
-/

namespace BlockScript.Mlct
namespace WordReport

/-- A report: lines, and perhaps the reason why it ends early. -/
abbrev Report := Run Text Unit

def kindName : Json → Text
  | .null => "NoneType"
  | .bool _ => "bool"
  | .int _ => "int"
  | .real _ => "float"
  | .str _ => "str"
  | .arr _ => "list"
  | .obj _ => "dict"

def lacks (operation : Text) (v : Json) : Text :=
  "'" ++ kindName v ++ "' object has no attribute '" ++ operation ++ "'"

def field (v : Json) (key : Text) (d : Json) : Run Text Json :=
  match v with
  | .obj fs => pure ((Table.get? key fs).getD d)
  | v => throw (lacks "get" v)

def items (v : Json) : Run Text (List Json) :=
  match v.loop with
  | .ok vs => pure vs
  | .error _ => throw ("'" ++ kindName v ++ "' object is not iterable")

def first (n : Nat) (v : Json) : Run Text (List Json) :=
  match v with
  | .obj _ => throw ("unhashable type: 'slice'" : Text)
  | v => do return (← items v).take n

def count (v : Json) : Run Text Nat :=
  match v.count with
  | .ok n => pure n
  | .error _ => throw ("object of type '" ++ kindName v ++ "' has no len()")

def fields (v : Json) : Run Text Json.Fields :=
  match v with
  | .obj fs => pure fs
  | v => throw (lacks "items" v)

def handlerLine (lead : Text) (h : Json) : Run Text Text := do
  return lead ++ "Name: " ++ (← field h "name" .null).spell ++ ", CustomName: "
    ++ (← field h "customName" .null).spell ++ ", Type: " ++ (← field h "type" .null).spell

def handlersOf (types : List Text) : List Json → Report
  | [] => return ()
  | h :: rest => do
    let type ← field h "type" .null
    if types.any fun t => type.same (.str t) then Run.say (← handlerLine "  " h)
    handlersOf types rest

def findTable? (name : Text) : List Json → Run Text (Option Json)
  | [] => return none
  | v :: rest => do
    if (← field v "name" .null).same (.str name) then return some v
    findTable? name rest

def rule : List Text := [[], List.replicate 50 '=', []]

def variantLines (n : Nat) : List Json → Report
  | [] => return ()
  | v :: rest => do
    Run.say (Text.ofNat n ++ ". Name: " ++ (← field v "name" .null).spell ++ ", CustomName: "
      ++ (← field v "customName" (.str "N/A")).spell)
    variantLines (n + 1) rest

def variants (doc : Json) (handler : Text) : Report := do
  Run.say ("Searching for " ++ handler ++ " variants...")
  let vs ← field doc handler (.arr [])
  Run.say ("Found " ++ Text.ofNat (← count vs) ++ " " ++ handler ++ " variants")
  variantLines 1 (← first 30 vs)

def words (table : Json) (n : Option Nat) : Report := do
  let fs ← fields (← field table "values" (.obj []))
  for f in (n.elim fs fs.take) do
    Run.say ("  " ++ f.1 ++ ": " ++ f.2.spell)

def handlersCalled (name : Text) : List Json → Report
  | [] => return ()
  | h :: rest => do
    if (← field h "customName" .null).same (.str name) then Run.say (← handlerLine "  FOUND: " h)
    handlersCalled name rest

def activators (doc : Json) : Report := do
  Run.say "HANDLERS:"
  let handlers ← field doc "HANDLERS" (.arr [])
  handlersCalled "ТестированиеУсловий" (← items handlers)
  ["", "CUSTOM CODE_NAMES:"].forM fun (l : String) => Run.say l.toList
  if (← findTable? "CODE_NAMES" (← items (← field doc "CUSTOM" (.arr [])))).isSome then Run.say "CODE_NAMES found"
  ["", "Looking for handlers with type 'activator' or 'event':"].forM fun (l : String) => Run.say l.toList
  handlersOf (texts ["activator", "event"]) (← first 20 handlers)

def conditions (doc : Json) : Report := do
  variants doc "IF_PLAYER"
  rule.forM Run.say
  Run.say "Searching for SELECT_OBJECT_PATH_VARIANTS..."
  match ← findTable? "SELECT_OBJECT_PATH_VARIANTS" (← items (← field doc "CUSTOM" (.arr []))) with
  | some t =>
    Run.say "Found SELECT_OBJECT_PATH_VARIANTS:"
    words t none
  | none => Run.say "SELECT_OBJECT_PATH_VARIANTS not found!"
  rule.forM Run.say
  Run.say "Searching for CODE_NAMES..."
  match ← findTable? "CODE_NAMES" (← items (← field doc "CUSTOM" (.arr []))) with
  | some t =>
    Run.say "Found CODE_NAMES with keys:"
    words t (some 20)
  | none => pure ()
  rule.forM Run.say
  Run.say "All HANDLERS:"
  handlersOf (texts ["activator", "condition", "action"]) (← items (← field doc "HANDLERS" (.arr [])))

def events (doc : Json) : Report := do
  variants doc "PLAYER_EVENT"
  rule.forM Run.say
  variants doc "GAME_ACTION"

def file : Text := "src/assets/LangTokens.json"

def document (w : Workspace) : Except Text Json :=
  match w.file? (.ofText file) with
  | some t =>
    let t := t.unifyLineEnds
    match Json.Flaw.find? t with
    | some f => .error (f.message t)
    | none => .ok ((Json.read? t).getD .null)
  | none =>
    if w.isFolder (.ofText file) then .error ("[Errno 21] Is a directory: '" ++ file ++ "'")
    else .error ("[Errno 2] No such file or directory: '" ++ file ++ "'")

/-- Print a report. A reason to end early is printed too, or given as a warning. -/
def print (warns : Bool) (report : Json → Report) : Act Unit := do
  let w ← Act.space
  let (result, printed) := (ExceptT.run (do report (← Run.ofExcept (document w)) : Report)).run []
  printed.forM Act.say
  match result with
  | .ok () => return ()
  | .error reason => (if warns then Act.warn else Act.say) ("Error: " ++ reason)

end WordReport
end BlockScript.Mlct
