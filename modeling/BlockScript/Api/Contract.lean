import BlockScript.Api.Build

/-!
# What a library has to hold

The compiler relies on selections with conditions, and on a note at every action that says where its parameters come
from. A library without them is refused.
-/

namespace BlockScript.Api

inductive Violation where
  | data (f : Fault)
  | noSelections
  | missingSelections
  /-- Actions lack the note on their parameters. -/
  | badNotes (notes : List Text)

def Violation.message : Violation → Text
  | .data _ => []
  | .noSelections => "api_aliases contract violation: module `select` must exist and be non-empty. "
      ++ "Rebuild via `python tools/build_api_aliases.py` from fresh actions_catalog."
  | .missingSelections => "api_aliases contract violation: canonical select domains are incomplete. "
      ++ "Expected keys with prefixes `ifplayer_`, `ifmob_`, `ifentity_`."
  | .badNotes notes =>
    let more : Text := if 8 < notes.length then "..." else []
    "api_aliases contract violation: each action must carry meta.paramSource in \x7braw, normalized\x7d. Sample: "
      ++ Text.joinWith "; " (notes.take 8) ++ more

def noteFault (path : Text) (spec : Json) : Except Fault (Option Text) :=
  match spec with
  | .obj fs =>
    match Table.get? "meta" fs with
    | some (.obj ms) =>
      let source := (Table.get? "paramSource" ms).getD .null
      match source with
      | .arr _ => .error .wrongKind
      | .obj _ => .error .wrongKind
      | .str t =>
        if t == "raw" || t == "normalized" then .ok none
        else .ok (some (path ++ ": invalid meta.paramSource=" ++ source.shown))
      | _ => .ok (some (path ++ ": invalid meta.paramSource=" ++ source.shown))
    | _ => .ok (some (path ++ ": missing meta"))
  | _ => .ok (some (path ++ ": missing spec object"))

def noteFaults (modules : Json.Fields) : Except Fault (List Text) := do
  let found ← modules.mapM fun (module, v) => do
    match v with
    | .obj fs => fs.filterMapM fun (name, spec) => noteFault (module ++ "." ++ name) spec
    | _ => return []
  return found.flatten

def ofData {α : Type} : Except Fault α → Except Violation α
  | .ok a => .ok a
  | .error f => .error (.data f)

def validate (api : Json) : Except Violation Unit := do
  let modules ← ofData api.record
  match Table.get? "select" modules with
  | some (.obj (f :: fs)) =>
    let has (lead : Text) : Bool := (f :: fs).any fun e => Text.startsWith e.1 lead
    if !(has "ifplayer_" && has "ifmob_" && has "ifentity_") then throw .missingSelections
  | _ => throw .noSelections
  let notes ← ofData (noteFaults modules)
  if !notes.isEmpty then throw (.badNotes notes)

/-- Enter the names of a document into a table of names. What is no table of names is passed over from the first entry
on that is no pair. -/
def addNames (table : Json.Fields) (document : Json) : Json.Fields :=
  match document with
  | .obj fs => fs.foldl (fun t f => t.set f.1 f.2) table
  | .arr xs => addPairs table xs
  | _ => table
where
  addPairs (table : Json.Fields) : List Json → Json.Fields
    | .arr [.str k, v] :: rest => addPairs (table.set k v) rest
    | .str [k, v] :: rest => addPairs (table.set [k] (.str [v])) rest
    | .obj [(k, _), (v, _)] :: rest => addPairs (table.set k (.str v)) rest
    | _ => table

/-- The library of a catalog. The tables of names are entered in order; `none` stands for one that is
missing or cannot be read. -/
def build (catalog : Json) (tables : List (Option Json)) : Except Violation Json := do
  let names := tables.foldl (fun t d => (d.map (addNames t)).getD t) []
  let api := (← ofData (ofCatalog catalog (.obj names))).toJson
  validate api
  return api

end BlockScript.Api
