import BlockScript.Fault

/-!
# The template for names

A table of all actions of the library by module and name, in which names can be edited. What was edited before is kept.
-/

namespace BlockScript.NameTemplate

def entry (name : Text) (spec : Json) : Except Fault Json.Fields := do
  return [("name", .str name), ("sign1", ← spec.get "sign1"), ("sign2", ← spec.get "sign2"), ("gui", ← spec.get "gui"),
    ("description", ← spec.get "description"), ("aliases", ← spec.getOr "aliases" (.arr []))]

def entries (api : Json) : Except Fault (Table Json.Fields) := do
  let modules ← api.record
  let found ← modules.mapM fun (module, v) => do
    (← v.record).mapM fun (name, spec) => do return (module ++ "." ++ name, ← entry name spec)
  return Table.ofList found.flatten

def edit (fields : Json.Fields) (edits : Json) : Except Fault Json.Fields :=
  match edits with
  | .obj fs => .ok (fs.foldl (fun t f => t.set f.1 f.2) fields)
  | .str [] => .ok fields
  | .arr [] => .ok fields
  | _ => .error .wrongKind

def ofApi (api : Json) (edited : Option Json) : Except Fault Json := do
  let mut table ← entries api
  if let some edits := edited then
    for (key, v) in ← edits.record do
      if let some fields := table.get? key then
        table := table.set key (← edit fields v)
  return .obj (table.map fun e => (e.1, .obj e.2))

end BlockScript.NameTemplate
