import BlockScript.Fault
import BlockScript.Json.Spelling

/-!
# The words of MLCT

The words of the language come from a document. It lists the handlers, the kinds of blocks; the variants of each
handler; and tables of words that the user may choose. A second document may add to it, and a third one gives the
constants.
-/

namespace BlockScript.Mlct
open Json (Fields obj)

structure Handler where
  customName : Json
  type : Json
  noVariants : Json

def Handler.toJson (h : Handler) : Json :=
  .obj [("customName", h.customName), ("type", h.type), ("noVariants", h.noVariants)]

structure Language where
  handlers : Table Handler
  /-- The chosen words of each table, with what they stand for. -/
  custom : Table (Table Text)
  env : Json
  variants : Table Fields

namespace Language

/-! ### The additional document -/

def overlay (fs more : Fields) : Fields := more.foldl (fun t f => t.set f.1 f.2) fs

def findNamed? (name : Json) : List Json → Except Fault (Option Nat)
  | [] => .ok none
  | v :: rest => do
    if (← v.get "name").same name then return some 0
    return (← findNamed? name rest).map (· + 1)

variable (f : Fields → Fields → Except Fault Fields)

/-- The record, that another one with the same name is merged into, changes as `f` says; a new one comes last. -/
def mergeOne (old : Json) (v : Json) : Except Fault Json := do
  let name ← v.get "name"
  if !name.isTruthy then return old
  let items ← old.loop
  match ← findNamed? name items with
  | none =>
    match old with
    | .arr xs => return .arr (xs ++ [v])
    | _ => .error .notARecord
  | some n =>
    let merged ← f (← ((items[n]?).getD .null).record) (← v.record)
    return .arr (items.set n (.obj merged))

def mergeInto (key : Text) (doc : Fields) (vs : List Json) : Except Fault Fields := do
  let mut doc := doc
  for v in vs do
    let name ← v.get "name"
    if name.isTruthy then
      let merged ← mergeOne f (← (obj doc).need key) v
      doc := doc.set key merged
  return doc

def mergeFields (old new : Fields) : Except Fault Fields := .ok (overlay old new)

def mergeValues (old new : Fields) : Except Fault Fields := do
  let values ← ((Table.get? "values" old).getD (.obj [])).record
  let more ← ((Table.get? "values" new).getD (.obj [])).record |>.mapError fun _ => .wrongKind
  return old.set "values" (.obj (overlay values more))

def listOf? (key : Text) (doc : Fields) : Option (List Json) :=
  match Table.get? key doc with
  | some (.arr xs) => some xs
  | _ => none

def mergeVariants (doc : Fields) : Fields → Except Fault Fields
  | [] => .ok doc
  | (key, values) :: rest => do
    match values with
    | .arr vs =>
      if key == "HANDLERS" || key == "CUSTOM" then mergeVariants doc rest
      else
        let doc := if (listOf? key doc).isSome then doc else doc.set key (.arr [])
        mergeVariants (← mergeInto mergeFields key doc vs) rest
    | _ => mergeVariants doc rest

def merge (doc more : Fields) : Except Fault Fields := do
  let doc ← mergeInto mergeFields "HANDLERS" doc ((listOf? "HANDLERS" more).getD [])
  let doc ← mergeInto mergeValues "CUSTOM" doc ((listOf? "CUSTOM" more).getD [])
  mergeVariants doc more

/-! ### The parts -/

def nameOf : Json → Except Fault Text
  | .arr _ => .error .wrongKind
  | .obj _ => .error .wrongKind
  | v => .ok v.spell

def readHandler (v : Json) : Except Fault (Text × Handler) := do
  let noVariants ← v.getOr "noVariants" (.bool false)
  let customName ← v.need "customName"
  let type ← v.need "type"
  return (← nameOf (← v.need "name"), ⟨customName, type, noVariants⟩)

def take (key : Text) : Json → Except Fault (Json × Fields)
  | .obj fs =>
    match Table.get? key fs with
    | some v => .ok (v, Table.remove key fs)
    | none => .error (.missingField key)
  | .arr _ => .error .wrongKind
  | _ => .error .notARecord

def readCustom (v : Json) : Except Fault (Text × Table Text) := do
  let (name, fs) ← take "name" v
  let values ← (← (obj fs).need "values").record
  let words : Table Text ← values.foldlM (fun (t : Table Text) f => do return t.set (← nameOf f.2) f.1) []
  return (← nameOf name, words)

def readVariant (handler : Text) : Json → Except Fault (Text × Fields)
  | .obj fs => do
    let (name, fs) ← take "name" (.obj (Table.set "handler" (.str handler) fs))
    return (← nameOf name, fs)
  | _ => .error .wrongKind

def variantHandlers : List Text := texts
  ["PLAYER_EVENT", "PLAYER_ACTION", "GAME_ACTION", "IF_GAME", "IF_VARIABLE", "IF_ENTITY", "IF_PLAYER"]

def readAll {α : Type} (read : Json → Except Fault (Text × α)) (vs : List Json) (t : Table α) :
    Except Fault (Table α) :=
  vs.foldlM (fun t v => do
    let (k, x) ← read v
    return t.set k x) t

def ofDocuments (doc : Json) (extra : Option Json) (env : Except Fault Json) : Except Fault Language := do
  let doc ← match extra with
    | none => pure doc
    | some e => do
      let more ← e.record
      match doc with
      | .obj fs => pure (obj (← merge fs more))
      | _ => .error .wrongKind
  let handlers ← readAll readHandler (← (← doc.need "HANDLERS").loop) []
  let custom ← readAll readCustom (← (← doc.need "CUSTOM").loop) []
  let env ← env
  let variants ← variantHandlers.foldlM (fun t h => do
    readAll (readVariant h) (← (← doc.need h).loop) t) []
  return ⟨handlers, custom, env, variants⟩

/-! ### Looking up -/

variable (l : Language)

def wordsOf (section_ : Text) : Except Fault (Table Text) :=
  match l.custom.get? section_ with
  | some t => .ok t
  | none => .error (.missingField section_)

def word (section_ w : Text) : Except Fault Text := do
  match (← l.wordsOf section_).get? w with
  | some t => .ok t
  | none => .error (.missingField w)

def handler? (customName : Text) : Option (Text × Handler) :=
  l.handlers.find? fun e => e.2.customName.same (.str customName)

def variantIn? (handler name : Json) : Table Fields → Except Fault (Option (Text × Fields))
  | [] => .ok none
  | (k, fs) :: rest => do
    let customName ← (obj fs).need "customName"
    let h ← (obj fs).need "handler"
    if customName.same name && handler.same h then return some (k, fs)
    variantIn? handler name rest

def variant (name : Text) : Except Fault Fields :=
  match l.variants.get? name with
  | some fs => .ok fs
  | none => .error (.missingField name)

/-- The arguments of a variant as the parser finds them: its own, or those of the first variant called like its
parent. -/
def argumentsCalled (fs : Fields) : Except Fault Json := do
  if fs.has "args" then (obj fs).need "args"
  else if fs.has "parent" then
    let parent := obj (← l.variant (← nameOf (← (obj fs).need "parent")))
    match ← variantIn? (← parent.need "handler") (← parent.need "customName") l.variants with
    | some (_, fs) => (obj fs).need "args"
    | none => .error (.missingField "args")
  else return .obj []

/-- The arguments of a variant by its name: its own, or those of its parent. -/
def argumentsOf (name : Text) : Except Fault Json := do
  let fs ← l.variant name
  if fs.has "args" then (obj fs).need "args"
  else if fs.has "parent" then
    (obj (← l.variant (← nameOf (← (obj fs).need "parent")))).need "args"
  else return .obj []

def argumentNames (args : Json) : Except Fault (Table Text) := do
  (← args.record).foldlM (fun t (name, v) => do
    let t : Table Text := t.set name name
    if ← v.mentions "aliases" then
      (← (← v.need "aliases").loop).foldlM (fun (t : Table Text) a => do return t.set (← nameOf a) name) t
    else return t) []

/-! ### Listing -/

def pairs {α : Type} (f : α → Json) (t : Table α) : Json := .arr (t.map fun e => .arr [.str e.1, f e.2])

/-- The parts of the language, with all tables as lists of pairs. -/
def fields : Fields :=
  [("handlers", pairs Handler.toJson l.handlers), ("custom", pairs (pairs Json.str) l.custom),
   ("env", match l.env with
     | .obj fs => pairs id fs
     | v => v),
   ("variants", pairs obj l.variants)]

def listPart (name : Text) (v : Json) : Text := "Language param \"" ++ name ++ ": " ++ v.shown ++ "\""

def listing : List Text :=
  [listPart "handlers" (.obj (l.handlers.map fun e => (e.1, e.2.toJson))),
   listPart "variants" (.obj (l.variants.map fun e => (e.1, .obj e.2))),
   listPart "customs" (.obj (l.custom.map fun e => (e.1, .obj (e.2.map fun w => (w.1, .str w.2))))),
   listPart "env" l.env]

end Language
end BlockScript.Mlct
