import BlockScript.Json.Spelling
import BlockScript.Label
import BlockScript.Script.Error
import BlockScript.Text.Nesting
import BlockScript.Text.Similarity

/-!
# Choices

Some items of an action's window are switches: a click goes to the next option. A choice is written by an option's
label and compiled to a number of clicks. The label is compared up to case, spacing and some marks; a few words for
separators are understood, and a label that is nearly right is corrected with a warning.
-/

namespace BlockScript.Choice

abbrev Options := Table Json

/-- Drop closing square brackets, and a mark that stands before empty braces and angle brackets with them. -/
def dropMarks : Text → Text
  | [] => []
  | c :: '\x7b' :: '\x7d' :: '<' :: '>' :: rest =>
    if (".,:;()\\[" : Text).contains c then dropMarks rest
    else if c == ']' then dropMarks ('\x7b' :: '\x7d' :: '<' :: '>' :: rest)
    else c :: dropMarks ('\x7b' :: '\x7d' :: '<' :: '>' :: rest)
  | c :: rest => if c == ']' then dropMarks rest else c :: dropMarks rest

/-- A character that does not matter when labels are compared. -/
def isNoise (c : Char) : Bool :=
  isBlank c || c == '_' || c == '\\' || c == '-' || c == '"' || c == '\'' || c == '`'

/-- The form in which labels are compared. -/
def key (t : Text) : Text :=
  let folded := Text.replaceChar 'ё' 'е' (Text.fold (Label.display t))
  dropMarks (folded.filter fun c => !isNoise c)

def clicks? : Json → Option Json
  | .null => none
  | v => some v

variable (opts : Options)

def holding? (parts : List String) : Option Json :=
  let parts := (texts parts).map key
  (opts.find? fun o => parts.all fun p => Text.hasInfix (key o.1) p).bind fun o => clicks? o.2

def firstHolding? (opts : Options) : List (List String) → Option Json
  | [] => none
  | parts :: rest =>
    match holding? opts parts with
    | some c => some c
    | none => firstHolding? opts rest

/-- The clicks of a separator named by a common word: a blank, a new line, or none. -/
def separator? (value : Text) : Option Json :=
  let k := key value
  if value == " " || (texts ["space", "пробел", "разделениепробелом"]).contains k then
    firstHolding? opts [["пробел"], ["space"]]
  else if value == "\\n" || value == "\n"
      || (texts ["newline", "line", "строка", "новаястрока", "разделениеновойстрокой"]).contains k then
    firstHolding? opts [["нов", "строк"], ["нов", "строч"], ["перенос", "строк"], ["newline"]]
  else if (texts ["", "none", "noseparator", "без", "безразделения"]).contains k then
    match firstHolding? opts [["без", "раздел"], ["no", "separator"]] with
    | some c => some c
    | none => if opts.isEmpty then none else some (.int 0)
  else none

def byKey : Table (Text × Json) :=
  Table.ofList (opts.map fun (label, c) => (key label, (label, c)))

open Script (Compile)

def corrected (name value label : Text) : Compile Unit :=
  Script.warn ("enum `" ++ name ++ "`: исправлено `" ++ value ++ "` -> `" ++ label ++ "`")

def closeEnough : Binary64 := Binary64.ofDecimal false 88 (-2)

def clearLead : Binary64 := Binary64.ofDecimal false 4 (-2)

def closest? (k : Text) (keyed : Table (Text × Json)) : Option (Text × Json) :=
  let scored := (keyed.map fun (nk, o) => (Similarity.ratio k nk, o)).mergeSort fun a b => !a.1.lt b.1
  match scored with
  | [] => none
  | (best, o) :: rest =>
    let second := match rest with
      | (r, _) :: _ => r
      | [] => Binary64.zero false
    if !best.lt closeEnough && !(best.sub second).lt clearLead then some o else none

def approximate? (name value k : Text) (keyed : Table (Text × Json)) : Compile (Option Json) := do
  if k.length < 4 then return none
  let hits := keyed.filter fun e => Text.hasInfix e.1 k
  if let [(_, label, c)] := hits then
    corrected name value label
    if let some c := clicks? c then return some c
  match closest? k keyed with
  | some (label, c) =>
    corrected name value label
    return clicks? c
  | none => return none

/-- The clicks of an option that is not written by its exact label. -/
def inexact? (name value : Text) (opts : Options) : Compile (Option Json) := do
  if let some c := separator? opts value then return some c
  let keyed := byKey opts
  let k := key value
  match (keyed.get? k).bind fun o => clicks? o.2 with
  | some c => return some c
  | none => approximate? name value k keyed

def clicksFor (name value : Text) (options : Json) : Compile Json := do
  let opts : Options := (options.fields?).getD []
  let found ← if opts.isEmpty then pure none
    else match opts.get? value with
      | some c => pure (clicks? c)
      | none => inexact? name value opts
  match found with
  | some c => return c
  | none =>
    match value.toInt? with
    | some n => return .int n
    | none => throw (.unknownChoice name value opts.names)

def clickCount : Json → Except Fault Int
  | .int n => .ok n
  | .bool b => .ok (if b then 1 else 0)
  | .real x =>
    match x.truncate? with
    | some n => .ok n
    | none => .error (if x == .nan then .notANumber else .tooLarge)
  | .str t =>
    match t.toInt? with
    | some n => .ok n
    | none => .error .notANumber
  | _ => .error .wrongKind

end BlockScript.Choice
