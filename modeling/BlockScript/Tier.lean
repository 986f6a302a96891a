import BlockScript.Json.Document
import BlockScript.Json.Spelling
import BlockScript.Label
import BlockScript.Text.Lines
import BlockScript.Text.Pattern

/-!
# Tiers

Some actions may only be used by players of a certain tier. Rules say which tiers may use the action with which number,
where an action's number is the place of its record in the catalog. `Tier.required` finds the actions that a source
calls by name and gives the highest tier among them.
-/

namespace BlockScript

inductive Tier where
  | player
  | gamer
  | skilled
  | expert
  | hero
  | king
  | legend
deriving DecidableEq

namespace Tier

def all : List Tier := [.player, .gamer, .skilled, .expert, .hero, .king, .legend]

def level : Tier → Nat
  | .player => 0
  | .gamer => 1
  | .skilled => 2
  | .expert => 3
  | .hero => 4
  | .king => 5
  | .legend => 6

def name : Tier → Text
  | .player => "player"
  | .gamer => "gamer"
  | .skilled => "skilled"
  | .expert => "expert"
  | .hero => "hero"
  | .king => "king"
  | .legend => "legend"

def max (a b : Tier) : Tier := if a.level < b.level then b else a

def highest (ts : List Tier) : Tier := ts.foldl max .player

variable (t : Text)

/-- The tier of a name in any case; two have a second name. -/
def ofName? : Option Tier :=
  let t := Text.lower t.trim
  let t : Text := if t == "игрок" then "player" else if t == "геймер" then "gamer" else t
  all.find? fun r => r.name == t

/-! ### Rules -/

def isLetter (c : Char) : Bool :=
  let d := looseChar c
  ('a' ≤ d && d ≤ 'z') || ('а' ≤ d && d ≤ 'я') || d == 'ё' || d == '_'

def headPattern : Pattern :=
  .group 1 (.many1 (.char isLetter)) ++ .blanks1 ++ .word "can" ++ .atEnd

/-- The numbers of actions with the tiers that may use them. -/
abbrev Rules := List (Nat × Tier)

def ruleNumber? (line : Text) : Option Nat :=
  if line.all isDecimal && line.length ≤ 5 then line.toInt?.map Int.toNat else none

/-- The rules of lines, where `tier` is the tier that the lines are about. -/
def rulesFrom (tier : Option Tier) : List Text → Rules
  | [] => []
  | line :: rest =>
    match headPattern.match? line with
    | some m => rulesFrom (ofName? (m.group 1)) rest
    | none =>
      match tier, ruleNumber? line with
      | some t, some n => (n, t) :: rulesFrom tier rest
      | _, _ => rulesFrom tier rest

def Rules.ofText : Rules :=
  rulesFrom none ((t.lines.map Text.trim).filter (!·.isEmpty))

variable (rules : Rules)

/-- The tier that an action needs, the highest that the rules name for it. -/
def Rules.tier? (n : Nat) : Option Tier :=
  match rules.filterMap fun r => if r.1 == n then some r.2 else none with
  | [] => none
  | ts => some (highest ts)

def Rules.numbers : List Nat := (keepFirst (rules.map (·.1))).mergeSort (· ≤ ·)

/-! ### Names of actions -/

/-- Drop colour codes, written with either of two signs. -/
def dropCodes : Text → Text
  | [] => []
  | [c] => [c]
  | c :: d :: rest =>
    if (c == '§' || c == '&') && "0123456789abcdefklmnor".toList.contains d then dropCodes rest
    else c :: dropCodes (d :: rest)

/-- Runs of underscores are one underscore, and there is none at the start and the end. -/
def tidy : Text := Text.joinWith "_" ((Text.splitChar '_' t).filter (!·.isEmpty))

/-- The form in which names of actions are compared: small letters, without colours and quotes, and with underscores
for all that is neither a letter nor a digit nor a point. -/
def key : Text :=
  let t := Label.dropControls (dropCodes t.lower)
  let t := t.filter fun c => !(['“', '”', '"', '\'', '`'].contains c)
  tidy (t.map fun c => if isWordChar c || c == '.' then c else '_')

/-- The key of an action in the catalog: its two signs and its window. -/
def recordKey (sign1 sign2 window : Text) : Text := Text.joinWith "|" [key sign1, key sign2, key window]

def spelled (v : Json) : Text := if v.isTruthy then v.spell else []

def fieldText (k : Text) (fs : Json.Fields) : Text := spelled ((Table.get? k fs).getD .null)

def catalogKey? : Json → Option Text
  | .obj fs =>
    let signs := match Table.get? "signs" fs with
      | some (.arr xs) => xs
      | _ => []
    let sign (n : Nat) : Text := ((signs[n]?).map Json.spell).getD []
    some (recordKey (sign 0) (sign 1) (fieldText "gui" fs))
  | _ => none

/-- The numbers of actions by their names, with and without the name of their module. -/
abbrev Numbers := Table Nat

def namesOf (name : Text) (action : Json.Fields) : List Text :=
  match Table.get? "aliases" action with
  | some (.arr xs) => name :: xs.map spelled
  | _ => [name]

def entriesFor (module : Text) (n : Nat) (raw : Text) : List (Text × Nat) :=
  let name := key raw
  if name.isEmpty then [] else if module.isEmpty then [(name, n)] else [(name, n), (module ++ "." ++ name, n)]

/-- The entries for the actions of a module whose records are in the catalog. -/
def moduleEntries (records : List (Text × Nat)) (module : Text) (actions : Json.Fields) : List (Text × Nat) :=
  actions.flatMap fun (name, action) =>
    match action with
    | .obj fs =>
      match records.lookup (recordKey (fieldText "sign1" fs) (fieldText "sign2" fs) (fieldText "gui" fs)) with
      | some n => (namesOf name fs).flatMap (entriesFor (key module) n)
      | none => []
    | _ => []

def entries (api : Json.Fields) (rows : List Json) : List (Text × Nat) :=
  let records := rows.zipIdx.filterMap fun (row, n) => (catalogKey? row).map (·, n)
  api.flatMap fun (module, actions) =>
    match actions with
    | .obj fs => moduleEntries records module fs
    | _ => []

/-- The table of entries. Of two entries for a name the later one counts. -/
def Numbers.ofEntries (es : List (Text × Nat)) : Numbers := es.foldl (fun t e => Table.set e.1 e.2 t) []

def numbers (api catalog : Json) : Except Fault Numbers := do
  let rows ← catalog.loop
  return .ofEntries (entries (← api.asFields) rows)

/-! ### Calls -/

/-- A line up to its comment. `before` is the character before, `quote` the quote that is open. -/
def codeFrom (before quote : Option Char) : Text → Text
  | [] => []
  | c :: rest =>
    if (c == '"' || c == '\'') && before != some '\\' then
      let quote := match quote with
        | none => some c
        | some q => if q == c then none else some q
      c :: codeFrom (some c) quote rest
    else if c == '#' && quote.isNone then []
    else c :: codeFrom (some c) quote rest

def code (line : Text) : Text := codeFrom none none line

def isNamePart (c : Char) : Bool := isLetter c || ('0' ≤ c && c ≤ '9')

def namePattern : Pattern := .char isLetter ++ .many (.char isNamePart)

def callPattern : Pattern :=
  .group 1 namePattern ++ .blanks ++ .lit "." ++ .blanks ++ .group 2 namePattern
    ++ .blanks ++ .lit "("

/-- The names under which one call may be known: with its module and without. -/
def callNames (module action : Text) : List Text :=
  let m := key module
  let a := key action
  if m.isEmpty || a.isEmpty then [] else [m ++ "." ++ a, a]

def calls (source : Text) : List Text :=
  let text := Text.joinLines (source.lines.map code)
  keepFirst ((callPattern.findAll text).flatMap fun m => callNames (m.group 1) (m.group 2))

/-! ### What a source needs -/

structure Requirement where
  tier : Tier
  /-- The numbers of the actions that the rules are about, in order. -/
  actions : List Nat
  /-- The calls of these actions, in order. -/
  names : List Text

def Requirement.toJson (r : Requirement) : Json :=
  .arr [.str r.tier.name, .int r.tier.level, .arr (r.actions.map fun n : Nat => .int n), .texts r.names]

def Requirement.none : Requirement := ⟨.player, [], []⟩

def Requirement.ofCalls (numbers : Numbers) (calls : List Text) : Requirement :=
  let found := calls.filterMap fun c => (numbers.get? c).map (c, ·)
  let ids := (keepFirst (found.map (·.2))).filter fun n => (rules.tier? n).isSome
  { tier := highest (ids.filterMap rules.tier?)
    actions := ids.mergeSort (· ≤ ·)
    names := Text.sort ((found.filter fun f => f.1.contains '.' && ids.contains f.2).map (·.1)) }

def required (rules : Option Text) (api catalog : Document) (source : Text) : Except Fault Requirement := do
  let rules := Rules.ofText (rules.getD [])
  if rules.isEmpty then return .none
  match api, catalog with
  | .missing, _ => return .none
  | _, .missing => return .none
  | api, catalog =>
    let api ← api.need
    let catalog ← catalog.need
    let rows : Json := match catalog with
      | .arr xs => .arr xs
      | _ => .arr []
    let known ← numbers api rows
    if known.isEmpty then return .none
    return .ofCalls rules known (calls source)

end Tier
end BlockScript
