import BlockScript.Number.Integer
import BlockScript.Table

/-!
# Command lines

A command line is a list of words. A grammar says which words are options, which of them take a value, and what the
other words stand for. A long option may be cut short as long as only one option starts that way, and after two dashes
no word is an option.

`Grammar.parse` ends with the values of the options and places, or early: with code 0 if help was asked for, and with
code 2 if the words do not fit the grammar.
-/

namespace BlockScript.CommandLine

inductive Takes where
  | help
  | nothing
  | text
  | whole
  | number
  | oneOf (words : List Text)
deriving DecidableEq

def Takes.accepts (value : Text) : Takes → Bool
  | .whole => value.toInt?.isSome
  | .number => (Text.toReal? value).isSome
  | .oneOf words => words.contains value
  | _ => true

/-- An option with its spellings. The first one is its name. -/
structure Choice where
  spellings : List Text
  takes : Takes
deriving DecidableEq

def Choice.name (c : Choice) : Text := c.spellings.headD []

inductive Extent where
  | one
  | atMostOne
  /-- All words from there on, options too. -/
  | rest
deriving DecidableEq

structure Place where
  name : Text
  extent : Extent
  takes : Takes
deriving DecidableEq

structure Grammar where
  options : List Choice
  places : List Place

abbrev Values := List (Text × Text)

namespace Values

def last? (vs : Values) (name : Text) : Option Text := (vs.reverse.find? (·.1 == name)).map (·.2)

def all (vs : Values) (name : Text) : List Text := vs.filterMap fun v => if v.1 == name then some v.2 else none

def has (vs : Values) (name : Text) : Bool := vs.any (·.1 == name)

end Values

inductive Stop where
  | help
  | misuse
deriving DecidableEq

def Stop.code : Stop → Nat
  | .help => 0
  | .misuse => 2

/-- A word, told apart by what it may stand for. -/
inductive Word where
  | dashes
  /-- A word for a place, or a value. -/
  | plain (t : Text)
  /-- An option in one of its spellings, with a value written in the same word. -/
  | option (choice : Choice) (spelling : Text) (value : Option Text) (t : Text)
  /-- A word that looks like an option and is none. -/
  | unknown (t : Text)

def Word.text : Word → Text
  | .dashes => "--"
  | .plain t => t
  | .option _ _ _ t => t
  | .unknown t => t

namespace Grammar

def help : Choice := ⟨texts ["-h", "--help"], .help⟩

def spellings (g : Grammar) : List (Text × Choice) :=
  (help :: g.options).flatMap fun c => c.spellings.map (·, c)

def cutValue (t : Text) : Text × Option Text :=
  match t.span (· != '=') with
  | (name, _ :: value) => (name, some value)
  | (name, []) => (name, none)

def abbreviated (g : Grammar) (t : Text) : List (Choice × Text × Option Text) :=
  if t.take 2 == ['-', '-'] then
    let (name, value) := cutValue t
    g.spellings.filterMap fun (s, c) => if s.startsWith name then some (c, s, value) else none
  else g.spellings.filterMap fun (s, c) =>
    if s == t.take 2 then some (c, s, some (t.drop 2))
    else if s.startsWith t then some (c, s, none) else none

def isNegative : Text → Bool
  | '-' :: t =>
    (!t.isEmpty && t.all isDecimal) ||
      (match (t.dropWhile isDecimal) with
        | '.' :: t => !t.isEmpty && t.all isDecimal
        | _ => false)
  | _ => false

/-- What a word may stand for, as long as no two dashes stood before it. -/
def word (g : Grammar) (t : Text) : Except Stop Word :=
  if t.head? != some '-' then .ok (.plain t)
  else match g.spellings.lookup t with
    | some c => .ok (.option c t none t)
    | none =>
      if t.length == 1 then .ok (.plain t)
      else
        let (name, value) := cutValue t
        match value.bind fun _ => g.spellings.lookup name with
        | some c => .ok (.option c name value t)
        | none =>
          match g.abbreviated t with
          | [(c, s, value)] => .ok (.option c s value t)
          | _ :: _ :: _ => .error .misuse
          | [] => .ok (if isNegative t || t.contains ' ' then .plain t else .unknown t)

def words (g : Grammar) : List Text → Except Stop (List Word)
  | [] => .ok []
  | t :: rest =>
    if t == "--" then .ok (.dashes :: rest.map .plain)
    else do return (← g.word t) :: (← g.words rest)

end Grammar

structure State where
  values : Values
  places : List Place
  /-- The words of the place that takes all that is left. -/
  rest : Option (List Text)
  extras : List Text

namespace State

def give (name : Text) (takes : Takes) (value : Text) (s : State) : Except Stop State :=
  if takes == .help then .error .help
  else if takes.accepts value then .ok { s with values := s.values ++ [(name, value)] }
  else .error .misuse

def dropDashes : List Word → List Word
  | .dashes :: ws => dropDashes ws
  | ws => ws

/-- Fill the open places as far as the words at the start allow. -/
def fill : List Place → List Word → State → Except Stop (State × List Word)
  | [], ws, s => .ok (s, ws)
  | p :: ps, ws, s =>
    match p.extent, dropDashes ws with
    | .rest, .plain _ :: _ =>
      .ok ({ s with rest := some (ws.map Word.text), places := [] }, [])
    | .one, .plain t :: more => do
      let s ← { s with places := ps }.give p.name p.takes t
      fill ps (dropDashes more) s
    | .atMostOne, .plain t :: more => do
      let s ← { s with places := ps }.give p.name p.takes t
      fill ps (dropDashes more) s
    | .atMostOne, more => fill ps more { s with places := ps }
    | _, _ => .ok (s, ws)

/-- The options in one word: short options without a value may be written in one. `tail` is what follows the first. -/
def bundle (g : Grammar) (c : Choice) (spelling : Text) : Text → Except Stop (List (Choice × Text))
  | [] => if c.takes == .nothing || c.takes == .help then .error .misuse else .ok [(c, [])]
  | x :: tail =>
    if c.takes == .nothing || c.takes == .help then
      if spelling.take 2 == ['-', '-'] then .error .misuse
      else match g.spellings.lookup ['-', x] with
        | none => .error .misuse
        | some next =>
          if tail.isEmpty then
            if next.takes == .nothing || next.takes == .help then .ok [(c, []), (next, [])] else .error .misuse
          else do return (c, []) :: (← bundle g next ['-', x] tail)
    else .ok [(c, x :: tail)]

def giveAll : List (Choice × Text) → State → Except Stop State
  | [], s => .ok s
  | (c, v) :: rest, s => do giveAll rest (← s.give c.name c.takes v)

/-- Take the word at the start, which looks like an option, with the value after it if it needs one. -/
def takeOption (g : Grammar) (s : State) : List Word → Except Stop (State × List Word)
  | .option c spelling (some value) _ :: ws => do return (← giveAll (← bundle g c spelling value) s, ws)
  | .option c _ none _ :: ws =>
    if c.takes == .nothing || c.takes == .help then do return (← s.give c.name c.takes [], ws)
    else match ws with
      | .plain v :: ws => do return (← s.give c.name c.takes v, ws)
      | _ => .error .misuse
  | w :: ws => .ok ({ s with extras := s.extras ++ [w.text] }, ws)
  | [] => .ok (s, [])

def isOption : Word → Bool
  | .option .. => true
  | .unknown _ => true
  | _ => false

/-- Take all words. Places are filled by the words between options, as many at a time as possible. -/
def takeAll (g : Grammar) : Nat → List Word → State → Except Stop State
  | 0, _, s => .ok s
  | fuel + 1, ws, s => do
    if !ws.any isOption then
      let (s, left) ← fill s.places ws s
      return { s with extras := s.extras ++ left.map Word.text }
    if (ws.head?.map isOption).getD false then
      let (s, ws) ← s.takeOption g ws
      takeAll g fuel ws s
    else
      let (s', left) ← fill s.places ws s
      if left.length < ws.length then takeAll g fuel left s'
      else
        let before := ws.takeWhile fun w => !isOption w
        let (s, ws) ← { s' with extras :=
          s'.extras ++ before.map Word.text }.takeOption g (ws.dropWhile fun w => !isOption w)
        takeAll g fuel ws s

end State
namespace Grammar

/-- What the words of a command stand for; words that fit nowhere are left over. -/
def parseSome (g : Grammar) (args : List Text) : Except Stop State := do
  let s ← State.takeAll g (2 * args.length + 2) (← g.words args) ⟨[], g.places, none, []⟩
  if s.places.all (·.extent == .atMostOne) then .ok s else .error .misuse

def parse (g : Grammar) (args : List Text) : Except Stop Values := do
  let s ← g.parseSome args
  if s.extras.isEmpty then .ok s.values else .error .misuse

end Grammar

abbrev Commands := List (Text × Grammar)

def Commands.parse (cs : Commands) (args : List Text) : Except Stop (Text × Values) := do
  let s ← Grammar.parseSome ⟨[], [⟨"command", .rest, .text⟩]⟩ args
  match s.rest with
  | some (name :: args) =>
    match cs.lookup name with
    | none => .error .misuse
    | some g =>
      let sub ← g.parseSome args
      if s.extras.isEmpty && sub.extras.isEmpty then .ok (name, sub.values) else .error .misuse
  | _ => .error .misuse

end BlockScript.CommandLine
