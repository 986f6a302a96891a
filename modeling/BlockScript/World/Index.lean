import BlockScript.Action.Spec
import BlockScript.Json.Spelling
import BlockScript.World.Spelling
import BlockScript.Text.Pattern

/-!
# Index of actions

The actions of a library by what may stand on a sign, in a menu or above a window, so that a placed block can be told
by its labels. An action is written under the most readable of its other names.
-/

namespace BlockScript.World

/-! ### Names -/

/-- Names that say nothing about an action, without blanks and underscores. -/
def genericNames : List Text := texts
  ["действия", "действие", "деиствия", "deystviya", "deystvie", "actions", "action", "module", "modul", "модуль",
   "переменная", "peremennaya", "сущностьпоусловию", "suschnostpousloviyu", "игрокпоусловию", "igrokpousloviyu",
   "мобпоусловию", "mobpousloviyu"]

/-- A name made up for an action without one. -/
def unnamedPattern : Pattern := .atStart ++ .word "unnamed_" ++ .many1 .digit ++ .atEnd

def isTelling (name : Text) : Bool :=
  let bare := (key name).filter fun c => c != ' ' && c != '_'
  !genericNames.contains bare && !unnamedPattern.fits name.trim

def isLetter (c : Char) : Bool := c.isAlpha || c == '_' || isCyrillic c

/-- An identifier with Latin or Cyrillic letters. A line feed at its end does not matter. -/
def identifierPattern : Pattern :=
  .atStart ++ .char isLetter ++ .many (.char fun c => isLetter c || c.isDigit) ++ .atEnd

def isSnake (t : Text) : Bool :=
  t.contains '_' && (Pattern.atStart ++ .many1 (.char fun c => c.isAlphanum || c == '_') ++ .atEnd).fits t

/-- The shortest of some names; of equally short ones the first by code points. -/
def shortest? (names : List Text) : Option Text :=
  (names.mergeSort fun a b => a.length < b.length || (a.length == b.length && Text.le a b)).head?

/-- The most readable of some names: a Cyrillic identifier, or a Latin one with underscores, or any identifier, or
anything. Names that say nothing are used only if there is no other. -/
def preferredOf? (names : List Text) : Option Text :=
  let filled := names.filter fun n => !n.allBlank
  let telling := filled.filter isTelling
  let known := if telling.isEmpty then filled else telling
  let idents := known.filter identifierPattern.fits
  shortest? (idents.filter fun n => n.any isCyrillic)
    <|> shortest? (idents.filter isSnake)
    <|> shortest? idents
    <|> shortest? known

def preferred? (spec : Spec) : Except Fault (Option Text) := do
  return preferredOf? ((← (← spec.get "aliases").asItems).filterMap Json.text?)

/-! ### The index -/

/-- An action of the library: its module, the name it is written under, its record, and its number. -/
structure Known where
  module : Text
  name : Text
  spec : Spec
  number : Nat

abbrev Index := Table (List Known)

namespace Index

def add (idx : Index) (k : Text) (a : Known) : Index := idx.set k ((idx.getD k []) ++ [a])

def tagged (kind : Text) (labels : List Text) : List Text := labels.map fun t => kind ++ t

def keysFor (spec : Spec) : Except Fault (List Text) := do
  let labels (k : Text) : List Text := ((spec.field? k).map fun v => keys v.spell).getD []
  let signs := labels "sign1"
  let both (kind : Text) (others : List Text) : List Text :=
    signs.flatMap fun s => tagged (kind ++ s ++ "|") others
  return tagged "s1:" signs ++ tagged "gui:" (labels "gui") ++ tagged "menu:" (labels "menu")
    ++ both "s12:" (labels "sign2") ++ both "s1gui:" (labels "gui") ++ both "s1menu:" (labels "menu")

def addAction (module : Text) (acc : Index × Nat) (entry : Text × Json) : Except Fault (Index × Nat) := do
  match entry with
  | (func, .obj fs) =>
    let a : Known := ⟨module, (← preferred? (.obj fs)).getD func, .obj fs, acc.2⟩
    return ((← keysFor (.obj fs)).foldl (fun idx k => idx.add k a) acc.1, acc.2 + 1)
  | _ => return acc

def ofApi (api : Api) : Except Fault Index := do
  match api with
  | .obj modules =>
    let (idx, _) ← modules.foldlM (fun acc (name, funcs) =>
      match funcs with
      | .obj fs => fs.foldlM (addAction name) acc
      | _ => .ok acc) (([] : Index), 0)
    return idx
  | _ => .error .notARecord

def find (idx : Index) (ks : List Text) : List Known :=
  (ks.flatMap fun k => idx.getD k []).foldl (fun seen a =>
    if seen.any fun b => b.number == a.number then seen else seen ++ [a]) []

end Index
end BlockScript.World
