import BlockScript.Script.Palette

/-!
# Selectors

`select.player.ifplayer.name` names a selection: the last word is its name, and the words before say what kind of
thing is selected. A name is compared with everything a selection goes by; the name of a condition on players stands
for the selection by that condition.
-/

namespace BlockScript.Selector
open Script (Error)

/-! ### Names -/

def synonyms : Table Text := Table.ofStrings
  [("приседает", "kradetsya"), ("нашифте", "kradetsya"), ("шифт", "kradetsya"), ("sneak", "kradetsya"),
   ("sneaking", "kradetsya"), ("держит", "держит_предмет"), ("derzhit", "держит_предмет"),
   ("переменнаяравна", "значение_равно"), ("peremennayaravna", "znachenie_ravno"),
   ("сравнитьчислолегко", "сравнить_число_облегчённо"), ("sravnitchislolegko", "sravnit_chislo_oblegchenno")]

def shorthands : Table Text := Table.ofStrings
  [("allplayers", "vse_igroki"), ("allplayer", "vse_igroki"), ("allmobs", "vse_moby"),
   ("allentities", "vse_suschnosti"), ("randomplayer", "sluchaynyy_igrok"), ("randommob", "sluchaynyy_mob"),
   ("randentity", "sluchaynaya_suschnost"), ("randomentity", "sluchaynaya_suschnost"),
   ("defaultplayer", "igrok_po_umolchaniyu"), ("defaultentity", "suschnost_po_umolchaniyu")]

def target (leaf : Text) : Text :=
  let key := Label.tight leaf
  let key := synonyms.getD key key
  Label.tight (shorthands.getD key key)

/-! ### Domains -/

inductive Domain where
  | player
  | mob
  | entity
deriving DecidableEq

namespace Domain

/-- The second line of the sign of a selection by a condition, in the form in which it is compared. -/
def sign2 : Domain → Text
  | .player => "игрокпоусловию"
  | .mob => "мобпоусловию"
  | .entity => "сущностьпоусловию"

def hints : Domain → List Text
  | .player => texts ["player", "игрок"]
  | .mob => texts ["mob", "моб"]
  | .entity => texts ["entity", "существо", "сущность"]

def isHinted (d : Domain) (words : List Text) : Bool :=
  words.any fun w => d.hints.any fun h => Text.hasInfix (Label.tight w) h

/-- The domain that some words hint at; players come before mobs, and mobs before entities. -/
def ofHints? (words : List Text) : Option Domain := [player, mob, entity].find? (·.isHinted words)

end Domain

/-! ### Candidates -/

/-- An action goes by a name, in the form in which names are compared. -/
def goesBy (name : Text) (canon : Text) (spec : Spec) : Except Fault Bool := do
  let aliases ← (← spec.get "aliases").asItems
  let labels ← (texts ["menu", "gui", "sign2"]).mapM spec.get
  return (Json.str canon :: aliases ++ labels).any fun k => k.isTruthy && Label.tight k.spell == name

def named (name : Text) (specs : List (Text × Spec)) : Except Fault (List (Text × Spec)) :=
  specs.filterM fun (canon, spec) => goesBy name canon spec

def selectSign : Text := Label.key "Выбрать объект"

def records (mod : Json.Fields) : List (Text × Spec) :=
  mod.filter fun f => f.2.fields?.isSome

def isCandidate (palette : Palette) (domain : Option Domain) (spec : Spec) : Except Fault Bool := do
  if (← palette.signKey (← spec.sign1)) != selectSign then return false
  match domain with
  | some d => return Label.tight (← spec.getText "sign2") == d.sign2
  | none => return true

/-- The first of two fields that counts as something, as a record. -/
def moduleOf (api : Api) (keys : List Text) : Except Fault Json.Fields :=
  match keys with
  | [] => .ok []
  | k :: ks => do
    let mod ← api.get k
    if mod.isTruthy then mod.asFields else moduleOf api ks

def conditionName (api : Api) (name : Text) : Except Fault Text := do
  let conditions := records (← moduleOf api ["if_player"])
  match ← conditions.findM? fun (canon, spec) => goesBy name canon spec with
  | some (_, spec) => return Label.tight (← spec.menuName)
  | none => return []

/-- The selections that a name may mean: those that go by it or, if there are none, those that go by the menu name
of the condition of that name. -/
def hits (api : Api) (name : Text) (candidates : List (Text × Spec)) : Except Fault (List (Text × Spec)) := do
  let direct ← named name candidates
  if !direct.isEmpty then return direct
  let condition ← conditionName api name
  if condition.isEmpty then return [] else named condition candidates

/-- The selection that a chain of words names: its name in the library. -/
def find (api : Api) (palette : Palette) (chain : Text) : Except Error Text := do
  let mod ← ofData (moduleOf api ["select", "misc"])
  let words := (Text.splitChar '.' chain).filter (!·.isEmpty)
  match words.getLast? with
  | none => .error .emptySelector
  | some leaf =>
    let domain := Domain.ofHints? words.dropLast
    let candidates ← ofData ((records mod).filterM fun f => isCandidate palette domain f.2)
    match ← ofData (hits api (target leaf) candidates) with
    | [] => .error (.unknownSelector leaf chain)
    | [(canon, _)] => return canon
    | several =>
      let options ← ofData (several.mapM fun (canon, spec) => do
        return canon ++ ":" ++ Label.display (← spec.getText "menu"))
      .error (.ambiguousSelector leaf options)
where
  ofData {α : Type} (x : Except Fault α) : Except Error α := x.mapError .data

def isEntity (spec : Spec) : Except Fault Bool := do
  let labels ← (texts ["sign2", "gui", "menu"]).mapM fun key => do
    return Text.lower (Label.display (← spec.getText key))
  let all := Text.joinWith " " labels
  return !all.hasInfix "игрок" && (all.hasInfix "моб" || all.hasInfix "сущност")

end BlockScript.Selector
