import BlockScript.Label
import BlockScript.Json.Basic
import BlockScript.Text.Nesting
import BlockScript.Text.Pattern

/-!
# Game values

A game value, such as a player's health, is written by its location name or by the name it is shown under:
`gamevalue.CURRENT_HEALTH`, `gamevalue("Текущее здоровье")`. A table gives the location name for the key of a shown
name.
-/

namespace BlockScript

/-- Location names of game values by the keys of the names they are shown under. -/
abbrev GameValues := List (Text × Text)

namespace GameValues

/-- The table of a document; entries that are no texts are passed over. -/
def ofJson (doc : Json) : GameValues :=
  match doc.field? "byKey" with
  | some (.obj fs) => fs.filterMap fun (k, v) =>
    match v with
    | .str t => if t.isEmpty then none else some (k, t)
    | _ => none
  | _ => []

def heads : List Text := texts
  ["gamevalue", "gameval", "apple", "яблоко", "игровое_значение", "игровоезначение"]

/-- A letter of a word that introduces a game value. -/
def isHeadChar (c : Char) : Bool := c.isAlpha || c == '_' || isCyrillic c

def callPattern : Pattern :=
  .atStart ++ .group 1 (.many1 (.char isHeadChar)) ++ .blanks ++ .lit "("
    ++ .blanks ++ .group 2 (.many1Lazy .any) ++ .blanks ++ .lit ")"
    ++ .blanks ++ .atEnd

def memberPattern : Pattern :=
  .atStart ++ .group 1 (.many1 (.char isHeadChar)) ++ .lit "."
    ++ .group 2 (.many1 .any) ++ .atEnd

/-- The name that a text refers to as a game value. Of several members the last counts. -/
def nameIn? (t : Text) : Option Text :=
  match callPattern.match? t with
  | some m =>
    if heads.contains (Text.lower (m.group 1)) then
      let inner := Text.trim (m.group 2)
      some (if inner.isQuotedOrQuote then inner.inner else inner)
    else none
  | none =>
    match memberPattern.match? t with
    | some m =>
      if heads.contains (Text.lower (m.group 1)) then
        some (Text.trim ((Text.splitChar '.' (m.group 2)).getLastD []))
      else none
    | none => none

/-- A location name: capital letters, digits and underscores. -/
def isLocName (t : Text) : Bool :=
  !t.isEmpty && t.all fun c => ('A' ≤ c && c ≤ 'Z') || c.isDigit || c == '_'

/-- The location name of the game value that a text refers to. -/
def resolve? (values : GameValues) (t : Text) : Option Text :=
  match nameIn? t.trim with
  | none => none
  | some name => if isLocName name then some name else values.lookup (Label.key name)

def token? (values : GameValues) (t : Text) : Option Text :=
  (values.resolve? t).map fun loc => "apple(" ++ loc ++ ")"

end GameValues
end BlockScript
