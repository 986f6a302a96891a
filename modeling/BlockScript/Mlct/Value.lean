import BlockScript.Mlct.Language
import BlockScript.Mlct.Report
import BlockScript.Mlct.Token
import BlockScript.Text.Case

/-!
# Values

An argument of a block is a value: a token, under a shell that says how to take it. A shell is a word of the language
before the token.
-/

namespace BlockScript.Mlct

inductive ValueKind where
  | string
  | component
  | array
  | number
  | location
  | variableName
  | item
  | gameValue
  | potion
  | particle
deriving DecidableEq

def ValueKind.title : ValueKind → Text
  | .string => "STRING"
  | .component => "TEXT_COMPONENT"
  | .array => "ARRAY"
  | .number => "NUMBER"
  | .location => "LOCATION"
  | .variableName => "VARIABLE"
  | .item => "ITEM"
  | .gameValue => "GAME_VALUE"
  | .potion => "POTION"
  | .particle => "PARTICLE"

structure Value where
  kind : ValueKind
  content : Json
  /-- The variable outlives the world's restart. -/
  saved : Bool := false

def Value.shown (v : Value) : Text := "Value(" ++ v.kind.title ++ ": '" ++ v.content.spell ++ "')"

/-- The place of a value. It stays empty if the token makes no value under its shell; asking for the value then
fails. -/
abbrev Slot := Option Value

namespace Slot

def need : Slot → Except Fault Value
  | some v => .ok v
  | none => .error .notARecord

def shown (s : Slot) : Except Fault Text := do return (← s.need).shown

end Slot
namespace Value

/-- Colour codes are written with the section sign. -/
def colored (t : Text) : Text := Text.replaceChar '&' '§' ("&r" ++ t)

def textOf : Json → Except Fault Text := Json.textOr .wrongKind

def wordsOf (v : Json) : Except Fault (List Text) := do return Text.splitChar ' ' (← v.textOr .notARecord)

variable (l : Language)

/-- What a word of the user stands for in a table. -/
def meaning (section_ : Text) (word : Json) : Work Text := do
  match (← Work.ofExcept (l.wordsOf section_)).find? fun e => word.same (.str e.1) with
  | some e => return e.2
  | none => throw (.exit (some ("Неизвестная оболочка " ++ (← Work.ofExcept (textOf word)))))

def ofString (shell content : Json) : Work Value := do
  if shell.isNull then return ⟨.string, .str (colored (← Work.ofExcept (textOf content))), false⟩
  let shell ← meaning l "TEXT_SHELLS" shell
  if shell == "TEXT_COMPONENT" then
    return ⟨.component, .str (colored (← Work.ofExcept (textOf content))), false⟩
  return ⟨.string, content, false⟩

/-- A coordinate, with two decimal places or more. -/
def coordinate (t : Text) : Except Fault Text :=
  match Text.toReal? t with
  | none => .error .notANumber
  | some x =>
    let shown := (x.toPlaces 2).render
    match Text.splitChar '.' shown with
    | _ :: places :: _ => .ok (shown ++ List.replicate (2 - places.length) '0')
    | _ => .error .outOfRange

variable (content : Json)

def location : Except Fault Text := do
  let given ← (← wordsOf content).take 5 |>.mapM coordinate
  return Text.joinWith " " (given ++ List.replicate (5 - given.length) "0.00".toList)

def integer (t : Text) : Except Fault Text :=
  match t.toInt? with
  | some n => .ok (Text.ofInt n)
  | none => .error .notANumber

/-- The count and the state after the name of an item or an effect. `missing` stands for both. -/
def counts (missing : Text) : List Text → Except Fault Text
  | [] => .ok missing
  | [n] => do return " " ++ (← integer n) ++ " 0"
  | n :: m :: _ => do return " " ++ (← integer n) ++ " " ++ (← integer m)

def isWord (t : Text) : Bool := !t.isEmpty && t.all isLetter

def item : Except Fault Text := do
  match ← wordsOf content with
  | [] => return "air 0 0"
  | name :: more =>
    if isWord (Text.without '_' name) then return name.lower ++ (← counts " 1 0" more)
    else return "air 0 0"

def potion : Work Text := do
  match ← Work.ofExcept (wordsOf content) with
  | [] => throw (.exit none)
  | name :: more =>
    if isWord name then
      let name ← meaning l "POTION_EFFECTS" (.str name)
      return name ++ (← Work.ofExcept (counts " 60 0" more))
    else throw (.exit none)

/-- A saved array is marked at the end of its name. -/
def savedArray : Json → Except Fault Json
  | .str t => .ok (.str (t ++ " ⎘"))
  | .arr xs => .ok (.arr (xs ++ [.str " ", .str "⎘"]))
  | _ => .error .wrongKind

def ofName (shell content : Json) : Work Slot := do
  if shell.isNull then return some ⟨.variableName, content, false⟩
  match String.ofList (← meaning l "VARIABLE_SHELLS" shell) with
  | "SAVED_VARIABLE" => return some ⟨.variableName, content, true⟩
  | "ARRAY" => return some ⟨.array, content, false⟩
  | "SAVED_ARRAY" => return some ⟨.array, ← Work.ofExcept (savedArray content), false⟩
  | "LOCATION" => return some ⟨.location, .str (← Work.ofExcept (location content)), false⟩
  | "ITEM" => return some ⟨.item, .str (← Work.ofExcept (item content)), false⟩
  | "GAME_VALUE" => return some ⟨.gameValue, .str (← meaning l "GAME_VALUES" content), false⟩
  | "PARTICLE" => return some ⟨.particle, .str (← meaning l "PARTICLES" content), false⟩
  | "POTION" => return some ⟨.potion, .str (← potion l content), false⟩
  | _ => return none

def allowsText : Json → Except Fault Bool
  | .null => .ok true
  | .arr _ => .error .wrongKind
  | .obj _ => .error .wrongKind
  | shell => do return (← l.wordsOf "TEXT_SHELLS").any fun e => shell.same (.str e.1)

def ofToken (shell : Json) (kind : Option TokenKind) (content : Json) : Work Slot := do
  match kind with
  | some .text =>
    if ← Work.ofExcept (allowsText l shell) then return some (← ofString l shell content)
    else return none
  | some .number => return some ⟨.number, content, false⟩
  | some .name => ofName l shell content
  | _ => return none

def toJson (v : Value) : Json :=
  let saved : Json.Fields := if v.saved then [("saved", .bool true)] else []
  .obj (("type".toList, .str "value") :: ("valueType".toList, .str v.kind.title) ::
    ("value".toList, v.content) :: saved)

end Value

def constantOf (l : Language) (v : Json) : Work (List Slot) := do
  let objects := match v with
    | .arr xs => xs
    | v => [v]
  objects.mapM fun o => do
    let title ← Work.ofExcept (do (← o.need "token").textOr .wrongKind)
    let some kind := TokenKind.ofTitle? title | throw (.fault .notARecord)
    let content ← Work.ofExcept (o.need "value")
    Value.ofToken l (← Work.ofExcept (o.need "shell")) (some kind) content

def constants (l : Language) : Work (Table (List Slot)) := do
  (← Work.ofExcept l.env.record).foldlM (fun (t : Table (List Slot)) f => do
    return t.set f.1 (← constantOf l f.2)) []

end BlockScript.Mlct
