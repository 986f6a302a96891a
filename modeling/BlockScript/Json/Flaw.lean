import BlockScript.Json.Reader

/-!
# Why a text is not a document

A text that is not a JSON document has a first place at which it goes wrong. `Flaw.find?` reads the text as far as
possible and tells the place, by line and column, and what should stand there.
-/

namespace BlockScript.Json

inductive FlawKind where
  | mark
  | value
  | name
  | colon
  | comma
  | extra
  | openText
  | control
  | escape
  | unit
deriving DecidableEq

def FlawKind.message : FlawKind → Text
  | .mark => "Unexpected UTF-8 BOM (decode using utf-8-sig)"
  | .value => "Expecting value"
  | .name => "Expecting property name enclosed in double quotes"
  | .colon => "Expecting ':' delimiter"
  | .comma => "Expecting ',' delimiter"
  | .extra => "Extra data"
  | .openText => "Unterminated string starting at"
  | .control => "Invalid control character at"
  | .escape => "Invalid \\escape"
  | .unit => "Invalid \\uXXXX escape"

/-- What is wrong, and how many characters are left from the place on. -/
structure Flaw where
  kind : FlawKind
  left : Nat

namespace Flaw

def here {α : Type} (kind : FlawKind) (rest : Text) : Except Flaw α := .error ⟨kind, rest.length⟩

/-- What is left after a unit of four digits. `left` tells the place of the backslash and the letter before it. -/
def afterUnit (left : Nat) (rest : Text) : Except Flaw Text :=
  if rest.length ≤ 4 || !(rest.take 4).all fun c => (hexDigit? c).isSome then .error ⟨.unit, left⟩
  else .ok (rest.drop 4)

/-- What is left after a text, from behind its first quote on. `start` tells the place of that quote. -/
def afterText (start : Nat) : Nat → Text → Except Flaw Text
  | 0, _ => .error ⟨.openText, start⟩
  | _, [] => .error ⟨.openText, start⟩
  | fuel + 1, c :: rest =>
    if c == '"' then .ok rest
    else if c == '\\' then
      match rest with
      | [] => .error ⟨.openText, start⟩
      | 'u' :: digits => do afterText start fuel (← afterUnit rest.length digits)
      | e :: more => if (escapeChar? e).isSome then afterText start fuel more else here .escape (c :: rest)
    else if c.toNat < 32 then here .control (c :: rest)
    else afterText start fuel rest

/-- What is left after a number or a word; nothing else may stand where a value is expected. -/
def afterScalar (t : Text) : Except Flaw Text :=
  match readScalar? t with
  | some (_, rest) => .ok rest
  | none => here .value t

mutual

def afterValue : Nat → Text → Except Flaw Text
  | 0, t => here .value t
  | fuel + 1, t =>
    match t with
    | '"' :: rest => afterText t.length (rest.length + 1) rest
    | '[' :: rest =>
      match dropGaps rest with
      | ']' :: rest => .ok rest
      | rest => afterItems fuel rest
    | '\x7b' :: rest =>
      match dropGaps rest with
      | '\x7d' :: rest => .ok rest
      | rest => afterFields fuel rest
    | t => afterScalar t

def afterItems : Nat → Text → Except Flaw Text
  | 0, t => here .value t
  | fuel + 1, t => do
    match dropGaps (← afterValue fuel t) with
    | ']' :: rest => return rest
    | ',' :: rest => afterItems fuel (dropGaps rest)
    | rest => here .comma rest

def afterFields : Nat → Text → Except Flaw Text
  | 0, t => here .name t
  | fuel + 1, t =>
    match t with
    | '"' :: rest => do
      match dropGaps (← afterText t.length (rest.length + 1) rest) with
      | ':' :: rest =>
        match dropGaps (← afterValue fuel (dropGaps rest)) with
        | '\x7d' :: rest => return rest
        | ',' :: rest => afterFields fuel (dropGaps rest)
        | rest => here .comma rest
      | rest => here .colon rest
    | t => here .name t

end

def afterDocument (t : Text) : Except Flaw Unit := do
  if t.head? == some '\ufeff' then here .mark t
  match dropGaps (← afterValue (2 * t.length + 2) (dropGaps t)) with
  | [] => return ()
  | rest => here .extra rest

def find? (t : Text) : Option Flaw :=
  match afterDocument t with
  | .ok () => none
  | .error f => some f

def message (t : Text) (f : Flaw) : Text :=
  let before := t.take (t.length - f.left)
  let line := before.count '\n' + 1
  let column := (before.reverse.takeWhile (· != '\n')).length + 1
  f.kind.message ++ ": line " ++ Text.ofNat line ++ " column " ++ Text.ofNat column ++ " (char "
    ++ Text.ofNat before.length ++ ")"

end Flaw
end BlockScript.Json
