import BlockScript.Text.Basic

/-!
# Quotes and brackets

Arguments, assignments and blocks are told apart by the characters that stand outside quotes and brackets. A
`Nesting` is what a reader remembers of the characters before: the quote it is in, whether the next character is
escaped, and how many brackets of each kind are open. A closing bracket without an opening one is passed over.
-/

namespace BlockScript

structure Nesting where
  quote : Option Char
  escaped : Bool
  paren : Nat
  brace : Nat
  bracket : Nat
deriving DecidableEq

namespace Nesting

def top : Nesting := ⟨none, false, 0, 0, 0⟩

/-- The reader is outside quotes and brackets, and the next character is not escaped. -/
def isTop (s : Nesting) : Bool :=
  !s.escaped && s.quote.isNone && s.paren == 0 && s.brace == 0 && s.bracket == 0

def isQuote (c : Char) : Bool := c == '"' || c == '\''

def read (s : Nesting) (c : Char) : Nesting :=
  if s.escaped then { s with escaped := false }
  else if c == '\\' then { s with escaped := true }
  else match s.quote with
    | some q => if c == q then { s with quote := none } else s
    | none =>
      if isQuote c then { s with quote := some c }
      else match c with
        | '(' => { s with paren := s.paren + 1 }
        | ')' => { s with paren := s.paren - 1 }
        | '\x7b' => { s with brace := s.brace + 1 }
        | '\x7d' => { s with brace := s.brace - 1 }
        | '[' => { s with bracket := s.bracket + 1 }
        | ']' => { s with bracket := s.bracket - 1 }
        | _ => s

def readAll (s : Nesting) (t : Text) : Nesting := t.foldl read s

end Nesting
namespace Text

/-- Cut where `sep` stands outside quotes and brackets. `part` is the part being read, last character first. -/
def splitTopFrom (sep : Char) (s : Nesting) (part : Text) : Text → List Text
  | [] => [part.reverse]
  | c :: rest =>
    if c == sep && s.isTop then part.reverse :: splitTopFrom sep (s.read c) [] rest
    else splitTopFrom sep (s.read c) (c :: part) rest

/-- The parts of a text between the separators that stand outside quotes and brackets: trimmed, and without
the empty ones. -/
def splitTop (sep : Char) (t : Text) : List Text :=
  ((splitTopFrom sep .top [] t).map trim).filter (!·.isEmpty)

/-- What stands before and behind the first `sep` outside quotes and brackets. `before` is what was read, last
character first. -/
def cutTopFrom? (sep : Char) (s : Nesting) (before : Text) : Text → Option (Text × Text)
  | [] => none
  | c :: rest =>
    if c == sep && s.isTop then some (before.reverse, rest)
    else cutTopFrom? sep (s.read c) (c :: before) rest

/-- What stands before and behind the first `sep` outside quotes and brackets. -/
def cutTop? (sep : Char) (t : Text) : Option (Text × Text) := cutTopFrom? sep .top [] t

variable (t : Text)

/-- The text is in quotes: it begins and ends with the same quote and has at least two characters. -/
def isQuoted : Bool :=
  2 ≤ t.length && ((t.head? == some '"' && t.getLast? == some '"')
    || (t.head? == some '\'' && t.getLast? == some '\''))

/-- The text begins and ends with the same quote, which may be one and the same character. -/
def isQuotedOrQuote : Bool :=
  (t.head? == some '"' && t.getLast? == some '"') || (t.head? == some '\'' && t.getLast? == some '\'')

def inner : Text := (t.drop 1).dropLast

def unquote : Text := if isQuoted t then inner t else t

end Text
end BlockScript
