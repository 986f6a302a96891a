import BlockScript.Text.Basic

/-!
# Tokens

A program in MLCT, the older language for worlds, is read as a list of tokens: words, numbers, texts, variables and
single characters, between a token for the start and a token for the end.
-/

namespace BlockScript.Mlct

inductive TokenKind where
  | word
  | number
  | text
  | name
  | openAngle
  | closeAngle
  | openParen
  | closeParen
  | openBrace
  | closeBrace
  | openSquare
  | closeSquare
  | dot
  | comma
  | semicolon
  | colon
  | equals
  | atSign
  | finish
  | start
deriving DecidableEq

namespace TokenKind

def titles : List (TokenKind × String) :=
  [(word, "CODE"), (number, "NUMBER"), (text, "STRING"), (name, "PLAIN_VARIABLE"), (openAngle, "OPEN_BRACE"),
   (closeAngle, "CLOSE_BRACE"), (openParen, "OPEN_PARENT"), (closeParen, "CLOSE_PARENT"),
   (openBrace, "OPEN_BRACKET"), (closeBrace, "CLOSE_BRACKET"), (openSquare, "OPEN_LIST"),
   (closeSquare, "CLOSE_LIST"), (dot, "DOT"), (comma, "COMMA"), (semicolon, "SEMICOLON"), (colon, "COLON"),
   (equals, "SET"), (atSign, "AT"), (finish, "EOF"), (start, "BOF")]

def title (k : TokenKind) : Text := ((titles.lookup k).getD "").toList

def ofTitle? (t : Text) : Option TokenKind := (titles.find? fun e => e.2.toList == t).map (·.1)

def ofChar? : Char → Option TokenKind
  | '<' => some .openAngle
  | '>' => some .closeAngle
  | '(' => some .openParen
  | ')' => some .closeParen
  | '\x7b' => some .openBrace
  | '\x7d' => some .closeBrace
  | '[' => some .openSquare
  | ']' => some .closeSquare
  | '.' => some .dot
  | ',' => some .comma
  | ';' => some .semicolon
  | ':' => some .colon
  | '=' => some .equals
  | '@' => some .atSign
  | _ => none

end TokenKind

structure Token where
  kind : TokenKind
  value : Text
deriving DecidableEq

namespace Token

def start : Token := ⟨.start, "BOF"⟩

def finish : Token := ⟨.finish, "EOF"⟩

def describe (kind value : Text) : Text := "Token(" ++ kind ++ ": '" ++ value ++ "')"

def shown (t : Token) : Text := describe t.kind.title t.value

end Token
end BlockScript.Mlct
