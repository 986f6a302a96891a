import BlockScript.Text.Identifier
import BlockScript.Formula.Syntax

/-!
# Tokens of the expression language

The lexer cuts a text into names, keywords, numbers, texts and operators. White space, comments, joined lines
and line ends inside brackets are passed over; a line end outside brackets is a token.
-/

namespace BlockScript.Formula

inductive Token where
  | name (t : Text)
  | keyword (t : Text)
  | int (n : Nat)
  | real (x : Binary64)
  | imaginary
  /-- A quoted text; `bytes` if it is marked as bytes. -/
  | quoted (bytes : Bool)
  | op (t : Text)
  | newline
deriving DecidableEq

namespace Token

def keywords : List Text := texts
  ["False", "None", "True", "and", "as", "assert", "async", "await", "break", "class", "continue",
   "def", "del", "elif", "else", "except", "finally", "for", "from", "global", "if", "import", "in",
   "is", "lambda", "nonlocal", "not", "or", "pass", "raise", "return", "try", "while", "with", "yield"]

/-- The operators, longer ones before their beginnings. -/
def operators : List Text := texts
  ["**=", "//=", ">>=", "<<=", "...", "==", "!=", "<=", ">=", "**", "//", "<<", ">>", ":=", "->",
   "+=", "-=", "*=", "/=", "%=", "&=", "|=", "^=", "@=",
   "+", "-", "*", "/", "%", "@", "&", "|", "^", "~", "<", ">", "(", ")", "[", "]", "\x7b", "\x7d",
   ",", ":", ".", ";", "="]

/-! ### Numbers -/

/-- Digits that may be parted by single underscores, starting with a digit. -/
def digitRun (isDigit : Char → Bool) : Text → Text × Text
  | [] => ([], [])
  | [c] => if isDigit c then ([c], []) else ([], [c])
  | c :: d :: rest =>
    if isDigit c then
      let (ds, after) := digitRun isDigit (d :: rest)
      (c :: ds, after)
    else if c == '_' && isDigit d then digitRun isDigit (d :: rest)
    else ([], c :: d :: rest)

def digits (isDigit : Char → Bool) (t : Text) : Text × Text :=
  match t with
  | c :: _ => if isDigit c then digitRun isDigit t else ([], t)
  | [] => ([], [])

def digitValue (c : Char) : Nat :=
  if c.isDigit then c.toNat - 48 else if 'a' ≤ c ∧ c ≤ 'f' then c.toNat - 87 else c.toNat - 55

def numberOf (base : Nat) (ds : Text) : Nat := ds.foldl (fun n c => n * base + digitValue c) 0

/-- The words that may follow a number without a blank. -/
def wordsAfterNumber : List Text := texts ["and", "else", "for", "if", "in", "is", "or", "not"]

variable (t : Text)

/-- A number ends here: what follows is no letter, unless it begins a word that may follow. -/
def endsNumber : Bool :=
  match t with
  | [] => true
  | c :: _ =>
    !(c.isAlphanum || c == '_' || 128 ≤ c.toNat) || wordsAfterNumber.any fun w => w.isPrefixOf t

/-- A number in base sixteen, eight or two, after its mark. -/
def basedNumber? (base : Nat) (t : Text) : Option (Token × Text) :=
  let isDigit (c : Char) := c.isAlphanum && digitValue c < base
    && (c.isDigit || ('a' ≤ c && c ≤ 'f') || ('A' ≤ c && c ≤ 'F'))
  let body := match t with
    | '_' :: rest => rest
    | t => t
  let (ds, after) := digits isDigit body
  if ds.isEmpty then none
  else match after with
    | c :: _ =>
      if c.isDigit || c == '_' then none
      else if endsNumber after then some (.int (numberOf base ds), after) else none
    | [] => some (.int (numberOf base ds), after)

def exponent? : Option (Int × Text) :=
  match t with
  | c :: rest =>
    if c == 'e' || c == 'E' then
      let (neg, body) := match rest with
        | '-' :: r => (true, r)
        | '+' :: r => (false, r)
        | r => (false, r)
      let (ds, after) := digits Char.isDigit body
      if ds.isEmpty then none
      else some (if neg then -(numberOf 10 ds : Int) else numberOf 10 ds, after)
    else none
  | [] => none

/-- A number with a point or an exponent, from the digits before and behind the point. -/
def realToken? (whole frac after : Text) : Option (Token × Text) :=
  let (e, after) := (exponent? after).getD (0, after)
  let x := Binary64.ofDecimal false (numberOf 10 (whole ++ frac)) (e - frac.length)
  match after with
  | c :: rest =>
    if c == 'j' || c == 'J' then if endsNumber rest then some (.imaginary, rest) else none
    else if c == '_' then none
    else if endsNumber after then some (.real x, after) else none
  | [] => some (.real x, [])

/-- A decimal number. A whole number has no leading zeros, unless it is zero, and at most 4300 digits. -/
def decimalNumber? : Option (Token × Text) :=
  let (whole, after) := digits Char.isDigit t
  match after with
  | '.' :: rest =>
    let (frac, after) := digits Char.isDigit rest
    if whole.isEmpty && frac.isEmpty then none else realToken? whole frac after
  | c :: rest =>
    if (exponent? after).isSome then realToken? whole [] after
    else if c == 'j' || c == 'J' then if endsNumber rest then some (.imaginary, rest) else none
    else if c == '_' then none
    else if !endsNumber after then none
    else wholeToken? whole after
  | [] => wholeToken? whole []
where
  wholeToken? (whole after : Text) : Option (Token × Text) :=
    if whole.head? == some '0' && !(whole.all (· == '0')) then none
    else if 4300 < whole.length then none
    else some (.int (numberOf 10 whole), after)

def number? : Option (Token × Text) :=
  match t with
  | '0' :: c :: rest =>
    if c == 'x' || c == 'X' then basedNumber? 16 rest
    else if c == 'o' || c == 'O' then basedNumber? 8 rest
    else if c == 'b' || c == 'B' then basedNumber? 2 rest
    else decimalNumber? t
  | t => decimalNumber? t

/-! ### Quoted texts -/

structure QuoteMark where
  raw : Bool
  bytes : Bool
  slots : Bool

/-- The mark before a quote, in any letter case and order. -/
def quoteMark? : Option QuoteMark :=
  let m := t.map Char.toLower
  if m.isEmpty || m == ['u'] then some ⟨false, false, false⟩
  else if m == ['r'] then some ⟨true, false, false⟩
  else if m == ['b'] then some ⟨false, true, false⟩
  else if m == ['f'] then some ⟨false, false, true⟩
  else if m == ['b', 'r'] || m == ['r', 'b'] then some ⟨true, true, false⟩
  else if m == ['f', 'r'] || m == ['r', 'f'] then some ⟨true, false, true⟩
  else none

def hexAhead (n : Nat) (t : Text) : Bool :=
  n ≤ t.length && (t.take n).all fun c => c.isDigit || ('a' ≤ c && c ≤ 'f') || ('A' ≤ c && c ≤ 'F')

def escapeOk (m : QuoteMark) (t : Text) : Bool :=
  match t with
  | 'x' :: rest => hexAhead 2 rest
  | 'u' :: rest => m.bytes || hexAhead 4 rest
  | 'U' :: rest => m.bytes || hexAhead 8 rest
  | _ => true

/-- The body of a quoted text up to its closing quotes: what follows them. The text's own characters are given
back for the slots in it. -/
def quotedBody? (m : QuoteMark) (close : Text) : Nat → Text → Text → Option (Text × Text)
  | 0, _, _ => none
  | fuel + 1, body, t =>
    if close.isPrefixOf t then some (body.reverse, t.drop close.length)
    else match t with
      | [] => none
      | ['\\'] => none
      | '\\' :: c :: rest =>
        if !m.raw && !escapeOk m (c :: rest) then none
        else if m.bytes && 128 ≤ c.toNat then none
        else quotedBody? m close fuel (c :: '\\' :: body) rest
      | c :: rest =>
        if c == '\n' && close.length == 1 then none
        else if m.bytes && 128 ≤ c.toNat then none
        else quotedBody? m close fuel (c :: body) rest

def slotsOk : Nat → Nat → Bool → Text → Bool
  | 0, _, _, _ => false
  | fuel + 1, depth, filled, t =>
    match t with
    | [] => depth == 0
    | '\x7b' :: '\x7b' :: rest => if depth == 0 then slotsOk fuel 0 false rest else slotsOk fuel (depth + 2) true rest
    | '\x7b' :: rest => slotsOk fuel (depth + 1) (depth != 0) rest
    | '\x7d' :: rest =>
      match depth, rest with
      | 0, '\x7d' :: rest => slotsOk fuel 0 false rest
      | 0, _ => false
      | d + 1, _ => filled && slotsOk fuel d true rest
    | c :: rest => slotsOk fuel depth (filled || (depth != 0 && !isBlank c)) rest

def quoted? (m : QuoteMark) (t : Text) : Option (Token × Text) :=
  match t with
  | q :: _ =>
    let close := if [q, q, q].isPrefixOf t then [q, q, q] else [q]
    match quotedBody? m close (t.length + 1) [] (t.drop close.length) with
    | none => none
    | some (body, after) =>
      if m.slots && !slotsOk (body.length + 1) 0 false body then none else some (.quoted m.bytes, after)
  | [] => none

/-! ### The lexer -/

/-- A character that may stand in a word, as far as the lexer looks. -/
def inWord (c : Char) : Bool := c.isAlphanum || c == '_' || 128 ≤ c.toNat

def word? : Option (Token × Text) :=
  let w := t.takeWhile inWord
  let after := t.dropWhile inWord
  match after, quoteMark? w with
  | '"' :: _, some m => quoted? m after
  | '\'' :: _, some m => quoted? m after
  | _, _ =>
    if !isIdentifier w then none
    else if keywords.contains w then some (.keyword w, after) else some (.name w, after)

def operator? : Option (Token × Text) :=
  (operators.find? fun o => o.isPrefixOf t).map fun o => (.op o, t.drop o.length)

def token? : Option (Token × Text) :=
  match t with
  | [] => none
  | c :: rest =>
    if c.isDigit || (c == '.' && (rest.head?.map Char.isDigit).getD false) then number? t
    else if c == '"' || c == '\'' then quoted? ⟨false, false, false⟩ t
    else if inWord c then word? t
    else operator? t

def closerOf? : Text → Option Text
  | ['('] => some [')']
  | ['['] => some [']']
  | ['\x7b'] => some ['\x7d']
  | _ => none

def isCloser : Bool := t == [')'] || t == [']'] || t == ['\x7d']

/-- The brackets that are open after a token, innermost first; none if a bracket closes the wrong one or
more than 200 are open. -/
def brackets? (opened : List Text) : Token → Option (List Text)
  | .op o =>
    match closerOf? o with
    | some c => if 200 ≤ opened.length then none else some (c :: opened)
    | none =>
      if isCloser o then
        match opened with
        | c :: rest => if c == o then some rest else none
        | [] => none
      else some opened
  | _ => some opened

/-- The tokens of a text. `fresh` says that the text stands at the start of a line outside brackets. -/
def lexFrom : Nat → List Text → Bool → Text → Option (List Token)
  | 0, _, _, _ => none
  | fuel + 1, opened, fresh, t =>
    match t with
    | [] => if opened.isEmpty then some [] else none
    | '\n' :: rest =>
      if !opened.isEmpty || fresh then lexFrom fuel opened fresh rest
      else (lexFrom fuel opened true rest).map (.newline :: ·)
    | '\\' :: '\n' :: rest => if rest.isEmpty then none else lexFrom fuel opened false rest
    | '#' :: rest => lexFrom fuel opened fresh (rest.dropWhile (· != '\n'))
    | c :: rest =>
      if c == ' ' || c == '\t' then
        -- a line outside brackets is not indented, unless it holds at most a comment
        let body := rest.dropWhile fun d => d == ' ' || d == '\t' || d == '\x0c'
        if fresh && !(body.head? == some '\n' || body.head? == some '#'
            || rest.contains '\x0c') then none
        else lexFrom fuel opened fresh rest
      else if c == '\x0c' then lexFrom fuel opened fresh rest
      else do
        let (tok, after) ← token? t
        let opened ← brackets? opened tok
        let more ← lexFrom fuel opened false after
        some (tok :: more)

/-- The tokens of a text; none if it has a character, number, text or bracket that is not well formed. -/
def lex : Option (List Token) :=
  if t.contains '\x00' then none
  else
    let t := t.map fun c => if c == '\r' then '\n' else c
    lexFrom (t.length + 2) [] true t

end Token
end BlockScript.Formula
