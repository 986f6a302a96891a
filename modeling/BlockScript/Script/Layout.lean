import BlockScript.Script.Condition
import BlockScript.Script.Settings

/-!
# Layout of a script

Before a script is compiled line by line, calls written over several lines are joined, and blocks written on one line
are spread over several.
-/

namespace BlockScript.Layout
open Script (Compile Settings)

variable (line : Text)

def indent : Text := line.takeWhile fun c => c == ' ' || c == '\t'

def isIdle : Bool :=
  let t := line.trim
  t.isEmpty || t.head? == some '#'

/-! ### Calls over several lines -/

/-- Opening parentheses less closing ones, outside quotes. -/
def parenDelta : Int :=
  (line.foldl (fun (s, n) c =>
    let outside := !s.escaped && s.quote.isNone
    let n : Int := if outside && c == '(' then n + 1 else if outside && c == ')' then n - 1 else n
    (Nesting.read s c, n)) (Nesting.top, (0 : Int))).2

def callStart : Pattern :=
  .atStart ++ .blanks ++ .many1 (.char isNameChar)
    ++ .many1 (.lit "." ++ .many1 (.char isNameChar)) ++ .blanks ++ .lit "("

/-- A call that is not closed yet: its indentation, its parts, and how many parentheses are open. -/
structure OpenCall where
  indent : Text
  parts : List Text
  balance : Int

def opens? : Option OpenCall :=
  let t := line.trim
  if isIdle line || !callStart.fits t then none
  else if 0 < parenDelta line then some ⟨indent line, [t], parenDelta line⟩ else none

/-- The joined line of a call, unless it is longer than the limit allows. -/
def joined (cfg : Settings) (c : OpenCall) : Compile Text := do
  let line := c.indent ++ Text.joinWith " " c.parts
  cfg.traceStage ("normalize_multiline.done size=" ++ Text.ofNat line.length ++ " parts="
    ++ Text.ofNat c.parts.length)
  match cfg.callLimit with
  | some n => if n - 1 < line.length then throw (.longCall line.length (n - 1)) else return line
  | none => return line

def joinCalls (cfg : Settings) : Option OpenCall → List Text → Compile (List Text)
  | none, [] => return []
  | some _, [] => throw .unclosedCall
  | none, line :: rest => do
    match opens? line with
    | some c =>
      cfg.traceStage ("normalize_multiline.start delta=" ++ Text.ofInt c.balance ++ " line="
        ++ line.trim.take 120)
      joinCalls cfg (some c) rest
    | none => return line :: (← joinCalls cfg none rest)
  | some c, line :: rest => do
    let parts := if isIdle line then c.parts else c.parts ++ [line.trim]
    let c : OpenCall := ⟨c.indent, parts, c.balance + parenDelta line⟩
    if c.balance ≤ 0 then return (← joined cfg c) :: (← joinCalls cfg none rest)
    else joinCalls cfg (some c) rest

/-! ### Blocks on one line -/

/-- What a reader of blocks remembers: the quote it is in, the character before, and how many brackets are open. A
quote closes unless a backslash stands right before it. -/
structure Scan where
  quote : Option Char
  last : Option Char
  paren : Nat
  brace : Nat
  bracket : Nat

namespace Scan

def start : Scan := ⟨none, none, 0, 0, 0⟩

def isTop (s : Scan) : Bool := s.quote.isNone && s.paren == 0 && s.brace == 0 && s.bracket == 0

def read (s : Scan) (c : Char) : Scan :=
  match s.quote with
  | some q => { s with quote := if c == q && s.last != some '\\' then none else some q, last := some c }
  | none =>
    let s := { s with last := some c }
    if Nesting.isQuote c then { s with quote := some c }
    else match c with
      | '(' => { s with paren := s.paren + 1 }
      | ')' => { s with paren := s.paren - 1 }
      | '\x7b' => { s with brace := s.brace + 1 }
      | '\x7d' => { s with brace := s.brace - 1 }
      | '[' => { s with bracket := s.bracket + 1 }
      | ']' => { s with bracket := s.bracket - 1 }
      | _ => s

end Scan

/-- Cut at the semicolons outside quotes and brackets. `part` is the part being read, last character first. -/
def splitStatementsFrom (s : Scan) (part : Text) : Text → List Text
  | [] => [part.reverse]
  | c :: rest =>
    if c == ';' && s.isTop then part.reverse :: splitStatementsFrom (s.read c) [] rest
    else splitStatementsFrom (s.read c) (c :: part) rest

def splitStatements (t : Text) : List Text :=
  ((splitStatementsFrom .start [] t).map Text.trim).filter (!·.isEmpty)

def gapPattern : Pattern :=
  .blanks1 ++ .ahead (.alt
    (.opt (.word "save" ++ .blanks1) ++ Condition.varName ++ .blanks
      ++ .opt (.lit "~" ++ .blanks) ++ .opt (.anyOf "+-*/" ++ .blanks) ++ .lit "=")
    (.many1 (Condition.varName ++ .lit ".") ++ Condition.varName ++ .blanks ++ .lit "("))

/-- The statements of a block on one line: between semicolons or, where there are none, each beginning with an
assignment or a call. -/
def statements (body : Text) : List Text :=
  let parts := splitStatements body
  if 1 < parts.length then parts
  else
    let parts := ((gapPattern.split body).map Text.trim).filter (!·.isEmpty)
    if parts.isEmpty then [body] else parts

/-- What follows the opening brace of a block, from a line read outside quotes and brackets: what stands
before the brace, and the rest. Braces that close nothing are passed over. -/
def openBrace? (s : Scan) (before : Text) : Text → Option (Text × Text)
  | [] => none
  | c :: rest =>
    if c == '\x7b' && s.isTop then some (before.reverse, rest)
    else openBrace? (if c == '\x7b' || c == '\x7d' then { s with last := some c } else s.read c) (c :: before) rest

/-- What stands inside a block and behind it, from behind its opening brace. `depth` counts the open braces. -/
def closeBrace? (s : Scan) (depth : Nat) (inside : Text) : Text → Option (Text × Text)
  | [] => none
  | c :: rest =>
    let s' := if c == '\x7b' || c == '\x7d' then { s with last := some c } else s.read c
    if s.quote.isNone && c == '\x7b' then closeBrace? s' (depth + 1) (c :: inside) rest
    else if s.quote.isNone && c == '\x7d' then
      if depth ≤ 1 then some (inside.reverse, rest) else closeBrace? s' (depth - 1) (c :: inside) rest
    else closeBrace? s' depth (c :: inside) rest

def block? : Option (Text × Text) :=
  match openBrace? .start [] line with
  | none => none
  | some (before, rest) =>
    match closeBrace? { Scan.start with last := some '\x7b' } 1 [] rest with
    | none => none
    | some (inside, after) =>
      let header := before.trimEnd
      let body := inside.trim
      if header.isEmpty || body.isEmpty || !after.allBlank then none else some (header, body)

def spreadBlock : List Text :=
  match block? line with
  | none => [line]
  | some (header, body) =>
    let margin := line.takeWhile isBlank
    [header ++ " \x7b"] ++ (statements body).map (fun s => margin ++ "    " ++ s) ++ [margin ++ "\x7d"]

def spreadBlocks (lines : List Text) : List Text := lines.flatMap spreadBlock

end BlockScript.Layout
