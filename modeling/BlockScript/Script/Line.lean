import BlockScript.Script.Condition

/-!
# Shapes of lines

What a line of a script may be: the start of a block or a scope, a selection, a message with the result of a function,
a return. A line that is none of these is a statement or a call.
-/

namespace BlockScript.Line

def notPattern : Pattern :=
  .atStart ++ .blanks ++ .alt (.word "not") (.word "не") ++ .blanks1
    ++ .group 1 (.many1Lazy .any) ++ .blanks ++ .atEnd

variable (line : Text)

/-- A line without the negation before it, and whether there was one. -/
def dropNot : Bool × Text :=
  match notPattern.match? line with
  | some m => (true, Text.trim (m.group 1))
  | none => (false, line)

/-! ### Scopes -/

def name : Pattern := .many1 (.char isNameChar)

def openBrace : Pattern := .blanks ++ .lit "\x7b" ++ .blanks ++ .atEnd

/-- A condition of a module: `if_module.name(args) {`. -/
def conditionPattern (module : Text) : Pattern :=
  .atStart ++ .blanks ++ .word "if" ++ .opt (.lit "_") ++ .word module ++ .lit "."
    ++ .group 1 name ++ .opt (.blanks ++ .lit "(" ++ .group 2 .rest ++ .lit ")")
    ++ openBrace

def longConditionPattern : Pattern :=
  .atStart ++ .blanks ++ .word "SelectObject.player.IfPlayer." ++ .group 1 name ++ openBrace

/-- `if condition {`. -/
def ifPattern (word : Text) : Pattern :=
  .atStart ++ .blanks ++ .word word ++ .blanks1 ++ .group 1 (.many1Lazy .any)
    ++ openBrace

/-- `ifexists(x) {` or `ifexists x {`. -/
def existsPattern : Pattern :=
  .atStart ++ .blanks ++ .word "ifexists" ++ .blanks
    ++ .alt (.lit "(" ++ .blanks ++ .group 1 Condition.varName ++ .blanks ++ .lit ")")
      (.blanks1 ++ .group 1 Condition.varName) ++ openBrace

inductive If where
  | call (module func args : Text)
  /-- The long form of a player's condition, whose name may be in any letter case. -/
  | long (func : Text)
  | exists_ (var : Text)
  | text (condition : Text)
  | plain (condition : Text)
deriving DecidableEq

namespace If

def word : If → Text
  | .call module .. => module
  | .long _ => "SelectObject.player.IfPlayer"
  | .exists_ _ => "ifexists"
  | .text _ => "iftext"
  | .plain _ => "if"

def ofModule? (module line : Text) : Option If :=
  ((conditionPattern module).match? line).map fun m => .call ("if_" ++ module) (m.group 1) (m.group 2)

def ofLine? (line : Text) : Option If :=
  ofModule? "player" line
    <|> (longConditionPattern.match? line).map (fun m => .long (m.group 1))
    <|> ofModule? "game" line
    <|> ofModule? "value" line
    <|> (existsPattern.match? line).map (fun m => .exists_ (m.group 1))
    <|> ((ifPattern "iftext").match? line).map (fun m => .text (m.group 1))
    <|> ((ifPattern "if").match? line).map (fun m => .plain (m.group 1))

end If

/-! ### Blocks -/

/-- `event(name) {`. -/
def eventPattern : Pattern :=
  .atStart ++ .blanks ++ .word "event" ++ .blanks ++ .lit "(" ++ .blanks
    ++ .alt (.lit "\"" ++ .group 1 (.many (.noneOf "\"")) ++ .lit "\"")
      (.group 2 (.manyLazy (.noneOf ")")))
    ++ .blanks ++ .lit ")" ++ openBrace

/-- `func name(params) {`. -/
def funcPattern : Pattern :=
  .atStart ++ .blanks ++ .oneOf ((texts ["func", "function", "def", "функция"]).map .word)
    ++ .blanks ++ .opt (.lit "(" ++ .blanks) ++ .group 1 name
    ++ .opt (.blanks ++ .lit ")")
    ++ .opt (.blanks ++ .lit "(" ++ .blanks ++ .group 2 (.many (.noneOf ")"))
      ++ .blanks ++ .lit ")")
    ++ openBrace

/-- `loop name every ticks {`. -/
def loopPattern : Pattern :=
  .atStart ++ .blanks ++ .alt (.word "loop") (.word "цикл") ++ .blanks1 ++ .group 1 name
    ++ .opt (.blanks1 ++ .word "every") ++ .blanks1 ++ .group 2 (.many1 .digit)
    ++ openBrace

inductive Start where
  | event (name : Text)
  | func (name params : Text)
  | loop (name ticks : Text)
deriving DecidableEq

namespace Start

def word : Start → Text
  | .event _ => "event"
  | .func .. => "func"
  | .loop .. => "loop"

/-- The function that begins on a line: its name and its parameters as they are written. -/
def func? (line : Text) : Option (Text × Text) :=
  (funcPattern.match? line).map fun m => (m.group 1, Text.trim (m.group 2))

def ofLine? (line : Text) : Option Start :=
  (eventPattern.match? line).map (fun m =>
      let quoted := m.group 1
      .event (Text.trim (if quoted.isEmpty then m.group 2 else quoted)))
    <|> (func? line).map (fun f => .func f.1 f.2)
    <|> (loopPattern.match? line).map (fun m => .loop (m.group 1) (m.group 2))

end Start

/-! ### Lines inside blocks -/

/-- `select.chain(args) {`, with or without arguments and brace. -/
def selectPattern : Pattern :=
  .atStart ++ .blanks ++ .word "select." ++ .group 1 (name ++ .many (.lit "." ++ name))
    ++ .blanks
    ++ .opt (.lit "(" ++ .blanks ++ .group 2 .restLazy ++ .blanks ++ .lit ")")
    ++ .blanks ++ .opt (.group 3 (.lit "\x7b")) ++ .blanks ++ .atEnd

structure Select where
  chain : Text
  args : Text
  opens : Bool
deriving DecidableEq

def select? : Option Select :=
  (selectPattern.match? line).map fun m => ⟨m.group 1, Text.trim (m.group 2), (m.group? 3).isSome⟩

def messagePattern : Pattern :=
  .atStart ++ .blanks ++ .word "player.message" ++ .blanks ++ .lit "(" ++ .blanks
    ++ .group 1 name ++ .blanks ++ .lit "(" ++ .group 2 .rest ++ .lit ")" ++ .blanks
    ++ .lit ")" ++ .blanks ++ .opt (.lit ";") ++ .blanks ++ .atEnd

/-- The function and the arguments of a message that shows a result. -/
def message? : Option (Text × Text) :=
  (messagePattern.match? line).map fun m => (m.group 1, Text.trim (m.group 2))

/-- `return(value)` or `return value`. -/
def returnPattern : Pattern :=
  .atStart ++ .blanks ++ .word "return"
    ++ .alt (.blanks ++ .lit "(" ++ .blanks ++ .group 1 .restLazy ++ .blanks
        ++ .lit ")" ++ .blanks)
      (.blanks1 ++ .group 2 .rest)
    ++ .blanks ++ .atEnd

def return? : Option Text :=
  (returnPattern.match? line).map fun m =>
    let inner := m.group 1
    Text.trim (if inner.isEmpty then m.group 2 else inner)

end BlockScript.Line
