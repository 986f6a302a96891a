import BlockScript.Mlct.Lexer
import BlockScript.Mlct.Node
import BlockScript.Path
import BlockScript.Text.Lines

/-!
# Parsing programs

The parser goes through the tokens of a program. At the outer level it finds activators, constants and imports; in a
line of code it finds actions, conditions, settings of variables, comments and closing braces. An import puts the tokens
of another file into the list that the parser goes through.

Every step moves on by one token at least, and a file is put in only once under each name, so that the steps are
bounded by the size of the program and its files.
-/

namespace BlockScript.Mlct

structure Parser where
  tokens : List Token
  index : Nat
  constants : Table (List Slot)
  nodes : List Node
  /-- The program and the files put in so far. -/
  modules : List Text
  level : Nat
  inLine : Bool

/-- The token at a place; behind the last one there are only tokens for the end. -/
def Parser.tokenAt (p : Parser) (n : Nat) : Token := (p.tokens[n]?).getD .finish

structure Setting where
  language : Language
  files : Files
  here : Path

abbrev Parse (α : Type) := ReaderT Setting (StateT Parser (ExceptT Halt (StateM Output))) α

namespace Parse
variable {α : Type}

def work (x : Work α) : Parse α := fun _ s => do return (← x, s)

def ofExcept (x : Except Fault α) : Parse α := work (Work.ofExcept x)

def ask (f : Language → Except Fault α) : Parse α := do ofExcept (f (← read).language)

def peek (n : Nat) : Parse Token := do
  let p ← get
  return p.tokenAt (p.index + n)

def back (n : Nat) : Parse Token := do
  let p ← get
  return p.tokenAt (p.index - n)

def advance (n : Nat) : Parse Unit := modify fun p => { p with index := p.index + n }

def retreat : Parse Unit := modify fun p => { p with index := p.index - 1 }

def emit (n : Node) : Parse Unit := modify fun p => { p with nodes := p.nodes ++ [n] }

/-! ### Reports -/

def fail (t : Trouble) : Parse α := do
  work (Work.fail t (some ((← get).nodes.mapM Node.shown)))

def failWith (cause : Cause) (value comment : Text) : Parse α :=
  fail { cause := cause, value := value, comment := some comment }

def warn (cause : Cause) (value comment : Text) : Parse Unit :=
  work (Work.warn { cause := cause, value := value, comment := some comment })

def eat (kinds : List TokenKind) : Parse Unit := do
  let t ← peek 0
  if kinds.contains t.kind then advance 1
  else failWith .wrongToken t.value ("Ожидались токены " ++ (Json.texts (kinds.map TokenKind.title)).shown
    ++ ", получен " ++ t.kind.title ++ " \"" ++ t.value ++ "\"")

/-- Go to the next token of one of the kinds without leaving it. -/
def expect (kinds : List TokenKind) : Parse Unit := do
  eat kinds
  retreat

/-! ### Looking up -/

variable (name : Text)

def handler : Parse (Text × Handler) := do
  match (← read).language.handler? name with
  | some h => return h
  | none => failWith .unknownName name ("Блок " ++ name ++ " не найден")

def variant (handler name : Text) : Parse (Text × Json.Fields) := do
  match ← ask fun l => Language.variantIn? (.str handler) (.str name) l.variants with
  | some v => return v
  | none => failWith .unknownName name ("Блок " ++ handler ++ " не содержит вариант " ++ name)

def codeWord (t : Text) : Parse Text := ask fun l => l.word "CODE_NAMES" t

def constant : Parse (List Slot) := do
  match (← get).constants.get? name with
  | some vs => return vs
  | none => fail { cause := .unknownConstant, value := name }

def valueOf (shell : Option Text) (t : Token) : Parse Slot := do
  let l := (← read).language
  work (Value.ofToken l (.ofOption shell) (some t.kind) (.str t.value))

/-- The values of the constant named behind the sign before the parser, after a check that the sign is used as
it should be. -/
def namedConstant : Parse (List Slot) := do
  let shell ← codeWord (← peek 1).value
  if shell != "ENVIRONMENT_SHELL" then throw .broken
  constant (← peek 3).value

/-- Move on behind the name of a constant, except for its last token. -/
def eatConstant : Parse Unit := do
  eat [.atSign]
  eat [.word]
  eat [.openParen]
  eat [.word]
  expect [.closeParen]

def shell? : Parse (Option Text) := do
  let t ← peek 0
  if t.kind == .word then
    eat [.word]
    return some t.value
  else return none

/-! ### Activators -/

def activatorVariant (handler : Text) : Parse (Text × Option Text) := do
  let name := (← peek 0).value
  if handler == "LOOP" || handler == "FUNCTION" then
    if (← peek 2).kind == .number && handler == "LOOP" then
      eat [.name, .word]
      return (name, some (← peek 1).value)
    else return (name, none)
  else return ((← variant handler name).1, none)

def activator : Parse Unit := do
  modify fun p => { p with inLine := true }
  let name := (← peek 0).value
  let (handlerName, h) ← handler name
  if h.type.same (.str "activator") then
    eat [.word]
    eat [.openParen]
    let t ← peek 0
    if t.kind == .word || t.kind == .name then
      let (variantName, delay) ← activatorVariant handlerName
      advance 1
      eat [.closeParen]
      eat [.openBrace]
      emit (.activator handlerName variantName delay)
      emit .openLine
      retreat
    else
      failWith .wrongPlace t.value ("Активатор принял неверный тип токена (" ++ t.kind.title ++ ") для варианта")
  else failWith .wrongPlace name ("Предложенный блок (" ++ name ++ ") не является активатором")

/-! ### Actions -/

structure Target where
  handlerName : Text
  handler : Handler
  variantName : Option Text
  variant : Option Json.Fields
  group : Option Text

def pathWords (ts : List Token) : List Text × Nat :=
  let path := ts.takeWhile fun t => t.kind == .word || t.kind == .dot
  ((path.filter (·.kind == .word)).map Token.value, path.length)

def plainTarget (path : List Text) : Parse Target := do
  let (name, h) ← handler (path.headD [])
  match path with
  | [_] => return ⟨name, h, none, none, none⟩
  | [_, v] =>
    let (variantName, fields) ← variant name v
    return ⟨name, h, some variantName, some fields, none⟩
  | _ => return ⟨name, h, none, none, none⟩

def selection (path : List Text) (h : Handler) (group : Text) : Parse Target := do
  match path with
  | [_, _, condition, variantWord] =>
    let (conditionName, _) ← handler condition
    let (variantName, _) ← variant conditionName variantWord
    let name : Text := conditionName ++ "_" ++ variantName
    let fields ← ask fun l => l.variant name
    return ⟨"SELECT_OBJECT", h, some name, some fields, some group⟩
  | _ =>
    failWith .wrongPlace "SELECT_OBJECT" "Условная выборка должна содержать блок условия и её вариант\nЫ"

def target : Parse (List Text × Target) := do
  let p ← get
  let (path, n) := pathWords (p.tokens.drop p.index)
  advance n
  let (name, h) ← handler (path.headD [])
  if name == "SELECT_OBJECT" then
    let some second := path[1]? | throw (.fault .outOfRange)
    match (← ask fun l => l.wordsOf "SELECT_OBJECT_PATH_VARIANTS").get? second with
    | some group => return (path, ← selection path h group)
    | none => return (path, ← plainTarget path)
  else return (path, ← plainTarget path)

/-- The parameters in angle brackets, up to the arguments. -/
def modifiers : Parse Unit := do
  let p ← get
  let (taken, rest) := (p.tokens.drop (p.index + 1)).span fun t => t.kind != .openParen && t.kind != .semicolon
  if rest.isEmpty then throw .endless
  advance (taken.length + 1)
  for t in taken do
    if t.kind == .word then
      emit (.modifier (← ask fun l => l.word "BRACE_PARAMS" t.value))

structure Pending where
  allNames : Table Text
  free : List Text
  argument : Option Text
  shell : Option Text
  inList : Bool

def mayStand (k : TokenKind) : Bool :=
  [TokenKind.word, .equals, .name, .text, .openSquare, .closeSquare, .comma, .number, .atSign].contains k

variable (s : Pending)
variable (t : Token)

/-- A word among arguments is the name of one, or a shell. -/
def argumentWord : Parse Pending := do
  let one ← peek 1
  let two ← peek 2
  if (one.kind == .equals || (one.kind == .number && two.kind == .equals)) && !s.inList then
    let given := if two.kind == .equals then t.value ++ one.value else t.value
    let some name := s.allNames.get? given | throw (.fault (.missingField given))
    emit (.argument name)
    return { s with argument := some name, free := s.free.erase name }
  else return { s with shell := some t.value }

def argumentFrame : Parse Pending := do
  match t.kind with
  | .comma => return { s with argument := none, shell := none }
  | .openSquare =>
    if s.inList then
      warn .wrongToken t.value "Нельзя ранее открытый список открыть снова"
      return s
    else
      if s.argument.isSome then emit .openList
      return { s with inList := true }
  | .closeSquare =>
    if s.inList then
      emit .closeList
      return { s with inList := false, argument := none }
    else return s
  | .word => argumentWord s t
  | _ => return s

def nextFree : Parse Pending := do
  match s.free with
  | [] => throw (.fault .outOfRange)
  | name :: rest =>
    emit (.argument name)
    return { s with free := rest, argument := none }

def argumentConstant : Parse Unit := do
  let values ← namedConstant
  let listed := decide (1 < values.length) && !s.inList
  if listed then emit .openList
  for v in values do
    emit (.value v)
  if listed then emit .closeList
  eatConstant

/-- The values among arguments. A list without a name takes the next argument. -/
def argumentValue : Parse Pending := do
  let opens := s.inList && t.kind == .openSquare
  if opens && s.argument.isNone then
    let s ← nextFree s
    emit .openList
    return s
  else if [TokenKind.name, .text, .number, .atSign].contains t.kind then
    let s ← if s.argument.isNone && !s.inList then nextFree s else pure s
    if t.kind == .atSign then argumentConstant s
    else emit (.value (← valueOf s.shell t))
    return s
  else return s

def arguments : Nat → Pending → Parse Pending
  | 0, s => return s
  | fuel + 1, s => do
    let t ← peek 0
    if t.kind == .closeParen || t.kind == .finish then return s
    else if mayStand t.kind then
      let s ← argumentValue (← argumentFrame s t) t
      advance 1
      arguments fuel s
    else failWith .wrongToken t.value "При загрузке аргументов найден неверный тип токена"

def argumentList (target : Target) : Parse Unit := do
  let some fields := target.variant | throw (.fault .wrongKind)
  let args ← ask fun l => l.argumentsCalled fields
  if (← ofExcept args.count) != 0 then
    let names ← ofExcept (Language.argumentNames args)
    advance 1
    let p ← get
    let s ← arguments (p.tokens.length - p.index) ⟨names, (args.fields?.getD []).map (·.1), none, none, false⟩
    if s.inList then
      failWith .wrongToken (← peek 0).value "Список значений аргумента действия не завершён"
  advance 1
  expect [.semicolon, .openBrace]

def action : Parse Unit := do
  let (path, target) ← target
  let isAction := target.handler.type.same (.str "action")
  let isCondition := target.handler.type.same (.str "condition")
  if !isAction && !isCondition then
    failWith .wrongPlace target.handler.customName.spell
      "Ожидалось действие с типом action или condition, получили activator"
  if 2 ≤ path.length && target.variantName.isNone then throw (.fault .outOfRange)
  emit (.action target.handlerName target.variantName target.group)
  if (← peek 0).kind == .openAngle then modifiers
  let opens := (← peek 0).kind == .openParen
  let closes := (← peek 1).kind == .closeParen
  if opens && !closes then argumentList target
  else if opens then
    eat [.openParen]
    eat [.closeParen]
  emit .closeAction
  if isCondition then
    emit .openLevel
    expect [.openBrace]
    modify fun p => { p with level := p.level + 1 }
  else expect [.semicolon]

/-! ### Other statements -/

def assigned : Parse Slot := do
  let shell ← shell?
  let t ← peek 0
  if t.kind == .atSign then
    let values ← namedConstant
    if 1 < values.length then
      let shown ← ofExcept (values.mapM fun v => do return (← v.need).content)
      warn .wrongArgument (Json.arr shown).shown
        ("Константа " ++ (← peek 3).value ++ " - список, однако поддерживается только 1 значение.")
    let some v := values.head? | throw (.fault .outOfRange)
    eatConstant
    return v
  else valueOf shell t

def setVariable : Parse Unit := do
  if !(← get).inLine then
    failWith .wrongExpression (← peek 0).value
      "Установка переменной методом \"var `abc` = any;\" возможна только в линии кода."
  let shell ← shell?
  let target ← valueOf shell (← peek 0)
  eat [.name]
  eat [.equals]
  let v ← assigned
  eat [.number, .text, .name, .atSign, .closeParen]
  let isItem := (← ofExcept v.need).kind == .item
  emit (.action "VARIABLE_ACTION" (some (if isItem then "SET_ITEM_TO_VARIABLE" else "SET_VARIABLE")) none)
  emit (.argument "variable")
  emit (.value target)
  emit (.argument (if isItem then "item" else "values"))
  emit (.value v)
  emit .closeAction
  expect [.semicolon]

def listValues (shell : Option Text) : List Token → Parse (List Slot)
  | [] => return []
  | t :: rest => do
    if t.kind == .word then listValues (some t.value) rest
    else if t.kind == .text || t.kind == .name || t.kind == .number then
      let v ← valueOf shell t
      return v :: (← listValues none rest)
    else listValues shell rest

def constantValues : Parse (List Slot) := do
  if (← peek 0).kind == .openSquare then
    let p ← get
    let (taken, rest) := (p.tokens.drop (p.index + 1)).span (·.kind != .closeSquare)
    let vs ← listValues none taken
    if rest.isEmpty then throw .endless
    advance (taken.length + 1)
    return vs
  else
    let shell ← shell?
    return [← valueOf shell (← peek 0)]

def defineConstant : Parse Unit := do
  if (← get).inLine then
    failWith .wrongExpression (← peek 0).value
      "Установка константы методом \"const Abc = any;\" возможна только вне линии кода."
  let name := (← peek 0).value
  eat [.word, .name]
  eat [.equals]
  if (← get).constants.has name then
    failWith .wrongExpression (← back 3).value ("Константа \"" ++ name ++ "\" уже имеет значение")
  let vs ← constantValues
  advance 1
  expect [.semicolon]
  modify fun p => { p with constants := p.constants.set name vs }

def moduleText : Parse Text := do
  let s ← read
  let path := (s.here.resolve (.ofText name)).toText
  match s.files.get? path with
  | some t => return t.unifyLineEnds
  | none =>
    if !name.isEmpty && s.files.any fun f => Text.startsWith f.1 (path ++ "/") then throw (.fault .isFolder)
    work (Work.fail { cause := .missingFile, value := name } none)

/-- Put the tokens of a file in: at the end, or behind the token that the parser is at. -/
def insertModule (atEnd : Bool) : Parse Unit := do
  match (← get).modules.idxOf? name with
  | some n =>
    warn .wrongModule name (if n == 0 then "Модуль является основным" else "Модуль уже импортирован")
  | none =>
    modify fun p => { p with modules := p.modules ++ [name] }
    let t ← moduleText name
    let tokens := ((← work (tokenize t)).drop 1).dropLast
    modify fun p => { p with
      tokens := if atEnd then p.tokens.dropLast ++ tokens
        else p.tokens.take (p.index + 1) ++ tokens ++ p.tokens.drop (p.index + 1) }

def importModule : Parse Unit := do
  if (← get).inLine then
    failWith .wrongExpression (← peek 0).value
      "Импорт модуля методом \"import <module>;\" возможен только вне линии кода."
  let t ← peek 0
  eat [.word, .name, .text]
  let word ← peek 0
  let atEnd ← if word.kind == .word then do
      if (← codeWord word.value) == "LOAD_MODULE_TO_END" then
        eat [.word]
        pure true
      else pure false
    else pure false
  expect [.semicolon]
  insertModule (if t.kind == .word then t.value ++ ".mlct" else t.value) atEnd

def commentValues : List Token → Parse (List Text)
  | [] => return []
  | t :: rest => do
    match t.kind with
    | .number => return t.value :: (← commentValues rest)
    | .text => return Value.colored t.value :: (← commentValues rest)
    | .comma => commentValues rest
    | k =>
      let comment : Text :=
        "При загрузке аргументов найден неверный тип токена\nОжидался NUMBER, STRING, COMMA, получен "
      failWith .wrongToken t.value (comment ++ k.title)

def comment : Parse Unit := do
  if !(← get).inLine then
    failWith .wrongExpression (← back 1).value "Установка глобального комментария возможна только в линии кода."
  eat [.openParen]
  let t ← peek 0
  if t.kind != .text then
    failWith .wrongExpression t.value "Первым элементом выражения \"comment\" может быть только STRING"
  let p ← get
  let (taken, rest) := (p.tokens.drop (p.index + 1)).span (·.kind != .closeParen)
  let values ← commentValues (if rest.isEmpty then taken ++ [.finish] else taken)
  advance (taken.length + 1)
  emit (.comment t.value values)
  eat [.closeParen]
  expect [.semicolon]

def pass (word : Text) : Parse Unit := do
  if (← get).inLine then expect [.semicolon]
  else warn .wrongExpression (← back 1).value ("Используйте \"" ++ word ++ "\" внутри линии кода")

def statement (word : Text) : Parse Unit := do
  eat [.word]
  match String.ofList word with
  | "CREATE_VARIABLE" => setVariable
  | "CREATE_CONSTANT" => defineConstant
  | "IMPORT_MODULE" => importModule
  | "GLOBAL_COMMENT" => comment
  | "PASS" => pass word
  | _ => return ()

/-- A closing brace ends a condition, or the line of code if none is open. -/
def closeBrace : Parse Unit := do
  match (← get).level with
  | n + 1 =>
    modify fun p => { p with level := n }
    emit .closeLevel
  | 0 =>
    modify fun p => { p with inLine := false }
    emit .closeLine

/-! ### Whole programs -/

def step : Parse Unit := do
  let word? := (← ask fun l => l.wordsOf "CODE_NAMES").get? t.value
  let inLine := (← get).inLine
  if t.kind == .word then
    match word? with
    | none => if inLine then action else activator
    | some word => if (← peek 1).kind == .dot then action else statement word
  else if t.kind == .closeBrace && inLine then closeBrace

def steps : Nat → Parse Unit
  | 0 => throw .endless
  | fuel + 1 => do
    advance 1
    let t ← peek 0
    if t.kind == .finish then return ()
    step t
    steps fuel

/-- A bound for the steps: every step takes a token, and every name of a file puts its tokens in once. -/
def bound (tokens : List Token) (files : Files) : Nat :=
  let n := files.foldl (fun n f => n + f.2.length + 1) tokens.length
  n * (n + 1) + 1

def program : Parse Unit := do
  let s ← read
  steps (bound (← get).tokens s.files)
  let p ← get
  if p.level != 0 || p.inLine then
    failWith .wrongToken "\x7d" "Уровни событий не закрыты"

end Parse

def parse (s : Setting) (name : Text) (tokens : List Token) : Work Parser := do
  let constants ← constants s.language
  return (← (Parse.program.run s).run ⟨tokens, 0, constants, [], [name], 0, false⟩).2

end BlockScript.Mlct
