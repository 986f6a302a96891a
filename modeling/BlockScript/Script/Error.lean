import BlockScript.Fault

/-!
# Errors of the compiler

Everything that makes a script impossible to compile, by its cause. `Script.Error.message` words each cause.
-/

namespace BlockScript.Script
open Text (joinWith ofNat)

inductive SplitSubject where
  | event (name : Text)
  | func (name : Text)
  | helper (name : Text)
deriving DecidableEq

inductive Error where
  | data (f : Fault)
  | noLibrary
  -- arguments
  | nestedCall (value : Text)
  | wrongWrapper (mode value head : Text)
  | placeholderExpression (value : Text)
  | emptyOperand
  | unsupportedFormula
  -- calls
  | unknownPlainModule (module : Text)
  | unknownAction (module func : Text)
  | itemCount
  | unknownChoice (name value : Text) (known : List Text)
  | unknownKeys (module func : Text) (keys params choices : List Text)
  -- statements
  | argumentCount (func : Text) (expected got : Nat)
  | noCallAction
  | noCallActionForResult
  | noCallTarget
  | noLoopNames (name : Text)
  | notNumeric (op rhs : Text)
  -- conditions
  | emptyCondition
  | unsupportedCondition (text : Text)
  | emptyTextCondition
  | noTextComparison
  | noTextOptions
  -- blocks
  | unknownBlock (sign key : Text)
  | unknownLine (line : Nat) (inBlock : Bool) (text : Text)
  | emptySelector
  | unknownSelector (leaf chain : Text)
  | ambiguousSelector (leaf : Text) (options : List Text)
  | importMissing (path : Text)
  | longCall (size limit : Nat)
  | unclosedCall
  | templateParam (name param : Text)
  | templateParamTwice (name param : Text)
  | templateIndented
  | templateTwice (name : Text)
  | templateEmpty (name : Text)
  | templateDepth (limit : Nat) (chain : List Text)
  | templateCycle (chain : List Text)
  | templateTooManyArgs (name : Text) (expected got : Nat)
  | templateUnknownArg (name key : Text)
  | templateArgTwice (name key : Text)
  | templateMissingArg (name param : Text)
  | scopeUnknown (scope : Text)
  | weightEmpty
  | weightNotCall (text : Text)
  | weightSuffix (text : Text)
  | multiselectEmpty
  | conditionCall (text : Text)
  | conditionModule (text : Text)
  | conditionScope (expected got : Text)
  | funcParam (name param : Text)
  | nameConflict (name : Text)
  | negatedNothing
  | negatedBlock
  | negatedSelectBlock
  | negatedHeader (kind : Text)
  | negatedSelect (chain : Text)
  | negatedSugar
  | negatedAction (line : Text)
  | outsideBlock (what : Text)
  | nestedMessage (func : Text)
  | returnOutsideFunc
  | unknownEvent (name : Text)
  | splitRunaway (subject : SplitSubject) (count left limit : Nat)
  | noSplitPoint (subject : SplitSubject) (limit : Nat)
  | noSplitProgress (subject : SplitSubject) (before after : Nat)
  | longCommand (size limit : Nat)

namespace Error

def namesOrDash (names : List Text) : Text :=
  let t := joinWith ", " names
  if t.isEmpty then "-" else t

def noSplitPointText (limit : Nat) : SplitSubject → Text
  | .helper name =>
    "row auto-split: extracted helper `" ++ name ++ "` still has no safe top-level split point within "
      ++ ofNat limit ++ " actions; cannot split inside open scopes. Refactor source block manually."
  | .event name | .func name =>
    "row auto-split: `" ++ name ++ "` has no safe top-level split point within " ++ ofNat limit
      ++ " actions; cannot split inside open scopes. "
      ++ "Refactor by extracting inner block into a helper func/vfunc."

def noSplitProgressText (before after : Nat) : SplitSubject → Text
  | .helper name =>
    "row auto-split: extracted helper `" ++ name ++ "` made no progress (" ++ ofNat before ++ " -> "
      ++ ofNat after ++ "). Refactor source block manually."
  | .event name | .func name =>
    "row auto-split: `" ++ name ++ "` extraction made no progress (" ++ ofNat before ++ " -> "
      ++ ofNat after ++ "). Refactor nested scope manually or simplify condition body."

def splitRunawayText (count left limit : Nat) (s : SplitSubject) : Text :=
  let who : Text := match s with
    | .event name => "event `" ++ name
    | .func name => "func `" ++ name
    | .helper name => "helper `" ++ name
  "row auto-split runaway (" ++ who ++ "`): split_num=" ++ ofNat count ++ " left=" ++ ofNat left
    ++ " max_iters=" ++ ofNat limit

def unknownLineText (line : Nat) (inBlock : Bool) (t : Text) : Text :=
  "line " ++ ofNat line ++ ": нераспознанная строка"
    ++ (if inBlock then (" внутри блока" : Text) else []) ++ ": `" ++ t ++ "`. "
    ++ "Возможные причины: опечатка в module.action, неверный синтаксис аргументов "
    ++ "или вызов несуществующей функции."

/-- The wording of a cause. Faults in data have none of their own. -/
def message : Error → Text
  | .data _ => []
  | .noLibrary => []
  | .nestedCall v =>
    "Вложенный вызов `" ++ v ++ "` в аргументе не выполняется на сервере автоматически. "
      ++ "Сделай так: tmp = foo(); и используй %var(tmp)% в тексте, или передай строку в кавычках."
  | .wrongWrapper mode v head =>
    mode ++ "-аргумент `" ++ v ++ "` имеет несовместимый тип `" ++ head ++ "(...)`"
  | .placeholderExpression v =>
    "NUMBER-аргумент `" ++ v ++ "` выглядит как placeholder-выражение. "
      ++ "Вычисли его заранее в переменную и передай `var(...)`."
  | .emptyOperand => "empty operand"
  | .unsupportedFormula => "unsupported numeric expression"
  | .unknownPlainModule m => "Unknown noaction module: " ++ m
  | .unknownAction m f => "Unknown action: " ++ m ++ "." ++ f
  | .itemCount =>
    "Выдать предметы: параметр `количество` больше не поддерживается. "
      ++ "Указывай количество внутри `item(...)`, например: item(stone, count=3)."
  | .unknownChoice name v known =>
    "enum `" ++ name ++ "`: неизвестное значение `" ++ v ++ "`. Варианты: "
      ++ joinWith ", " (known.take 8) ++ (if 8 < known.length then ['.', '.', '.'] else [])
  | .unknownKeys m f keys params choices =>
    m ++ "." ++ f ++ ": неизвестные именованные аргументы/enum: " ++ joinWith ", " keys
      ++ ". Параметры: " ++ namesOrDash params ++ "; enum: " ++ namesOrDash choices
  | .argumentCount f expected got =>
    f ++ "(): ожидалось аргументов " ++ ofNat expected ++ ", получено " ++ ofNat got
  | .noCallAction => "call(): no call_function action in api"
  | .noCallActionForResult => "Function call sugar failed: no call_function action in api"
  | .noCallTarget => "call(): expected function name, e.g. call(test) or call(var(test))"
  | .noLoopNames name => name ++ "()(): expected at least 1 cycle name"
  | .notNumeric op rhs => "assignment '" ++ op ++ "=' supports numeric expressions only: " ++ rhs
  | .emptyCondition => "if: empty condition"
  | .unsupportedCondition t => "if: unsupported condition: " ++ t
  | .emptyTextCondition => "iftext: empty condition"
  | .noTextComparison => "iftext: expected: <target> == <a> or <b> ..."
  | .noTextOptions => "iftext: expected at least 1 compare text"
  | .unknownBlock sign key =>
    "Unknown block for sign1='" ++ sign ++ "' (norm='" ++ key
      ++ "'). Add to allactions.txt or Aliases.json"
  | .unknownLine line inBlock t => unknownLineText line inBlock t
  | .emptySelector => "select: empty selector"
  | .unknownSelector leaf chain => "select: неизвестный селектор `" ++ leaf ++ "` (chain=" ++ chain ++ ")"
  | .ambiguousSelector leaf options =>
    "select: неоднозначно `" ++ leaf ++ "`. Варианты: " ++ joinWith ", " (options.take 8)
      ++ (if 8 < options.length then ['.', '.', '.'] else [])
  | .importMissing path => "import: файл не найден: " ++ path
  | .longCall size limit =>
    "multiline call too long after normalization: " ++ ofNat size ++ " > " ++ ofNat limit
      ++ " (1 char reserved for closing '\x7d')"
  | .unclosedCall => "multiline call: missing closing `)`"
  | .templateParam name p => "vfunc " ++ name ++ "(): недопустимое имя параметра: " ++ p
  | .templateParamTwice name p => "vfunc " ++ name ++ "(): дублирующийся параметр: " ++ p
  | .templateIndented => "vfunc: definition must be top-level (no leading indentation)"
  | .templateTwice name => "vfunc " ++ name ++ "(): duplicate definition"
  | .templateEmpty name => "vfunc " ++ name ++ "(): body is empty"
  | .templateDepth limit chain =>
    "vfunc expansion depth exceeded (>" ++ ofNat limit ++ "): " ++ joinWith " -> " chain
  | .templateCycle chain => "vfunc recursion cycle detected: " ++ joinWith " -> " chain
  | .templateTooManyArgs name expected got =>
    "vfunc " ++ name ++ "(): expected at most " ++ ofNat expected ++ " positional args, got "
      ++ ofNat got
  | .templateUnknownArg name k => "vfunc " ++ name ++ "(): unknown argument `" ++ k ++ "`"
  | .templateArgTwice name k => "vfunc " ++ name ++ "(): duplicate argument `" ++ k ++ "`"
  | .templateMissingArg name p => "vfunc " ++ name ++ "(): missing required argument `" ++ p ++ "`"
  | .scopeUnknown scope =>
    "multiselect: unknown scope `" ++ scope
      ++ "`. Use ifplayer|ifmob|ifentity (or player|mob|entity)."
  | .weightEmpty => "multiselect: empty condition line"
  | .weightNotCall t => "multiselect: expected call expression, got `" ++ t ++ "`"
  | .weightSuffix t =>
    "multiselect: invalid weight suffix `" ++ t ++ "`. Use +, -2, *3, /2, +=x, -=x, *=x, /=x."
  | .multiselectEmpty => "multiselect: body is empty"
  | .conditionCall t => "multiselect: invalid condition call `" ++ t ++ "`"
  | .conditionModule t => "multiselect: condition must be select.* call, got `" ++ t ++ "`"
  | .conditionScope expected got =>
    "multiselect: scope mismatch, expected `" ++ expected ++ "` condition, got `" ++ got ++ "`"
  | .funcParam name p => "func " ++ name ++ "(): недопустимое имя параметра: " ++ p
  | .nameConflict name => "name conflict: `" ++ name ++ "` defined as both func and vfunc"
  | .negatedNothing => "NOT: missing action after prefix"
  | .negatedBlock => "NOT поддерживается только для action-вызовов, а не для if-блоков с `\x7b\x7d`"
  | .negatedSelectBlock => "NOT для select поддерживается только для action-вызова без `\x7b\x7d`"
  | .negatedHeader kind => "NOT нельзя использовать перед " ++ kind
  | .negatedSelect chain => "NOT недопустим для неусловного действия: select." ++ chain
  | .negatedSugar => "NOT недопустим для builtin/sugar выражения"
  | .negatedAction line => "NOT недопустим для неусловного действия: " ++ line
  | .outsideBlock what => what ++ " must be inside event/func/loop block"
  | .nestedMessage f =>
    "Не получилось скомпилировать вызов функции " ++ f ++ "() для вложенного message()"
  | .returnOutsideFunc => "return можно использовать только внутри func\x7b\x7d"
  | .unknownEvent name => "неизвестное событие: " ++ name
  | .splitRunaway s count left limit => splitRunawayText count left limit s
  | .noSplitPoint s limit => noSplitPointText limit s
  | .noSplitProgress s before after => noSplitProgressText before after s
  | .longCommand size limit =>
    "/placeadvanced too long: " ++ ofNat size ++ " > " ++ ofNat limit ++ " chars"

end Error

/-! ### Reporting -/

abbrev Report := List Text

/-- A step that may fail and that writes lines for the user. What was written before a failure stays. -/
structure Compile (α : Type) where
  result : Except Error α
  written : Report

namespace Compile
variable {α β : Type}

instance : Monad Compile where
  pure a := ⟨.ok a, []⟩
  bind x f := match x.result with
    | .ok a =>
      let y := f a
      ⟨y.result, x.written ++ y.written⟩
    | .error e => ⟨.error e, x.written⟩

instance : MonadExceptOf Error Compile where
  throw e := ⟨.error e, []⟩
  tryCatch x handle := match x.result with
    | .ok _ => x
    | .error e =>
      let y := handle e
      ⟨y.result, x.written ++ y.written⟩

def ofExcept (x : Except Error α) : Compile α := ⟨x, []⟩

@[simp] theorem result_pure (a : α) : (pure a : Compile α).result = .ok a := rfl

@[simp] theorem result_throw (e : Error) : (throw e : Compile α).result = .error e := rfl

@[simp] theorem result_ofExcept (x : Except Error α) : (ofExcept x).result = x := rfl

theorem result_bind (x : Compile α) (f : α → Compile β) : (x >>= f).result = x.result.bind fun a => (f a).result := by
  show (match x.result with
    | .ok a => (⟨(f a).result, x.written ++ (f a).written⟩ : Compile β)
    | .error e => ⟨.error e, x.written⟩).result = _
  cases x.result <;> rfl

theorem bind_ok {x : Compile α} {f : α → Compile β} {b : β} :
    (x >>= f).result = .ok b ↔ ∃ a, x.result = .ok a ∧ (f a).result = .ok b := by
  rw [result_bind]
  cases x.result <;> simp [Except.bind]

end Compile

def report (line : Text) : Compile Unit := ⟨.ok (), [line]⟩

def warn (line : Text) : Compile Unit := report ("[warn] " ++ line)

def liftData {α : Type} (x : Except Fault α) : Compile α := .ofExcept (x.mapError .data)

instance : MonadLift (Except Fault) Compile := ⟨liftData⟩

@[simp] theorem Compile.result_liftM {α : Type} (x : Except Fault α) :
    (liftM x : Compile α).result = x.mapError .data := rfl

end BlockScript.Script
