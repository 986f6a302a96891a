import BlockScript.Script.Condition

/-!
# Assignments

`x = value`, with `save` or `~` for a variable that is kept, and `+=` and its kin. The value may be a text, a number,
a formula, a list, a part of a text, an item of an array, the result of a function, or a wrapped value. An assignment
may name its variable with placeholders in it.
-/

namespace BlockScript
open Value (wrap)
open Script (Compile)

/-- The variables in which arguments and results of functions are passed. -/
def argsStack : Text := "__mldsl_args"

def resultStack : Text := "__mldsl_ret"

def tempName : Text := "__mldsl_tmp"

def stackTop : Text := "1"

structure Assignment where
  name : Text
  saved : Bool
  op : Option Char
  rhs : Text
deriving DecidableEq

namespace Assignment

/-! ### Reading -/

/-- An equals sign outside quotes and brackets that is no part of a comparison. `prev` is the character before; an
equals sign at the very start does not count, and of two equals signs the second does. -/
def hasSignFrom (s : Nesting) (prev : Option Char) : Text → Bool
  | [] => false
  | c :: rest =>
    let inComparison := match prev with
      | none => true
      | some p => p == '<' || p == '>' || p == '!'
    if c == '=' && s.isTop && !inComparison && rest.head? != some '=' then true
    else hasSignFrom (s.read c) (some c) rest

def hasSign (line : Text) : Bool := hasSignFrom .top none line

def savePattern : Pattern := .opt (.group 1 (.word "save") ++ .blanks1)

/-- The sign of an assignment and its value, to the end of the line. -/
def signPattern : Pattern :=
  .blanks ++ .opt (.lit "~" ++ .blanks)
    ++ .opt (.group 3 (.anyOf "+-*/") ++ .blanks) ++ .lit "=" ++ .blanks
    ++ .group 4 (.many1Lazy .any) ++ .blanks ++ .opt (.lit ";") ++ .blanks
    ++ .atEnd

def pattern : Pattern :=
  .atStart ++ .blanks ++ savePattern ++ .group 2 Condition.varName ++ signPattern

/-- An assignment to a variable whose name holds a placeholder with parentheses. -/
def dynamicPattern : Pattern :=
  .atStart ++ .blanks ++ savePattern ++ .group 2 (.many1Lazy .any) ++ signPattern

/-- `x ~ value`. -/
def keepPattern : Pattern :=
  .atStart ++ .blanks ++ .group 1 Condition.varName ++ .blanks ++ .lit "~"
    ++ .blanks ++ .group 2 (.many1Lazy .any) ++ .blanks
    ++ .opt (.lit ";") ++ .blanks ++ .atEnd

def expandKeep (line : Text) : Text :=
  match keepPattern.match? line with
  | some m =>
    let rhs := Text.trim (m.group 2)
    if rhs.startsWith "=" then line else "save " ++ m.group 1 ++ " = " ++ rhs
  | none => line

/-- The name of the variable is followed by the mark of a variable that is kept. -/
def isMarked (name line : Text) : Bool :=
  (Pattern.atStart ++ .blanks ++ .opt (.word "save" ++ .blanks1) ++ .word name
    ++ .blanks ++ .lit "~").fits line

/-- The placeholder by which one variable names another. -/
def hasVarPlaceholder (t : Text) : Bool := Text.hasInfix t.lower "%var("

def match? (line : Text) : Option Pattern.Match :=
  if hasSign line then
    match pattern.match? line with
    | some m => some m
    | none => if hasVarPlaceholder line then dynamicPattern.match? line else none
  else none

def ofLine? (line : Text) : Option Assignment :=
  let line := expandKeep line
  match match? line with
  | none => none
  | some m =>
    let name := Text.trim (m.group 2)
    let rhs := Text.trim (m.group 4)
    if name.isEmpty || rhs.isEmpty then none
    else some ⟨name, (m.group? 1).isSome || isMarked name line, (m.group 3).head?, rhs⟩

/-! ### Values -/

def target (a : Assignment) : Text := wrap (if a.saved then "var_save" else "var") a.name

def arrayTarget (a : Assignment) : Text := wrap (if a.saved then "arr_save" else "arr") a.name

def keptHeads : List Text := texts
  ["text", "num", "var", "var_save", "arr", "arr_save", "loc", "item", "apple"]

def keptPattern : Pattern :=
  .atStart ++ .oneOf (keptHeads.map .word) ++ .blanks ++ .lit "(" ++ .rest
    ++ .lit ")" ++ .blanks ++ .atEnd

def itemToken (values : GameValues) (raw : Text) : Compile Text := do
  let s := raw.trim
  if s.isEmpty then return "text()"
  match values.token? s with
  | some t => return t
  | none =>
    if keptPattern.fits s then return s
    else if s.isQuotedOrQuote then return wrap "text" s.inner
    else match Formula.textValue? s with
      | some v => liftM (Formula.valueToken v)
      | none => return if isVarName s then wrap "var" s else s

/-- Parentheses at the end, with a Latin name before the first one: that name. -/
def callHead? (t : Text) : Option Text :=
  if t.getLast? == some ')' then
    match Text.cutAt? "(" t with
    | some (head, _) => if isLatinName head then some head else none
    | none => none
  else none

/-- The token of a value that is neither list nor formula nor result of a function. -/
def valueToken (values : GameValues) (rhs : Text) : Compile Text :=
  if rhs.isQuotedOrQuote then return wrap "text" rhs.inner
  else match Formula.textValue? rhs with
    | some v => liftM (Formula.valueToken v)
    | none =>
      match callHead? rhs with
      | some head => if head.lower == "loc" then wrapValue values .location rhs else return rhs
      | none => return wrap "text" rhs

/-! ### Lists -/

def maxItems : Nat := 9

/-- Items by name, numbered from `n`; the first has no number. -/
def itemArgs (n : Nat) : List Text → List Text
  | [] => []
  | v :: vs => ("value" ++ (if n ≤ 1 then [] else Text.ofNat n) ++ "=" ++ v) :: itemArgs (n + 1) vs

def chunks {α : Type} (n : Nat) : Nat → List α → List (List α)
  | 0, _ => []
  | _ + 1, [] => []
  | fuel + 1, xs => xs.take n :: chunks n fuel (xs.drop n)

variable (lib : Library)

/-- The actions that set an array to a list: the first makes it, the others append. -/
def listActions (a : Assignment) : Compile (List Placed) := do
  let inner := Text.trim (Text.inner a.rhs)
  let items ← (Text.splitTop ',' inner).mapM (itemToken lib.values)
  let arr := "arr=" ++ a.arrayTarget
  let first ← lib.call "array" "ochistit_sozdat_massiv" (arr :: itemArgs 1 (items.take maxItems))
  let rest := items.drop maxItems
  let more ← (chunks maxItems rest.length rest).mapM fun c =>
    lib.call "array" "add_array" (arr :: itemArgs 1 c)
  return first :: more

/-! ### Parts of texts and items of arrays -/

/-- A part of a text: `x[3:5]`. -/
def slicePattern : Pattern :=
  .atStart ++ .group 1 (.oneOf [Condition.varName, .lit "\"" ++ .restLazy ++ .lit "\"",
      .lit "'" ++ .restLazy ++ .lit "'"]) ++ .lit "["
    ++ .group 2 (.many1 .digit) ++ .blanks ++ .lit ":" ++ .blanks
    ++ .group 3 (.many1 .digit) ++ .lit "]" ++ .atEnd

/-- An item of an array: `x[2]`. -/
def indexPattern : Pattern :=
  .atStart ++ .group 1 Condition.varName ++ .lit "[" ++ .group 2 (.many1 .digit)
    ++ .lit "]" ++ .atEnd

def digitsToken (ds : Text) : Compile Text :=
  match ds.toInt? with
  | some n => return wrap "num" (Text.ofInt n)
  | none => throw (.data .notANumber)

def sliceAction (a : Assignment) (m : Pattern.Match) : Compile Placed := do
  let src := m.group 1
  let start ← digitsToken (m.group 2)
  let stop ← digitsToken (m.group 3)
  let text := if src.isQuotedOrQuote then wrap "text" src.inner
    else "text(%var(" ++ src ++ ")%)"
  lib.call "var" "text" ["var=" ++ a.target, "text=" ++ text, "num=" ++ start, "num2=" ++ stop]

def indexAction (a : Assignment) (m : Pattern.Match) : Compile Placed := do
  let n ← digitsToken (m.group 2)
  lib.call "array" "get_array" ["arr=" ++ wrap "arr" (m.group 1), "num=" ++ n, "var=" ++ a.target]

/-! ### Results of functions -/

def callPattern : Pattern :=
  .atStart ++ .opt (.many1 (.char isNameChar) ++ .lit ".")
    ++ .group 1 (.many1 (.char isNameChar)) ++ .blanks ++ .lit "(" ++ .group 2 .rest
    ++ .lit ")" ++ .blanks ++ .atEnd

def reservedWords : List Text := texts
  ["event", "func", "function", "def", "loop", "цикл", "функция", "if", "iftext", "ifexists"]

def valueHeads : List Text := texts
  ["text", "num", "var", "var_save", "arr", "arr_save", "array", "loc", "item", "apple", "gamevalue", "gameval",
   "игровое_значение", "яблоко"]

/-- The function and the arguments of a value that is the result of a function. -/
def functionCall? (rhs : Text) : Option (Text × List Text) :=
  (callPattern.match? rhs).bind fun m =>
    let fn := m.group 1
    if reservedWords.contains fn || valueHeads.contains fn.lower then none
    else some (fn, Text.splitTop ',' (Text.trim (m.group 2)))

abbrev Signatures := Table (List Text)

def traceStack (stack name label : Text) : Compile (List Placed) := do
  let v := tempName ++ name
  let len ← lib.call "array" "get_array_2" ["arr=" ++ wrap "arr" stack, "var=" ++ wrap "var" v]
  let msg ← lib.call "player" "message" ["\"DBG " ++ label ++ "=%var(" ++ v ++ ")%\""]
  return [len, msg]

/-- The actions that put arguments on the stack, the first on top. -/
def pushActions (trace : Bool) (args : List Text) : Compile (List Placed) := do
  let pushed ← args.reverse.mapM fun raw => do
    lib.call "array" "vstavit_v_massiv"
      ["arr=" ++ wrap "arr" argsStack, "num=" ++ wrap "num" stackTop,
        "value=" ++ (← itemToken lib.values raw)]
  return pushed ++ (← if trace then traceStack lib argsStack "argslen" "args_len" else pure [])

def callSpec (api : Api) : Compile Spec := do
  let game ← match api with
    | .obj fs => pure ((Table.get? "game" fs).getD (.obj []))
    | _ => throw (.data .notARecord)
  let spec ← liftM (game.get "call_function")
  let spec ← if spec.isTruthy then pure spec else liftM (game.get "вызвать_функцию")
  if spec.isTruthy then return spec else throw .noCallActionForResult

def readResult (target : Text) : Compile Placed :=
  lib.call "array" "get_array"
    ["arr=" ++ wrap "arr" resultStack, "num=" ++ wrap "num" stackTop, "var=" ++ target]

def removeResult : Compile Placed :=
  lib.call "array" "remove_array" ["arr=" ++ wrap "arr" resultStack, "num=" ++ wrap "num" stackTop]

/-- Refuse a wrong number of arguments. A call without arguments is not checked. -/
def checkCount (sigs : Signatures) (fn : Text) (args : List Text) : Compile Unit :=
  match sigs.get? fn with
  | some ps => if ps.length != args.length then throw (.argumentCount fn ps.length args.length) else pure ()
  | none => pure ()

def resultActions (sigs : Signatures) (trace : Bool) (a : Assignment) (fn : Text)
    (args : List Text) : Compile (List Placed) := do
  let pushed ← if args.isEmpty then pure [] else do
    checkCount sigs fn args
    pushActions lib trace args
  let spec ← callSpec lib.api
  let called : Placed := ⟨["slot(13)=" ++ wrap "text" fn], spec⟩
  let before ← if trace then traceStack lib resultStack "retlen_before" "ret_len_before" else pure []
  let taken ← readResult lib a.target
  let removed ← removeResult lib
  let after ← if trace then traceStack lib resultStack "retlen_after" "ret_len_after" else pure []
  return pushed ++ [called] ++ before ++ [taken, removed] ++ after

/-! ### Formulas -/

def binOp : Char → BinOp
  | '+' => .add
  | '-' => .sub
  | '*' => .mul
  | _ => .div

/-- The formula that a text spells, and the placeholder variables in it. -/
def formula? (t : Text) : Option Formula × Formula.Names :=
  let (hidden, names) := Formula.hidePlaceholders t
  (Formula.parse? hidden, names)

/-- The actions of `x += value` and its kin. -/
def updateActions (a : Assignment) (op : Char) : Compile (List Placed) := do
  if hasVarPlaceholder a.name then
    let rhs ← itemToken lib.values a.rhs
    return [← lib.call "var" (Arithmetic.actionName (binOp op))
      ["var=" ++ a.target, "num=" ++ a.target, "num2=" ++ rhs]]
  else
    match formula? (a.name ++ [' ', op, ' '] ++ "(" ++ a.rhs ++ ")") with
    | (some f, names) =>
      if f.isArithmetic then Arithmetic.compile lib names a.target f else throw (.notNumeric [op] a.rhs)
    | (none, _) => throw (.notNumeric [op] a.rhs)

def plainActions (a : Assignment) : Compile (List Placed) := do
  let token ← valueToken lib.values a.rhs
  let (f, names) := formula? a.rhs
  match f.filter fun f => f.isArithmetic && f.isCompound with
  | some f => Arithmetic.compile lib names a.target f
  | none =>
    match a.op with
    | some op => updateActions lib a op
    | none =>
      let token := match f with
        | some (.var name) => wrap "var" (names.resolve name)
        | _ => token
      return [← lib.setValue a.target token]

def compile (sigs : Signatures) (trace : Bool) (a : Assignment) : Compile (List Placed) := do
  if a.rhs.head? == some '[' && a.rhs.getLast? == some ']' then listActions lib a
  else if let some m := slicePattern.match? a.rhs then return [← sliceAction lib a m]
  else if let some m := indexPattern.match? a.rhs then return [← indexAction lib a m]
  else if let some (fn, args) := functionCall? a.rhs then resultActions lib sigs trace a fn args
  else plainActions lib a

end Assignment
end BlockScript
