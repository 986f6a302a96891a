import BlockScript.Fault
import BlockScript.Json.Spelling

/-!
# Reports

What goes wrong in a program is reported in colours. A warning lets the work go on. An error is also written to a file,
together with what was read before it, and ends the work.
-/

namespace BlockScript.Mlct

inductive Cause where
  | missingFile
  | wrongCharacter
  | wrongComment
  | unfinished
  | unknownName
  | wrongPlace
  | wrongToken
  | unknownConstant
  | wrongArgument
  | wrongExpression
  | wrongModule
deriving DecidableEq

namespace Cause

def part : Cause → Text
  | .missingFile => "FileError"
  | .wrongCharacter => "LexerError"
  | .wrongComment => "LexerError"
  | .unfinished => "LexerError"
  | _ => "ParseError"

def name : Cause → Text
  | .missingFile => "FileError"
  | .wrongCharacter => "IncorrectTokenValueError"
  | .wrongComment => "InvalidCommentary"
  | .unfinished => "FileEnded"
  | .unknownName => "LangNameDefineError"
  | .wrongPlace => "PositionError"
  | .wrongToken => "SyntaxError"
  | .unknownConstant => "EnvValueError"
  | .wrongArgument => "ArgError"
  | .wrongExpression => "ExpressionError"
  | .wrongModule => "ModuleError"

end Cause

structure Trouble where
  cause : Cause
  value : Text
  /-- More values, as far as the cause needs them. -/
  more : List Json := []
  comment : Option Text := none

namespace Trouble

def extra (t : Trouble) (n : Nat) : Text := ((t.more[n]?).map Json.spell).getD []

def message (t : Trouble) : Text :=
  match t.cause with
  | .missingFile => "Файл " ++ t.value ++ " не найден"
  | .wrongCharacter =>
    "Ошибка при лексическом анализе токена \"" ++ t.extra 0 ++ "\" со значением \"" ++ t.extra 1
      ++ "\" на позиции '" ++ t.value ++ "'"
  | .wrongComment => "Ошибка при лексическом анализе комментария на позиции '" ++ t.value ++ "'"
  | .unfinished =>
    let line : Text := (t.extra 0).takeWhile (· != '\n')
    "Токен " ++ t.value ++ " не имеет завершения:\n\"" ++ line ++ "\", на позиции " ++ t.extra 1
  | .unknownName => "Неизвестный ключ " ++ t.value
  | .wrongPlace => "Ошибка при определении буфера варианта"
  | .wrongToken => "Синтаксическая ошибка (неверный токен) со значением \"" ++ t.value ++ "\""
  | .unknownConstant => "Константа \"" ++ t.value ++ "\" не найдена в списке переменных среды"
  | .wrongArgument => "Ошибка при обработке аргумента со значением \"" ++ t.value ++ "\""
  | .wrongExpression => "Ошибка при обработке вне-блочного выражения \"" ++ t.value ++ "\""
  | .wrongModule => "Ошибка при обработке модуля \"" ++ t.value ++ "\""

def lines (severity color : Text) (t : Trouble) : List Text :=
  let item (m : Text) : Text := "\t> " ++ color ++ m
  let comments := (t.comment.map (Text.splitChar '\n')).getD []
  (color ++ "[" ++ severity ++ "] " ++ t.cause.part ++ ":") :: item t.message :: comments.map item

def rule : Text := List.replicate 100 '='

def crashLine (t : Text) : Text := "\n\t> " ++ t

/-- The text of the file on an error. `before` holds what was read before it. -/
def crash (t : Trouble) (before : Option (List Text)) : Text :=
  let item (k v : Text) : Text := crashLine (k ++ "=" ++ v)
  let values := "(" ++ Text.joinWith ", " (t.more.map Json.shown) ++ ")"
  let head := "Crash error\n" ++ rule ++ item "TYPE" "Error" ++ item "EXECUTOR" t.cause.part
    ++ item "ERROR" t.cause.name ++ item "VALUE" t.value ++ item "ARGS" values
    ++ item "COMMENT" (t.comment.getD "None") ++ "\n" ++ rule
  match before with
  | none => head
  | some shown =>
    head ++ "\n\nCrash other\n" ++ rule ++ shown.flatMap crashLine ++ crashLine "HERE IS ERROR" ++ "\n" ++ rule

end Trouble

inductive Halt where
  | exit (message : Option Text)
  | fault (f : Fault)
  /-- Something else stands where a word of the language has to stand. -/
  | broken
  /-- The input ends inside something searched for its end for ever. -/
  | endless
  | unanswered

structure Output where
  printed : Text
  files : Table Text
  canLog : Bool

abbrev Work (α : Type) := ExceptT Halt (StateM Output) α

namespace Work
variable {α : Type}

def ofExcept : Except Fault α → Work α
  | .ok a => pure a
  | .error f => throw (.fault f)

def print (t : Text) : Work Unit := modify fun o => { o with printed := o.printed ++ t }

def say (ls : List Text) : Work Unit := ls.forM fun l => print (l ++ "\n")

def write (name t : Text) : Work Unit := modify fun o => { o with files := o.files.set name t }

def crashFile : Text := "logs/last_crash.txt"

def log (name t : Text) : Work Unit := do
  if (← get).canLog then write name t else throw (.fault .missingFile)

def warn (t : Trouble) : Work Unit := do
  say (t.lines "WARNING" "\x1b[93m")
  say ["\x1b[39m"]

def fail (t : Trouble) (before : Option (Except Fault (List Text))) : Work α := do
  say (t.lines "ERROR" "\x1b[91m")
  let before ← match before with
    | none => pure none
    | some r => do pure (some (← ofExcept r))
  log crashFile (t.crash before)
  throw (.exit none)

end Work
end BlockScript.Mlct
