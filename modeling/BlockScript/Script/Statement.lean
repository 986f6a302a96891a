import BlockScript.Script.Assignment

/-!
# Statements that are not calls of the library

Assignments, `call(f)` and the starting and stopping of cycles.
-/

namespace BlockScript.Statement
open Script (Compile)

def loopStarters : List Text := texts ["startloop", "start_loop", "запуститьцикл", "запустить_цикл"]

def loopStoppers : List Text := texts
  ["stoploop", "stop_loop", "остановитьцикл", "остановить_цикл", "стопцикл", "стоп_цикл"]

def callWords : List Text := texts ["call", "invoke", "вызвать", "runfunc", "run_func"]

def yesWords : List Text := texts
  ["1", "true", "yes", "y", "on", "async", "асинхронно", "асинхронный"]

def isYes (t : Text) : Bool := yesWords.contains (Text.lower t.trim)

def maxCycles : Nat := 18

def cycleArgs (n : Nat) : List Text → List Text
  | [] => []
  | v :: vs => ("text" ++ (if n ≤ 1 then [] else Text.ofNat n) ++ "=" ++ v) :: cycleArgs (n + 1) vs

def loopActions (lib : Library) (name args : Text) : Compile (List Placed) := do
  let as := Arguments.ofText args
  let given := as.positional ++ (as.named.map (·.2)).filter (!·.isEmpty)
  let cycles := ((given.map Text.trim).filter (!·.isEmpty)).map Text.unquote
  if cycles.isEmpty then throw (.noLoopNames name)
  let func : Text := if loopStarters.contains name then "start_loops" else "stop_loops"
  (Assignment.chunks maxCycles cycles.length cycles).mapM fun c => lib.call "game" func (cycleArgs 1 c)

/-- The first of two names under which the library has the action that calls a function. -/
def callSpec (api : Api) : Compile Spec := do
  let first ← liftM (api.find "game" "call_function")
  match first.filter fun f => f.2.isTruthy with
  | some f => return f.2
  | none =>
    let second ← liftM (api.find "game" "вызвать_функцию")
    match second.filter fun f => f.2.isTruthy with
    | some f => return f.2
    | none => throw .noCallAction

def callTarget (t : Text) : Text :=
  let t := t.trim
  if (Assignment.callHead? t).isSome then t else Value.wrap "text" t

def callAction (lib : Library) (args : Text) : Compile Placed := do
  let as := Arguments.ofText args
  let async := match as.named.get? "async" with
    | some v => isYes v
    | none => ((as.named.get? "asynchronous").map isYes).getD false
  let target := match as.positional with
    | t :: _ => some t
    | [] => as.named.get? "var"
  match target with
  | none => throw .noCallTarget
  | some t =>
    let spec ← callSpec lib.api
    return ⟨["slot(13)=" ++ callTarget t] ++ (if async then [("clicks(16,1)=0" : Text)] else []), spec⟩

/-- The actions of a line that is no call of the library; none if the line is nothing of the kind. -/
def compile (lib : Library) (sigs : Assignment.Signatures) (trace : Bool) (line : Text) :
    Compile (Option (List Placed)) := do
  if (Call.ofLine? line).isSome then return none
  match bareCall? line with
  | none =>
    match Assignment.ofLine? line with
    | some a => return some (← a.compile lib sigs trace)
    | none => return none
  | some (name, args) =>
    if loopStarters.contains name || loopStoppers.contains name then
      return some (← loopActions lib name args)
    else if callWords.contains name then return some [← callAction lib args]
    else return none

end BlockScript.Statement
