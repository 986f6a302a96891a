import BlockScript.Script.Assignment

/-!
# Calls with formulas as arguments

An argument that is a formula is computed into a variable first, and the call takes the variable.
-/

namespace BlockScript.FormulaCall
open Script (Compile)

def modes : List Text := texts ["NUMBER", "TEXT", "ANY"]

def wrappedPattern : Pattern :=
  .atStart ++ .char Formula.isLatinStart ++ .many (.char Formula.isLatinWord) ++ .blanks ++ .lit "("
    ++ .rest ++ .lit ")" ++ .atEnd

/-- The formula that an argument is, unless it is a number or a variable, quoted or wrapped. -/
def formula? (raw : Text) : Option (Formula × Formula.Names) :=
  let t := raw.trim
  if t.isEmpty || t.isQuoted || wrappedPattern.fits t then none
  else match Assignment.formula? t with
    | (some f, names) => if f.isArithmetic && f.isCompound then some (f, names) else none
    | (none, _) => none

/-- Values by name: those given by name, then those given by position to the parameters that have none. -/
def bind : List Json → List Text → Table Text → Except Fault (Table Text)
  | p :: ps, raw :: rest, named => do
    let named := match ← Placed.paramName p with
      | some name => named.setNew name raw
      | none => named
    bind ps rest named
  | _, _, named => .ok named

/-- What was computed so far: the values by name, the actions, and the number of variables used. -/
structure State where
  named : Table Text
  actions : List Placed
  temps : Nat

def lowerParam (lib : Library) (s : State) (p : Json) : Compile State := do
  match (← liftM (p.get "name")).text?.filter (!·.isEmpty) with
  | none => return s
  | some name =>
    match s.named.get? name with
    | none => return s
    | some raw =>
      if !modes.contains (← liftM (Placed.paramMode p)) then return s
      match formula? raw with
      | none => return s
      | some (f, names) =>
        let temp := Value.wrap "var" (tempName ++ "argf" ++ Text.ofNat (s.temps + 1))
        let actions ← Arithmetic.compile lib names temp f
        return ⟨s.named.set name temp, s.actions ++ actions, s.temps + 1⟩

/-- The arguments of the call that takes the variables: those given by position, then the others by name. -/
def rebuild (ps : List Json) (args : Arguments) (named : Table Text) : Except Fault (List Text) := do
  let positional ← (ps.zip args.positional).mapM fun (p, raw) => do
    let name ← Placed.paramName p
    return (name, ((name.bind named.get?).getD raw))
  let given := positional.filterMap (·.1)
  let rest := args.named.filter fun (k, _) => !given.contains k
  return positional.map (·.2) ++ rest.map fun (k, v) => k ++ "=" ++ named.getD k v

/-- The actions of a call with formulas as arguments, and the number of variables used; none if the line is no such
call. `temps` is the number of variables used before. -/
def compile (lib : Library) (temps : Nat) (line : Text) : Compile (Option (List Placed × Nat)) := do
  match Call.ofLine? line with
  | none => return none
  | some call =>
    match (← liftM (lib.api.find call.module call.func)).filter fun f => f.2.isTruthy with
    | none => return none
    | some (_, spec) =>
      let ps ← liftM (Placed.params spec)
      if ps.isEmpty then return none
      let args := (Arguments.ofText call.args).dropEmpty
      let named ← liftM (bind ps args.positional args.named)
      let s ← ps.foldlM (lowerParam lib) ⟨named, [], temps⟩
      if s.temps = temps then return none
      let parts ← liftM (rebuild ps args s.named)
      let last ← lib.call call.module call.func parts
      return some (s.actions ++ [last], s.temps)

end BlockScript.FormulaCall
