import BlockScript.Action.Arguments
import BlockScript.Action.Choice
import BlockScript.Action.Keyword
import BlockScript.Action.Spec
import BlockScript.Action.Value

/-!
# Placed actions

A call of an action is compiled to the action and the pieces that fill its window: `slot(n)=…` puts an item into a
slot, `clicks(n,k)=0` clicks a switch. Arguments given by position fill the parameters in order, unless they are
also given by name; a name that nothing takes is an error.
-/

namespace BlockScript
open Text (lower trim)
open Script (Compile)

structure Library where
  api : Api
  values : GameValues

structure Placed where
  pieces : List Text
  spec : Spec

namespace Placed

def toJson (p : Placed) : Json :=
  let get (key : Text) : Json := (p.spec.field? key).getD .null
  .obj [("pieces", .texts p.pieces), ("action", .arr [get "sign1", get "sign2", get "menu"])]

/-- The arguments of a call while it is compiled: what names have values, and which of them were taken. -/
structure Binding where
  named : Table Text
  taken : List Text

namespace Binding

def take (b : Binding) (name : Text) : Binding :=
  if b.taken.contains name then b else { b with taken := b.taken ++ [name] }

/-- Give a name the value of the first of some other names that has one, and mark that one as taken. -/
def borrow (b : Binding) (name : Text) (others : List Text) : Binding :=
  match others.find? fun o => b.named.has o with
  | some o => ({ b with named := b.named.set name (b.named.getD o []) } : Binding).take o
  | none => b

end Binding

def plainSigns : Table Text :=
  [("player", "Действие игрока"), ("game", "Действие игры"), ("if_player", "Если игрок"),
   ("if_game", "Если игра"), ("if_value", "Если переменная")]

variable (module : Text)

def plainBlock : Compile Placed :=
  match plainSigns.get? (lower (trim module)) with
  | some sign => pure ⟨[], .obj [("sign1", .str sign), ("sign2", .str []), ("menu", .str []), ("gui", .str [])]⟩
  | none => throw (.unknownPlainModule module)

/-! ### Parameters -/

def params (spec : Spec) : Except Fault (List Json) := do (← spec.get "params").asItems

def paramName (p : Json) : Except Fault (Option Text) := do return (← p.need "name").text?

def spelt (key : Text) (p : Json) : Except Fault Text := do
  let v ← p.get key
  return if v.isTruthy then v.spell else []

def paramMode (p : Json) : Except Fault Text := do
  let v ← p.get "mode"
  if v.isTruthy then
    match v with
    | .str t => return t.upper
    | _ => .error .notARecord
  else return []

def slotNumber (p : Json) : Except Fault Int := do
  let v ← p.get "slot"
  if v.isTruthy then Choice.clickCount v else return 0

variable (ps : List Json)

def vectorParams : Except Fault (List Json) := do
  let vectors ← ps.filterM fun p => do return Text.upper (← spelt "mode" p) == "VECTOR"
  let slotted ← vectors.mapM fun p => do return ((← slotNumber p), p)
  return (slotted.mergeSort fun a b => a.1 ≤ b.1).map (·.2)

def vectorNames (n : Nat) : List Text :=
  let suffix : Text := if n ≤ 1 then [] else Text.ofNat n
  (texts ["vector", "vec", "vektor", "вектор", "arg"]).map (· ++ suffix)

def bindVectors (b : Binding) : Except Fault Binding := do
  let vectors ← vectorParams ps
  let (_, b) ← vectors.foldlM (fun (n, b) p => do
    let name ← spelt "name" p
    let b : Binding := if name.isEmpty || b.named.has name then b else b.borrow name (vectorNames n)
    return (n + 1, b)) (1, b)
  return b

def bindPositional : List Json → List Text → Binding → Except Fault Binding
  | p :: ps, raw :: rest, b => do
    let b : Binding := match ← paramName p with
      | some name => { b with named := b.named.setNew name raw }
      | none => b
    bindPositional ps rest b
  | _, _, b => .ok b

/-! ### Actions with a way of their own -/

/-- The second line of the sign of an action of the `game` module, in lower case. -/
def gameSign2 (spec : Spec) : Except Fault Text := do
  if lower (trim module) == "game" then return lower (← spec.sign2) else return []

def bindFill (spec : Spec) (b : Binding) : Except Fault Binding := do
  if (← gameSign2 module spec) == "заполнить область" && !b.named.has "value" then
    return b.borrow "value" (texts ["block", "blok", "блок", "block_id", "id", "item", "предмет"])
  else return b

def itemToken (t : Text) : Text :=
  let s := trim t
  let wrapped := (Pattern.atStart ++ .word "item" ++ .blanks ++ .lit "(" ++ .rest
    ++ .lit ")" ++ .blanks ++ .atEnd).fits s
  if s.isEmpty || wrapped then s
  else "item(" ++ (if s.isQuotedOrQuote then s.inner else s) ++ ")"

def numbered {α : Type} (n : Nat) : List α → List (Nat × α)
  | [] => []
  | x :: xs => (n, x) :: numbered (n + 1) xs

def giveItems (spec : Spec) (positional : List Text) (b : Binding) : Compile (List Text × Binding) := do
  let s1 := lower (← spec.sign1)
  let s2 := lower (← spec.sign2)
  if s1 == "действие игрока" && s2 == "выдать предметы" then
    let keys := (texts ["item", "items", "предмет", "предметы"]).filter b.named.has
    let items := positional.map itemToken ++ keys.map fun k => itemToken (b.named.getD k [])
    if (texts ["количество", "count", "amount"]).any b.named.has then throw .itemCount
    let pieces := ((numbered 0 items).filter fun i => !i.2.isEmpty).map fun (i, t) =>
      "slot(" ++ Text.ofNat i ++ ")=" ++ t
    return (pieces, keys.foldl Binding.take b)
  else return ([], b)

/-- An existence check of one variable checks it against itself. -/
def bindExistence (module canon : Text) (b : Binding) : Binding :=
  if lower (trim module) == "if_value" && canon == "peremennaya_suschestvuet"
      && b.named.has "var" && !b.named.has "var2" then
    { b with named := b.named.set "var2" (b.named.getD "var" []) }
  else b

def cycleName (raw : Text) : Text :=
  let t := trim raw
  if Value.wrapperPattern.fits t then t else Value.wrap "text" t.unquote

/-! ### Pieces -/

def paramPieces (lib : Library) (module : Text) (spec : Spec) : List Json → Binding → Compile (List Text × Binding)
  | [], b => pure ([], b)
  | p :: ps, b => do
    let name ← paramName p
    match name.bind fun n => (b.named.get? n).map fun v => (n, v) with
    | none => paramPieces lib module spec ps b
    | some (name, raw) =>
      let mode ← paramMode p
      let s2 ← gameSign2 module spec
      let isCycle := s2 == "начать цикл" || s2 == "остановить цикл"
      let val ← if isCycle && mode == "TEXT" then pure (cycleName raw)
        else wrapValue lib.values (Mode.ofText mode) raw
      let slot ← p.need "slot"
      let (rest, b) ← paramPieces lib module spec ps (b.take name)
      return (("slot(" ++ slot.spell ++ ")=" ++ val) :: rest, b)

def choicePieces : List Json → Binding → Compile (List Text × Binding)
  | [], b => pure ([], b)
  | e :: es, b => do
    match ← e.get "name" with
    | .str name =>
      match if name.isEmpty then none else b.named.get? name with
      | none => choicePieces es b
      | some raw =>
        let clicks ← Choice.clicksFor name (Text.unquote (trim raw)) (← e.get "options")
        let n ← Choice.clickCount clicks
        let piece ← if 0 < n then do
            let slot ← e.need "slot"
            pure ["clicks(" ++ slot.spell ++ "," ++ Text.ofInt n ++ ")=0"]
          else pure []
        let (rest, b) ← choicePieces es (b.take name)
        return (piece ++ rest, b)
    | _ => choicePieces es b

/-! ### Names that nothing takes -/

def operandName : Pattern :=
  (.alt (.word "num") (.word "value")) ++ .many .digit

/-- The names that some actions accept without using them. -/
def tolerated (module canon : Text) (named : Table Text) : List Text :=
  let m := lower (trim module)
  let c := lower (trim canon)
  if m == "var" && (c == "set_sum" || c == "set_product") then
    named.names.filter fun k => (operandName.fullMatch? k).isSome
  else if m == "var" && (c == "set_difference" || c == "set_quotient") then
    texts ["num", "num2", "value", "value1", "value2"]
  else if m == "if_value" && c == "number" then texts ["tip_proverki", "tipproverki"]
  else []

def namesOf : Except Fault (List Text) := do
  return (← ps.mapM (spelt "name")).filter (!·.isEmpty)

def checkNames (call : Call) (canon : Text) (ps es : List Json) (sources : Table Text) (b : Binding) :
    Compile Unit := do
  let taken := b.taken ++ tolerated call.module canon b.named
  let taken := taken ++ taken.filterMap fun k => sources.get? k
  let unknown := b.named.names.filter fun k => !taken.contains k
  if !unknown.isEmpty then
    throw (.unknownKeys call.module call.func unknown (← namesOf ps) (← namesOf es))

/-! ### Calls -/

def ofSpec (lib : Library) (call : Call) (canon : Text) (spec : Spec) : Compile Placed := do
  let args := (Arguments.ofText call.args).dropEmpty
  let extra := Keyword.spellings args.named
  let named := args.named ++ extra.map fun (k, v, _) => (k, v)
  let ps ← params spec
  let b ← bindVectors ps ⟨named, []⟩
  let b ← bindFill call.module spec b
  let (given, b) ← if ps.isEmpty then giveItems spec args.positional b else pure ([], b)
  let b ← bindPositional ps args.positional b
  let b := bindExistence call.module canon b
  let (slots, b) ← paramPieces lib call.module spec ps b
  let es ← (← spec.get "enums").asItems
  let (clicks, b) ← choicePieces es b
  checkNames call canon ps es (extra.map fun (k, _, source) => (k, source)) b
  return ⟨given ++ slots ++ clicks, spec⟩

def ofCall (lib : Library) (call : Call) : Compile Placed := do
  if lower (trim call.func) == "noaction" then plainBlock call.module
  else match ← lib.api.find call.module call.func with
    | some (canon, spec) =>
      if spec.isTruthy then ofSpec lib call canon spec else throw (.unknownAction call.module call.func)
    | none => throw (.unknownAction call.module call.func)

end Placed

/-- Compile a line that consists of a call; none if it does not. -/
def placeLine (lib : Library) (line : Text) : Compile (Option Placed) :=
  match Call.ofLine? line with
  | some call => do return some (← Placed.ofCall lib call)
  | none => pure none

end BlockScript
