import BlockScript.Script.Data
import BlockScript.Proofs.Runs

/-!
# Causes of errors

That a block was split too often is an error of splitting alone. What else there is to do for a script fails for other
reasons, if it fails: reading and preparing the script (`Data.calm_setup`), and telling what its lines do
(`Program.Instruction.calm_ofLine`).
-/

namespace BlockScript
open Script (Compile Error Settings)
namespace Script
variable {α β : Type}
  {x : Except Error α} {f : α → Except Error β}

/-- The result is that a block was split too often. -/
def RunsAway (x : Except Error α) : Prop := ∃ subject n k m, x = .error (.splitRunaway subject n k m)

@[reducible] def Error.isRunaway : Error → Bool
  | .splitRunaway .. => true
  | _ => false

/-- The result is something else. -/
class Calm (x : Except Error α) : Prop where
  calm : ¬ RunsAway x

lemma runsAway_bind : RunsAway (x.bind f) ↔ RunsAway x ∨ ∃ a, x = .ok a ∧ RunsAway (f a) := by
  cases x <;> simp [RunsAway, Except.bind]

@[simp] lemma not_runsAway_ok (a : α) : ¬ RunsAway (.ok a) := by
  rintro ⟨_, _, _, _, h⟩
  contradiction

instance calm_ok (a : α) : Calm (.ok a) := ⟨not_runsAway_ok a⟩

lemma calm_error {e : Error} (h : e.isRunaway = false) : Calm (.error e : Except Error α) where
  calm := by
    rintro ⟨subject, n, k, m, he⟩
    obtain rfl := Except.error.inj he
    contradiction

lemma Calm.isRunaway {e : Error} (hx : Calm x) (h : x = .error e) : e.isRunaway = false := by
  cases e with
  | splitRunaway subject n k m => exact absurd ⟨subject, n, k, m, h⟩ hx.calm
  | _ => rfl

/-- A flag that is down. What the flag is of an error written out is seen by reducing it. -/
class IsDown (flag : Bool) : Prop where
  eq : flag = false

instance : IsDown false := ⟨rfl⟩

instance {e : Error} [h : IsDown e.isRunaway] : Calm (.error e : Except Error α) := calm_error h.eq

instance calm_thrown {e : Error} [h : IsDown e.isRunaway] : Calm (throw e : Except Error α) := calm_error h.eq

instance calm_return (a : α) : Calm (pure a : Except Error α) := calm_ok a

instance calm_data (x : Except Fault α) : Calm (x.mapError .data) := by
  cases x with
  | error f => exact calm_error rfl
  | ok a => exact calm_ok a

lemma Calm.bind (hx : Calm x) (hf : ∀ a, Calm (f a)) : Calm (x >>= f) where
  calm h := by
    rcases runsAway_bind.mp h with h | ⟨a, -, h⟩
    · exact hx.calm h
    · exact (hf a).calm h

instance calm_seq {x : Except Error α} {f : α → Except Error β} [hx : Calm x] [hf : ∀ a, Calm (f a)] : Calm (x >>= f) :=
  hx.bind hf

instance calm_ite {c : Prop} [Decidable c] {x y : Except Error α} [hx : Calm x] [hy : Calm y] :
    Calm (if c then x else y) := by
  split
  · exact hx
  · exact hy

instance calm_foldlM {f : β → α → Except Error β} [h : ∀ b a, Calm (f b a)] (xs : List α) (b : β) :
    Calm (xs.foldlM f b) := by
  induction xs generalizing b with
  | nil => exact calm_ok b
  | cons x xs ih => exact (h b x).bind ih

instance calm_mapM {f : α → Except Error β} [h : ∀ a, Calm (f a)] (xs : List α) : Calm (xs.mapM f) := by
  have hloop : ∀ (xs : List α) (acc : List β), Calm (List.mapM.loop f xs acc) := by
    intro xs
    induction xs with
    | nil => exact fun acc => calm_ok _
    | cons x xs ih => exact fun acc => (h x).bind fun y => ih (y :: acc)
  exact hloop xs []

/-! ### Steps -/

namespace Compile

/-- A step does not fail for too many splits. -/
abbrev IsCalm (x : Compile α) : Prop := Calm x.result

instance calm_pure (a : α) : IsCalm (pure a) := calm_ok a

lemma calm_throw {e : Error} (h : e.isRunaway = false) : IsCalm (throw e : Compile α) := calm_error h

instance calm_thrown {e : Error} [h : IsDown e.isRunaway] : IsCalm (throw e : Compile α) := calm_error h.eq

instance calm_liftM (x : Except Fault α) : IsCalm (liftM x : Compile α) := calm_data x

instance (t : Text) : IsCalm (warn t) := calm_ok ()

instance (cfg : Settings) (t : Text) : IsCalm (cfg.traceStage t) := by
  rw [IsCalm, Settings.result_traceStage]
  exact calm_ok ()

lemma calm_bind {x : Compile α} {f : α → Compile β} (hx : IsCalm x) (hf : ∀ a, IsCalm (f a)) : IsCalm (x >>= f) := by
  rw [IsCalm, result_bind]
  exact hx.bind hf

instance calm_seq {x : Compile α} {f : α → Compile β} [hx : IsCalm x] [hf : ∀ a, IsCalm (f a)] : IsCalm (x >>= f) :=
  calm_bind hx hf

instance calm_ite {c : Prop} [Decidable c] {x y : Compile α} [hx : IsCalm x] [hy : IsCalm y] :
    IsCalm (if c then x else y) := by
  split
  · exact hx
  · exact hy

instance calm_mapM {f : α → Compile β} [h : ∀ a, IsCalm (f a)] (xs : List α) : IsCalm (xs.mapM f) := by
  have hloop : ∀ (xs : List α) (acc : List β), IsCalm (List.mapM.loop f xs acc) := by
    intro xs
    induction xs with
    | nil => exact fun acc => calm_ok _
    | cons x xs ih => exact fun acc => calm_bind (h x) fun y => ih (y :: acc)
  exact hloop xs []

instance calm_foldlM {f : β → α → Compile β} [h : ∀ b a, IsCalm (f b a)] (xs : List α) (b : β) :
    IsCalm (xs.foldlM f b) := by
  induction xs generalizing b with
  | nil => exact calm_ok b
  | cons x xs ih => exact calm_bind (h b x) ih

end Compile
end Script
open Script Script.Compile
variable {cfg : Settings} {lib : Library} {values : GameValues} {palette : Palette} {api : Api} {files : Files}
  {entry : Path}
  {sigs : Assignment.Signatures} {templates : Table Template} {p : Placed} {fuel n temps : Nat} {negated trace : Bool}
  {module func name value line raw text target : Text} {lines args : List Text}

/-! ### Calls of the library -/

instance {mode : Mode} : IsCalm (wrapValue values mode value) := by
  have hwrapped : ∀ head v, IsCalm (Value.wrapped mode head v) := by
    intro head v
    unfold Value.wrapped
    repeat' first | infer_instance | dsimp only | split
  have hpl : ∀ v, IsCalm (Value.plain mode v) := by
    intro v
    unfold Value.plain
    repeat' first | infer_instance | dsimp only | split
  unfold wrapValue
  repeat' first | infer_instance | dsimp only | split

namespace Choice

instance {opts : Options} : IsCalm ( inexact? name value opts) := by
  unfold inexact? approximate? corrected
  repeat' first | infer_instance | dsimp only | split

instance {options : Json} : IsCalm (clicksFor name value options) := by
  unfold clicksFor
  with_reducible repeat' first | infer_instance | refine calm_bind ?_ fun _ => ?_ | dsimp only | split

end Choice
namespace Placed
variable {spec : Spec} {call : Call} {ps es : List Json} {b : Binding}

instance {positional : List Text} : IsCalm (giveItems spec positional b) := by
  unfold giveItems
  infer_instance

instance : IsCalm (paramPieces lib module spec ps b) := by
  induction ps generalizing b with
  | nil => exact calm_pure _
  | cons p ps ih =>
    rw [paramPieces]
    repeat' first | infer_instance | refine calm_bind ?_ fun _ => ?_ | split

instance : IsCalm (choicePieces es b) := by
  induction es generalizing b with
  | nil => exact calm_pure _
  | cons e es ih =>
    rw [choicePieces]
    repeat' first | infer_instance | refine calm_bind ?_ fun _ => ?_ | split

instance calm_checkNames {canon : Text} {sources : Table Text} : IsCalm (checkNames call canon ps es sources b) := by
  unfold checkNames
  infer_instance

instance calm_ofCall : IsCalm (ofCall lib call) := by
  unfold ofCall plainBlock ofSpec
  repeat' first | infer_instance | refine calm_bind ?_ fun _ => ?_ | split

end Placed

instance : IsCalm (placeLine lib line) := by
  unfold placeLine
  split <;> infer_instance

instance Library.calm_call : IsCalm (lib.call module func args) :=
  Placed.calm_ofCall

instance Action.calm_ofPlaced : IsCalm (ofPlaced palette p) := by
  unfold ofPlaced
  repeat' first | infer_instance | refine calm_bind ?_ fun _ => ?_ | split

/-! ### Formulas -/

namespace Arithmetic
variable {names : Formula.Names} {f : Formula} {op : BinOp} {operands : List Text} {s : State}

instance : IsCalm (emit lib op target operands) := Library.calm_call

instance : IsCalm (emitAll lib op target fuel n operands) := by
  induction fuel generalizing n operands with
  | zero | succ => unfold emitAll; infer_instance

/-- A step of lowering does not fail for too many splits. -/
abbrev IsCalm {α : Type} (x : Lower α) : Prop := ∀ s, Compile.IsCalm (x.run s)

variable {α β : Type} {lib : Library} {into : Text → Lower Unit} {operand : Lower Text}
  {flat : BinOp → Option (Lower (List Text))} {a b : Lowered}

instance {x : Lower α} {f : α → Lower β} [hx : IsCalm x] [hf : ∀ a, IsCalm (f a)] :
    Compile.IsCalm ((x >>= f).run s) := calm_bind (hx s) fun r => hf r.1 r.2

instance (x : α) : Compile.IsCalm ((pure x : Lower α).run s) := calm_pure _

instance calm_lift {x : Compile α} [hx : Compile.IsCalm x] : Compile.IsCalm ((x : Lower α).run s) :=
  calm_bind hx fun _ => calm_pure _

instance (x : Except Fault α) : Compile.IsCalm ((liftM x : Lower α).run s) :=
  calm_bind (calm_liftM x) fun _ => calm_pure _

instance {ps : List Placed} : Compile.IsCalm ((push ps).run s) := calm_pure _

instance : Compile.IsCalm (freshPart.run s) := calm_pure _

structure Lowered.IsCalm (a : Lowered) : Prop where
  into : ∀ target, Arithmetic.IsCalm (a.into target)
  operand : Arithmetic.IsCalm a.operand
  operands : ∀ op, Arithmetic.IsCalm (a.operands op)

lemma isCalm_uses (hinto : ∀ target, IsCalm (into target)) (hopd : IsCalm operand)
    (hflat : ∀ op, ∀ x ∈ flat op, IsCalm x) : (uses into operand flat).IsCalm := by
  refine ⟨hinto, hopd, fun op => ?_⟩
  change IsCalm ((flat op).getD _)
  cases h : flat op with
  | none =>
    rw [Option.getD_none]
    infer_instance
  | some x => exact hflat op x h

instance {token : Lower Text} [IsCalm token] : Compile.IsCalm ((assign lib token target).run s) := by
  unfold assign Library.setValue
  infer_instance

lemma isCalm_usesOf (hinto : ∀ target, IsCalm (into target)) (hflat : ∀ op, ∀ x ∈ flat op, IsCalm x) :
    (usesOf lib f into flat).IsCalm := by
  unfold usesOf part
  split
  · exact isCalm_uses inferInstance inferInstance hflat
  · exact isCalm_uses hinto inferInstance hflat

lemma isCalm_leaf {token : Text} : (leaf lib f token).IsCalm := by
  unfold leaf
  cases f.value? <;> exact isCalm_uses inferInstance inferInstance (by simp)

lemma isCalm_sides (ha : a.IsCalm) (hb : b.IsCalm) : IsCalm (sides op a b) := by
  obtain ⟨-, -, ha⟩ := ha
  obtain ⟨-, hopd, hopds⟩ := hb
  cases op <;> unfold sides rightOperands <;> infer_instance

lemma isCalm_lower : (lower lib names f).IsCalm := by
  induction f with
  | int | real | truth | var => exact isCalm_leaf
  | sign op a ih =>
    obtain ⟨hinto, hopd, -⟩ := ih
    cases op with
    | plus => exact isCalm_usesOf hinto (by simp)
    | minus => exact isCalm_usesOf inferInstance (by simp)
  | bin op a b iha ihb =>
    have hsides : IsCalm (sides op _ _) := isCalm_sides iha ihb
    refine isCalm_usesOf inferInstance fun o x hx => ?_
    split at hx
    next =>
      cases hx
      exact hsides
    · contradiction
  | other => exact isCalm_usesOf (fun _ _ => calm_lift) (by simp)

instance calm_compile : Compile.IsCalm (compile lib names target f) := by
  have ⟨hinto, _, _⟩ : (lower lib names f).IsCalm := isCalm_lower
  unfold compile warnCount
  infer_instance

end Arithmetic

instance Operand.calm_numberToken : IsCalm (numberToken raw) := by
  unfold numberToken
  repeat' first | infer_instance | dsimp only | split

instance Operand.calm_textToken : IsCalm (textToken raw) := by
  unfold textToken
  infer_instance

namespace Condition

instance calm_compile : IsCalm (compile lib text) := by
  unfold compile ofRange ofComparison
  repeat' first | infer_instance | dsimp only | split

instance : IsCalm (compileText lib text) := by
  unfold compileText
  repeat' first | infer_instance | dsimp only | split

end Condition

/-! ### Assignments -/

namespace Assignment
variable {a : Assignment}

instance : IsCalm (itemToken values raw) := by
  unfold itemToken
  repeat' first | infer_instance | dsimp only | split

instance {rhs : Text} : IsCalm (valueToken values rhs) := by
  unfold valueToken
  repeat' first | infer_instance | split

instance : IsCalm (listActions lib a) := by
  unfold listActions
  infer_instance

instance {ds : Text} : IsCalm (digitsToken ds) := by
  unfold digitsToken
  split <;> infer_instance

instance {stack label : Text} : IsCalm (traceStack lib stack name label) := by
  unfold traceStack
  infer_instance

instance : IsCalm (pushActions lib trace args) := by
  unfold pushActions
  infer_instance

instance calm_callSpec : IsCalm (callSpec api) := by
  unfold callSpec
  split <;> infer_instance

instance {fn : Text} : IsCalm (resultActions lib sigs trace a fn args) := by
  unfold resultActions checkCount readResult removeResult
  repeat' first | infer_instance | split

instance : IsCalm (plainActions lib a) := by
  unfold plainActions updateActions Library.setValue
  repeat' first | infer_instance | split

instance calm_compile : IsCalm (compile lib sigs trace a) := by
  unfold compile sliceAction indexAction
  repeat' first | infer_instance | split

end Assignment

namespace Statement
variable {args : Text}

instance calm_callSpec : IsCalm (callSpec api) := by
  unfold callSpec
  repeat' first | infer_instance | refine calm_bind ?_ fun _ => ?_ | split

instance : IsCalm (callAction lib args) := by
  unfold callAction
  dsimp only
  split
  · exact calm_throw rfl
  · exact calm_bind calm_callSpec fun _ => calm_pure _

instance : IsCalm (loopActions lib name args) := by
  unfold loopActions
  infer_instance

instance calm_compile : IsCalm (compile lib sigs trace line) := by
  unfold compile
  repeat' first | infer_instance | split

end Statement
namespace FormulaCall

instance {s : State} {p : Json} : IsCalm (lowerParam lib s p) := by
  unfold lowerParam
  repeat' first | infer_instance | refine calm_bind ?_ fun _ => ?_ | split

instance calm_compile : IsCalm (compile lib temps line) := by
  unfold compile
  repeat' first | infer_instance | refine calm_bind ?_ fun _ => ?_ | split

end FormulaCall

/-! ### Lines -/

namespace Program.Instruction
variable {ctx : Context}

instance {c : Line.If} : IsCalm (conditionAction ctx c) := by
  unfold conditionAction
  repeat' first | infer_instance | refine calm_bind ?_ fun _ => ?_ | split

instance calm_find {chain : Text} : Calm (Selector.find api palette chain) := by
  unfold Selector.find Selector.find.ofData
  with_reducible repeat' first | infer_instance | refine Calm.bind ?_ fun _ => ?_ | dsimp only | split

instance {sel : Line.Select} : IsCalm (ofSelect ctx negated sel) := by
  have hfind : Calm (Selector.find ctx.lib.api ctx.palette sel.chain) := calm_find
  unfold ofSelect place
  with_reducible repeat' first
    | infer_instance | exact calm_throw (hfind.isRunaway ‹_›) | refine calm_bind ?_ fun _ => ?_ | dsimp only | split

instance : IsCalm (returnAction ctx value) := calm_bind Library.calm_call fun _ => Action.calm_ofPlaced

instance : IsCalm (place ctx p) := Action.calm_ofPlaced

instance {fn args : Text} : IsCalm (ofMessage ctx temps fn args) := by
  unfold ofMessage
  repeat' first | infer_instance | refine calm_bind ?_ fun _ => ?_ | split

instance calm_ofPlaced {firsts : List Placed} : IsCalm (ofPlaced ctx negated line temps firsts p) := by
  unfold ofPlaced checkNegated
  infer_instance

instance calm_ofCall : IsCalm (ofCall ctx temps n negated line) := by
  unfold ofCall unknownLine
  repeat' first | infer_instance | refine calm_bind ?_ fun _ => ?_ | split

instance {owner : Plan.Owner} : IsCalm (ofInner ctx owner temps n negated line) := by
  unfold ofInner ofReturn
  repeat' first | infer_instance | refine calm_bind ?_ fun _ => ?_ | split

theorem calm_ofLine {owner : Option Plan.Owner} : IsCalm (ofLine ctx owner temps n negated line) := by
  unfold ofLine
  repeat' first | infer_instance | split

/-- What every function has is added without splitting. -/
instance calm_completed {s : State} {b : OpenBlock} : IsCalm (completed ctx s b) := by
  unfold completed prologue
  split <;> infer_instance

end Program.Instruction

/-! ### Preparing a script -/

namespace Source
variable {t : Task} {ts : List Task} {s : State}

instance calm_step : Calm (step files t s) := by
  unfold step
  repeat' first | infer_instance | split

instance calm_run : Calm (run files fuel ts s) := by
  induction fuel generalizing ts s with
  | zero => cases ts <;> exact calm_ok _
  | succ fuel ih =>
    cases ts with
    | nil => exact calm_ok _
    | cons t ts =>
      rw [run]
      split
      next e he => exact calm_error (calm_step.isRunaway he)
      · exact ih

instance : Calm (load files entry) := by
  have hrun : Calm (run files (stepBound files) [.file (start entry)] ⟨[], [], []⟩) := calm_run
  unfold load
  split
  · exact calm_ok _
  next e he => exact calm_error (hrun.isRunaway he)

end Source

instance Layout.calm_joinCalls {c : Option OpenCall} : IsCalm (joinCalls cfg c lines) := by
  induction lines generalizing c with
  | nil => cases c <;> unfold joinCalls <;> infer_instance
  | cons line lines ih =>
    cases c <;> unfold joinCalls
    all_goals
      try unfold joined
      repeat' first | infer_instance | split

namespace Template

instance calm_params? : Calm (params? name raw) := by
  have hadd : ∀ acc token, Calm (addParam name acc token) := by
    intro acc token
    unfold addParam
    infer_instance
  unfold params?
  infer_instance

instance {known : Table Template} : Calm (collect fuel known lines) := by
  induction fuel generalizing known lines with
  | zero => exact calm_ok _
  | succ fuel ih =>
    cases lines with
    | nil => exact calm_ok _
    | cons line rest =>
      unfold collect
      with_reducible repeat' first
        | infer_instance | exact calm_error (ih.isRunaway ‹_›) | exact calm_error (calm_params?.isRunaway ‹_›)
        | dsimp only | split

instance calm_bind {t : Template} {args : Arguments} : Calm (bind name t args) := by
  have hnm : ∀ bound arg, Calm (bindNamed name t bound arg) := by
    intro bound arg
    unfold bindNamed
    infer_instance
  have hdef : ∀ bound param, Calm (bindDefault name t bound param) := by
    intro bound param
    unfold bindDefault
    repeat' first | infer_instance | split
  unfold bind
  infer_instance

instance {depth : Nat} {stack : List Text} : Calm (expandLines templates depth stack lines) := by
  induction depth generalizing stack lines with
  | zero => exact calm_error rfl
  | succ depth ih =>
    rw [expandLines]
    refine Calm.bind (@calm_mapM _ _ _ (fun line => ?_) _) fun _ => calm_return _
    split <;> infer_instance

end Template
namespace Multiselect

instance {margin counter : Text} {scope : Scope} : Calm (conditionLines margin scope counter line) := by
  unfold conditionLines weighted checkCall
  with_reducible repeat' first | infer_instance | refine Calm.bind ?_ fun _ => ?_ | dsimp only | split

instance : Calm (expandFrom fuel lines) := by
  induction fuel generalizing lines with
  | zero => exact calm_ok _
  | succ fuel ih =>
    cases lines with
    | nil => exact calm_ok _
    | cons line rest =>
      unfold expandFrom blockLines
      repeat' first | infer_instance | split

end Multiselect
namespace Program

instance : Calm (paramsOf name raw) := by
  unfold paramsOf
  infer_instance

instance : Calm (signaturesOf lines) := by
  unfold signaturesOf
  refine @calm_foldlM _ _ _ (fun sigs line => ?_) _ _
  split <;> infer_instance

instance calm_checkNames : Calm (checkNames templates sigs) := by
  unfold checkNames
  split <;> infer_instance

instance {α : Type} {x : Except Error α} [h : Calm x] : IsCalm (Compile.ofExcept x) := h

instance : IsCalm (prepare cfg files entry) := by
  unfold prepare traceCount Multiselect.expand Template.expand
  repeat' first | infer_instance | refine calm_bind ?_ fun _ => ?_

instance calm_setup {events : Table KnownEvent} : IsCalm (setup cfg lib palette events files entry) := by
  unfold setup
  infer_instance

end Program

/-- A script is made ready without splitting. -/
theorem Data.calm_setup {d : Data} {shown : Text} : IsCalm (d.setup cfg files entry shown) := by
  have hapi : IsCalm d.loadApi := by
    unfold loadApi
    split <;> infer_instance
  unfold setup
  infer_instance

end BlockScript
