import BlockScript.Script.Program
import BlockScript.Proofs.Outcomes
import BlockScript.Proofs.Splitting

/-!
# Runs of scripts

A script is compiled by carrying out the instructions of its lines one after another. What every instruction keeps holds
behind all lines (`lines_induction`). An instruction ends the block that is open, begins a new one, or adds actions to
the one that is open (`exec_cases`). Blocks are put into rows one after another, each with the numbers behind those of
the blocks before it (`Flushed`), and the selections recorded were made by actions of the script (`Recorded`).
-/

open Except List Option
namespace BlockScript
open Script (Compile Error Settings)
open Script.Compile (bind_ok result_bind)
open Plan (Boundary Owner)
namespace Line.Start

/-- The owner of the block that a line begins; none if its ticks are no number. -/
def owner? : Start → Option Owner
  | .event name => some (.event name)
  | .func name _ => some (.func name)
  | .loop name ticks => (Text.toInt? ticks).map (.loop name)

end Line.Start

lemma result_mapM {α β : Type} (f : α → Compile β) (xs : List α) :
    (xs.mapM f).result = xs.mapM fun x => (f x).result := by
  have hloop : ∀ xs acc,
      (List.mapM.loop f xs acc).result = List.mapM.loop (fun x => (f x).result) xs acc := by
    intro xs
    induction xs with
    | nil => exact fun _ => rfl
    | cons x xs ih =>
      intro acc
      rw [List.mapM.loop, result_bind]
      exact congrArg _ (funext fun y => ih (y :: acc))
  exact hloop xs []

lemma mapM_ok {α β : Type} {f : α → Compile β} {xs : List α} {ys : List β} (h : (xs.mapM f).result = .ok ys) :
    ∀ y ∈ ys, ∃ x ∈ xs, (f x).result = .ok y := by
  rw [result_mapM] at h
  exact exists_of_mapM_ok h

namespace Program
variable {ctx : Context} {s s' : State} {b full : OpenBlock} {i : Instruction} {namespaces ls : List Text} {n : Nat}
  {p : Prepared} {f : Finished}

/-! ### Lines -/

/-- What a line says: whether it is negated, and what it is without names of modules. Some lines say nothing. -/
def code (namespaces : List Text) (raw : Text) : Option (Bool × Text) :=
  let t := Text.trim raw
  if Layout.isIdle t then none else some (Line.dropNot (Source.dropNamespaces namespaces t))

@[simp] lemma result_traceLine (ctx : Context) (n : Nat) (t : Text) (s : State) :
    (traceLine ctx n t s).result = .ok () := by
  rw [traceLine]
  split
  · exact Settings.result_traceStage ..
  · rfl

lemma result_line (ctx : Context) (namespaces : List Text) (n : Nat) (raw : Text) (s : State) :
    (line ctx namespaces n raw s).result = match code namespaces raw with
      | none => .ok s
      | some (negated, t) =>
        if negated && t.isEmpty then .error .negatedNothing
        else (Instruction.ofLine ctx (s.block.map fun b => b.owner) s.temps n negated t).result.bind fun i =>
          (exec ctx s i).result := by
  rw [line, code]
  simp only [result_bind, result_traceLine]
  split
  · rfl
  simp only [apply_ite Compile.result, result_bind]
  rfl

/-- A negation has something behind it in every line read. -/
lemma not_bare_of_line {raw t : Text} {negated : Bool} (h : (line ctx namespaces n raw s).result = .ok s')
    (hcd : code namespaces raw = some (negated, t)) : (negated && t.isEmpty) = false := by
  rw [result_line, hcd] at h
  cases hbare : negated && t.isEmpty <;> simp [hbare] at h ⊢

/-- A line read says nothing, or its instruction was carried out. -/
lemma line_ok {raw : Text} (h : (line ctx namespaces n raw s).result = .ok s') :
    (code namespaces raw = none ∧ s' = s) ∨ ∃ negated t i, code namespaces raw = some (negated, t)
      ∧ (Instruction.ofLine ctx (s.block.map fun b => b.owner) s.temps n negated t).result = .ok i
      ∧ (exec ctx s i).result = .ok s' := by
  have hread := h
  rw [result_line] at h
  split at h
  next hcd => exact .inl ⟨hcd, (ok.inj h).symm⟩
  next negated t hcd =>
    rw [not_bare_of_line hread hcd] at h
    rcases hi : (Instruction.ofLine ctx (s.block.map fun b => b.owner) s.temps n negated t).result with e | i
    · simp [hi, Except.bind] at h
    rw [hi] at h
    exact .inr ⟨negated, t, i, hcd, hi, h⟩

/-- A line closes something, opens the scope of a condition, begins a block, or is left to the block that is open. -/
lemma ofLine_cases {owner : Option Owner} {temps : Nat} {negated : Bool} {t : Text}
    (h : (Instruction.ofLine ctx owner temps n negated t).result = .ok i) :
    (t == "\x7d") ∧ i = .close ∨ (t == "\x7d") = false
      ∧ ((∃ c p a, Line.If.ofLine? t = some c ∧ owner.isSome ∧ (Instruction.place ctx p).result = .ok a
          ∧ i = .condition a)
        ∨ Line.If.ofLine? t = none
          ∧ ((∃ head, Line.Start.ofLine? t = some head ∧ negated = false ∧ i = .start head)
            ∨ Line.Start.ofLine? t = none ∧ (owner = none ∧ i = .idle
              ∨ ∃ o, owner = some o ∧ (Instruction.ofInner ctx o temps n negated t).result = .ok i))) := by
  unfold Instruction.ofLine at h
  split at h
  next hcl => exact .inl ⟨hcl, (ok.inj h).symm⟩
  next hcl =>
    refine .inr ⟨Bool.not_eq_true _ ▸ hcl, ?_⟩
    cases hif : Line.If.ofLine? t with
    | some c =>
      simp only [hif] at h
      cases negated with
      | true => simp at h
      | false =>
        cases owner with
        | none => simp at h
        | some o =>
          simp only [Bool.false_eq_true, if_false, Option.isNone_some, bind_ok] at h
          obtain ⟨p, -, a, ha, h⟩ := h
          exact .inl ⟨c, p, a, rfl, rfl, ha, (ok.inj h).symm⟩
    | none =>
      refine .inr ⟨rfl, ?_⟩
      cases hst : Line.Start.ofLine? t with
      | some head =>
        simp only [hif, hst] at h
        cases negated with
        | true => simp at h
        | false => exact .inl ⟨head, rfl, rfl, (ok.inj h).symm⟩
      | none =>
        simp only [hif, hst] at h
        cases owner with
        | none => exact .inr ⟨rfl, .inl ⟨rfl, (ok.inj h).symm⟩⟩
        | some o => exact .inr ⟨rfl, .inr ⟨o, rfl, h⟩⟩

/-- Outside of blocks a line begins one, closes something or does nothing. -/
lemma ofLine_none {temps : Nat} {negated : Bool} {t : Text}
    (h : (Instruction.ofLine ctx none temps n negated t).result = .ok i) :
    i = .idle ∨ i = .close ∨ ∃ head, i = .start head := by
  rcases ofLine_cases h with ⟨-, hi⟩ | ⟨-, ⟨_, _, _, -, hsome, -⟩ | ⟨-, ⟨head, -, -, hi⟩ | ⟨-, ⟨-, hi⟩ | ⟨_, ho, -⟩⟩⟩⟩
  · exact .inr (.inl hi)
  · cases hsome
  · exact .inr (.inr ⟨head, hi⟩)
  · exact .inl hi
  · cases ho

/-- What every instruction keeps holds behind all lines. -/
theorem lines_induction {P : State → Prop} (h : (lines ctx namespaces n s ls).result = .ok s') (hs : P s)
    (hstep : ∀ s i s', P s → (s.block = none → i = .idle ∨ i = .close ∨ ∃ head, i = .start head) →
      (exec ctx s i).result = .ok s' → P s') : P s' := by
  induction ls generalizing n s with
  | nil =>
    cases h
    exact hs
  | cons raw ls ih =>
    rw [lines, bind_ok] at h
    obtain ⟨s₁, hln, h⟩ := h
    refine ih h ?_
    rcases line_ok hln with ⟨-, rfl⟩ | ⟨negated, t, i, -, hi, hexec⟩
    · exact hs
    refine hstep s i s₁ hs (fun hblk => ?_) hexec
    rw [hblk] at hi
    exact ofLine_none hi

/-! ### Blocks -/

/-- All actions of a block: those of every function, and what was read. -/
def fullActions (ctx : Context) (b : OpenBlock) : Compile (List Action) := do
  match b.owner with
  | .func _ =>
    let pre ← prologue ctx b.params
    if b.returns then return pre ++ b.actions else return pre ++ b.actions ++ [← returnAction ctx "text()"]
  | _ => return b.actions

/-- A function that returns nothing gets one more action, and a boundary behind it where no scope is open. -/
lemma completed_ok (h : (completed ctx s b).result = .ok full) :
    (fullActions ctx b).result = .ok full.actions ∧ (full.boundaries = b.boundaries ∨
      s.scopes = [] ∧ full.boundaries = State.addBoundary b.boundaries ⟨full.actions.length, s.selection⟩) := by
  cases hown : b.owner with
  | func name =>
    simp only [completed, hown, bind_ok] at h
    obtain ⟨pre, hpre, h⟩ := h
    simp only [fullActions, hown, result_bind, hpre, Except.bind]
    split at h
    next hrets =>
      cases h
      rw [if_pos hrets]
      exact ⟨rfl, .inl rfl⟩
    next hrets =>
      rw [bind_ok] at h
      obtain ⟨ret, hret, h⟩ := h
      cases h
      rw [if_neg hrets, result_bind, hret]
      refine ⟨rfl, ?_⟩
      simp only [State.extend]
      split
      next hsc => exact .inr ⟨by simpa using hsc, rfl⟩
      · exact .inl rfl
  | event | loop =>
    simp only [completed, hown] at h
    cases h
    simp [fullActions, hown]

lemma mem_fullActions {as : List Action} (h : (fullActions ctx b).result = .ok as) {a : Action} (ha : a ∈ b.actions) :
    a ∈ as := by
  rw [fullActions] at h
  split at h
  next =>
    rw [bind_ok] at h
    obtain ⟨pre, -, h⟩ := h
    split at h
    next =>
      cases h
      simp [ha]
    rw [bind_ok] at h
    obtain ⟨ret, -, h⟩ := h
    cases h
    simp [ha]
  next =>
    cases h
    exact ha

/-- A block is put into rows as `f`, with numbers from `m` up to `m'`. -/
structure Finished.Made (ctx : Context) (m : Nat) (f : Finished) (m' : Nat) : Prop where
  full : (fullActions ctx f.block).result = .ok f.left.actions
  rows : (ctx.blockRows f.block.owner f.left m).result = .ok (f.chains, m')

lemma flush_ok (h : (flush ctx s).result = .ok s') :
    (s.block = none ∧ s' = s) ∨ ∃ f next, s.block = some f.block ∧ f.Made ctx s.nextHelper next
      ∧ (f.left.boundaries = f.block.boundaries ∨ s.scopes = []
          ∧ f.left.boundaries = State.addBoundary f.block.boundaries ⟨f.left.actions.length, s.selection⟩)
      ∧ s' = { s with done := s.done ++ [f], block := none, nextHelper := next } := by
  rw [flush] at h
  split at h
  next hblk => exact .inl ⟨hblk, (ok.inj h).symm⟩
  next b hblk =>
    simp only [bind_ok] at h
    obtain ⟨-, -, full, hfull, ⟨chains, next⟩, hrows, -, -, h⟩ := h
    cases h
    obtain ⟨hacts, hbnd⟩ := completed_ok hfull
    exact .inr ⟨⟨b, ⟨full.actions, full.boundaries⟩, chains⟩, next, hblk, ⟨hacts, hrows⟩, hbnd, rfl⟩

lemma beginBlock_ok {head : Line.Start} (h : (beginBlock ctx head s).result = .ok s') :
    ∃ s₁ owner params, (flush ctx s).result = .ok s₁ ∧ head.owner? = some owner
      ∧ s' = { s₁ with block := some ⟨owner, params, false, [], [], 0⟩ } := by
  rw [beginBlock, bind_ok] at h
  obtain ⟨s₁, hfl, h⟩ := h
  cases head with
  | event | func => exact ⟨s₁, _, _, hfl, rfl, (ok.inj h).symm⟩
  | loop name ticks =>
    simp only at h
    split at h
    next k hk => exact ⟨s₁, _, _, hfl, by rw [Line.Start.owner?, hk]; rfl, (ok.inj h).symm⟩
    · simp at h

/-- A run is a run of lines, and the block that is open at the end is put into rows. -/
lemma run_ok (h : (run ctx p).result = .ok s') :
    ∃ s, (lines ctx p.namespaces 1 .start p.lines).result = .ok s ∧ (flush ctx s).result = .ok s' := by
  simp only [run, bind_ok] at h
  obtain ⟨s, hs, -, -, s₁, hfl, -, -, h⟩ := h
  cases h
  exact ⟨s, hs, hfl⟩

/-- A script set up can be run, and its end passes a test. -/
def passes (setup : Except Error (Context × Prepared)) (test : Context → State → Bool) : Bool :=
  match setup with
  | .error _ => false
  | .ok (ctx, p) =>
    match (run ctx p).result with
    | .error _ => false
    | .ok s => test ctx s

lemma exists_of_passes {setup : Except Error (Context × Prepared)} {test : Context → State → Bool}
    (h : passes setup test) : ∃ ctx p s, setup = .ok (ctx, p) ∧ (run ctx p).result = .ok s ∧ test ctx s := by
  unfold passes at h
  split at h
  · contradiction
  next ctx p =>
    split at h
    · contradiction
    next s hrun => exact ⟨ctx, p, s, rfl, hrun, h⟩

/-! ### Blocks in order -/

/-- Blocks put into rows one after another, each with the numbers behind those of the blocks before it. -/
inductive Flushed (ctx : Context) : List Finished → Nat → Prop
  | nil : Flushed ctx [] 1
  | snoc {fs : List Finished} {m m' : Nat} {f : Finished} (before : Flushed ctx fs m) (made : f.Made ctx m m') :
    Flushed ctx (fs ++ [f]) m'

lemma Flushed.made {fs : List Finished} (h : Flushed ctx fs n) (hf : f ∈ fs) : ∃ m m', f.Made ctx m m' := by
  induction h with
  | nil => simp at hf
  | snoc _ made ih =>
    rcases mem_append.mp hf with hf | hf
    · exact ih hf
    obtain rfl := mem_singleton.mp hf
    exact ⟨_, _, made⟩

lemma Flushed.flush (hs : Flushed ctx s.done s.nextHelper) (h : (flush ctx s).result = .ok s') :
    Flushed ctx s'.done s'.nextHelper := by
  rcases flush_ok h with ⟨-, rfl⟩ | ⟨f, next, -, hmade, -, rfl⟩
  · exact hs
  · exact .snoc hs hmade

namespace State
variable {a : Action}

@[simp] lemma scopes_add (s : State) (a : Action) : (s.add a).scopes = s.scopes := rfl

@[simp] lemma selection_add (s : State) (a : Action) : (s.add a).selection = s.selection := rfl

@[simp] lemma block_add (s : State) (a : Action) : (s.add a).block = s.block.map fun b => s.extend b a := rfl

lemma foldl_add {P : State → Prop} (hadd : ∀ s a, P s → P (s.add a)) (as : List Action) (hs : P s) :
    P (as.foldl add s) := by
  induction as generalizing s with
  | nil => exact hs
  | cons a as ih => exact ih (hadd s a hs)

end State

lemma block_flush (h : (flush ctx s).result = .ok s') : s'.block = none := by
  rcases flush_ok h with ⟨hblk, rfl⟩ | ⟨-, -, -, -, -, rfl⟩
  · exact hblk
  · rfl

section
variable {s'' : State} {as : List Action} {returned : Bool}

/-! ### Instructions -/

def Instruction.added (s : State) : Instruction → List Action
  | .idle | .start _ => []
  | .close =>
    match s.scopes with
    | [] => []
    | .condition :: _ => [.skip]
    | .selection before default :: _ => [before.getD default]
  | .condition a => [{ a with opens := true }]
  | .selection a negated _ => [{ a with negated }]
  | .actions as _ => as
  | .result a => [a]

/-- What a block consists of, apart from the boundaries in it. -/
def OpenBlock.core (b : OpenBlock) : Owner × List Text × Bool × List Action := (b.owner, b.params, b.returns, b.actions)

/-- Actions were added to the block that is open. `returned` says that one of them returns a value. -/
structure State.Extends (s : State) (as : List Action) (returned : Bool) (s' : State) : Prop where
  done : s'.done = s.done
  nextHelper : s'.nextHelper = s.nextHelper
  block : s'.block.map OpenBlock.core
    = s.block.map fun b => (b.owner, b.params, b.returns || returned, b.actions ++ as)

namespace State.Extends

lemma refl (s : State) : s.Extends [] false s :=
  ⟨rfl, rfl, by cases s.block <;> simp [OpenBlock.core]⟩

lemma add (h : s.Extends as returned s') (a : Action) : s.Extends (as ++ [a]) returned (s'.add a) := by
  obtain ⟨hdone, hnext, hblk⟩ := h
  refine ⟨hdone, hnext, ?_⟩
  cases hb : s.block <;> cases hb' : s'.block <;> simp [hb, hb', State.extend, OpenBlock.core] at hblk ⊢
  obtain ⟨hown, hps, hrets, hacts⟩ := hblk
  exact ⟨hown, hps, hrets, by rw [hacts, append_assoc]⟩

lemma foldl_add (h : s.Extends as returned s') (more : List Action) :
    s.Extends (as ++ more) returned (more.foldl State.add s') := by
  induction more generalizing as s' with
  | nil => simpa using h
  | cons a more ih => simpa using ih (h.add a)

lemma congr (h : s.Extends as returned s') (hdone : s''.done = s'.done) (hnext : s''.nextHelper = s'.nextHelper)
    (hblk : s''.block = s'.block) : s.Extends as returned s'' :=
  ⟨hdone.trans h.done, hnext.trans h.nextHelper, by rw [hblk, h.block]⟩

lemma exists_block {b : OpenBlock} (h : s.Extends as returned s') (hb : s.block = some b) :
    ∃ b', s'.block = some b' ∧ b'.owner = b.owner ∧ b'.params = b.params ∧ b'.returns = (b.returns || returned)
      ∧ b'.actions = b.actions ++ as := by
  have hblk := h.block
  rw [hb] at hblk
  obtain ⟨b', hb', hcore⟩ := map_eq_some_iff.mp hblk
  simp only [OpenBlock.core, Prod.mk.injEq] at hcore
  exact ⟨b', hb', hcore.1, hcore.2.1, hcore.2.2.1, hcore.2.2.2⟩

lemma block_none (h : s.Extends as returned s') (hb : s.block = none) : s'.block = none := by
  have hblk := h.block
  rw [hb] at hblk
  simpa using hblk

end State.Extends

def Instruction.returns : Instruction → Bool
  | .result _ => true
  | _ => false

/-- An instruction closes the block that is open, begins another one, or adds actions to the one that is open. -/
theorem exec_cases (h : (exec ctx s i).result = .ok s') : (i = .close ∧ s.scopes = [] ∧ (flush ctx s).result = .ok s')
      ∨ (∃ head s₁ owner params, i = .start head ∧ (flush ctx s).result = .ok s₁ ∧ head.owner? = some owner
        ∧ s' = { s₁ with block := some ⟨owner, params, false, [], [], 0⟩ })
      ∨ (∀ head, i ≠ .start head) ∧ (i = .close → s.scopes ≠ []) ∧ s.Extends (i.added s) i.returns s' := by
  cases i with
  | idle =>
    cases h
    exact .inr (.inr ⟨by simp, by simp, .refl s⟩)
  | close =>
    rw [exec] at h
    split at h
    next scope outer hsc =>
      cases h
      refine .inr (.inr ⟨by simp, by simp [hsc], ?_⟩)
      rw [Instruction.added, hsc]
      have hst : s.Extends [] false { s with scopes := outer } := (State.Extends.refl s).congr rfl rfl rfl
      cases scope with
      | condition => exact hst.add .skip
      | selection before default =>
        cases before with
        | some sel =>
          have hback : s.Extends [] false { s with scopes := outer, selection := some sel } := hst.congr rfl rfl rfl
          exact hback.add sel
        | none =>
          have hback : s.Extends [] false { s with scopes := outer, selection := none } := hst.congr rfl rfl rfl
          exact (hback.add default).congr rfl rfl rfl
    next hsc => exact .inl ⟨rfl, hsc, h⟩
  | condition a =>
    cases h
    have hst : s.Extends [] false (s.enter .condition) := (State.Extends.refl s).congr rfl rfl rfl
    exact .inr (.inr ⟨by simp, by simp, hst.add _⟩)
  | start head =>
    obtain ⟨s₁, owner, params, hfl, hown, rfl⟩ := beginBlock_ok h
    exact .inr (.inl ⟨head, s₁, owner, params, rfl, hfl, hown, rfl⟩)
  | selection a negated scope =>
    have hadd := (State.Extends.refl s).add { a with negated }
    refine .inr (.inr ⟨by simp, by simp, ?_⟩)
    cases scope <;> (obtain rfl := ok.inj h; exact hadd.congr rfl rfl rfl)
  | actions as temps =>
    cases h
    have hst : s.Extends [] false { s with temps } := (State.Extends.refl s).congr rfl rfl rfl
    exact .inr (.inr ⟨by simp, by simp, hst.foldl_add as⟩)
  | result a =>
    cases h
    refine .inr (.inr ⟨by simp, by simp, ?_⟩)
    have hst : s.Extends [] true { s with block := s.block.map fun b => { b with returns := true } } :=
      ⟨rfl, rfl, by cases s.block <;> simp [OpenBlock.core]⟩
    exact hst.add a

end

lemma Flushed.exec (hs : Flushed ctx s.done s.nextHelper) (h : (exec ctx s i).result = .ok s') :
    Flushed ctx s'.done s'.nextHelper := by
  rcases exec_cases h with ⟨-, -, hfl⟩ | ⟨head, s₁, owner, params, -, hfl, -, rfl⟩ | ⟨-, -, hext⟩
  · exact hs.flush hfl
  · have hs₁ := hs.flush hfl
    exact hs₁
  · rwa [hext.done, hext.nextHelper]

/-- The blocks of a script are put into rows in order. -/
theorem flushed_of_run (h : (run ctx p).result = .ok s) : Flushed ctx s.done s.nextHelper := by
  obtain ⟨s₁, hls, hfl⟩ := run_ok h
  have hs₁ : Flushed ctx s₁.done s₁.nextHelper :=
    lines_induction (P := fun s => Flushed ctx s.done s.nextHelper) hls .nil fun s i s' hs _ h => hs.exec h
  exact hs₁.flush hfl

/-! ### Selections -/

namespace State
variable {a sel : Action}

def actions (s : State) : List Action :=
  (s.done.flatMap fun f => f.left.actions) ++ (s.block.map fun b => b.actions).getD []

/-- An action of the script makes a selection, possibly negated. -/
def Selects (s : State) (sel : Action) : Prop := ∃ negated, { sel with negated } ∈ s.actions

/-- Every selection recorded was made by an action. Scopes are open in blocks only. -/
structure Recorded (s : State) : Prop where
  selection : ∀ sel ∈ s.selection, s.Selects sel
  scopes : ∀ before default, .selection (some before) default ∈ s.scopes → s.Selects before
  opened : ∀ b ∈ s.block, ∀ bd ∈ b.boundaries, ∀ sel ∈ bd.selection, s.Selects sel
  done : ∀ f ∈ s.done, ∀ bd ∈ f.left.boundaries, ∀ sel ∈ bd.selection, s.Selects sel
  outside : s.block = none → s.scopes = []

lemma Selects.mono (h : s.Selects sel) (hsub : ∀ a ∈ s.actions, a ∈ s'.actions) : s'.Selects sel := by
  obtain ⟨negated, hmem⟩ := h
  exact ⟨negated, hsub _ hmem⟩

lemma mem_addBoundary {bs : List Boundary} {bd bd' : Boundary} (h : bd' ∈ addBoundary bs bd) : bd' ∈ bs ∨ bd' = bd := by
  rw [addBoundary] at h
  split at h
  · exact (mem_append.mp h).imp (dropLast_subset _ ·) mem_singleton.mp
  · exact (mem_append.mp h).imp id mem_singleton.mp

lemma mem_boundaries_extend {bd : Boundary} (h : bd ∈ (s.extend b a).boundaries) :
    bd ∈ b.boundaries ∨ bd.selection = s.selection := by
  simp only [extend] at h
  split at h
  · exact (mem_addBoundary h).imp_right fun h => by rw [h]
  · exact .inl h

/-- The block that is open may get more actions, and boundaries that record the selection in force. -/
lemma Recorded.map_block {f : OpenBlock → OpenBlock} (hs : s.Recorded) (hacts : ∀ b, ∀ a ∈ b.actions, a ∈ (f b).actions)
    (hbnd : ∀ b, ∀ bd ∈ (f b).boundaries, bd ∈ b.boundaries ∨ bd.selection = s.selection) :
    ({ s with block := s.block.map f } : State).Recorded := by
  have hmono : ∀ sel, s.Selects sel → { s with block := s.block.map f }.Selects sel := by
    refine fun sel h => h.mono fun a ha => mem_append.mpr ((mem_append.mp ha).imp_right fun ha => ?_)
    cases hblk : s.block with
    | none => simp [hblk] at ha
    | some b => exact hacts b a (by simpa [hblk] using ha)
  refine ⟨fun sel h => hmono _ (hs.selection sel h), fun c d h => hmono _ (hs.scopes c d h), ?_,
    fun f hf bd hbd sel h => hmono _ (hs.done f hf bd hbd sel h), fun h => hs.outside (by simpa using h)⟩
  intro b' hb' bd hbd sel hsel
  obtain ⟨b, hb, rfl⟩ := map_eq_some_iff.mp hb'
  rcases hbnd b bd hbd with hbd | hbd
  · exact hmono _ (hs.opened b hb bd hbd sel hsel)
  · exact hmono _ (hs.selection sel (hbd ▸ hsel))

lemma Recorded.add (hs : s.Recorded) (a : Action) : (s.add a).Recorded :=
  hs.map_block (fun _ _ ha => mem_append_left [a] ha) fun _ _ => mem_boundaries_extend

lemma Recorded.select {sel : Option Action} (hs : s.Recorded) (hsel : ∀ a ∈ sel, s.Selects a) :
    ({ s with selection := sel } : State).Recorded :=
  ⟨hsel, hs.scopes, hs.opened, hs.done, hs.outside⟩

lemma selects_add (hb : s.block.isSome) (a : Action) (negated : Bool) : (s.add { a with negated }).Selects a := by
  obtain ⟨b, hb⟩ := isSome_iff_exists.mp hb
  exact ⟨negated, by simp [actions, hb, extend]⟩

lemma Recorded.flush (hs : s.Recorded) (h : (flush ctx s).result = .ok s') :
    (s.scopes = [] → s'.Recorded) ∧ ∀ owner params,
      ({ s' with block := some ⟨owner, params, false, [], [], 0⟩ } : State).Recorded := by
  rcases flush_ok h with ⟨hblk, rfl⟩ | ⟨f, next, hblk, hmade, hbnd, rfl⟩
  · refine ⟨fun _ => hs, fun owner params => ?_⟩
    have hmono : ∀ sel, s'.Selects sel →
        { s' with block := some ⟨owner, params, false, [], [], 0⟩ }.Selects sel :=
      fun sel h => h.mono (by simp [actions, hblk])
    refine ⟨fun sel h => hmono _ (hs.selection sel h), fun c d h => hmono _ (hs.scopes c d h), ?_,
      fun f hf bd hbd sel h => hmono _ (hs.done f hf bd hbd sel h), fun h => absurd h (by simp)⟩
    rintro b hb bd hbd
    cases hb
    simp at hbd
  have hdone : ∀ bd ∈ f.left.boundaries, ∀ sel ∈ bd.selection, s.Selects sel := by
    intro bd hbd sel hsel
    rcases hbnd with heq | ⟨-, heq⟩
    · exact hs.opened f.block hblk bd (heq ▸ hbd) sel hsel
    rcases mem_addBoundary (heq ▸ hbd) with hbd | rfl
    · exact hs.opened f.block hblk bd hbd sel hsel
    · exact hs.selection sel hsel
  have hall : ∀ block, (block = none → s.scopes = []) → (∀ b ∈ block, b.boundaries = []) →
      { s with done := s.done ++ [f], block, nextHelper := next }.Recorded := by
    intro block hout hbnd
    have hmono : ∀ sel, s.Selects sel →
        { s with done := s.done ++ [f], block, nextHelper := next }.Selects sel := by
      refine fun sel h => h.mono fun a ha => ?_
      rw [actions, hblk] at ha
      rw [actions, flatMap_append, append_assoc]
      refine mem_append.mpr ((mem_append.mp ha).imp_right fun ha => ?_)
      exact mem_append_left _ (by simpa using mem_fullActions hmade.full ha)
    refine ⟨fun sel h => hmono _ (hs.selection sel h), fun c d h => hmono _ (hs.scopes c d h), ?_, ?_, hout⟩
    · intro b hb bd hbd
      simp [hbnd b hb] at hbd
    exact forall_mem_append.mpr ⟨fun g hg bd hbd sel h => hmono _ (hs.done g hg bd hbd sel h),
      forall_mem_singleton.mpr fun bd hbd sel h => hmono _ (hdone bd hbd sel h)⟩
  exact ⟨fun hsc => hall none (fun _ => hsc) (by simp), fun owner params => hall _ (by simp) (by simp)⟩

lemma Recorded.closeScope {scope : OpenScope} {outer : List OpenScope} (hs : s.Recorded)
    (hsc : s.scopes = scope :: outer) : (closeScope scope { s with scopes := outer }).Recorded := by
  have hblk : s.block.isSome := by
    by_contra hnone
    simp [hs.outside (by simpa using hnone)] at hsc
  have houter : { s with scopes := outer }.Recorded :=
    ⟨hs.selection, fun c d h => hs.scopes c d (by simp [hsc, h]), hs.opened, hs.done,
      fun h => absurd hblk (by simp [show s.block = none from h])⟩
  match scope with
  | .condition => exact houter.add .skip
  | .selection (some before) default =>
    refine (houter.select fun a ha => ?_).add before
    cases ha
    exact hs.scopes before default (by simp [hsc])
  | .selection none default =>
    have hadd := (houter.select (by simp : ∀ a ∈ none, _)).add default
    refine hadd.select fun a ha => ?_
    cases ha
    exact selects_add (s := { s with scopes := outer, selection := none }) hblk default default.negated

lemma Recorded.exec (hs : s.Recorded) (hi : s.block = none → i = .idle ∨ i = .close ∨ ∃ head, i = .start head)
    (h : (exec ctx s i).result = .ok s') : s'.Recorded := by
  cases i with
  | idle =>
    cases h
    exact hs
  | close =>
    rw [Program.exec] at h
    split at h
    next scope outer hsc =>
      cases h
      exact hs.closeScope hsc
    next hsc => exact (hs.flush h).1 hsc
  | condition a =>
    cases h
    refine Recorded.add ?_ _
    exact ⟨hs.selection, fun c d h => hs.scopes c d (by simpa [enter] using h), hs.opened, hs.done,
      fun h => by simpa using hi h⟩
  | start head =>
    obtain ⟨s₁, owner, params, hfl, -, rfl⟩ := beginBlock_ok h
    exact (hs.flush hfl).2 owner params
  | selection a negated scope =>
    have hblk : s.block.isSome := by
      by_contra hnone
      simpa using hi (by simpa using hnone)
    have hsel : { s.add { a with negated } with selection := some a }.Recorded := by
      refine (hs.add _).select fun a' ha' => ?_
      cases ha'
      exact selects_add hblk a negated
    cases scope with
    | none =>
      cases h
      exact hsel
    | some default =>
      cases h
      refine ⟨hsel.selection, fun c d h => ?_, hsel.opened, hsel.done, fun h => ?_⟩
      · rcases mem_cons.mp h with heq | h
        · obtain ⟨hbef, -⟩ := OpenScope.selection.inj heq
          exact (hs.add _).selection c hbef.symm
        · exact hsel.scopes c d h
      simp [enter] at h
      simp [h] at hblk
  | actions as temps =>
    cases h
    exact foldl_add (fun _ a h => h.add a) as ⟨hs.selection, hs.scopes, hs.opened, hs.done, hs.outside⟩
  | result a =>
    cases h
    refine Recorded.add ?_ a
    exact hs.map_block (fun _ _ ha => ha) fun _ _ => .inl

end State

/-- The selections recorded in the blocks of a script were made by actions of the script. -/
theorem selects_of_run (h : (run ctx p).result = .ok s) (hf : f ∈ s.done) {bd : Boundary}
    (hbd : bd ∈ f.left.boundaries) {sel : Action} (hsel : sel ∈ bd.selection) :
    ∃ g ∈ s.done, ∃ negated, { sel with negated } ∈ g.left.actions := by
  obtain ⟨s₁, hls, hfl⟩ := run_ok h
  have hs₁ : s₁.Recorded := by
    refine lines_induction hls ?_ fun s i s' hs hi h => hs.exec hi h
    exact ⟨by simp [State.start], by simp [State.start], by simp [State.start], by simp [State.start], fun _ => rfl⟩
  have hs := (hs₁.flush hfl).2 (.func []) []
  obtain ⟨negated, hmem⟩ := hs.done f hf bd hbd sel hsel
  rw [State.actions] at hmem
  obtain ⟨g, hg, hmem⟩ := mem_flatMap.mp (by simpa using hmem)
  exact ⟨g, hg, negated, hmem⟩

end Program
end BlockScript
