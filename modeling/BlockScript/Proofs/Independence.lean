import BlockScript.Proofs.Concatenation
import BlockScript.Proofs.MadeVariables
import BlockScript.Proofs.Renumbering
import BlockScript.Proofs.Strictness

/-!
# Blocks behind other blocks

What stands behind whole blocks is compiled as if it stood alone, but for what the blocks leave behind: the selection in
force, the number of variables made, and the numbers of helpers. So if no selection is in force and no variables are
made, the plan of the lines is that of the lines alone, up to the names of helpers (`Data.compile_behind`). A selection
stays in force behind the block in which it was made, and the blocks that follow take it back as if they had found it.
-/

open List Except Option
namespace BlockScript
open Program Instruction
open Script (Compile Settings)
open Script.Compile (bind_ok result_bind)
open Plan (Apart EventBlocks Owner Renaming Setting)
open Line.Start (func? ofLine?)
open Assignment (checkCount)
open Text (joinWith)

/-- Whatever the first gives, the second gives as well. -/
def Carries {α : Type} (x y : Compile α) : Prop := ∀ a, x.result = .ok a → y.result = .ok a

namespace Carries
variable {α β : Type} {x y : Compile α} {f g : α → Compile β}

lemma refl (x : Compile α) : Carries x x := fun _ h => h

lemma bind (h : Carries x y) (hf : ∀ a, Carries (f a) (g a)) : Carries (x >>= f) (y >>= g) := by
  intro b hb
  rw [bind_ok] at hb ⊢
  obtain ⟨a, ha, hb⟩ := hb
  exact ⟨a, h a ha, hf a b hb⟩

end Carries

/-! ### Fewer functions -/

namespace Program

def Context.withNames (ctx : Context) (names : List Text) (sigs : Assignment.Signatures) : Context :=
  { ctx with taken := names, signatures := sigs }

variable {ctx : Context} {names : List Text} {sigs sigs' : Assignment.Signatures} {owner : Owner} {temps n : Nat}
  {negated : Bool} {t : Text}

section
variable {lib : Library} {trace : Bool}

lemma carries_checkCount (h : Includes sigs sigs') (fn : Text) (args : List Text) :
    Carries (checkCount sigs fn args) (checkCount sigs' fn args) := by
  intro a ha
  cases hfn : sigs'.get? fn with
  | none =>
    rw [checkCount, hfn]
    rfl
  | some params =>
    rw [checkCount, h fn params hfn] at ha
    rw [checkCount, hfn]
    exact ha

lemma carries_resultActions (h : Includes sigs sigs') (a : Assignment) (fn : Text) (args : List Text) :
    Carries (a.resultActions lib sigs trace fn args) (a.resultActions lib sigs' trace fn args) := by
  rw [Assignment.resultActions, Assignment.resultActions]
  split
  · exact .refl _
  · exact .bind (carries_checkCount h fn args) fun _ => .refl _

lemma carries_statement (h : Includes sigs sigs') (line : Text) :
    Carries (Statement.compile lib sigs trace line) (Statement.compile lib sigs' trace line) := by
  rw [Statement.compile, Statement.compile]
  split
  · exact .refl _
  split
  next =>
    split
    next a _ =>
      refine .bind ?_ fun _ => .refl _
      rw [Assignment.compile, Assignment.compile]
      split
      · exact .refl _
      split
      · exact .refl _
      split
      · exact .refl _
      split
      next fn args _ => exact carries_resultActions h a fn args
      · exact .refl _
    · exact .refl _
  · exact .refl _

end
namespace Instruction

lemma carries_ofMessage (h : Includes ctx.signatures sigs) (fn args : Text) :
    Carries (ofMessage ctx temps fn args) (ofMessage (ctx.withNames names sigs) temps fn args) := by
  rw [ofMessage, ofMessage]
  exact .bind (carries_statement h _) fun _ => .refl _

lemma carries_ofInner (h : Includes ctx.signatures sigs) :
    Carries (ofInner ctx owner temps n negated t) (ofInner (ctx.withNames names sigs) owner temps n negated t) := by
  rw [ofInner, ofInner]
  split
  · exact .refl _
  split
  next fn args _ => exact carries_ofMessage h fn args
  split
  · exact .refl _
  · exact .bind (carries_statement h _) fun _ => .refl _

lemma carries_ofLine (h : Includes ctx.signatures sigs) (owner : Option Owner) :
    Carries (ofLine ctx owner temps n negated t) (ofLine (ctx.withNames names sigs) owner temps n negated t) := by
  rw [ofLine.eq_def, ofLine.eq_def]
  split
  · exact .refl _
  split
  · exact .refl _
  split
  · exact .refl _
  cases owner with
  | none => exact .refl _
  | some owner => exact carries_ofInner h

lemma ofLine_eq_start {owner : Option Owner} {head : Line.Start}
    (h : (ofLine ctx owner temps n negated t).result = .ok (.start head)) :
    negated = false ∧ ofLine? t = some head := by
  have hplay := ofLine_ok h
  cases hrole : roleOf owner.isSome t with
  | close | scope => simp [hrole, Plays] at hplay
  | flat =>
    rw [hrole] at hplay
    cases hplay
  | start =>
    obtain ⟨head', hhead, hneg, heq⟩ := ofLine_start h (roleOf_eq_start_iff.mpr (roleOf_eq_start_iff.mp hrole))
    cases heq
    exact ⟨hneg, hhead⟩

end Instruction

/-! ### Blocks put into rows -/

/-- The blocks are the same, and so are their rows up to the names of helpers. -/
structure Finished.Renamed (st : Setting) (ρ : Renaming) (f f' : Finished) : Prop where
  block : f'.block = f.block
  left : f'.left = f.left
  chains : Forall₂ (Forall₂ (st.RenamesRow ρ)) f.chains f'.chains

lemma Finished.Renamed.mono {st : Setting} {ρ ρ' : Renaming} {f f' : Finished} (h : f.Renamed st ρ f') (hρ : ρ ⊆ ρ') :
    f.Renamed st ρ' f' :=
  ⟨h.block, h.left, h.chains.imp fun _ _ hc => hc.imp fun _ _ hr => hr.mono hρ⟩

/-- A script is where another one is, but for the blocks `before` that the other one put into rows at first, and for the
numbers of helpers. -/
structure State.Follows (s : State) (st : Setting) (ρ : Renaming) (before : List Finished) (s' : State) : Prop where
  same : s' = { s with done := s'.done, nextHelper := s'.nextHelper }
  done : ∃ fs, s.done = before ++ fs ∧ Forall₂ (Finished.Renamed st ρ) fs s'.done
  below : ρ.Below s.nextHelper s'.nextHelper

namespace State
variable {s s' s₁ : State} {ρ : Renaming} {before : List Finished} {i : Instruction}

lemma foldl_add_with (as : List Action) (s : State) (fs : List Finished) (k : Nat) :
    as.foldl add { s with done := fs, nextHelper := k } = { as.foldl add s with done := fs, nextHelper := k } :=
  foldl_hom (fun s : State => { s with done := fs, nextHelper := k }) fun _ _ => rfl

lemma exec_with (hst : ∀ head, i ≠ .start head) (hcl : i = .close → s.scopes ≠ [])
    (h : (exec ctx s i).result = .ok s₁) (names : List Text) (sigs : Assignment.Signatures)
      (fs : List Finished) (k : Nat) :
    (exec (ctx.withNames names sigs) { s with done := fs, nextHelper := k } i).result
      = .ok { s₁ with done := fs, nextHelper := k } := by
  cases i with
  | idle =>
    cases h
    rfl
  | close =>
    rw [exec] at h ⊢
    cases hsc : s.scopes with
    | nil => exact absurd hsc (hcl rfl)
    | cons scope outer =>
      simp only [hsc] at h ⊢
      cases h
      cases scope with
      | condition => rfl
      | selection before default => cases before <;> rfl
  | condition a =>
    cases h
    rfl
  | start head => exact absurd rfl (hst head)
  | selection a negated scope => cases scope <;> (obtain rfl := ok.inj h; rfl)
  | actions as temps =>
    cases h
    exact congrArg ok (foldl_add_with as { s with temps } fs k)
  | result a =>
    cases h
    rfl

lemma Follows.flush (hs : s.Follows ctx.toSetting ρ before s') (h : (flush ctx s).result = .ok s₁) (names : List Text)
    (sigs : Assignment.Signatures) : ∃ ρ' s₁', ρ ⊆ ρ' ∧ (flush (ctx.withNames names sigs) s').result = .ok s₁'
      ∧ s₁.Follows ctx.toSetting ρ' before s₁' := by
  obtain ⟨hsame, ⟨fs, hdone, hfs⟩, hbel⟩ := hs
  rw [Program.flush] at h ⊢
  cases hblk : s.block with
  | none =>
    have hblk' : s'.block = none := by rw [hsame]; exact hblk
    rw [hblk] at h
    cases h
    rw [hblk']
    exact ⟨ρ, s', List.Subset.refl _, rfl, hsame, ⟨fs, hdone, hfs⟩, hbel⟩
  | some b =>
    have hblk' : s'.block = some b := by rw [hsame]; exact hblk
    rw [hblk] at h
    simp only [bind_ok] at h
    obtain ⟨-, -, full, hfull, ⟨chains, next⟩, hrows, -, -, h⟩ := h
    cases h
    obtain ⟨ρ', chains', next', hρ', hrows', hchs, hbel'⟩ := Setting.blockRows_renamed names hrows hbel
    have hfull' : (completed (ctx.withNames names sigs) s' b).result = .ok full := by
      rw [hsame]
      exact hfull
    rw [hblk']
    refine ⟨ρ',
      ⟨s'.done ++ [⟨b, ⟨full.actions, full.boundaries⟩, chains'⟩], none, s'.scopes, s'.selection, next', s'.temps⟩,
      hρ', ?_, ?_, ⟨fs ++ [⟨b, ⟨full.actions, full.boundaries⟩, chains⟩], ?_, ?_⟩, hbel'⟩
    · simp only [bind_ok]
      exact ⟨(), Settings.result_traceStage _ _, full, hfull', (chains', next'), hrows', (),
        Settings.result_traceStage _ _, rfl⟩
    · rw [hsame]
    · simp [hdone]
    · exact rel_append (hfs.imp fun _ _ hf => hf.mono hρ') (.cons ⟨rfl, rfl, hchs⟩ .nil)

lemma Follows.exec (hs : s.Follows ctx.toSetting ρ before s') (h : (exec ctx s i).result = .ok s₁) (names : List Text)
    (hps : ∀ name raw, i = .start (.func name raw) → sigs.getD name [] = ctx.signatures.getD name []) :
    ∃ ρ' s₁', ρ ⊆ ρ' ∧ (exec (ctx.withNames names sigs) s' i).result = .ok s₁'
      ∧ s₁.Follows ctx.toSetting ρ' before s₁' := by
  rcases exec_cases h with ⟨rfl, hsc, hfl⟩ | ⟨head, s₂, owner, params, rfl, hfl, -, -⟩ | ⟨hst, hcl, hext⟩
  · obtain ⟨ρ', s₁', hρ', hfl', hs₁⟩ := hs.flush hfl names sigs
    refine ⟨ρ', s₁', hρ', ?_, hs₁⟩
    have hsc' : s'.scopes = [] := by rw [hs.same]; exact hsc
    rw [exec, hsc']
    exact hfl'
  · obtain ⟨ρ', s₂', hρ', hfl', hs₂⟩ := hs.flush hfl names sigs
    rw [exec, beginBlock, result_bind, hfl] at h
    simp only [Except.bind] at h
    have hopen block : { s₂ with block }.Follows ctx.toSetting ρ' before { s₂' with block } := by
      refine ⟨?_, hs₂.done, hs₂.below⟩
      rw [hs₂.same]
    cases head with
    | event name =>
      cases h
      refine ⟨ρ', _, hρ', ?_, hopen _⟩
      rw [exec, beginBlock, result_bind, hfl']
      rfl
    | func name raw =>
      cases h
      refine ⟨ρ', _, hρ', ?_, hopen _⟩
      rw [exec, beginBlock, result_bind, hfl', ← hps name raw rfl]
      rfl
    | loop name ticks =>
      simp only at h
      split at h
      next k hk =>
        cases h
        refine ⟨ρ', _, hρ', ?_, hopen _⟩
        rw [exec, beginBlock, result_bind, hfl']
        simp [Except.bind, hk]
      · simp at h
  obtain ⟨fs, hdone, hfs⟩ := hs.done
  refine ⟨ρ, { s₁ with done := s'.done, nextHelper := s'.nextHelper }, List.Subset.refl _, ?_, rfl,
    ⟨fs, hext.done.trans hdone, hfs⟩, ?_⟩
  · rw [hs.same]
    exact exec_with hst hcl h names sigs _ _
  rw [hext.nextHelper]
  exact hs.below

/-- The lines of a script are read in the same way. -/
theorem Follows.lines {namespaces ls : List Text} (hs : s.Follows ctx.toSetting ρ before s')
    (hsigs : Includes ctx.signatures sigs) (hhd : ∀ raw ∈ ls, ∀ t name params, code namespaces raw = some (false, t) →
      ofLine? t = some (.func name params) → (sigs.get? name).isSome)
    (h : (lines ctx namespaces n s ls).result = .ok s₁) (names : List Text) (m : Nat) :
    ∃ ρ' s₁', ρ ⊆ ρ' ∧ (lines (ctx.withNames names sigs) namespaces m s' ls).result = .ok s₁'
      ∧ s₁.Follows ctx.toSetting ρ' before s₁' := by
  induction ls generalizing n m s s' ρ with
  | nil =>
    cases h
    exact ⟨ρ, s', List.Subset.refl _, rfl, hs⟩
  | cons raw ls ih =>
    rw [Program.lines, bind_ok] at h
    obtain ⟨s₂, hln, h⟩ := h
    obtain ⟨ρ₂, s₂', hρ₂, hln', hs₂⟩ : ∃ ρ₂ s₂', ρ ⊆ ρ₂
        ∧ (line (ctx.withNames names sigs) namespaces m raw s').result = .ok s₂'
        ∧ s₂.Follows ctx.toSetting ρ₂ before s₂' := by
      rcases line_ok hln with ⟨hcd, rfl⟩ | ⟨negated, t, i, hcd, hi, hexec⟩
      · exact ⟨ρ, s', List.Subset.refl _, by rw [result_line, hcd], hs⟩
      have hps : ∀ name params, i = .start (.func name params) →
          sigs.getD name [] = ctx.signatures.getD name [] := by
        rintro name params rfl
        obtain ⟨rfl, hst⟩ := ofLine_eq_start hi
        obtain ⟨known, hkn⟩ := isSome_iff_exists.mp (hhd raw (by simp) t name params hcd hst)
        rw [Table.getD, hkn, Table.getD, hsigs name known hkn]
      obtain ⟨ρ₂, s₂', hρ₂, hexec', hs₂⟩ := hs.exec hexec names hps
      refine ⟨ρ₂, s₂', hρ₂, ?_, hs₂⟩
      -- The number of a line occurs in errors only.
      have hnum := toOption_ofLine ctx (s.block.map fun b => b.owner) s.temps m n negated t
      rw [hi] at hnum
      have hi' : (Instruction.ofLine (ctx.withNames names sigs) (s.block.map fun b => b.owner) s.temps m negated
          t).result = .ok i :=
        carries_ofLine hsigs _ _ (ok_of_toOption hnum)
      rw [result_line, hcd, hs.same]
      simp only [not_bare_of_line hln hcd, hi']
      rw [hs.same] at hexec'
      exact hexec'
    obtain ⟨ρ', s₁', hρ', hls', hs₁⟩ := ih hs₂ (fun raw hraw => hhd raw (by simp [hraw])) h (m + 1)
    refine ⟨ρ', s₁', fun p hp => hρ' (hρ₂ hp), ?_, hs₁⟩
    rw [Program.lines, bind_ok]
    exact ⟨s₂', hln', hls'⟩

/-! ### Levels -/

/-- Where a script is: outside blocks, or in a block with so many open scopes. -/
structure At (s : State) (l : Option Nat) : Prop where
  level : s.block.map (fun _ => s.scopes.length) = l
  outside : s.block = none → s.scopes = []

lemma At.foldl_add {l : Option Nat} (hs : s.At l) (as : List Action) : (as.foldl add s).At l := by
  refine State.foldl_add (P := fun s => s.At l) (fun s a h => ⟨?_, fun hnone => h.outside (by simpa using hnone)⟩) as hs
  rw [← h.level, block_add, Option.map_map]
  rfl

lemma At.add {l : Option Nat} (hs : s.At l) (a : Action) : (s.add a).At l := hs.foldl_add [a]

lemma At.exec {l l' : Option Nat} {r : Role} (hs : s.At l) (hi : i.Plays ctx r) (hl : r.level l = some l')
    (h : (exec ctx s i).result = .ok s₁) : s₁.At l' := by
  have hlv := hs.level
  cases r with
  | close =>
    obtain rfl := hi
    rw [exec] at h
    cases hsc : s.scopes with
    | nil =>
      rw [hsc] at h
      have hl' : l' = none := by
        rw [hsc] at hlv
        cases hblk : s.block <;> simp [hblk] at hlv <;> subst hlv <;> exact (some.inj hl).symm
      have hnone := block_flush h
      refine ⟨by rw [hnone, hl']; rfl, fun _ => ?_⟩
      rcases flush_ok h with ⟨-, rfl⟩ | ⟨f, next, -, -, -, rfl⟩ <;> exact hsc
    | cons scope outer =>
      simp only [hsc] at h
      cases h
      cases hblk : s.block with
      | none => simp [hs.outside hblk] at hsc
      | some b =>
        rw [hblk, hsc] at hlv
        subst hlv
        cases hl
        have hback : ∀ sel, { s with block := some b, scopes := outer, selection := sel }.At
            (some outer.length) := fun sel => ⟨rfl, fun hnone => by simp at hnone⟩
        cases scope with
        | condition => exact (hback s.selection).add .skip
        | selection before default =>
          cases before with
          | some sel => exact (hback (some sel)).add sel
          | none =>
            have hadd := (hback none).add default
            exact ⟨hadd.level, hadd.outside⟩
  | scope =>
    cases hblk : s.block with
    | none =>
      rw [hblk] at hlv
      subst hlv
      simp [Role.level] at hl
    | some b =>
      rw [hblk] at hlv
      subst hlv
      cases hl
      rcases hi with ⟨a, -, rfl⟩ | ⟨a, negated, default, -, rfl, -⟩
      all_goals
        cases h
        exact ⟨by simp [hblk, enter], fun hnone => by simp [hblk, enter] at hnone⟩
  | start =>
    obtain ⟨head, rfl⟩ := hi
    obtain ⟨s₂, owner, params, hfl, -, rfl⟩ := beginBlock_ok h
    cases hblk : s.block with
    | some b =>
      rw [hblk] at hlv
      subst hlv
      simp [Role.level] at hl
    | none =>
      rw [hblk] at hlv
      subst hlv
      cases hl
      rcases flush_ok hfl with ⟨-, rfl⟩ | ⟨f, next, hsome, -⟩
      · exact ⟨by simp [hs.outside hblk], fun hnone => by simp at hnone⟩
      · simp [hblk] at hsome
  | flat =>
    cases hl
    cases hi with
    | idle =>
      cases h
      exact hs
    | actions as temps has =>
      cases h
      exact At.foldl_add (s := { s with temps }) ⟨hs.level, hs.outside⟩ as
    | result a ha =>
      cases h
      have hrets : ({ s with block := s.block.map fun b => { b with returns := true } } : State).At l := by
        refine ⟨?_, fun hnone => hs.outside (by simpa using hnone)⟩
        rw [← hlv, Option.map_map]
        rfl
      exact hrets.add a
    | selection a negated ha =>
      cases h
      have hadd := hs.add { a with negated }
      exact ⟨hadd.level, hadd.outside⟩

/-- A script is where its lines lead. -/
theorem At.lines {namespaces ls : List Text} {l l' : Option Nat} (hs : s.At l)
    (hl : levelAfter namespaces l ls = some l')
    (h : (lines ctx namespaces n s ls).result = .ok s₁) : s₁.At l' :=
  lines_levels (fun hs => by rw [← hs.level, isSome_map]) (fun hs => hs.exec) hs hl h

end State

/-! ### Scripts -/

variable {s : State} {p p' : Prepared} {out : List Text}

/-- Compile a script to its end where a selection is in force and variables were made before it. -/
def runFrom (ctx : Context) (p : Prepared) (selection : Option Action) (temps : Nat) : Compile State := do
  flush ctx (← lines ctx p.namespaces 1 ⟨[], none, [], selection, 1, temps⟩ p.lines)

lemma result_runFrom (ctx : Context) (p : Prepared) : (runFrom ctx p none 0).result = (run ctx p).result := by
  simp only [runFrom, run, result_bind, Settings.result_traceStage]
  refine congrArg _ (funext fun s => ?_)
  cases (flush ctx s).result <;> rfl

/-- A script that makes no variables is the same whatever variables were made before it. -/
lemma runFrom_temps {selection : Option Action} {k : Nat} (h : (runFrom ctx p selection k).result = .ok s)
    (hk : s.temps = k)
    (j : Nat) : (runFrom ctx p selection j).result = .ok { s with temps := j } := by
  rw [runFrom, bind_ok] at h
  obtain ⟨s₁, hls, hfl⟩ := h
  obtain ⟨htmp, hsame⟩ := flush_temps hfl
  rcases lines_temps hls with hlt | ⟨-, hrd⟩
  · simp only at hlt
    omega
  rw [runFrom, bind_ok]
  exact ⟨_, hrd j, hsame j⟩

lemma lines_append (ctx : Context) (namespaces : List Text) (n : Nat) (s : State) (ls ls' : List Text) :
    (lines ctx namespaces n s (ls ++ ls')).result
      = (lines ctx namespaces n s ls).result.bind fun s => (lines ctx namespaces (n + ls.length) s ls').result := by
  induction ls generalizing n s with
  | nil => rfl
  | cons raw ls ih =>
    rw [cons_append, lines, lines, result_bind, result_bind, bind_bind]
    refine congrArg _ (funext fun s => ?_)
    rw [ih, length_cons, Nat.add_right_comm, Nat.add_assoc]

/-- What stands behind lines whose blocks are all closed is compiled as if it stood alone, but for the selection and the
variables that the lines leave, and for the numbers of helpers. -/
theorem run_behind (hrun : (run ctx p).result = .ok s) (hls : p.lines = out ++ p'.lines)
    (hnss : p'.namespaces = p.namespaces) (hcld : levelAfter p.namespaces none out = some none)
    (hsigs : Includes ctx.signatures sigs)
    (hhd : ∀ raw ∈ p'.lines, ∀ t name params, code p.namespaces raw = some (false, t) →
      ofLine? t = some (.func name params) → (sigs.get? name).isSome) (names : List Text) :
    ∃ sP sB ρ bs, (lines ctx p.namespaces 1 .start out).result = .ok sP
      ∧ (runFrom (ctx.withNames names sigs) p' sP.selection sP.temps).result = .ok sB ∧ sB.temps = s.temps
      ∧ s.done = sP.done ++ bs ∧ Forall₂ (Finished.Renamed ctx.toSetting ρ) bs sB.done
      ∧ ρ.Below s.nextHelper sB.nextHelper := by
  obtain ⟨s₁, hall, hfl⟩ := run_ok hrun
  rw [hls, lines_append] at hall
  rcases hP : (lines ctx p.namespaces 1 .start out).result with e | sP
  · simp [hP, Except.bind] at hall
  rw [hP] at hall
  have hat : sP.At none := State.At.lines ⟨rfl, fun _ => rfl⟩ hcld hP
  have hnone : sP.block = none := by simpa using hat.level
  have hst : sP.Follows ctx.toSetting [] sP.done ⟨[], none, [], sP.selection, 1, sP.temps⟩ :=
    ⟨by rw [hnone, hat.outside hnone], ⟨[], by simp, .nil⟩, Renaming.below_nil _ _⟩
  obtain ⟨ρ₁, s₁', -, hall', hs₁⟩ := hst.lines hsigs hhd hall names 1
  obtain ⟨ρ, sB, -, hfl', hsB⟩ := hs₁.flush hfl names sigs
  obtain ⟨bs, hdone, hbs⟩ := hsB.done
  refine ⟨sP, sB, ρ, bs, rfl, ?_, by rw [hsB.same], hdone, hbs, hsB.below⟩
  rw [runFrom, bind_ok, hnss]
  exact ⟨s₁', hall', hfl'⟩

/-- A function that a line begins is among the functions of the script, unless names of files are dropped from the
line. -/
lemma func?_of_code {raw t name params : Text} (hcd : code [] raw = some (false, t))
    (h : ofLine? t = some (.func name params)) : func? (Text.trim raw) = some (name, params) := by
  have ht : Text.trim raw = t := by
    rw [code] at hcd
    split at hcd
    · simp at hcd
    have hnot := some.inj hcd
    rw [Line.dropNot] at hnot
    split at hnot
    · simp at hnot
    · exact congrArg Prod.snd hnot
  rw [ht]
  rw [ofLine?] at h
  cases hev : Line.eventPattern.match? t with
  | some m => simp [hev] at h
  | none =>
    cases hfunc : func? t with
    | some f =>
      obtain ⟨rfl, rfl⟩ : f.1 = name ∧ f.2 = params := by simpa [hev, hfunc] using h
      rfl
    | none => simp [hfunc] at h

namespace Finished
variable {st : Setting} {ρ : Renaming} {fs fs' : List Finished}

lemma entries_renamed (h : Forall₂ (Renamed st ρ) fs fs') : Forall₂ (st.RenamesEntry ρ) (entries fs) (entries fs') := by
  induction h with
  | nil => exact .nil
  | cons hf hrest ih =>
    cases hrest with
    | nil => exact Setting.allEntries_renamed hf.chains
    | cons => exact rel_append (Setting.allEntries_renamed hf.chains) (.cons (.same _) ih)

lemma apart_renamed (h : Forall₂ (Renamed st ρ) fs fs')
    (hactions : ∀ f ∈ fs, ∀ r ∈ f.chains.flatten, ∀ a ∈ r.actions, Apart a) :
    ∀ f ∈ fs', ∀ r ∈ f.chains.flatten, ∀ a ∈ r.actions, Apart a := by
  intro f' hf' r' hr' a' ha'
  obtain ⟨f, hf, hren⟩ := (exists_of_forall₂ h).2 f' hf'
  obtain ⟨c', hc', hr'⟩ := mem_flatten.mp hr'
  obtain ⟨c, hc, hrows⟩ := (exists_of_forall₂ hren.chains).2 c' hc'
  obtain ⟨r, hr, hrow⟩ := (exists_of_forall₂ hrows).2 r' hr'
  obtain ⟨a, ha, hsame⟩ := (exists_of_forall₂ hrow.actions).2 a' ha'
  rw [Apart, hsame.block_eq]
  exact hactions f hf r (mem_flatten.mpr ⟨c, hc, hr⟩) a ha

lemma noneOnlyCalls_renamed (h : Forall₂ (Renamed st ρ) fs fs') (hcalls : NoneOnlyCalls fs) : NoneOnlyCalls fs' := by
  intro f' hf' name hown a ha
  obtain ⟨f, hf, hren⟩ := (exists_of_forall₂ h).2 f' hf'
  rw [hren.block] at hown
  rw [hren.left] at ha
  exact hcalls f hf name hown a ha

end Finished

/-- Where no row is a call of a helper alone, the plan consists of the blocks as they were put into rows. -/
lemma result_link_of_run {cfg : Settings} (hevs : EventBlocks ctx.events) (hrun : (run ctx p).result = .ok s)
    (hactions : ∀ f ∈ s.done, ∀ r ∈ f.chains.flatten, ∀ a ∈ r.actions, Apart a) (hcalls : NoneOnlyCalls s.done) :
    (link cfg (Finished.entries s.done)).result = .ok (Finished.entries s.done) := by
  have hmade : ∀ f ∈ s.done, ∃ m m', f.Made ctx m m' := fun f => (flushed_of_run hrun).made
  obtain ⟨hents, hform⟩ := entries_of_made hmade hevs hactions
  rw [hents]
  exact Plan.result_link_joinRows cfg (fun r hr => (hform r hr).isRow) (noneLeads_of_made hevs hmade hactions hcalls)

end Program
namespace Data
variable {cfg : Settings} {d : Data} {files files' : Files} {entry entry' : Path} {shown : Text} {ctx : Program.Context}
  {p : Program.Prepared} {s : Program.State} {es : List Entry} {P B out : List Text}

/-- Scripts compiled with the same data files differ in their functions and names only. -/
lemma setup_of_setup (h : (d.setup cfg files entry shown).result = .ok (ctx, p)) :
    (prepare cfg files entry).result = .ok p ∧ ctx.signatures = p.signatures ∧ ∀ files' entry' shown' p',
      (prepare cfg files' entry').result = .ok p' → (d.setup cfg files' entry' shown').result
        = .ok (ctx.withNames (p'.signatures.names ++ p'.templates.names) p'.signatures, p') := by
  simp only [setup, bind_ok] at h
  obtain ⟨-, -, api, hapi, aliases, hali, events, hevs, n, hn, -, -, h⟩ := h
  simp only [Program.setup, bind_ok] at h
  obtain ⟨player, hplayer, entity, hety, p, hp, h⟩ := h
  cases h
  refine ⟨hp, rfl, fun files' entry' shown' p' hp' => ?_⟩
  simp only [setup, Program.setup, bind_ok]
  exact ⟨(), Settings.result_traceStage _ _, api, hapi, aliases, hali, events, hevs, n, hn, (),
    Settings.result_traceStage _ _, player, hplayer, entity, hety, p', hp', rfl⟩

/-- What stands behind whole blocks is compiled as if it stood alone: `bs` are its blocks, and `sB` is the end of a
script that consists of it and begins with the selection and the variables that the blocks before it leave. The entries
are the same up to the names of helpers. If no selection is left, and no variables are made before or none behind, then
they are the entries of the script that consists of it. -/
theorem compile_behind (hload : Source.load files entry = .ok ⟨P ++ B, []⟩)
    (hload' : Source.load files' entry' = .ok ⟨B, []⟩) (hwhole : Program.Whole cfg P out)
    (htemplates : Program.Untemplated cfg (P ++ B)) (hsetup : (d.setup cfg files entry shown).result = .ok (ctx, p))
    (hrun : (Program.run ctx p).result = .ok s) (hes : (d.compile cfg files entry shown).result = .ok es)
    (hactions : ∀ f ∈ s.done, ∀ r ∈ f.chains.flatten, ∀ a ∈ r.actions, Apart a)
    (hcalls : Program.NoneOnlyCalls s.done) (shown' : Text) :
    ∃ sP bs ctx' p' sB ρ, (Program.lines ctx [] 1 .start out).result = .ok sP
      ∧ es = Program.Finished.entries (sP.done ++ bs)
      ∧ (d.setup cfg files' entry' shown').result = .ok (ctx', p')
      ∧ (Program.runFrom ctx' p' sP.selection sP.temps).result = .ok sB
      ∧ List.Forall₂ (ctx.RenamesEntry ρ) (Program.Finished.entries bs) (Program.Finished.entries sB.done)
      ∧ ρ.Below s.nextHelper sB.nextHelper
      ∧ (sP.selection = none → sP.temps = 0 ∨ s.temps = sP.temps →
        (d.compile cfg files' entry' shown').result = .ok (Program.Finished.entries sB.done)) := by
  obtain ⟨hp, hctx, hsame⟩ := setup_of_setup hsetup
  obtain ⟨p', hp', hls, hns, hns', -, -, hincl, hfuncs⟩ := prepare_append hload hload' hwhole htemplates hp
  obtain ⟨sP, sB, ρ, bs, hP, hB, htmp, hdone, hbs, hbel⟩ := run_behind hrun hls (hns'.trans hns.symm)
    (hns ▸ hwhole.closed) (hctx ▸ hincl) (fun raw hraw t name params hcd hst =>
      hfuncs name ⟨raw, hraw, params, func?_of_code (hns ▸ hcd) hst⟩)
    (p'.signatures.names ++ p'.templates.names)
  rw [hns] at hP
  have hset' := hsame files' entry' shown' p' hp'
  have hplan : es = Program.Finished.entries s.done := by
    have hlink := link_of_compile hsetup hrun hes
    rw [result_link_of_run (eventBlocks_of_setup hsetup) hrun hactions hcalls] at hlink
    exact (ok.inj hlink).symm
  refine ⟨sP, bs, _, p', sB, ρ, hP, hdone ▸ hplan, hset', hB, Program.Finished.entries_renamed hbs, hbel, ?_⟩
  intro hsel hnone
  rw [hsel] at hB
  obtain ⟨s', hrun', hdone'⟩ : ∃ s', (run (ctx.withNames (p'.signatures.names ++ p'.templates.names) p'.signatures)
      p').result = .ok s' ∧ s'.done = sB.done := by
    rw [← result_runFrom]
    rcases hnone with hzero | hkept
    · exact ⟨sB, hzero ▸ hB, rfl⟩
    · exact ⟨_, runFrom_temps hB (htmp.trans hkept) 0, rfl⟩
  obtain ⟨es', hes'⟩ := exists_compile hset' hrun'
  have haft : ∀ f ∈ bs, f ∈ s.done := fun f hf => by simp [hdone, hf]
  have hlink := link_of_compile hset' hrun' hes'
  rw [result_link_of_run (eventBlocks_of_setup hset') hrun'
    (hdone' ▸ Program.Finished.apart_renamed hbs fun f hf => hactions f (haft f hf))
    (hdone' ▸ Program.Finished.noneOnlyCalls_renamed hbs fun f hf => hcalls f (haft f hf)), hdone'] at hlink
  rw [hes', ← hlink]

def longLines (name : Text) : List Text :=
  (("event(" ++ name ++ ") \x7b" : Text) :: List.replicate 44 ("a.b()" : Text)) ++ [("\x7d" : Text)]

def twoLongEvents : Files := script (joinWith "\n" (longLines "x" ++ longLines "y"))

def secondLongEvent : Files := script (joinWith "\n" (longLines "y"))

lemma load_ok {ls namespaces : List Text}
    (h : (Source.load files entry).toOption.map (fun l => (l.lines, l.namespaces)) = some (ls, namespaces)) :
    Source.load files entry = .ok ⟨ls, namespaces⟩ := by
  rcases hload : Source.load files entry with e | ⟨ls', namespaces'⟩
  · simp [hload, Except.toOption] at h
  obtain ⟨rfl, rfl⟩ : ls' = ls ∧ namespaces' = namespaces := by simpa [hload, Except.toOption] using h
  rfl

lemma longLines_whole : Program.Whole (.ofVariables []) (longLines "x") (longLines "x") where
  written := ok_of_toOption (by decide)
  closed := rfl
  last := rfl

lemma twoLongEvents_passes :
    passes (sample.ready twoLongEvents).result fun ctx s =>
      decide ((∀ f ∈ s.done, f.left.actions.length = 44 ∧ ∀ r ∈ f.chains.flatten, ∀ a ∈ r.actions, Apart a)
        ∧ ∀ sP ∈ (Program.lines ctx [] 1 .start (longLines "x")).result.toOption,
          sP.selection = none ∧ sP.temps = 0) := by
  decide +kernel

theorem compile_behind_twoLongEvents : ∃ ctx es bs front es' ρ,
    (sample.plan twoLongEvents).result = .ok es
      ∧ Source.load twoLongEvents (.ofText "/main") = .ok ⟨longLines "x" ++ longLines "y", []⟩
      ∧ Source.load secondLongEvent (.ofText "/main") = .ok ⟨longLines "y", []⟩
      ∧ Program.Whole (.ofVariables []) (longLines "x") (longLines "x")
      ∧ es = Program.Finished.entries (front ++ bs)
      ∧ (sample.plan secondLongEvent).result = .ok es'
      ∧ List.Forall₂ ((ctx : Setting).RenamesEntry ρ) (Program.Finished.entries bs) es' := by
  obtain ⟨ctx, p, s, hsetup, hrun, htest⟩ := exists_of_passes twoLongEvents_passes
  obtain ⟨hdone, hleft⟩ := of_decide_eq_true htest
  obtain ⟨es, hes⟩ := exists_compile hsetup hrun
  have hload : Source.load twoLongEvents (.ofText "/main") = .ok ⟨longLines "x" ++ longLines "y", []⟩ :=
    load_ok (by decide +kernel)
  have hload' : Source.load secondLongEvent (.ofText "/main") = .ok ⟨longLines "y", []⟩ := load_ok (by decide +kernel)
  have hcalls : Program.NoneOnlyCalls s.done := fun f hf name _ a ha => by
    have hlen := (hdone f hf).1
    simp [ha] at hlen
  obtain ⟨sP, bs, ctx', p', sB, ρ, hP, hplan, -, -, hren, -, halone⟩ := compile_behind hload hload' longLines_whole
    (by decide +kernel) hsetup hrun hes (fun f hf => (hdone f hf).2) hcalls "main"
  obtain ⟨hsel, htmp⟩ := hleft sP (by rw [hP]; rfl)
  exact ⟨ctx.toSetting, es, bs, sP.done, _, ρ, hes, hload, hload', longLines_whole, hplan,
    halone hsel (.inl htmp), hren⟩

def selectingLines : List Text := texts ["event(x) \x7b", "select.all", "\x7d"]

def scopedLines : List Text := texts ["event(y) \x7b", "select.all \x7b", "a.b()", "\x7d", "\x7d"]

/-- Behind an event that makes a selection, another event takes back its own selection by making the one of the first,
and not by making the default one. -/
theorem exists_selection_behind : ∃ es es',
    Source.load (script (joinWith "\n" (selectingLines ++ scopedLines))) (.ofText "/main")
        = .ok ⟨selectingLines ++ scopedLines, []⟩
      ∧ Source.load (script (joinWith "\n" scopedLines)) (.ofText "/main") = .ok ⟨scopedLines, []⟩
      ∧ Program.Whole (.ofVariables []) selectingLines selectingLines
      ∧ (sample.plan (script (joinWith "\n" (selectingLines ++ scopedLines)))).result = .ok es
      ∧ (sample.plan (script (joinWith "\n" scopedLines))).result
        = .ok es'
      ∧ es.getLast? = some (.ofBlock "select" "все||все" "no")
      ∧ es'.getLast? = some (.ofBlock "select" "игрок||игрок" "no") := by
  obtain ⟨hboth, halone⟩ :
    ((sample.plan (script (joinWith "\n" (selectingLines ++ scopedLines)))).result.toOption.any fun es =>
        decide (es.getLast? = some (.ofBlock "select" "все||все" "no")))
      ∧ (sample.plan (script (joinWith "\n" scopedLines))).result.toOption.any fun es =>
        decide (es.getLast? = some (.ofBlock "select" "игрок||игрок" "no")) := by
    decide +kernel
  obtain ⟨es, hes, hlast⟩ := exists_of_any hboth
  obtain ⟨es', hes', hlast'⟩ := exists_of_any halone
  refine ⟨es, es', load_ok (by decide +kernel), load_ok (by decide +kernel), ⟨ok_of_toOption (by decide +kernel),
    by decide +kernel, by decide +kernel⟩, hes, hes', of_decide_eq_true hlast, of_decide_eq_true hlast'⟩

end Data
end BlockScript
