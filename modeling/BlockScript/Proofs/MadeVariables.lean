import BlockScript.Proofs.Preparation
import BlockScript.Proofs.Traces

/-!
# Variables made

An argument that is a formula, and a message that shows a result, take a variable of their own, and these variables are
numbered through the script. Nothing else depends on the number of variables made: lines that make none are read
in the same way, whatever was made before them (`Program.lines_temps`).
-/

open Except
namespace BlockScript
open Script (Compile Settings)
open Script.Compile (bind_ok)
open Plan (Owner)

/-! ### Formulas as arguments -/

namespace FormulaCall
variable {lib : Library} {st st' : State} {temps : Nat} {line : Text}

lemma lowerParam_cases {p : Json} (h : (lowerParam lib st p).result = .ok st') : st'.temps = st.temps + 1
      ∨ st' = st ∧ ∀ k, (lowerParam lib { st with temps := k } p).result = .ok { st with temps := k } := by
  simp only [lowerParam, bind_ok] at h ⊢
  obtain ⟨field, hfld, h⟩ := h
  cases hname : field.text?.filter (!·.isEmpty) with
  | none =>
    simp only [hname] at h
    exact .inr ⟨(ok.inj h).symm, fun k => ⟨field, hfld, by simp only [hname]; rfl⟩⟩
  | some name =>
    simp only [hname] at h
    cases hraw : st.named.get? name with
    | none =>
      simp only [hraw] at h
      exact .inr ⟨(ok.inj h).symm, fun k => ⟨field, hfld, by simp only [hname, hraw]; rfl⟩⟩
    | some raw =>
      simp only [hraw, bind_ok] at h
      obtain ⟨mode, hmode, h⟩ := h
      split at h
      next hoth =>
        refine .inr ⟨(ok.inj h).symm, fun k => ⟨field, hfld, ?_⟩⟩
        simp only [hname, hraw, bind_ok]
        exact ⟨mode, hmode, by rw [if_pos hoth]; rfl⟩
      next htak =>
        cases hform : formula? raw with
        | none =>
          simp only [hform] at h
          refine .inr ⟨(ok.inj h).symm, fun k => ⟨field, hfld, ?_⟩⟩
          simp only [hname, hraw, bind_ok]
          exact ⟨mode, hmode, by rw [if_neg htak]; simp only [hform]; rfl⟩
        | some found =>
          simp only [hform, bind_ok] at h
          obtain ⟨actions, -, h⟩ := h
          cases h
          exact .inl rfl

lemma foldlM_lowerParam {ps : List Json} (h : (ps.foldlM (lowerParam lib) st).result = .ok st') :
    st.temps < st'.temps ∨ st' = st
      ∧ ∀ k, (ps.foldlM (lowerParam lib) { st with temps := k }).result = .ok { st with temps := k } := by
  induction ps generalizing st with
  | nil =>
    cases h
    exact .inr ⟨rfl, fun _ => rfl⟩
  | cons p ps ih =>
    rw [List.foldlM_cons, bind_ok] at h
    obtain ⟨st₁, hst₁, h⟩ := h
    rcases lowerParam_cases hst₁ with htmp | ⟨rfl, hsame⟩
    · rcases ih h with hlt | ⟨rfl, -⟩
      · exact .inl (by omega)
      · exact .inl (by omega)
    rcases ih h with hlt | ⟨rfl, hrest⟩
    · exact .inl hlt
    refine .inr ⟨rfl, fun k => ?_⟩
    rw [List.foldlM_cons, bind_ok]
    exact ⟨_, hsame k, hrest k⟩

/-- A call that takes variables makes some; one that takes none takes none whatever variables were made before. -/
lemma compile_temps {r : Option (List Placed × Nat)} (h : (compile lib temps line).result = .ok r) :
    (∃ ps temps', r = some (ps, temps') ∧ temps < temps') ∨ r = none ∧ ∀ k, (compile lib k line).result = .ok none := by
  simp only [compile] at h ⊢
  cases hcall : Call.ofLine? line with
  | none =>
    simp only [hcall] at h
    exact .inr ⟨(ok.inj h).symm, fun _ => rfl⟩
  | some call =>
    simp only [hcall, bind_ok] at h ⊢
    obtain ⟨found, hfnd, h⟩ := h
    cases hspec : found.filter fun f => f.2.isTruthy with
    | none =>
      simp only [hspec] at h
      exact .inr ⟨(ok.inj h).symm, fun k => ⟨found, hfnd, by simp only [hspec]; rfl⟩⟩
    | some f =>
      simp only [hspec, bind_ok] at h
      obtain ⟨ps, hps, h⟩ := h
      split at h
      next hemp =>
        refine .inr ⟨(ok.inj h).symm, fun k => ⟨found, hfnd, ?_⟩⟩
        simp only [hspec, bind_ok]
        exact ⟨ps, hps, by rw [if_pos hemp]; rfl⟩
      next hsome =>
        simp only [bind_ok] at h
        obtain ⟨named, hnm, st, hst, h⟩ := h
        rcases foldlM_lowerParam hst with hlt | ⟨rfl, hsame⟩
        · rw [if_neg (Nat.ne_of_gt hlt)] at h
          simp only [bind_ok] at h
          obtain ⟨parts, -, last, -, h⟩ := h
          exact .inl ⟨_, _, (ok.inj h).symm, hlt⟩
        rw [if_pos rfl] at h
        refine .inr ⟨(ok.inj h).symm, fun k => ⟨found, hfnd, ?_⟩⟩
        simp only [hspec, bind_ok]
        refine ⟨ps, hps, ?_⟩
        rw [if_neg hsome]
        simp only [bind_ok]
        exact ⟨named, hnm, _, hsame k, by rw [if_pos rfl]; rfl⟩

end FormulaCall

/-! ### Instructions -/

namespace Program
variable {ctx : Context} {owner : Owner} {temps n : Nat} {negated : Bool} {t : Text} {i : Instruction}

def Instruction.tempsAfter (temps : Nat) : Instruction → Nat
  | .actions _ k => k
  | _ => temps

def Instruction.withTemps (k : Nat) : Instruction → Instruction
  | .actions as _ => .actions as k
  | i => i

namespace Instruction

lemma ofPlaced_temps {firsts : List Placed} {p : Placed} (h : (ofPlaced ctx negated t temps firsts p).result = .ok i) :
    ∃ as, i = .actions as temps ∧ ∀ k, (ofPlaced ctx negated t k firsts p).result = .ok (.actions as k) := by
  simp only [ofPlaced, bind_ok] at h
  obtain ⟨as, has, u, hchk, a, ha, h⟩ := h
  refine ⟨_, (ok.inj h).symm, fun k => ?_⟩
  simp only [ofPlaced, bind_ok]
  exact ⟨as, has, u, hchk, a, ha, rfl⟩

/-- An instruction for which no variables are made is the same whatever variables were made before. -/
def Indifferent (f : Nat → Compile Instruction) (temps : Nat) (i : Instruction) : Prop :=
  temps < i.tempsAfter temps ∨ i.tempsAfter temps = temps ∧ ∀ k, (f k).result = .ok (i.withTemps k)

lemma ofCall_temps (h : (ofCall ctx temps n negated t).result = .ok i) :
    Indifferent (fun k => ofCall ctx k n negated t) temps i := by
  rw [ofCall, bind_ok] at h
  obtain ⟨r, hr, h⟩ := h
  rcases FormulaCall.compile_temps hr with ⟨ps, temps', rfl, hlt⟩ | ⟨rfl, hnone⟩
  · left
    simp only at h
    split at h
    next p _ =>
      obtain ⟨as, rfl, -⟩ := ofPlaced_temps h
      exact hlt
    next =>
      cases h
      exact hlt
  right
  simp only [bind_ok] at h
  obtain ⟨placed, hplc, h⟩ := h
  cases placed with
  | none =>
    simp only [bind_ok] at h
    obtain ⟨u, hkn, h⟩ := h
    cases h
    refine ⟨rfl, fun k => ?_⟩
    simp only [ofCall, bind_ok]
    refine ⟨none, hnone k, ?_⟩
    simp only [bind_ok]
    refine ⟨none, hplc, ?_⟩
    simp only [bind_ok]
    exact ⟨u, hkn, rfl⟩
  | some p =>
    obtain ⟨as, rfl, hsame⟩ := ofPlaced_temps h
    refine ⟨rfl, fun k => ?_⟩
    simp only [ofCall, bind_ok]
    refine ⟨none, hnone k, ?_⟩
    simp only [bind_ok]
    exact ⟨some p, hplc, hsame k⟩

lemma ofInner_temps (h : (ofInner ctx owner temps n negated t).result = .ok i) :
    Indifferent (fun k => ofInner ctx owner k n negated t) temps i := by
  rcases ofInner_cases h with ⟨sel, hsel, h⟩ | ⟨hsel, ⟨call, -, h⟩ | ⟨hmsg, ⟨value, hret, h⟩ |
    ⟨hret, placed, hplc, ⟨p, ps, as, rfl, rfl, has, rfl⟩ | ⟨hoth, h⟩⟩⟩⟩
  · obtain ⟨a, scope, -, rfl, -⟩ := ofSelect_ok h
    exact .inr ⟨rfl, fun k => by simp only [ofInner, hsel]; exact h⟩
  · obtain ⟨as, a, rfl, -⟩ := ofMessage_ok h
    exact .inl (Nat.lt_succ_self temps)
  · obtain ⟨a, -, rfl⟩ := ofReturn_ok h
    exact .inr ⟨rfl, fun k => by simp only [ofInner, hsel, hmsg, hret]; exact h⟩
  · refine .inr ⟨rfl, fun k => ?_⟩
    simp only [ofInner, hsel, hmsg, hret, bind_ok]
    refine ⟨_, hplc, ?_⟩
    simp only [Bool.false_eq_true, if_false, bind_ok]
    exact ⟨as, has, rfl⟩
  rcases ofCall_temps h with hlt | ⟨htmp, hsame⟩
  · exact .inl hlt
  refine .inr ⟨htmp, fun k => ?_⟩
  simp only [ofInner, hsel, hmsg, hret, bind_ok]
  refine ⟨placed, hplc, ?_⟩
  split
  next p ps => exact absurd rfl (hoth p ps)
  · exact hsame k

theorem ofLine_temps {owner : Option Owner} (h : (ofLine ctx owner temps n negated t).result = .ok i) :
    Indifferent (fun k => ofLine ctx owner k n negated t) temps i := by
  simp only [ofLine.eq_def] at h ⊢
  by_cases hcl : (t == "\x7d") = true
  · simp only [if_pos hcl] at h ⊢
    cases h
    exact .inr ⟨rfl, fun k => rfl⟩
  simp only [if_neg hcl] at h ⊢
  cases hif : Line.If.ofLine? t with
  | some c =>
    simp only [hif] at h ⊢
    have hsame := h
    split at h
    · simp at h
    split at h
    · simp at h
    simp only [bind_ok] at h
    obtain ⟨p, -, a, -, h⟩ := h
    cases h
    exact .inr ⟨rfl, fun k => hsame⟩
  | none =>
    simp only [hif] at h ⊢
    cases hstt : Line.Start.ofLine? t with
    | some head =>
      simp only [hstt] at h ⊢
      have hsame := h
      split at h
      · simp at h
      cases h
      exact .inr ⟨rfl, fun k => hsame⟩
    | none =>
      simp only [hstt] at h ⊢
      cases owner with
      | none =>
        cases h
        exact .inr ⟨rfl, fun k => rfl⟩
      | some owner => exact ofInner_temps h

end Instruction

/-! ### Lines -/

variable {s s₁ : State}

lemma flush_temps (h : (flush ctx s).result = .ok s₁) :
    s₁.temps = s.temps ∧ ∀ k, (flush ctx { s with temps := k }).result = .ok { s₁ with temps := k } := by
  rw [flush] at h
  cases hblk : s.block with
  | none =>
    simp only [hblk] at h
    cases h
    refine ⟨rfl, fun k => ?_⟩
    simp only [hblk]
    rfl
  | some b =>
    simp only [hblk, bind_ok] at h
    obtain ⟨-, -, full, hfull, ⟨chains, next⟩, hrows, -, -, h⟩ := h
    cases h
    refine ⟨rfl, fun k => ?_⟩
    rw [flush]
    simp only [bind_ok]
    exact ⟨(), Settings.result_traceStage _ _, full, hfull, (chains, next), hrows, (),
      Settings.result_traceStage _ _, rfl⟩

lemma State.foldl_add_temps (as : List Action) (s : State) (k : Nat) :
    as.foldl State.add { s with temps := k } = { as.foldl State.add s with temps := k } :=
  List.foldl_hom (fun s : State => { s with temps := k }) fun _ _ => rfl

/-- An instruction changes the number of variables as it says, and does not depend on it otherwise. -/
lemma exec_temps (h : (exec ctx s i).result = .ok s₁) : s₁.temps = i.tempsAfter s.temps
    ∧ ∀ k, (exec ctx { s with temps := k } (i.withTemps k)).result = .ok { s₁ with temps := k } := by
  cases i with
  | idle | condition | result =>
    cases h
    exact ⟨rfl, fun k => rfl⟩
  | close =>
    rw [exec] at h
    cases hsc : s.scopes with
    | nil =>
      rw [hsc] at h
      obtain ⟨htmp, hsame⟩ := flush_temps h
      rw [hsc] at hsame
      exact ⟨htmp, hsame⟩
    | cons scope outer =>
      simp only [hsc] at h
      cases h
      cases scope with
      | condition => exact ⟨rfl, fun k => rfl⟩
      | selection before default => cases before <;> exact ⟨rfl, fun k => rfl⟩
  | start head =>
    rw [exec, beginBlock, bind_ok] at h
    obtain ⟨s₂, hfl, h⟩ := h
    obtain ⟨htmp, hsame⟩ := flush_temps hfl
    have hbegin : ∀ k, (exec ctx { s with temps := k } ((Instruction.start head).withTemps k)).result
        = (beginBlock ctx head { s with temps := k }).result := fun _ => rfl
    simp only [hbegin, beginBlock, Compile.result_bind, hsame]
    cases head with
    | event | func =>
      cases h
      exact ⟨htmp, fun k => rfl⟩
    | loop name ticks =>
      simp only at h ⊢
      split at h
      next m hm =>
        cases h
        exact ⟨htmp, fun k => rfl⟩
      · simp at h
  | selection a negated scope => cases scope <;> (obtain rfl := ok.inj h; exact ⟨rfl, fun k => rfl⟩)
  | actions as temps =>
    cases h
    rw [State.foldl_add_temps as s temps]
    exact ⟨rfl, fun k => congrArg ok (State.foldl_add_temps as s k)⟩

/-- Lines that make no variables are read in the same way whatever variables were made before. -/
theorem lines_temps {namespaces ls : List Text} (h : (lines ctx namespaces n s ls).result = .ok s₁) :
    s.temps < s₁.temps ∨ s₁.temps = s.temps
      ∧ ∀ k, (lines ctx namespaces n { s with temps := k } ls).result = .ok { s₁ with temps := k } := by
  induction ls generalizing n s with
  | nil =>
    cases h
    exact .inr ⟨rfl, fun k => rfl⟩
  | cons raw ls ih =>
    rw [lines, bind_ok] at h
    obtain ⟨s₂, hline, h⟩ := h
    have hfst : s.temps < s₂.temps ∨ s₂.temps = s.temps
        ∧ ∀ k, (line ctx namespaces n raw { s with temps := k }).result = .ok { s₂ with temps := k } := by
      rcases line_ok hline with ⟨hcd, rfl⟩ | ⟨negated, t, i, hcd, hi, hexec⟩
      · exact .inr ⟨rfl, fun k => by rw [result_line, hcd]⟩
      obtain ⟨htmp, hsame⟩ := exec_temps hexec
      rw [htmp]
      rcases Instruction.ofLine_temps hi with hlt | ⟨hkp, hln⟩
      · exact .inl hlt
      refine .inr ⟨hkp, fun k => ?_⟩
      rw [result_line, hcd]
      simp [not_bare_of_line hline hcd, hln k, ok_bind, hsame k]
    rcases hfst with hlt | ⟨htmp, hsame⟩
    · rcases ih h with hrest | ⟨hrest, -⟩ <;> exact .inl (by omega)
    rcases ih h with hlt | ⟨hrest, hrestSame⟩
    · exact .inl (by omega)
    refine .inr ⟨by omega, fun k => ?_⟩
    rw [lines, bind_ok]
    exact ⟨_, hsame k, hrestSame k⟩

end Program
end BlockScript
