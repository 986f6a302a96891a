import BlockScript.Proofs.Runs

/-!
# What lines do

What a line does is one of a few things: it closes something, opens a scope, begins a block, or is flat, which means
that at most it adds actions of the library (`Instruction.ofLine_ok`). Which of these it is can be read off the line
(`roleOf`).
-/

open List Except
namespace BlockScript.Program
open Script.Compile (bind_ok)
open Plan (Owner)
variable {ctx : Context} {owner : Option Owner} {temps n : Nat} {negated : Bool} {t : Text} {i : Instruction}

/-! ### Flat instructions -/

def OfLibrary (ctx : Context) (a : Action) : Prop :=
  ∃ p a' negated, (Instruction.place ctx p).result = .ok a' ∧ a = { a' with negated }

/-- The instruction of a line that opens and closes nothing: at most it adds actions of the library. -/
inductive Instruction.Flat (ctx : Context) : Instruction → Prop
  | idle : Flat ctx .idle
  | actions (as : List Action) (temps : Nat) (h : ∀ a ∈ as, OfLibrary ctx a) : Flat ctx (.actions as temps)
  | result (a : Action) (h : OfLibrary ctx a) : Flat ctx (.result a)
  | selection (a : Action) (negated : Bool) (h : OfLibrary ctx a) : Flat ctx (.selection a negated none)

namespace Instruction

lemma ofLibrary_place {p : Placed} {a : Action} (h : (place ctx p).result = .ok a) : OfLibrary ctx a :=
  ⟨p, a, a.negated, h, rfl⟩

variable {as : List Action} {value : Text} {sel : Line.Select}

lemma ofLibrary_mapM {ps : List Placed} (h : (ps.mapM (place ctx)).result = .ok as) : ∀ a ∈ as, OfLibrary ctx a := by
  intro a ha
  obtain ⟨p, -, hp⟩ := mapM_ok h a ha
  exact ofLibrary_place hp

lemma ofMessage_ok {fn args : Text} (h : (ofMessage ctx temps fn args).result = .ok i) :
    ∃ as a, i = .actions (as ++ [a]) (temps + 1) ∧ ∀ b ∈ as ++ [a], OfLibrary ctx b := by
  simp only [ofMessage, bind_ok] at h
  obtain ⟨ps, -, h⟩ := h
  split at h
  next p ps =>
    simp only [bind_ok] at h
    obtain ⟨as, has, shown, -, a, ha, h⟩ := h
    cases h
    refine ⟨as, a, rfl, fun b hb => ?_⟩
    rcases mem_append.mp hb with hb | hb
    · exact ofLibrary_mapM has b hb
    · exact mem_singleton.mp hb ▸ ofLibrary_place ha
  · simp at h

lemma ofLibrary_returnAction {a : Action} (h : (returnAction ctx value).result = .ok a) : OfLibrary ctx a := by
  rw [returnAction, bind_ok] at h
  obtain ⟨p, -, h⟩ := h
  exact ofLibrary_place h

lemma ofLibrary_prologue {params : List Text} (h : (prologue ctx params).result = .ok as) :
    ∀ a ∈ as, OfLibrary ctx a := by
  rw [prologue, bind_ok] at h
  obtain ⟨taken, htk, h⟩ := h
  cases h
  intro a ha
  obtain ⟨pair, hpair, ha⟩ := mem_flatten.mp ha
  obtain ⟨param, -, hpar⟩ := mapM_ok htk pair hpair
  simp only [bind_ok] at hpar
  obtain ⟨read, -, a₁, ha₁, removed, -, a₂, ha₂, hpar⟩ := hpar
  cases hpar
  rcases mem_cons.mp ha with rfl | ha
  · exact ofLibrary_place ha₁
  · exact mem_singleton.mp ha ▸ ofLibrary_place ha₂

lemma ofReturn_ok {owner : Owner} (h : (ofReturn ctx owner value).result = .ok i) :
    ∃ a, (returnAction ctx (returnToken value)).result = .ok a ∧ i = .result a := by
  cases owner with
  | func name =>
    rw [ofReturn, bind_ok] at h
    obtain ⟨a, ha, h⟩ := h
    exact ⟨a, ha, (ok.inj h).symm⟩
  | event | loop => simp [ofReturn] at h

/-- A call gives the action of its entry behind those that reckon its formulas, or nothing if no entry is meant. -/
lemma ofCall_cases (h : (ofCall ctx temps n negated t).result = .ok i) :
    (∃ as p a k, (∀ b ∈ as, OfLibrary ctx b) ∧ (place ctx p).result = .ok a ∧ i
      = .actions (as ++ [{ a with negated }]) k)
    ∨ (∃ k, (FormulaCall.compile ctx.lib temps t).result = .ok (some ([], k)) ∧ i = .actions [] k)
    ∨ (unknownLine ctx n t).result = .ok () ∧ i = .idle := by
  have hplc {k firsts p} : (ofPlaced ctx negated t k firsts p).result = .ok i → ∃ as p a k,
      (∀ b ∈ as, OfLibrary ctx b) ∧ (place ctx p).result = .ok a ∧ i = .actions (as ++ [{ a with negated }]) k := by
    intro h
    simp only [ofPlaced, bind_ok] at h
    obtain ⟨as, has, -, -, a, ha, h⟩ := h
    exact ⟨as, p, a, k, ofLibrary_mapM has, ha, (ok.inj h).symm⟩
  rw [ofCall, bind_ok] at h
  obtain ⟨call, hcall, h⟩ := h
  split at h
  next ps k =>
    split at h
    · exact .inl (hplc h)
    next hlast =>
      obtain rfl := getLast?_eq_none_iff.mp hlast
      exact .inr (.inl ⟨k, hcall, (ok.inj h).symm⟩)
  next =>
    rw [bind_ok] at h
    obtain ⟨placed, -, h⟩ := h
    split at h
    next =>
      rw [bind_ok] at h
      obtain ⟨_, hunk, h⟩ := h
      exact .inr (.inr ⟨hunk, (ok.inj h).symm⟩)
    · exact .inl (hplc h)

lemma flat_ofCall (h : (ofCall ctx temps n negated t).result = .ok i) : i.Flat ctx := by
  rcases ofCall_cases h with ⟨as, p, a, k, has, ha, rfl⟩ | ⟨k, -, rfl⟩ | ⟨-, rfl⟩
  · refine .actions _ _ fun b hb => ?_
    rcases mem_append.mp hb with hb | hb
    · exact has b hb
    · exact ⟨p, a, negated, ha, mem_singleton.mp hb⟩
  · exact .actions _ _ (by simp)
  · exact .idle

/-! ### Scopes -/

def IsDefault (ctx : Context) (sel : Line.Select) (default : Action) : Prop :=
  ∃ canon p entity, Selector.find ctx.lib.api ctx.palette sel.chain = .ok canon
    ∧ (placeLine ctx.lib ("select." ++ canon ++ "(" ++ sel.args ++ ")")).result = .ok (some p)
    ∧ Selector.isEntity p.spec = .ok entity
    ∧ default = if entity then ctx.defaultEntity else ctx.defaultPlayer

lemma IsDefault.eq_or_eq {default : Action} (h : IsDefault ctx sel default) :
    default = ctx.defaultPlayer ∨ default = ctx.defaultEntity := by
  obtain ⟨-, -, entity, -, -, -, rfl⟩ := h
  cases entity
  · exact .inl rfl
  · exact .inr rfl

lemma ofSelect_ok (h : (ofSelect ctx negated sel).result = .ok i) :
    ∃ a scope, OfLibrary ctx a ∧ i = .selection a negated scope ∧ scope.isSome = sel.opens
      ∧ ∀ default ∈ scope, IsDefault ctx sel default := by
  unfold ofSelect at h
  dsimp only at h
  split at h
  · simp at h
  split at h
  next canon hcanon =>
    simp only [bind_ok] at h
    obtain ⟨_, hpure, placed, hplc, h⟩ := h
    cases hpure
    split at h
    · simp at h
    next p =>
      simp only [bind_ok] at h
      obtain ⟨a, ha, conditional, -, h⟩ := h
      split at h
      · simp at h
      split at h
      next hop =>
        rw [bind_ok] at h
        obtain ⟨entity, hety, h⟩ := h
        cases h
        refine ⟨a, some _, ofLibrary_place ha, rfl, by simp [hop], fun default hd => ?_⟩
        cases hd
        cases hspec : Selector.isEntity p.spec with
        | error e => simp [hspec, Except.mapError] at hety
        | ok e =>
          cases hspec ▸ hety
          exact ⟨canon, p, entity, hcanon, hplc, hspec, rfl⟩
      next hop =>
        cases h
        exact ⟨a, none, ofLibrary_place ha, rfl, by simpa using hop, by simp⟩
  · simp at h

end Instruction

/-- What a line is to the scopes of a script. -/
inductive Role where
  /-- The line closes the innermost scope or else the block. -/
  | close
  /-- The line opens the scope of a condition or a selection. -/
  | scope
  /-- The line begins a block. -/
  | start
  | flat
deriving DecidableEq

/-- What a line is to the scopes of a script. Selections are made in blocks only. -/
def roleOf (inBlock : Bool) (t : Text) : Role :=
  if t == "\x7d" then .close
  else if (Line.If.ofLine? t).isSome then .scope
  else if (Line.Start.ofLine? t).isSome then .start
  else if inBlock && (Line.select? t).any (·.opens) then .scope
  else .flat

/-- What an instruction may be by the role of its line. -/
def Instruction.Plays (ctx : Context) (i : Instruction) : Role → Prop
  | .close => i = .close
  | .scope => (∃ a, OfLibrary ctx a ∧ i = .condition a) ∨ ∃ a negated default, OfLibrary ctx a
      ∧ i = .selection a negated (some default) ∧ (default = ctx.defaultPlayer ∨ default = ctx.defaultEntity)
  | .start => ∃ head, i = .start head
  | .flat => i.Flat ctx

namespace Instruction

lemma ofInner_cases {owner : Owner} (h : (ofInner ctx owner temps n negated t).result = .ok i) :
    (∃ sel, Line.select? t = some sel ∧ (ofSelect ctx negated sel).result = .ok i)
      ∨ Line.select? t = none
        ∧ ((∃ call, Line.message? t = some call ∧ (ofMessage ctx temps call.1 call.2).result = .ok i)
        ∨ Line.message? t = none ∧ ((∃ value, Line.return? t = some value ∧ (ofReturn ctx owner value).result = .ok i)
          ∨ Line.return? t = none ∧ ∃ placed, (Statement.compile ctx.lib ctx.signatures false t).result = .ok placed
            ∧ ((∃ p ps as, placed = some (p :: ps) ∧ negated = false ∧ ((p :: ps).mapM (place ctx)).result = .ok as
                ∧ i = .actions as temps)
              ∨ (∀ p ps, placed ≠ some (p :: ps)) ∧ (ofCall ctx temps n negated t).result = .ok i))) := by
  rw [ofInner] at h
  cases hsel : Line.select? t with
  | some sel => exact .inl ⟨sel, rfl, by simpa [hsel] using h⟩
  | none =>
    refine .inr ⟨rfl, ?_⟩
    cases hmsg : Line.message? t with
    | some call => exact .inl ⟨call, rfl, by simpa [hsel, hmsg] using h⟩
    | none =>
      refine .inr ⟨rfl, ?_⟩
      cases hret : Line.return? t with
      | some value => exact .inl ⟨value, rfl, by simpa [hsel, hmsg, hret] using h⟩
      | none =>
        simp only [hsel, hmsg, hret, bind_ok] at h
        obtain ⟨placed, hplc, h⟩ := h
        refine .inr ⟨rfl, placed, hplc, ?_⟩
        split at h
        next p ps =>
          cases negated with
          | true => simp at h
          | false =>
            simp only [Bool.false_eq_true, if_false, bind_ok] at h
            obtain ⟨as, has, h⟩ := h
            exact .inl ⟨p, ps, as, rfl, rfl, has, (ok.inj h).symm⟩
        next hoth => exact .inr ⟨fun p ps => hoth p ps, h⟩

lemma ofInner_ok {owner : Owner} (h : (ofInner ctx owner temps n negated t).result = .ok i) :
    i.Plays ctx (if (Line.select? t).any (·.opens) then .scope else .flat) := by
  rcases ofInner_cases h with ⟨sel, hsel, h⟩ | ⟨hsel, hflat⟩
  · obtain ⟨a, scope, ha, rfl, hop, hdef⟩ := ofSelect_ok h
    rw [hsel, Option.any_some, ← hop]
    cases scope with
    | none => exact .selection a negated ha
    | some default => exact .inr ⟨a, negated, default, ha, rfl, (hdef default rfl).eq_or_eq⟩
  rw [hsel]
  rcases hflat with ⟨call, -, h⟩ | ⟨-, ⟨value, -, h⟩ | ⟨-, placed, -, ⟨p, ps, as, -, -, has, rfl⟩ | ⟨-, h⟩⟩⟩
  · obtain ⟨as, a, rfl, has⟩ := ofMessage_ok h
    exact .actions _ _ has
  · obtain ⟨a, ha, rfl⟩ := ofReturn_ok h
    exact .result a (ofLibrary_returnAction ha)
  · exact .actions _ _ (ofLibrary_mapM has)
  · exact flat_ofCall h

theorem ofLine_ok (h : (ofLine ctx owner temps n negated t).result = .ok i) : i.Plays ctx (roleOf owner.isSome t) := by
  rw [roleOf]
  rcases ofLine_cases h with ⟨hcl, hi⟩ | ⟨hcl, ⟨c, p, a, hif, -, ha, hi⟩ | ⟨hif, ⟨head, hst, -, hi⟩ | ⟨hst, hin⟩⟩⟩
  · rwa [if_pos hcl]
  · rw [hcl, hif]
    exact .inl ⟨a, ofLibrary_place ha, hi⟩
  · rw [hcl, hif, hst]
    exact ⟨head, hi⟩
  · rw [hcl, hif, hst]
    rcases hin with ⟨rfl, rfl⟩ | ⟨o, rfl, hin⟩
    · exact .idle
    · exact ofInner_ok hin

end Instruction
end BlockScript.Program
