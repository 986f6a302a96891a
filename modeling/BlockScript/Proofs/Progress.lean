import BlockScript.Proofs.Causes
import BlockScript.Proofs.Faithful
import BlockScript.Proofs.Instructions

/-!
# Progress of splitting

A step of splitting leaves fewer actions than there were, with one exception: an event cut behind its first
action, where a selection has to be made again, has as many actions left as before. What is left is then cut in the same
way again, so that the splitting of the event does not end before the number of splits is used up. It is the only way
in which splitting runs away where there may be as many splits as there are actions (`Setting.runsAway_blockRows_iff`).
-/

open List Option
namespace BlockScript
open Program
open Script.Settings (result_traceSplit)
open Script (Error RunsAway Settings not_runsAway_ok runsAway_bind)
open Script.Compile (bind_ok result_bind)
namespace Plan

/-! ### Cuts that change nothing -/

section Stalls
variable {default : Option Action} {r : Remaining} {c : Cut} {sel : Action}

lemma Cut.length_rest (c : Cut) (r : Remaining) :
    (c.rest r).actions.length = r.actions.length - c.pos + if c.restore.isSome then 1 else 0 := by
  rw [Cut.actions_rest]
  cases hr : c.restore <;> simp

/-- What is left is cut behind its first action, and a selection is made again there. -/
def Remaining.Stalls (default : Option Action) (r : Remaining) : Prop :=
  ∃ c, lastCut? (cuts default r) = some c ∧ c.pos = 1 ∧ c.restore.isSome

lemma Remaining.not_stalls_none (r : Remaining) : ¬ r.Stalls none := by
  rintro ⟨c, hc, -, hr⟩
  simpa using isSome_default_of_restore (lastCut?_mem hc) hr

lemma length_rest_lt_iff (hc : lastCut? (cuts default r) = some c) :
    (c.rest r).actions.length < r.actions.length ↔ ¬ r.Stalls default := by
  obtain ⟨-, hpos, hlt, -⟩ := mem_cuts.mp (lastCut?_mem hc)
  rw [Cut.length_rest]
  have hstl : r.Stalls default ↔ c.pos = 1 ∧ c.restore.isSome :=
    ⟨fun ⟨c', hc', h⟩ => some.inj (hc'.symm.trans hc) ▸ h, fun h => ⟨c, hc, h⟩⟩
  rw [hstl]
  by_cases hr : c.restore.isSome
  · simp only [hr, if_true, and_true]
    omega
  simp only [hr, Bool.false_eq_true, if_false, and_false, not_false_eq_true, iff_true]
  omega

lemma boundaries_rest_of_stalls (hpos : c.pos = 1) (hsel : c.restore = some sel) :
    (c.rest r).boundaries = ⟨1, some sel⟩ :: r.boundaries.filter fun b => 1 < b.pos := by
  rw [Cut.rest, hsel]
  simp only [hpos, List.map_map, List.cons.injEq, true_and]
  refine (map_congr_left fun b hb => ?_).trans (List.map_id _)
  have hfar : 1 < b.pos := of_decide_eq_true (mem_filter.mp hb).2
  rw [Function.comp_apply, Nat.sub_add_cancel (Nat.le_of_lt hfar)]
  rfl

lemma lastCut?_rest_of_stalls (hc : lastCut? (cuts default r) = some c) (hpos : c.pos = 1) (hr : c.restore.isSome) :
    lastCut? (cuts default (c.rest r)) = some c := by
  obtain ⟨sel, hsel⟩ := isSome_iff_exists.mp hr
  obtain ⟨⟨b, -, hcb⟩, -, hlt, hroom⟩ := mem_cuts.mp (lastCut?_mem hc)
  have hbnd := boundaries_rest_of_stalls (r := r) hpos hsel
  have hlen : (c.rest r).actions.length = r.actions.length := by
    rw [Cut.length_rest, if_pos hr]
    omega
  -- the selection that is made again is no default selection
  have hagain : c = ⟨1, default.bind fun d => restoreOf d ⟨1, some sel⟩⟩ := by
    have hres : (default.bind fun d => restoreOf d b) = some sel := by rw [← hsel, hcb]
    obtain ⟨d, hd, hb⟩ := bind_eq_some_iff.mp hres
    obtain ⟨-, hne⟩ := filter_eq_some_iff.mp hb
    have hsame : restoreOf d ⟨1, some sel⟩ = some sel := filter_eq_some_iff.mpr ⟨rfl, hne⟩
    rw [hd, bind_some, hsame, ← hpos, ← hsel]
  -- no boundary further on may be cut at, or it would have been
  have hcuts : ∀ c' ∈ cuts default (c.rest r), c' = c := by
    intro c' hc'
    obtain ⟨⟨b', hb', rfl⟩, hpos', hlt', hroom'⟩ := mem_cuts.mp hc'
    rw [hbnd] at hb'
    rcases mem_cons.mp hb' with rfl | hb'
    · exact hagain.symm
    obtain ⟨hb', hfar⟩ := mem_filter.mp hb'
    have hle := pos_le_lastCut? hc (mem_cuts.mpr ⟨⟨b', hb', rfl⟩, hpos', hlen ▸ hlt', hroom'⟩)
    have hfar : 1 < b'.pos := of_decide_eq_true hfar
    dsimp only at hle
    omega
  have hmem : c ∈ cuts default (c.rest r) :=
    mem_cuts.mpr ⟨⟨⟨1, some sel⟩, by simp [hbnd], hagain⟩, by omega, by omega, hroom⟩
  cases hlast : lastCut? (cuts default (c.rest r)) with
  | none => simp [lastCut?_none hlast] at hmem
  | some c' => rw [hcuts c' (lastCut?_mem hlast)]

end Stalls

/-! ### Steps -/

namespace Setting
variable {s : Setting} {subject : Subject} {st st' : SplitState}

lemma Step.length_lt_iff (h : s.Step subject st st') :
    st'.left.actions.length < st.left.actions.length ↔ ¬ st.left.Stalls (s.restored subject) := by
  cases h with
  | cut c call row long last calls row_eq => exact length_rest_lt_iff last
  | extract call x long stuck calls body =>
    refine iff_of_true ?_ ?_
    · have := length_extract? body
      dsimp only [Remaining.ofActions]
      omega
    rintro ⟨c, hc, -⟩
    rw [stuck] at hc
    contradiction

lemma result_cutOff (s : Setting) (subject : Subject) (c : Cut) (helper : Text) (st : SplitState) :
    (s.cutOff subject c helper st).result = (s.callHelper helper).result.bind fun call =>
      (Row.of s.events st.owner (c.row (s.restored subject) st.left ++ [call])).result := by
  unfold cutOff
  dsimp only
  split <;> simp only [result_bind] <;> rfl

lemma not_runsAway_callHelper (s : Setting) (n : Nat) : ¬ RunsAway (s.callHelper (helperName n)).result := by
  have hclr : ¬ RunsAway s.caller := by
    rw [caller, result_bind, runsAway_bind]
    rintro (h | ⟨spec, -, h⟩)
    · exact Statement.calm_callSpec.calm h
    · exact Action.calm_ofPlaced.calm h
  rw [result_callHelper]
  cases h : s.caller with
  | ok a => exact not_runsAway_ok _
  | error e =>
    rw [h] at hclr
    exact hclr

lemma exists_rowEntriesFrom (owner : Owner) (header : Entry) (used n : Nat) (last : Text) (as : List Action) :
    ∃ es, (rowEntriesFrom owner header used n last as).result = .ok es := by
  induction as generalizing used n last with
  | nil => exact ⟨[], rfl⟩
  | cons a as ih =>
    obtain ⟨full, hfull⟩ := ih 2 (n + 1) a.block
    obtain ⟨more, hmore⟩ := ih (used + 1) (n + 1) a.block
    rw [rowEntriesFrom]
    split
    · split <;> simp [result_bind, hfull, Except.bind]
    · simp [result_bind, hmore, Except.bind]

lemma header_eq_error {events : Table KnownEvent} {owner : Owner} {e : Error} (h : owner.header events = .error e) :
    ∃ name, e = .unknownEvent name := by
  cases owner with
  | event word =>
    rw [Owner.header, Owner.eventHeader] at h
    dsimp only at h
    split at h
    · contradiction
    split at h
    · contradiction
    split at h
    · contradiction
    · exact ⟨_, (Except.error.inj h).symm⟩
  | func | loop => contradiction

lemma not_runsAway_rowOf (events : Table KnownEvent) (owner : Owner) (as : List Action) :
    ¬ RunsAway (Row.of events owner as).result := by
  rw [Row.of, rowEntries]
  cases hhdr : owner.header events with
  | ok header =>
    obtain ⟨es, hes⟩ := exists_rowEntriesFrom owner header 1 0 header.block as
    simp only [result_bind, hes]
    exact not_runsAway_ok _
  | error e =>
    obtain ⟨name, rfl⟩ := header_eq_error hhdr
    simp [RunsAway, result_bind, Except.bind]

lemma exists_rowOf_func (events : Table KnownEvent) (name : Text) (as : List Action) :
    ∃ row, (Row.of events (.func name) as).result = .ok row := by
  obtain ⟨es, hes⟩ := exists_rowEntriesFrom (.func name) (.ofBlock "lapis_block" name "no") 1 0 "lapis_block" as
  refine ⟨⟨.func name, as, .ofBlock "lapis_block" name "no" :: es⟩, ?_⟩
  rw [Row.of, rowEntries]
  simp only [Owner.header, result_bind]
  rw [show (Entry.ofBlock "lapis_block" name "no").block = "lapis_block" from rfl, hes]
  rfl

/-! ### Splitting a block -/

lemma runsAway_split : RunsAway (s.split subject st).result ↔ maxPayload < st.left.actions.length
    ∧ (s.cfg.maxSplits ≤ st.count ∨ ∃ st', s.Step subject st st' ∧ RunsAway (s.split subject st').result) := by
  rw [split]
  split
  next hfits =>
    refine iff_of_false (not_runsAway_ok _) fun h => ?_
    omega
  next hlong =>
    rw [and_iff_right (Nat.lt_of_not_le hlong)]
    split
    next hmax => exact iff_of_true ⟨_, _, _, _, rfl⟩ (.inl hmax)
    next hmax =>
      rw [or_iff_right hmax]
      simp only [result_bind, result_nextHelper, traceStep, result_traceSplit, Except.bind]
      split
      next c hc =>
        rw [result_bind, result_traceSplit]
        simp only [Except.bind]
        rw [result_bind, result_cutOff, runsAway_bind, runsAway_bind]
        constructor
        · rintro ((h | ⟨call, -, h⟩) | ⟨row, hrow, h⟩)
          · exact absurd h (s.not_runsAway_callHelper _)
          · exact absurd h (not_runsAway_rowOf _ _ _)
          obtain ⟨call, hcall, hrow⟩ := bind_eq_ok.mp hrow
          exact ⟨_, .cut c call row (by omega) hc hcall hrow, h⟩
        rintro ⟨st', hstep, h⟩
        cases hstep with
        | cut c' call row long last calls row_eq =>
          obtain rfl := some.inj (hc.symm.trans last)
          exact .inr ⟨row, bind_eq_ok.mpr ⟨call, calls, row_eq⟩, h⟩
        | extract call x long stuck calls body =>
          cases hc.symm.trans stuck
      next hnone =>
        rw [result_bind, result_traceSplit]
        simp only [Except.bind]
        rw [result_bind, runsAway_bind]
        constructor
        · rintro (h | ⟨call, hcall, h⟩)
          · exact absurd h (s.not_runsAway_callHelper _)
          split at h
          · simp [RunsAway] at h
          next x hx =>
            split at h
            next =>
              simp only [result_bind, result_traceSplit] at h
              exact ⟨_, .extract call x (by omega) hnone hcall hx, h⟩
            · simp [RunsAway] at h
        rintro ⟨st', hstep, h⟩
        cases hstep with
        | cut c call row long last calls row_eq =>
          cases hnone.symm.trans last
        | extract call x long stuck calls body =>
          refine .inr ⟨call, calls, ?_⟩
          have hshort : x.rest.length < st.left.actions.length := by
            have := length_extract? body
            omega
          simp only [body, dif_pos hshort, result_bind, result_traceSplit]
          exact h

lemma runsAway_of_stalls (hstl : st.left.Stalls (s.restored subject)) (hstep : s.Step subject st st') :
    RunsAway (s.split subject st).result := by
  obtain ⟨c, hc, hpos, hr⟩ := hstl
  induction hn : s.cfg.maxSplits - st.count generalizing st st' with
  | zero =>
    refine runsAway_split.mpr ⟨?_, .inl (by omega)⟩
    cases hstep <;> assumption
  | succ n ih =>
    cases hstep with
    | extract call x long stuck calls body =>
      rw [stuck] at hc
      contradiction
    | cut c' call row long last calls row_eq =>
      obtain rfl := some.inj (hc.symm.trans last)
      refine runsAway_split.mpr ⟨long, .inr ⟨_, .cut c call row long last calls row_eq, ?_⟩⟩
      have hlast := lastCut?_rest_of_stalls hc hpos hr
      have hlong : maxPayload < (c.rest st.left).actions.length := by
        rw [Cut.length_rest, if_pos hr]
        omega
      -- calls of helpers differ only in the name, and the rest belongs to a helper
      obtain ⟨call', hcall'⟩ : ∃ call', (s.callHelper (helperName (fresh s.taken (s.helperNumber st + 1)))).result
          = .ok call' := by
        rw [result_callHelper] at calls ⊢
        cases hclr : s.caller with
        | error e => simp [hclr, Except.map] at calls
        | ok a => exact ⟨_, rfl⟩
      obtain ⟨row', hrow'⟩ := exists_rowOf_func s.events (helperName (s.helperNumber st))
        (c.row (s.restored subject) (c.rest st.left) ++ [call'])
      exact ih (.cut c call' row' hlong hlast hcall' hrow') hlast (by dsimp only; omega)

/-- Where there may be as many splits as there are actions, splitting runs away only where a cut stalls. -/
lemma stalls_of_runsAway (hmax : st.count + st.left.actions.length ≤ s.cfg.maxSplits)
    (h : RunsAway (s.split subject st).result) :
    ∃ st₁ st₂, s.Steps subject st st₁ ∧ s.Step subject st₁ st₂ ∧ st₁.left.Stalls (s.restored subject) := by
  induction hn : st.left.actions.length using Nat.strongRecOn generalizing st with
  | ind n ih =>
    obtain ⟨hlong, hcnt | ⟨st', hstep, h⟩⟩ := runsAway_split.mp h
    · omega
    by_cases hstl : st.left.Stalls (s.restored subject)
    · exact ⟨st, st', .refl, hstep, hstl⟩
    have hlt := hstep.length_lt_iff.mpr hstl
    have hcnt : st'.count ≤ st.count + 1 := by cases hstep <;> simp
    obtain ⟨st₁, st₂, hsts, h⟩ := ih _ (hn ▸ hlt) (by omega) h rfl
    exact ⟨st₁, st₂, hsts.head hstep, h⟩

lemma runsAway_split_of_stalls {st₁ st₂ : SplitState} (hsts : s.Steps subject st st₁) (hstep : s.Step subject st₁ st₂)
    (hstl : st₁.left.Stalls (s.restored subject)) : RunsAway (s.split subject st).result := by
  induction hsts using Relation.ReflTransGen.head_induction_on with
  | refl => exact runsAway_of_stalls hstl hstep
  | head hfst _ ih =>
    refine runsAway_split.mpr ⟨?_, .inr ⟨_, hfst, ih⟩⟩
    cases hfst <;> assumption

/-! ### Helpers -/

section Helpers
variable {owner : Owner} {left : Remaining} {next m : Nat} {rows : Rows} {h : Helper}

lemma Steps.length_le (hsts : s.Steps subject st st') (hleft : st.left.actions.length ≤ m)
    (hhlp : ∀ h ∈ st.rows.helpers, h.actions.length ≤ m) :
    st'.left.actions.length ≤ m ∧ ∀ h ∈ st'.rows.helpers, h.actions.length ≤ m := by
  induction hsts with
  | refl => exact ⟨hleft, hhlp⟩
  | tail _ hstep ih =>
    obtain ⟨hleft, hhlp⟩ := ih
    cases hstep with
    | cut c call row long last calls row_eq =>
      obtain ⟨-, hpos, hlt, -⟩ := mem_cuts.mp (lastCut?_mem last)
      refine ⟨?_, hhlp⟩
      rw [Cut.length_rest]
      split <;> omega
    | extract call x long stuck calls body =>
      have := length_extract? body
      refine ⟨by dsimp only [Remaining.ofActions]; omega, fun h hh => ?_⟩
      rcases mem_cons.mp hh with rfl | hh
      · dsimp only
        omega
      · exact hhlp h hh

lemma runsAway_splitRows : RunsAway (s.splitRows subject owner left next).result
    ↔ RunsAway (s.split subject ⟨owner, left, 0, ⟨[], [], next⟩⟩).result := by
  rw [splitRows, result_bind, runsAway_bind]
  refine or_iff_left ?_
  rintro ⟨st, -, h⟩
  rw [result_bind, runsAway_bind] at h
  rcases h with h | ⟨row, -, h⟩
  · exact not_runsAway_rowOf _ _ _ h
  · exact not_runsAway_ok _ h

lemma not_runsAway_helperRows (hmax : h.actions.length ≤ s.cfg.maxSplits) :
    ¬ RunsAway (s.helperRows h next).result := by
  rw [helperRows]
  split
  next =>
    rw [result_bind, runsAway_bind]
    rintro (h | ⟨row, -, h⟩)
    · exact not_runsAway_rowOf _ _ _ h
    · exact not_runsAway_ok _ h
  next =>
    intro h
    obtain ⟨st, -, -, -, hstl⟩ :=
      stalls_of_runsAway (by simpa [Remaining.ofActions] using hmax) (runsAway_splitRows.mp h)
    exact st.left.not_stalls_none hstl

lemma length_helpers_helperRows (hrows : (s.helperRows h next).result = .ok rows) (hmax : h.actions.length ≤ m) :
    ∀ h ∈ rows.helpers, h.actions.length ≤ m := by
  rw [helperRows] at hrows
  split at hrows
  next =>
    rw [bind_ok] at hrows
    obtain ⟨row, -, hrows⟩ := hrows
    cases hrows
    simp
  next =>
    obtain ⟨st, row, hsts, -, -, rfl⟩ := splitRows_ok hrows
    exact (hsts.length_le hmax (by simp)).2

lemma not_runsAway_helpersRows {fuel : Nat} {queue : List Helper}
    (hmax : ∀ h ∈ queue, h.actions.length ≤ s.cfg.maxSplits) : ¬ RunsAway (s.helpersRows fuel queue next).result := by
  induction fuel generalizing queue next with
  | zero => exact not_runsAway_ok _
  | succ fuel ih =>
    cases queue with
    | nil => exact not_runsAway_ok _
    | cons first queue =>
      intro h
      simp only [helpersRows, result_bind, runsAway_bind, result_traceSplit] at h
      rcases h with h | ⟨-, -, h | ⟨rows, hrows, h | ⟨⟨more, last⟩, -, h⟩⟩⟩
      · exact not_runsAway_ok _ h
      · exact not_runsAway_helperRows (hmax first (by simp)) h
      · refine ih (fun h' hh' => ?_) h
        rcases mem_append.mp hh' with hh' | hh'
        · exact length_helpers_helperRows hrows (hmax first (by simp)) h' hh'
        · exact hmax h' (by simp [hh'])
      · exact not_runsAway_ok _ h

lemma not_runsAway_withHelpers (hmax : ∀ h ∈ rows.helpers, h.actions.length ≤ s.cfg.maxSplits) :
    ¬ RunsAway (s.withHelpers rows).result := by
  have hque : ∀ h ∈ rows.helpers.reverse, h.actions.length ≤ s.cfg.maxSplits := by simpa using hmax
  intro h
  unfold withHelpers at h
  dsimp only at h
  split at h <;> simp only [result_bind, runsAway_bind, result_traceSplit] at h
  · rcases h with h | ⟨-, -, h | ⟨⟨more, last⟩, -, h⟩⟩
    · exact not_runsAway_ok _ h
    · exact not_runsAway_helpersRows hque h
    · exact not_runsAway_ok _ h
  rcases h with h | ⟨⟨more, last⟩, -, h⟩
  · exact not_runsAway_helpersRows hque h
  · exact not_runsAway_ok _ h

end Helpers

/-! ### Blocks -/

section Blocks
variable {owner : Owner} {left : Remaining} {next : Nat}

lemma exists_event_of_stalls (hsubj : Subject.ofOwner? owner = some subject)
    (h : st.left.Stalls (s.restored subject)) : ∃ name, owner = .event name := by
  cases owner with
  | event name => exact ⟨name, rfl⟩
  | func name =>
    cases hsubj
    exact absurd h st.left.not_stalls_none
  | loop => contradiction

/-- An event comes to a cut behind its first action where a selection is made again. -/
def Stalls (s : Setting) (name : Text) (left : Remaining) (next : Nat) : Prop :=
  ∃ st st', s.Steps (.event (Text.trim name)) ⟨.event name, left, 0, ⟨[], [], next⟩⟩ st
    ∧ s.Step (.event (Text.trim name)) st st' ∧ st.left.Stalls (some s.defaultPlayer)

lemma runsAway_blockRows_of_stalls {name : Text} (h : s.Stalls name left next) :
    RunsAway (s.blockRows (.event name) left next).result := by
  obtain ⟨st, st', hsts, hstep, hstl⟩ := h
  have h := runsAway_split_of_stalls hsts hstep hstl
  have hlong : maxPayload < left.actions.length := (runsAway_split.mp h).1
  rw [blockRows, Subject.ofOwner?, filter_some]
  simp only [hlong, decide_true, if_true, result_bind, runsAway_bind, result_traceSplit]
  exact .inr ⟨(), trivial, .inl (runsAway_splitRows.mpr h)⟩

/-- A block that may be split as often as it has actions is split too often iff it is an event that comes
to a cut that stalls. -/
theorem runsAway_blockRows_iff (hmax : left.actions.length ≤ s.cfg.maxSplits) :
    RunsAway (s.blockRows owner left next).result ↔ ∃ name, owner = .event name ∧ s.Stalls name left next := by
  constructor
  · intro h
    rw [blockRows] at h
    split at h
    next subject hsubj =>
      obtain ⟨hsubj, -⟩ := filter_eq_some_iff.mp hsubj
      simp only [result_bind, runsAway_bind, result_traceSplit] at h
      rcases h with h | ⟨-, -, h | ⟨rows, hrows, h⟩⟩
      · exact absurd h (not_runsAway_ok _)
      · obtain ⟨st, st', hsts, hstep, hstl⟩ := stalls_of_runsAway (by simpa using hmax) (runsAway_splitRows.mp h)
        obtain ⟨name, rfl⟩ := exists_event_of_stalls hsubj hstl
        cases hsubj
        exact ⟨name, rfl, st, st', hsts, hstep, hstl⟩
      obtain ⟨st, row, hsts, -, -, rfl⟩ := splitRows_ok hrows
      exact absurd h (not_runsAway_withHelpers (hsts.length_le hmax (by simp)).2)
    next =>
      rw [result_bind, runsAway_bind] at h
      rcases h with h | ⟨row, -, h⟩
      · exact absurd h (not_runsAway_rowOf _ _ _)
      · exact absurd h (not_runsAway_ok _)
  rintro ⟨name, rfl, h⟩
  exact runsAway_blockRows_of_stalls h

end Blocks
end Setting
end Plan
open Plan

/-! ### Scripts -/

namespace Program
variable {ctx : Context} {p : Prepared} {s : State} {namespaces ls : List Text} {n : Nat} {i : Instruction}

/-- A line does what puts the block that is open into rows. -/
def Ends (ctx : Context) (namespaces : List Text) (n : Nat) (raw : Text) (s : State) : Prop :=
  ∃ negated t i, code namespaces raw = some (negated, t)
    ∧ (Instruction.ofLine ctx (s.block.map fun b => b.owner) s.temps n negated t).result = .ok i
    ∧ (i = .close ∧ s.scopes = [] ∨ ∃ head, i = .start head)

def Puts (ctx : Context) (p : Prepared) (owner : Owner) (left : Remaining) (next : Nat) : Prop :=
  ∃ pre post s b full, p.lines = pre ++ post ∧ (lines ctx p.namespaces 1 .start pre).result = .ok s
    ∧ (∀ raw ∈ post.head?, Ends ctx p.namespaces (pre.length + 1) raw s) ∧ s.block = some b
    ∧ (completed ctx s b).result = .ok full ∧ owner = b.owner ∧ left = ⟨full.actions, full.boundaries⟩
    ∧ next = s.nextHelper

lemma runsAway_flush : RunsAway (flush ctx s).result ↔ ∃ b full, s.block = some b
    ∧ (completed ctx s b).result = .ok full
    ∧ RunsAway (ctx.blockRows b.owner ⟨full.actions, full.boundaries⟩ s.nextHelper).result := by
  rw [flush]
  cases hblk : s.block with
  | none => simp
  | some b =>
    simp only [result_bind, runsAway_bind, Settings.result_traceStage]
    constructor
    · rintro (h | ⟨-, -, h | ⟨full, hfull, h | ⟨⟨chains, next⟩, -, h | ⟨-, -, h⟩⟩⟩⟩)
      · exact absurd h (not_runsAway_ok _)
      · exact absurd h Instruction.calm_completed.calm
      · exact ⟨b, full, rfl, hfull, h⟩
      · exact absurd h (not_runsAway_ok _)
      · exact absurd h (not_runsAway_ok _)
    rintro ⟨b', full, hb, hfull, h⟩
    cases hb
    exact .inr ⟨(), trivial, .inr ⟨full, hfull, .inl h⟩⟩

lemma runsAway_exec : RunsAway (exec ctx s i).result ↔
    (i = .close ∧ s.scopes = [] ∨ ∃ head, i = .start head) ∧ RunsAway (flush ctx s).result := by
  cases i with
  | close =>
    rw [exec]
    cases hsc : s.scopes with
    | nil => simp
    | cons o outer => simp
  | start head =>
    simp only [exec, beginBlock, result_bind, runsAway_bind]
    constructor
    · rintro (h | ⟨s₁, -, h⟩)
      · exact ⟨.inr ⟨head, rfl⟩, h⟩
      cases head with
      | event | func => simp at h
      | loop name ticks =>
        dsimp only at h
        split at h
        · simp at h
        · simp [RunsAway] at h
    rintro ⟨-, h⟩
    exact .inl h
  | selection a negated scope => cases scope <;> simp [exec]
  | idle | condition | actions | result => simp [exec]

lemma runsAway_line {raw : Text} : RunsAway (line ctx namespaces n raw s).result ↔
    Ends ctx namespaces n raw s ∧ RunsAway (flush ctx s).result := by
  rw [result_line, Ends]
  cases hcd : code namespaces raw with
  | none => simp
  | some c =>
    obtain ⟨negated, t⟩ := c
    cases hbare : negated && t.isEmpty with
    | true =>
      obtain ⟨rfl, ht⟩ := Bool.and_eq_true_iff.mp hbare
      obtain rfl := isEmpty_iff.mp ht
      refine iff_of_false (by simp [RunsAway]) ?_
      rintro ⟨⟨_, _, i, heq, hi, hends⟩, -⟩
      cases heq
      have hflat : roleOf (s.block.map fun b => b.owner).isSome [] = .flat := by
        cases (s.block.map fun b => b.owner).isSome <;> decide
      have hplay := Instruction.ofLine_ok hi
      rw [hflat] at hplay
      rcases hends with ⟨rfl, -⟩ | ⟨head, rfl⟩ <;> cases hplay
    | false =>
      simp only [hbare, Bool.false_eq_true, if_false, runsAway_bind, runsAway_exec]
      constructor
      · rintro (h | ⟨i, hi, hends, h⟩)
        · exact absurd h Instruction.calm_ofLine.calm
        · exact ⟨⟨negated, t, i, rfl, hi, hends⟩, h⟩
      rintro ⟨⟨negated', t', i, heq, hi, hends⟩, h⟩
      cases heq
      exact .inr ⟨i, hi, hends, h⟩

lemma runsAway_lines : RunsAway (lines ctx namespaces n s ls).result ↔ ∃ pre raw post s', ls = pre ++ raw :: post
    ∧ (lines ctx namespaces n s pre).result = .ok s' ∧ Ends ctx namespaces (n + pre.length) raw s'
    ∧ RunsAway (flush ctx s').result := by
  induction ls generalizing n s with
  | nil => simp [lines]
  | cons raw ls ih =>
    rw [lines, result_bind, runsAway_bind, runsAway_line]
    constructor
    · rintro (⟨hends, h⟩ | ⟨s₁, hln, h⟩)
      · exact ⟨[], raw, ls, s, rfl, rfl, hends, h⟩
      obtain ⟨pre, raw', post, s', rfl, hpre, hends, h⟩ := ih.mp h
      refine ⟨raw :: pre, raw', post, s', rfl, ?_, ?_, h⟩
      · rw [lines, bind_ok]
        exact ⟨s₁, hln, hpre⟩
      · rwa [length_cons, Nat.add_comm pre.length, ← Nat.add_assoc]
    rintro ⟨pre, raw', post, s', heq, hpre, hends, h⟩
    cases pre with
    | nil =>
      obtain ⟨rfl, rfl⟩ := cons.inj heq
      cases hpre
      exact .inl ⟨hends, h⟩
    | cons raw'' pre =>
      obtain ⟨rfl, rfl⟩ := cons.inj heq
      rw [lines, bind_ok] at hpre
      obtain ⟨s₁, hln, hpre⟩ := hpre
      refine .inr ⟨s₁, hln, ih.mpr ⟨pre, raw', post, s', rfl, hpre, ?_, h⟩⟩
      rwa [length_cons, Nat.add_comm pre.length, ← Nat.add_assoc] at hends

lemma runsAway_run : RunsAway (run ctx p).result ↔ ∃ owner left next, Puts ctx p owner left next
    ∧ RunsAway (ctx.blockRows owner left next).result := by
  simp only [run, result_bind, runsAway_bind, Settings.result_traceStage]
  constructor
  · rintro (h | ⟨s, hs, h | ⟨-, -, h | ⟨s', -, h | ⟨-, -, h⟩⟩⟩⟩)
    · obtain ⟨pre, raw, post, s, hls, hpre, hends, h⟩ := runsAway_lines.mp h
      obtain ⟨b, full, hb, hfull, h⟩ := runsAway_flush.mp h
      refine ⟨_, _, _, ⟨pre, raw :: post, s, b, full, hls, hpre, fun raw' hraw' => ?_, hb, hfull, rfl, rfl, rfl⟩, h⟩
      cases hraw'
      rwa [Nat.add_comm]
    · exact absurd h (not_runsAway_ok _)
    · obtain ⟨b, full, hb, hfull, h⟩ := runsAway_flush.mp h
      exact ⟨_, _, _, ⟨p.lines, [], s, b, full, by simp, hs, by simp, hb, hfull, rfl, rfl, rfl⟩, h⟩
    · exact absurd h (not_runsAway_ok _)
    · exact absurd h (not_runsAway_ok _)
  rintro ⟨_, _, _, ⟨pre, post, s, b, full, hls, hpre, hends, hb, hfull, rfl, rfl, rfl⟩, h⟩
  have hfl := runsAway_flush.mpr ⟨b, full, hb, hfull, h⟩
  cases post with
  | nil =>
    rw [append_nil] at hls
    rw [← hls] at hpre
    exact .inr ⟨s, hpre, .inr ⟨(), trivial, .inl hfl⟩⟩
  | cons raw post =>
    refine .inl (runsAway_lines.mpr ⟨pre, raw, post, s, hls, hpre, ?_, hfl⟩)
    rw [Nat.add_comm]
    exact hends raw rfl

end Program

/-! ### Data files -/

namespace Data
variable {cfg : Settings} {d : Data} {files : Files} {entry : Path} {shown : Text} {ctx : Program.Context}
  {p : Program.Prepared}

lemma cfg_of_setup (h : (d.setup cfg files entry shown).result = .ok (ctx, p)) : ctx.cfg = cfg := by
  simp only [setup, bind_ok] at h
  obtain ⟨-, -, api, -, aliases, -, events, -, n, -, -, -, h⟩ := h
  simp only [Program.setup, bind_ok] at h
  obtain ⟨player, -, entity, -, p', -, h⟩ := h
  cases h
  rfl

lemma runsAway_compile : RunsAway (d.compile cfg files entry shown).result ↔
    ∃ ctx p, (d.setup cfg files entry shown).result = .ok (ctx, p) ∧ RunsAway (run ctx p).result := by
  simp only [compile, result_bind, runsAway_bind]
  constructor
  · rintro (h | ⟨⟨ctx, p⟩, hset, h | ⟨s, -, h⟩⟩)
    · exact absurd h calm_setup.calm
    · exact ⟨ctx, p, hset, h⟩
    · simp [Program.plan, result_bind, result_link, Except.bind] at h
  rintro ⟨ctx, p, hset, h⟩
  exact .inr ⟨(ctx, p), hset, .inl h⟩

/-- Every step of splitting leaves fewer actions than there were, but for cuts that stall. A script fails for too many
splits iff one of its events comes to a cut that stalls, or a block of it that has more actions than there
may be splits is split too often. -/
theorem compile_runsAway_iff (cfg : Settings) (d : Data) (files : Files) (entry : Path) (shown : Text) :
    (∀ (s : Setting) (subject : Subject) (st st' : SplitState), s.Step subject st st' →
      (st'.left.actions.length < st.left.actions.length ↔ ¬ st.left.Stalls (s.restored subject)))
    ∧ (RunsAway (d.compile cfg files entry shown).result ↔ ∃ ctx p owner left next,
      (d.setup cfg files entry shown).result = .ok (ctx, p) ∧ Program.Puts ctx p owner left next
        ∧ ((∃ name, owner = .event name ∧ ctx.Stalls name left next)
          ∨ cfg.maxSplits < left.actions.length ∧ RunsAway (ctx.blockRows owner left next).result)) := by
  refine ⟨fun s subject st st' hstep => hstep.length_lt_iff, ?_⟩
  rw [runsAway_compile]
  constructor
  · rintro ⟨ctx, p, hset, h⟩
    obtain ⟨owner, left, next, hputs, h⟩ := runsAway_run.mp h
    refine ⟨ctx, p, owner, left, next, hset, hputs, ?_⟩
    by_cases hmax : left.actions.length ≤ cfg.maxSplits
    · exact .inl ((Setting.runsAway_blockRows_iff (cfg_of_setup hset ▸ hmax)).mp h)
    · exact .inr ⟨Nat.lt_of_not_le hmax, h⟩
  · rintro ⟨ctx, p, owner, left, next, hset, hputs, h⟩
    refine ⟨ctx, p, hset, runsAway_run.mpr ⟨owner, left, next, hputs, ?_⟩⟩
    rcases h with ⟨name, rfl, hstl⟩ | ⟨-, h⟩
    · exact Setting.runsAway_blockRows_of_stalls hstl
    · exact h

/-- An event with a selection and a scope that is too long behind it. -/
def stallingEvent : Files :=
  script ("event(x) \x7b\nselect.all\nselect.all \x7b\n" ++ (List.replicate 41 ("a.b()\n" : Text)).flatten
    ++ "\x7d\n\x7d\n")

/-- The count, the number of actions left and the limit of a script split too often. -/
def runaway? : Except Error (List Entry) → Option (Nat × Nat × Nat)
  | .error (.splitRunaway _ count left limit) => some (count, left, limit)
  | _ => none

lemma exists_of_runaway? {x : Except Error (List Entry)} {count left limit : Nat}
    (h : runaway? x = some (count, left, limit)) : ∃ subject, x = .error (.splitRunaway subject count left limit) := by
  unfold runaway? at h
  split at h
  next subject _ _ _ => cases h; exact ⟨subject, rfl⟩
  · cases h

/-- An event of 44 actions that may be split 44 times, and has 43 of them left when it has been. -/
theorem exists_runaway_of_stalls : ∃ subject,
    (sample.compile (.ofVariables [("MLDSL_AUTOSPLIT_MAX_ITERS", "44")]) stallingEvent (.ofText "/main") "main").result
      = .error (.splitRunaway subject 45 43 44) := by
  exact exists_of_runaway? (by decide +kernel)

end Data
end BlockScript
