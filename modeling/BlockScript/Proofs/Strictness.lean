import Mathlib.Data.List.Perm.Subperm
import BlockScript.Proofs.Declarations
import BlockScript.Proofs.Progress

/-!
# No line of a block is lost

If unknown lines are refused, every line of a block that says something opens a block or a scope, closes one, or adds
an action (`Instruction.added_ne_nil`). Splitting and linking lose none of the actions: each of them has an entry of its
own in the plan (`Program.subperm_of_link`). So a line is passed over exactly if it stands outside blocks and begins
none (`Data.compile_heeds`).
-/

open List Option
namespace BlockScript
open Program
open Entry (ofAction)
open Script (Compile Settings)
open Script.Compile (bind_ok)
namespace Plan
variable {s : Setting} {subject : Subject} {owner : Owner} {left : Remaining} {st st' : SplitState} {rows : Rows}
  {next next' : Nat} {chains : List Chain} {a : Action}

/-! ### Splitting loses no action -/

def Rows.tally (rows : Rows) (a : Action) : Nat :=
  (rows.chain.flatMap Row.actions).count a + (rows.helpers.flatMap Helper.actions).count a

/-- Rows and helpers of at least two actions each. -/
structure Rows.Ample (rows : Rows) : Prop where
  chain : ∀ r ∈ rows.chain, 2 ≤ r.actions.length
  helpers : ∀ h ∈ rows.helpers, 2 ≤ h.actions.length

namespace Setting.Step

lemma tally_le (h : s.Step subject st st') (a : Action) :
    st.rows.tally a + st.left.actions.count a ≤ st'.rows.tally a + st'.left.actions.count a := by
  cases h with
  | cut c call row long last calls row_eq =>
    have hspl : st.left.actions.count a
        = (st.left.actions.take c.pos).count a + (st.left.actions.drop c.pos).count a := by
      rw [← count_append, take_append_drop]
    simp only [Rows.tally, flatMap_append, flatMap_singleton, Row.actions_of_ok row_eq, Cut.row,
      Cut.actions_rest, count_append]
    omega
  | extract call x long stuck calls body =>
    obtain ⟨pre, o, k, post, heq, hrest, -⟩ := extract?_some body
    simp only [Rows.tally, flatMap_cons, Remaining.ofActions, heq, hrest, count_append, count_cons]
    omega

lemma ample (h : s.Step subject st st') (hst : st.rows.Ample) : st'.rows.Ample ∧ 2 ≤ st'.left.actions.length := by
  cases h with
  | cut c call row long last calls row_eq =>
    obtain ⟨-, hpos, hlt, hle⟩ := mem_cuts.mp (lastCut?_mem last)
    have hextra : 1 ≤ c.extra := by
      rw [Cut.extra]
      split <;> omega
    refine ⟨⟨forall_mem_append.mpr ⟨hst.chain, forall_mem_singleton.mpr ?_⟩, hst.helpers⟩, ?_⟩
    · rw [Row.actions_of_ok row_eq, Cut.row]
      simp only [length_append, length_take, length_singleton]
      omega
    rw [Cut.actions_rest, length_append, length_drop]
    omega
  | extract call x long stuck calls body =>
    obtain ⟨pre, o, k, post, -, hrest, -, -, -, -, hlen⟩ := extract?_some body
    refine ⟨⟨hst.chain, forall_mem_cons.mpr ⟨hlen, hst.helpers⟩⟩, ?_⟩
    simp only [Remaining.ofActions, hrest, length_append, length_cons]
    omega

end Setting.Step
namespace Setting.Steps

lemma tally_le (h : s.Steps subject st st') (a : Action) :
    st.rows.tally a + st.left.actions.count a ≤ st'.rows.tally a + st'.left.actions.count a := by
  induction h with
  | refl => exact le_rfl
  | tail _ hstep ih => exact ih.trans (hstep.tally_le a)

end Setting.Steps
namespace Setting

lemma splitRows_tally (h : (s.splitRows subject owner left next).result = .ok rows) (a : Action) :
    left.actions.count a ≤ rows.tally a := by
  obtain ⟨st, row, hsts, -, hrow, rfl⟩ := splitRows_ok h
  have hle := hsts.tally_le a
  simp only [Rows.tally, flatMap_append, flatMap_singleton, count_append, Row.actions_of_ok hrow] at hle ⊢
  omega

lemma splitRows_ample (h : (s.splitRows subject owner left next).result = .ok rows)
    (hlong : maxPayload < left.actions.length) : rows.Ample := by
  obtain ⟨st, row, hsts, -, hrow, rfl⟩ := splitRows_ok h
  have hpayload : maxPayload = 42 := rfl
  obtain ⟨hrows, hleft⟩ := hsts.keeps
    ⟨⟨by simp, by simp⟩, by simp only; omega⟩ fun hstep h => hstep.ample h.1
  exact ⟨forall_mem_append.mpr ⟨hrows.chain, by simpa [Row.actions_of_ok hrow] using hleft⟩, hrows.helpers⟩

lemma helperRows_ample {h : Helper} (hrows : (s.helperRows h next).result = .ok rows) (hlen : 2 ≤ h.actions.length) :
    (∀ a, h.actions.count a ≤ rows.tally a) ∧ rows.Ample ∧ weight rows.helpers + 2 ≤ h.actions.length := by
  rcases helperRows_cases hrows with ⟨-, row, hrow, rfl⟩ | ⟨hlong, hrows⟩
  · have hactions := Row.actions_of_ok hrow
    exact ⟨fun a => by
      simp [Rows.tally, hactions], ⟨by simpa [hactions] using hlen, by simp⟩, by simpa [weight] using hlen⟩
  obtain ⟨st, row, hsts, -, -, heq⟩ := splitRows_ok hrows
  have hweight := hsts.weight_le (restored_helper s h.name) hlen
  refine ⟨splitRows_tally hrows, splitRows_ample hrows hlong, ?_⟩
  rw [heq]
  simpa [weight, Remaining.ofActions] using hweight

lemma helpersRows_tally {fuel : Nat} {queue : List Helper}
    (h : (s.helpersRows fuel queue next).result = .ok (chains, next')) (hque : ∀ h ∈ queue, 2 ≤ h.actions.length)
    (hfuel : weight queue ≤ fuel) (a : Action) :
    (queue.flatMap Helper.actions).count a ≤ (chains.flatten.flatMap Row.actions).count a := by
  induction fuel generalizing queue next chains with
  | zero =>
    obtain rfl := eq_nil_of_weight hque (Nat.le_zero.mp hfuel)
    simp
  | succ fuel ih =>
    cases queue with
    | nil =>
      simp
    | cons helper rest =>
      rw [helpersRows] at h
      simp only [bind_ok] at h
      obtain ⟨-, -, rows, hrows, ⟨more, last⟩, hmore, h⟩ := h
      cases h
      obtain ⟨hhelp, hque⟩ := forall_mem_cons.mp hque
      obtain ⟨htally, hamp, hweight⟩ := helperRows_ample hrows hhelp
      have hthis := htally a
      have hrest := ih hmore (forall_mem_append.mpr ⟨hamp.helpers, hque⟩)
        (by rw [weight_append]; rw [weight_cons] at hfuel; omega)
      rw [flatMap_append, count_append] at hrest
      rw [Rows.tally] at hthis
      dsimp only
      rw [flatMap_cons, flatten_cons, flatMap_append, count_append, count_append]
      omega

/-- The rows of a block hold all its actions; if there are several, each holds at least two. -/
theorem blockRows_ample (h : (s.blockRows owner left next).result = .ok (chains, next')) :
    (∀ a, left.actions.count a ≤ (chains.flatten.flatMap Row.actions).count a)
      ∧ ((∃ row, chains = [[row]] ∧ row.owner = owner ∧ row.actions = left.actions)
        ∨ ∀ r ∈ chains.flatten, 2 ≤ r.actions.length) := by
  have hone : ∀ {row}, (Row.of s.events owner left.actions).result = .ok row → chains = [[row]] →
      (∀ a, left.actions.count a ≤ (chains.flatten.flatMap Row.actions).count a)
        ∧ ∃ row, chains = [[row]] ∧ row.owner = owner ∧ row.actions = left.actions := by
    rintro row hrow rfl
    have hactions := Row.actions_of_ok hrow
    exact ⟨fun a => by simp [hactions], row, rfl, congrArg Prod.fst (Row.definition_ok hrow), hactions⟩
  cases hsubj : Subject.ofOwner? owner with
  | none =>
    obtain ⟨-, row, hrow, hchs, -⟩ := blockRows_loop h hsubj
    exact (hone hrow hchs).imp_right .inl
  | some subject =>
    rcases blockRows_cases h hsubj with ⟨-, -, row, hrow, hchs⟩ | ⟨hlong, rows, hrows, h⟩
    · exact (hone hrow hchs).imp_right .inl
    have hamp := splitRows_ample hrows hlong
    refine ⟨fun a => ?_, .inr (forall_mem_flatten.mpr (withHelpers_forall h hamp.chain hamp.helpers ?_))⟩
    · obtain ⟨more, hmore, rfl⟩ := withHelpers_run h
      have hthis := splitRows_tally hrows a
      have hrest := helpersRows_tally hmore (by simpa using hamp.helpers) (weight_le_length _) a
      have hrev : (rows.helpers.reverse.flatMap Helper.actions).count a
          = (rows.helpers.flatMap Helper.actions).count a :=
        ((reverse_perm rows.helpers).flatMap_right Helper.actions).count_eq a
      rw [Rows.tally] at hthis
      rw [flatten_cons, flatMap_append, count_append]
      omega
    intro _ _ _ hlen hrows
    obtain ⟨-, hamp, -⟩ := helperRows_ample hrows hlen
    exact ⟨hamp.chain, hamp.helpers⟩

end Setting

/-! ### Rows hold their actions -/

lemma sublist_rowEntriesFrom {header : Entry} {used n : Nat} {last : Text} {as : List Action} {es : List Entry}
    (h : (rowEntriesFrom owner header used n last as).result = .ok es) : (as.map ofAction).Sublist es := by
  induction as generalizing used n last es with
  | nil => simp
  | cons a as ih =>
    rw [rowEntriesFrom] at h
    split at h
    next =>
      split at h
      next =>
        simp only [bind_ok] at h
        obtain ⟨es', hes', h⟩ := h
        cases h
        exact (ih hes').cons_cons _
      next =>
        simp only [bind_ok] at h
        obtain ⟨-, -, es', hes', h⟩ := h
        cases h
        exact (((ih hes').cons_cons _).cons _).cons _
    next =>
      rw [bind_ok] at h
      obtain ⟨es', hes', h⟩ := h
      cases h
      exact (ih hes').cons_cons _

end Plan
open Plan
namespace Program
variable {ctx : Context} {m m' : Nat} {f : Finished} {fs : List Finished}

lemma Finished.Made.sublist_entries (h : f.Made ctx m m') :
    ∀ r ∈ f.chains.flatten, (r.actions.map ofAction).Sublist r.entries := by
  have hrows := h.rows
  cases hsubj : Subject.ofOwner? f.block.owner with
  | some subject =>
    obtain ⟨-, hwh⟩ := Setting.blockRows_whole hrows hsubj
    intro r hr
    obtain ⟨-, header, -, hents⟩ := whole_of_flatten hwh r hr
    rw [hents]
    exact sublist_cons_self _ _
  | none =>
    obtain ⟨-, row, hrow, hchs, -⟩ := Setting.blockRows_loop hrows hsubj
    rw [hchs]
    intro r hr
    obtain rfl : r = row := by simpa using hr
    obtain ⟨header, es, -, hes, rfl⟩ := Row.exists_entries hrow
    exact (sublist_rowEntriesFrom hes).cons _

lemma sublist_chain {c : Chain} (h : ∀ r ∈ c, (r.actions.map ofAction).Sublist r.entries) :
    ((c.flatMap Row.actions).map ofAction).Sublist c.entries := by
  induction c with
  | nil => exact .refl _
  | cons r c ih =>
    have hr := h r (by simp)
    have hc := ih fun r hr => h r (by simp [hr])
    rw [flatMap_cons, map_append]
    cases c with
    | nil => simpa [Chain.entries] using hr
    | cons r' c => exact hr.append (hc.cons _)

lemma sublist_chains {cs : List Chain} (h : ∀ r ∈ cs.flatten, (r.actions.map ofAction).Sublist r.entries) :
    ((cs.flatten.flatMap Row.actions).map ofAction).Sublist (Chain.allEntries cs) := by
  induction cs with
  | nil => exact .refl _
  | cons c cs ih =>
    have hc := sublist_chain (c := c) fun r hr => h r (by simp [hr])
    have hcs := ih fun r hr => h r (by
      exact mem_append_right c hr)
    rw [flatten_cons, flatMap_append, map_append]
    cases cs with
    | nil => simpa [Chain.allEntries] using hc
    | cons c' cs =>
      exact (hc.trans (sublist_append_left _ _)).append hcs

lemma sublist_finished (h : ∀ f ∈ fs, ∃ m m', f.Made ctx m m') :
    ((fs.flatMap fun f => f.chains.flatten.flatMap Row.actions).map ofAction).Sublist (Finished.entries fs) := by
  induction fs with
  | nil => exact .refl _
  | cons f fs ih =>
    obtain ⟨m, m', hf⟩ := h f (by simp)
    have hthis := sublist_chains hf.sublist_entries
    have hrest := ih fun f hf => h f (by simp [hf])
    rw [flatMap_cons, map_append]
    cases fs with
    | nil => simpa [Finished.entries] using hthis
    | cons f' fs => exact hthis.append (hrest.cons _)

lemma subperm_finished (h : ∀ f ∈ fs, ∃ m m', f.Made ctx m m') :
    ((fs.flatMap fun f => f.left.actions).map ofAction).Subperm (Finished.entries fs) := by
  have hactions : (fs.flatMap fun f => f.left.actions).Subperm
      (fs.flatMap fun f => f.chains.flatten.flatMap Row.actions) := by
    rw [subperm_iff_count]
    intro a
    induction fs with
    | nil => exact le_rfl
    | cons f fs ih =>
      obtain ⟨m, m', hf⟩ := h f (by simp)
      rw [flatMap_cons, flatMap_cons, count_append, count_append]
      exact Nat.add_le_add ((Setting.blockRows_ample hf.rows).1 a) (ih fun f hf => h f (by simp [hf]))
  obtain ⟨as, hperm, hsub⟩ := hactions
  exact List.Subperm.trans ⟨_, hperm.map ofAction, hsub.map ofAction⟩ (sublist_finished h).subperm

/-- No function consists of a call of a helper alone. -/
def NoneOnlyCalls (fs : List Finished) : Prop :=
  ∀ f ∈ fs, ∀ name, f.block.owner = .func name → ∀ a, f.left.actions = [a] → (ofAction a).helperTarget? = none

/-- Then no row is a call of a helper alone: whatever was split has more than one action in each row. -/
lemma noneLeads_of_made (hevs : EventBlocks ctx.events) (h : ∀ f ∈ fs, ∃ m m', f.Made ctx m m')
    (hactions : ∀ f ∈ fs, ∀ r ∈ f.chains.flatten, ∀ a ∈ r.actions, Apart a) (hcalls : NoneOnlyCalls fs) :
    NoneLeads (fs.flatMap Finished.rows) := by
  intro header call hmem hfn
  obtain ⟨f, hf, hmem⟩ := mem_flatMap.mp hmem
  obtain ⟨r, hr, hmem⟩ := mem_flatMap.mp hmem
  obtain ⟨m, m', hmade⟩ := h f hf
  have hrows := hmade.rows
  cases hsubj : Subject.ofOwner? f.block.owner with
  | some subject =>
    obtain ⟨-, hwh⟩ := Setting.blockRows_whole hrows hsubj
    have hone := whole_of_flatten hwh r hr
    rw [rowsOf_of_whole hevs hone (hactions f hf r hr), mem_singleton] at hmem
    obtain ⟨-, header', hhdr, hents⟩ := hone
    rw [hents, List.cons.injEq] at hmem
    obtain ⟨rfl, hacts'⟩ := hmem
    obtain ⟨a, has, rfl⟩ : ∃ a, r.actions = [a] ∧ ofAction a = call := by
      obtain ⟨a, rest, hrest, ha, hnil⟩ := map_eq_cons_iff.mp hacts'.symm
      exact ⟨a, by rw [hrest, map_eq_nil_iff.mp hnil], ha⟩
    rcases (Setting.blockRows_ample hrows).2 with ⟨row, hchs, hown, hleft⟩ | hlong
    · obtain rfl : r = row := by simpa [hchs] using hr
      obtain ⟨name, hnm⟩ := (header_ok hevs hhdr).2 hfn
      exact hcalls f hf name (hown ▸ hnm) a (hleft ▸ has)
    have := hlong r hr
    simp [has] at this
  | none =>
    obtain ⟨⟨name, ticks, hown⟩, row, hrow, hchs, -⟩ := Setting.blockRows_loop hrows hsubj
    obtain rfl : r = row := by simpa [hchs] using hr
    obtain ⟨header', hhdr, hhd⟩ := heads_of_loop hevs hrow fun a ha =>
      hactions f hf r hr a (by rwa [Row.actions_of_ok hrow])
    have hhead : header ∈ (rowsOf r.entries).filterMap List.head? := mem_filterMap.mpr ⟨_, hmem, rfl⟩
    rw [hhd] at hhead
    obtain rfl := eq_of_mem_replicate hhead
    obtain ⟨_, hloop⟩ := (header_ok hevs hhdr).2 hfn
    simp [hown] at hloop

/-- A plan holds an entry of its own for each action of the blocks of the script. -/
theorem subperm_of_link {cfg : Settings} {es : List Entry} (hevs : EventBlocks ctx.events)
    (h : ∀ f ∈ fs, ∃ m m', f.Made ctx m m')
    (hactions : ∀ f ∈ fs, ∀ r ∈ f.chains.flatten, ∀ a ∈ r.actions, Apart a) (hcalls : NoneOnlyCalls fs)
    (hes : (link cfg (Finished.entries fs)).result = .ok es) :
    ((fs.flatMap fun f => f.left.actions).map ofAction).Subperm es := by
  obtain ⟨hents, hform⟩ := entries_of_made h hevs hactions
  have hsame := result_link_joinRows cfg (fun r hr => (hform r hr).isRow) (noneLeads_of_made hevs h hactions hcalls)
  rw [← hents, hes] at hsame
  rw [Except.ok.inj hsame]
  exact subperm_finished h

/-! ### Lines add actions -/

namespace Instruction
variable {owner : Owner} {temps n : Nat} {negated : Bool} {t : Text} {i : Instruction}

lemma compile_formulaCall_ne_nil {lib : Library} {ps : List Placed} {temps' : Nat}
    (h : (FormulaCall.compile lib temps t).result = .ok (some (ps, temps'))) : ps ≠ [] := by
  rw [FormulaCall.compile] at h
  split at h
  · simp at h
  next call _ =>
    rw [bind_ok] at h
    obtain ⟨found, -, h⟩ := h
    split at h
    · simp at h
    next spec _ =>
      rw [bind_ok] at h
      obtain ⟨params, -, h⟩ := h
      split at h
      · simp at h
      simp only [bind_ok] at h
      obtain ⟨named, -, lowered, -, h⟩ := h
      split at h
      · simp at h
      simp only [bind_ok] at h
      obtain ⟨parts, -, last, -, h⟩ := h
      simp only [Compile.result_pure, Except.ok.injEq, Option.some.injEq, Prod.mk.injEq] at h
      simp [← h.1]

lemma mapM_place_ne_nil {p : Placed} {ps : List Placed} {as : List Action}
    (h : ((p :: ps).mapM (place ctx)).result = .ok as) : as ≠ [] := by
  rw [result_mapM, mapM_cons_ok_iff] at h
  obtain ⟨a, as', -, -, rfl⟩ := h
  simp

lemma ofCall_added_ne_nil (hstrict : ctx.cfg.strict) (h : (ofCall ctx temps n negated t).result = .ok i) (s : State) :
    i.added s ≠ [] := by
  rcases ofCall_cases h with ⟨as, p, a, k, -, -, rfl⟩ | ⟨k, hcall, -⟩ | ⟨hunk, -⟩
  · simp [added]
  · exact absurd rfl (compile_formulaCall_ne_nil hcall)
  · simp [unknownLine, hstrict] at hunk

lemma ofInner_added_ne_nil (hstrict : ctx.cfg.strict) (h : (ofInner ctx owner temps n negated t).result = .ok i)
    (s : State) : i.added s ≠ [] := by
  rcases ofInner_cases h with ⟨sel, -, h⟩ | ⟨-, ⟨call, -, h⟩ | ⟨-, ⟨value, -, h⟩ |
    ⟨-, placed, -, ⟨p, ps, as, -, -, has, rfl⟩ | ⟨-, h⟩⟩⟩⟩
  · obtain ⟨a, scope, -, rfl, -⟩ := ofSelect_ok h
    simp [added]
  · obtain ⟨as, a, rfl, -⟩ := ofMessage_ok h
    simp [added]
  · obtain ⟨a, -, rfl⟩ := ofReturn_ok h
    simp [added]
  · simpa [added] using mapM_place_ne_nil has
  · exact ofCall_added_ne_nil hstrict h s

/-- If unknown lines are refused, a line of a block that neither closes anything nor begins a block adds an action. -/
lemma added_ne_nil (hstrict : ctx.cfg.strict) (h : (ofLine ctx (some owner) temps n negated t).result = .ok i)
    (hrole : roleOf true t = .scope ∨ roleOf true t = .flat) (s : State) : i.added s ≠ [] := by
  have hplay := ofLine_ok h
  rcases hrole with hrole | hrole
  · rw [isSome_some, hrole] at hplay
    rcases hplay with ⟨a, -, rfl⟩ | ⟨a, negated, default, -, rfl, -⟩ <;> simp [added]
  rw [roleOf] at hrole
  split at hrole
  · simp at hrole
  next hcl =>
    split at hrole
    · simp at hrole
    next hif =>
      split at hrole
      · simp at hrole
      next hstt =>
        rw [not_isSome_iff_eq_none] at hif hstt
        simp only [ofLine, hcl, hif, hstt] at h
        exact ofInner_added_ne_nil hstrict h s

end Instruction

/-! ### Lines heeded -/

/-- The line opens a block or a scope, closes one, or adds an action. -/
def Reading.Heeded (r : Reading) : Prop :=
  match roleOf r.inBlock r.text with
  | .start => True
  | .close => r.inBlock
  | .scope | .flat => r.part ≠ []

instance (r : Reading) : Decidable r.Heeded := by
  unfold Reading.Heeded
  split <;> infer_instance

lemma sublist_fullActions {b : OpenBlock} {as : List Action} (h : (fullActions ctx b).result = .ok as) :
    b.actions.Sublist as := by
  rw [fullActions] at h
  split at h
  next =>
    rw [bind_ok] at h
    obtain ⟨pre, -, h⟩ := h
    split at h
    next =>
      cases h
      exact sublist_append_right pre b.actions
    rw [bind_ok] at h
    obtain ⟨ret, -, h⟩ := h
    cases h
    exact (sublist_append_right pre b.actions).trans (sublist_append_left _ _)
  next =>
    cases h
    exact .refl _

lemma sublist_actions_flush (h : (flush ctx s).result = .ok s') : s.actions.Sublist s'.actions := by
  rcases flush_ok h with ⟨-, rfl⟩ | ⟨f, next, hblk, hmade, -, rfl⟩
  · exact .refl _
  · simpa [State.actions, hblk] using sublist_fullActions hmade.full

lemma sublist_actions_exec {i : Instruction} (hs : s.Recorded)
    (hi : s.block = none → i = .idle ∨ i = .close ∨ ∃ head, i = .start head) (h : (exec ctx s i).result = .ok s') :
    (s.actions ++ i.added s).Sublist s'.actions := by
  rcases exec_cases h with ⟨rfl, hsc, hfl⟩ | ⟨head, s₁, owner, params, rfl, hfl, -, rfl⟩ | ⟨hstt, hcl, hext⟩
  · simpa [Instruction.added, hsc] using sublist_actions_flush hfl
  · simpa [Instruction.added, State.actions, block_flush hfl] using sublist_actions_flush hfl
  cases hb : s.block with
  | none =>
    have hadded : i.added s = [] := by
      rcases hi hb with rfl | rfl | ⟨head, rfl⟩
      · rfl
      · exact absurd (hs.outside hb) (hcl rfl)
      · rfl
    simp [hadded, State.actions, hext.done, hb]
  | some b =>
    obtain ⟨b', hb', -, -, -, hactions⟩ := hext.exists_block hb
    simp [State.actions, hext.done, hb, hb', hactions]

lemma State.Recorded.start : State.start.Recorded :=
  ⟨by simp [State.start], by simp [State.start], by simp [State.start], by simp [State.start], fun _ => rfl⟩

/-- The actions that lines add stand behind those that were there, in the order of the lines. -/
theorem sublist_actions_lines {namespaces ls : List Text} {n : Nat} (hs : s.Recorded)
    (h : (lines ctx namespaces n s ls).result = .ok s') :
    (s.actions ++ (readings ctx namespaces n s ls).flatMap Reading.part).Sublist s'.actions := by
  induction ls generalizing n s with
  | nil =>
    cases h
    simp [readings]
  | cons raw rest ih =>
    rw [lines, bind_ok] at h
    obtain ⟨s₁, hln, h⟩ := h
    rw [readings, hln]
    rcases line_ok hln with ⟨hcd, rfl⟩ | ⟨negated, t, i, hcd, hi, hexec⟩
    · simpa [hcd] using ih hs h
    have hnone : s.block = none → i = .idle ∨ i = .close ∨ ∃ head, i = .start head := fun hb =>
      ofLine_none (by simpa [hb] using hi)
    have hrest := ih (hs.exec hnone hexec) h
    simp only [hcd, map_some, toList_some, singleton_append, flatMap_cons, addedBy, hi]
    rw [← append_assoc]
    exact ((sublist_actions_exec hs hnone hexec).append_right _).trans hrest

/-- If unknown lines are refused, a line is heeded exactly if it stands in a block or begins one. -/
theorem heeded_iff {namespaces ls : List Text} {n : Nat} (hstrict : ctx.cfg.strict)
    (h : (lines ctx namespaces n s ls).result = .ok s') :
    ∀ r ∈ readings ctx namespaces n s ls, r.Heeded ↔ r.inBlock ∨ roleOf r.inBlock r.text = .start := by
  induction ls generalizing n s with
  | nil => simp [readings]
  | cons raw rest ih =>
    rw [lines, bind_ok] at h
    obtain ⟨s₁, hln, h⟩ := h
    rw [readings, hln]
    rcases line_ok hln with ⟨hcd, rfl⟩ | ⟨negated, t, i, hcd, hi, hexec⟩
    · simpa [hcd] using ih h
    simp only [hcd, map_some, toList_some, singleton_append, addedBy, hi]
    refine forall_mem_cons.mpr ⟨?_, ih h⟩
    rw [Reading.Heeded]
    cases hb : s.block with
    | none =>
      rw [hb] at hi
      have hplay := Instruction.ofLine_ok hi
      -- Outside of blocks a condition is refused, and a flat line does nothing.
      cases hrole : roleOf false t with
      | start => simp [hrole]
      | close => simp [hrole]
      | scope =>
        rw [map_none, isSome_none, hrole] at hplay
        rcases ofLine_none hi with rfl | rfl | ⟨head, rfl⟩ <;> simp [Instruction.Plays] at hplay
      | flat =>
        rw [map_none, isSome_none, hrole] at hplay
        rcases ofLine_none hi with rfl | rfl | ⟨head, rfl⟩
        · simp [hrole, Instruction.added]
        · cases hplay
        · cases hplay
    | some b =>
      rw [hb] at hi
      cases hrole : roleOf true t with
      | start => simp [hrole]
      | close => simp [hrole]
      | scope => simpa [hrole] using Instruction.added_ne_nil hstrict hi (.inl hrole) s
      | flat => simpa [hrole] using Instruction.added_ne_nil hstrict hi (.inr hrole) s

end Program
namespace Data
variable {cfg : Settings} {d : Data} {files : Files} {entry : Path} {shown : Text} {ctx : Program.Context}
  {p : Program.Prepared} {s : Program.State} {es : List Entry}

/-- If unknown lines are refused, a line that says something opens a block or a scope, closes one, or adds an action
with an entry of its own in the plan, exactly if it stands in a block or begins one. No action may be placed as the
header of a function or as a mark, and no function may consist of a call of a helper. -/
theorem compile_heeds (hstrict : cfg.strict) (hsetup : (d.setup cfg files entry shown).result = .ok (ctx, p))
    (hrun : (Program.run ctx p).result = .ok s) (hes : (d.compile cfg files entry shown).result = .ok es)
    (hactions : ∀ f ∈ s.done, ∀ r ∈ f.chains.flatten, ∀ a ∈ r.actions, Apart a)
    (hcalls : Program.NoneOnlyCalls s.done) :
    (readings ctx p.namespaces 1 .start p.lines).map Reading.text
        = p.lines.filterMap (fun raw => (code p.namespaces raw).map Prod.snd)
      ∧ (((readings ctx p.namespaces 1 .start p.lines).flatMap Reading.part).map Entry.ofAction).Subperm
        es
      ∧ ∀ r ∈ readings ctx p.namespaces 1 .start p.lines,
        r.Heeded ↔ r.inBlock ∨ roleOf r.inBlock r.text = .start := by
  obtain ⟨s₁, hls, hfl⟩ := run_ok hrun
  have hmade : ∀ f ∈ s.done, ∃ m m', f.Made ctx m m' := fun f => (flushed_of_run hrun).made
  have hplan := subperm_of_link (eventBlocks_of_setup hsetup) hmade hactions hcalls
    (link_of_compile hsetup hrun hes)
  have hrd : ((readings ctx p.namespaces 1 .start p.lines).flatMap Reading.part).Sublist
      (s.done.flatMap fun f => f.left.actions) := by
    have hall := (sublist_actions_lines .start hls).trans (sublist_actions_flush hfl)
    simpa [Program.State.actions, block_flush hfl, Program.State.start] using hall
  exact ⟨text_readings hls, (hrd.map Entry.ofAction).subperm.trans hplan,
    heeded_iff (cfg_of_setup hsetup ▸ hstrict) hls⟩

def strict : Settings := .ofVariables [("MLDSL_STRICT_UNKNOWN", "1")]

def trailingLine : Files := script "event(x) \x7b\na.b()\nif_player.c() \x7b\na.b()\n\x7d\n\x7d\na.b()\n"

lemma trailingLine_passes : passes (stackSample.setup strict trailingLine (.ofText "/main") "main").result fun _ s =>
      decide (∀ f ∈ s.done, f.left.actions.length = 4 ∧ ∀ r ∈ f.chains.flatten, ∀ a ∈ r.actions, Apart a) := by
  decide +kernel

theorem compile_heeds_trailingLine : ∃ ctx p s es, strict.strict
      ∧ (stackSample.setup strict trailingLine (.ofText "/main") "main").result = .ok (ctx, p)
      ∧ (Program.run ctx p).result = .ok s
      ∧ (stackSample.compile strict trailingLine (.ofText "/main") "main").result = .ok es
      ∧ (((readings ctx p.namespaces 1 .start p.lines).flatMap Reading.part).map Entry.ofAction).Subperm
        es
      ∧ ∀ r ∈ readings ctx p.namespaces 1 .start p.lines,
        r.Heeded ↔ r.inBlock ∨ roleOf r.inBlock r.text = .start := by
  obtain ⟨ctx, p, s, hsetup, hrun, htest⟩ := exists_of_passes trailingLine_passes
  have hdone := of_decide_eq_true htest
  obtain ⟨es, hes⟩ := exists_compile hsetup hrun
  have hcalls : Program.NoneOnlyCalls s.done := fun f hf name _ a ha => by
    have hlen := (hdone f hf).1
    simp [ha] at hlen
  obtain ⟨-, hplan, hheeded⟩ := compile_heeds (by decide) hsetup hrun hes (fun f hf => (hdone f hf).2) hcalls
  exact ⟨ctx, p, s, es, by decide, hsetup, hrun, hes, hplan, hheeded⟩

def strayLine : Files := script "a.b()\n"

/-- Even where unknown lines are refused, a line outside blocks is passed over without an error. -/
theorem exists_unheeded : ∃ ctx p, (stackSample.setup strict strayLine (.ofText "/main") "main").result = .ok (ctx, p)
      ∧ (∃ es, (stackSample.compile strict strayLine (.ofText "/main") "main").result = .ok es ∧ es = [])
      ∧ (readings ctx p.namespaces 1 .start p.lines).map (fun r => (r.text, decide r.Heeded))
        = [(("a.b()" : Text), false)] := by
  have hsetup : (stackSample.setup strict strayLine (.ofText "/main") "main").result.toOption.any fun ready =>
      decide ((readings ready.1 ready.2.namespaces 1 .start ready.2.lines).map
          (fun r => (r.text, decide r.Heeded))
        = [(("a.b()" : Text), false)]) := by
    decide +kernel
  have hcomp : (stackSample.compile strict strayLine (.ofText "/main") "main").result.toOption.any fun es =>
      decide (es = []) := by
    decide +kernel
  obtain ⟨⟨ctx, p⟩, hok, hrd⟩ := exists_of_any hsetup
  obtain ⟨es, hes, hnil⟩ := exists_of_any hcomp
  exact ⟨ctx, p, hok, ⟨es, hes, of_decide_eq_true hnil⟩, of_decide_eq_true hrd⟩

end Data
end BlockScript
