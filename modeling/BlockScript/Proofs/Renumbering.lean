import BlockScript.Proofs.Progress

/-!
# Other numbers of helpers

How a block is put into rows does not depend on the numbers left for its helpers. If splitting succeeds with
some numbers, then it succeeds with any others, and the rows are the same up to the names of the helpers
(`Setting.blockRows_renamed`): the two runs take the same steps, and each step that names a helper in one of them adds a
pair to the renaming.
-/

open List
namespace BlockScript.Plan
open Row
open Script (Settings)
open Script.Compile (bind_ok result_bind)

/-! ### Renamings -/

/-- The numbers of helpers in two runs, in the order they were given. -/
abbrev Renaming := List (Nat × Nat)

/-- Both numbers of each pair are greater than those of the pairs before, so no number is given twice; the next numbers
are `n` and `n'`. -/
structure Renaming.Below (ρ : Renaming) (n n' : Nat) : Prop where
  ordered : ρ.Pairwise fun p q => p.1 < q.1 ∧ p.2 < q.2
  bound : ∀ p ∈ ρ, p.1 < n ∧ p.2 < n'

lemma Renaming.below_nil (n n' : Nat) : Renaming.Below [] n n' := ⟨.nil, by simp⟩

lemma Renaming.Below.snoc {ρ : Renaming} {n n' k k' : Nat} (h : ρ.Below n n') (hk : n ≤ k) (hk' : n' ≤ k') :
    Renaming.Below (ρ ++ [(k, k')]) (k + 1) (k' + 1) := by
  constructor
  · rw [pairwise_append]
    refine ⟨h.ordered, by simp, fun p hp q hq => ?_⟩
    obtain rfl := mem_singleton.mp hq
    have := h.bound p hp
    exact ⟨by omega, by omega⟩
  refine forall_mem_append.mpr ⟨fun p hp => ?_, by simp⟩
  have := h.bound p hp
  omega

/-- The actions are the same, or calls of helpers that have each other's names. -/
inductive Setting.Renames (s : Setting) (ρ : Renaming) : Action → Action → Prop
  | same (a : Action) : Renames s ρ a a
  | call {k k' : Nat} {a a' : Action} (mem : (k, k') ∈ ρ) (first : (s.callHelper (helperName k)).result = .ok a)
      (second : (s.callHelper (helperName k')).result = .ok a') : Renames s ρ a a'

/-- The owners are the same, or helpers that have each other's names. -/
inductive Owner.Renamed (ρ : Renaming) : Owner → Owner → Prop
  | same (o : Owner) : Renamed ρ o o
  | helper {k k' : Nat} (mem : (k, k') ∈ ρ) : Renamed ρ (.func (helperName k)) (.func (helperName k'))

/-- The entries are the same, or headers or calls of helpers that have each other's names. -/
inductive Setting.RenamesEntry (s : Setting) (ρ : Renaming) : Entry → Entry → Prop
  | same (e : Entry) : RenamesEntry s ρ e e
  | header {k k' : Nat} (mem : (k, k') ∈ ρ) : RenamesEntry s ρ (.ofBlock "lapis_block" (helperName k) "no")
      (.ofBlock "lapis_block" (helperName k') "no")
  | action {a a' : Action} (h : s.Renames ρ a a') : RenamesEntry s ρ (.ofAction a) (.ofAction a')

/-- The rows are the same up to the names of helpers. -/
structure Setting.RenamesRow (s : Setting) (ρ : Renaming) (r r' : Row) : Prop where
  owner : Owner.Renamed ρ r.owner r'.owner
  actions : Forall₂ (s.Renames ρ) r.actions r'.actions
  entries : Forall₂ (s.RenamesEntry ρ) r.entries r'.entries

/-- The helpers have each other's names, and actions that are the same up to the names of helpers. -/
structure Setting.RenamesHelper (s : Setting) (ρ : Renaming) (h h' : Helper) : Prop where
  names : ∃ k k', (k, k') ∈ ρ ∧ h.name = helperName k ∧ h'.name = helperName k'
  actions : Forall₂ (s.Renames ρ) h.actions h'.actions

/-- What is left to put into rows is the same up to the names of helpers. -/
structure Setting.RenamesLeft (s : Setting) (ρ : Renaming) (l l' : Remaining) : Prop where
  actions : Forall₂ (s.Renames ρ) l.actions l'.actions
  boundaries : l.boundaries = l'.boundaries

section
variable {s : Setting} {ρ ρ' : Renaming} {a a' call call' : Action} {as as' : List Action}
namespace Setting

lemma Renames.mono (h : s.Renames ρ a a') (hρ : ρ ⊆ ρ') : s.Renames ρ' a a' := by
  cases h with
  | same => exact .same a
  | call mem first second => exact .call (hρ mem) first second

lemma Renames.forall₂_same (as : List Action) : Forall₂ (s.Renames ρ) as as :=
  List.forall₂_same.mpr fun a _ => .same a

lemma exists_callHelper {k : Nat} (k' : Nat) (h : (s.callHelper (helperName k)).result = .ok a) :
    ∃ a', (s.callHelper (helperName k')).result = .ok a' := by
  rw [result_callHelper] at h ⊢
  cases hclr : s.caller with
  | error e => simp [hclr, Except.map] at h
  | ok c => exact ⟨_, rfl⟩

lemma Renames.eq_with (h : s.Renames ρ a a') : a' = { a with args := a'.args } := by
  cases h with
  | same => rfl
  | call mem first second =>
    rw [result_callHelper] at first second
    cases hclr : s.caller with
    | error e => simp [hclr, Except.map] at first
    | ok c =>
      rw [hclr] at first second
      cases first
      cases second
      rfl

lemma Renames.opens_eq (h : s.Renames ρ a a') : a'.opens = a.opens := by rw [h.eq_with]

lemma Renames.block_eq (h : s.Renames ρ a a') : a'.block = a.block := by rw [h.eq_with]

lemma Renames.closes_eq (h : s.Renames ρ a a') : a'.closes = a.closes := by rw [Action.closes, h.block_eq]; rfl

end Setting
open Setting (Renames)

/-! ### Scopes, boundaries and cuts -/

lemma boundariesFrom_renamed (h : Forall₂ (s.Renames ρ) as as') (n d : Nat) :
    boundariesFrom n d as' = boundariesFrom n d as := by
  induction h generalizing n d with
  | nil => rfl
  | cons ha _ ih => rw [boundariesFrom, boundariesFrom, ha.opens_eq, ha.closes_eq, ih]

lemma allFrom_renamed (h : Forall₂ (s.Renames ρ) as as') (n : Nat) (stack : List Nat) :
    Scope.allFrom n stack as' = Scope.allFrom n stack as := by
  induction h generalizing n stack with
  | nil => rfl
  | cons ha _ ih =>
    cases stack <;> simp [Scope.allFrom, ha.opens_eq, ha.closes_eq, ih]

lemma renamesLeft_ofActions (h : Forall₂ (s.Renames ρ) as as') : s.RenamesLeft ρ (.ofActions as) (.ofActions as') :=
  ⟨h, (boundariesFrom_renamed h 0 0).symm⟩

lemma extract?_renamed {x : Extraction} (h : Forall₂ (s.Renames ρ) as as') (hcall : s.Renames ρ call call')
    (hx : extract? rowSize call as = some x) : ∃ x', extract? rowSize call' as' = some x'
      ∧ Forall₂ (s.Renames ρ) x.rest x'.rest ∧ Forall₂ (s.Renames ρ) x.body x'.body := by
  obtain ⟨sc, hbest, rfl⟩ := Option.map_eq_some_iff.mp hx
  refine ⟨_, by rw [extract?, Scope.all, allFrom_renamed h, ← Scope.all, hbest, Option.map_some], ?_, ?_⟩
  · exact rel_append (rel_append (forall₂_take _ h) (.cons hcall .nil)) (forall₂_drop _ h)
  · exact forall₂_drop _ (forall₂_take _ h)

variable {l l' : Remaining}

lemma cuts_renamed (h : s.RenamesLeft ρ l l') (default : Option Action) : cuts default l' = cuts default l := by
  rw [cuts, cuts, h.boundaries, h.actions.length_eq]

lemma Cut.row_renamed (h : s.RenamesLeft ρ l l') (default : Option Action) (c : Cut) :
    Forall₂ (s.Renames ρ) (c.row default l) (c.row default l') :=
  rel_append (forall₂_take _ h.actions) (Renames.forall₂_same _)

lemma Cut.rest_renamed (h : s.RenamesLeft ρ l l') (c : Cut) : s.RenamesLeft ρ (c.rest l) (c.rest l') := by
  have hdrop := forall₂_drop c.pos h.actions
  simp only [Cut.rest, h.boundaries]
  split
  · exact ⟨hdrop, rfl⟩
  next sel _ => exact ⟨.cons (.same sel) hdrop, rfl⟩

/-! ### Rows -/

lemma renamesEntry_map (h : Forall₂ (s.Renames ρ) as as') :
    Forall₂ (s.RenamesEntry ρ) (as.map Entry.ofAction) (as'.map Entry.ofAction) := by
  induction h with
  | nil => exact .nil
  | cons ha _ ih => exact .cons (.action ha) ih

lemma Row.of_renamed {owner owner' : Owner} {row : Row} (hown : Owner.Renamed ρ owner owner')
    (has : Forall₂ (s.Renames ρ) as as') (hlen : as.length ≤ maxPayload)
    (h : (Row.of s.events owner as).result = .ok row) :
    ∃ row', (Row.of s.events owner' as').result = .ok row' ∧ s.RenamesRow ρ row row' := by
  obtain ⟨header, hhdr, rfl⟩ := of_ok hlen h
  obtain ⟨header', hhdr', hent⟩ : ∃ header', owner'.header s.events = .ok header'
      ∧ s.RenamesEntry ρ header header' := by
    cases hown with
    | same => exact ⟨header, hhdr, .same header⟩
    | helper mem =>
      cases hhdr
      exact ⟨_, rfl, .header mem⟩
  have hlen' : 1 + as'.length ≤ rowSize := by
    rw [← has.length_eq]
    rw [maxPayload] at hlen
    have : 0 < rowSize := by decide
    omega
  refine ⟨⟨owner', as', header' :: as'.map Entry.ofAction⟩, ?_, hown, has, .cons hent (renamesEntry_map has)⟩
  simp [Row.of, rowEntries, hhdr', result_bind, result_rowEntriesFrom owner' header' hlen', Except.bind]

/-! ### Steps -/

/-- The states of two runs are the same up to the names of helpers. -/
structure Setting.RenamesState (s : Setting) (ρ : Renaming) (st st' : SplitState) : Prop where
  owner : Owner.Renamed ρ st.owner st'.owner
  left : s.RenamesLeft ρ st.left st'.left
  count : st'.count = st.count
  chain : Forall₂ (s.RenamesRow ρ) st.rows.chain st'.rows.chain
  helpers : Forall₂ (s.RenamesHelper ρ) st.rows.helpers st'.rows.helpers
  below : ρ.Below st.rows.next st'.rows.next

end

lemma Owner.Renamed.mono {ρ ρ' : Renaming} {o o' : Owner} (h : Owner.Renamed ρ o o') (hρ : ρ ⊆ ρ') :
    Owner.Renamed ρ' o o' := by
  cases h with
  | same => exact .same _
  | helper mem => exact .helper (hρ mem)

namespace Setting
variable {s : Setting} {subject subject' : Subject} {ρ ρ' : Renaming} {st st' st₁ out : SplitState}

lemma RenamesEntry.mono {e e' : Entry} (h : s.RenamesEntry ρ e e') (hρ : ρ ⊆ ρ') : s.RenamesEntry ρ' e e' := by
  cases h with
  | same => exact .same _
  | header mem => exact .header (hρ mem)
  | action ha => exact .action (ha.mono hρ)

lemma RenamesRow.same (r : Row) : s.RenamesRow ρ r r :=
  ⟨.same _, Renames.forall₂_same _, forall₂_same.mpr fun e _ => .same e⟩

lemma RenamesRow.mono {r r' : Row} (h : s.RenamesRow ρ r r') (hρ : ρ ⊆ ρ') : s.RenamesRow ρ' r r' :=
  ⟨h.owner.mono hρ, h.actions.imp fun _ _ ha => ha.mono hρ, h.entries.imp fun _ _ he => he.mono hρ⟩

lemma RenamesHelper.mono {h h' : Helper} (hh : s.RenamesHelper ρ h h') (hρ : ρ ⊆ ρ') : s.RenamesHelper ρ' h h' := by
  obtain ⟨k, k', hmem, hnm, hnm'⟩ := hh.names
  exact ⟨⟨k, k', hρ hmem, hnm, hnm'⟩, hh.actions.imp fun _ _ ha => ha.mono hρ⟩

lemma RenamesLeft.mono {l l' : Remaining} (h : s.RenamesLeft ρ l l') (hρ : ρ ⊆ ρ') : s.RenamesLeft ρ' l l' :=
  ⟨h.actions.imp fun _ _ ha => ha.mono hρ, h.boundaries⟩

/-- Whatever other names are taken, a run that is the same so far takes the same step. -/
theorem Step.renamed (names : List Text) (h : s.Step subject st st₁) (hst : s.RenamesState ρ st st')
    (hsubj : s.restored subject' = s.restored subject) :
    ∃ ρ' st₁', ρ ⊆ ρ' ∧ ({ s with taken := names } : Setting).Step subject' st' st₁' ∧ s.RenamesState ρ' st₁ st₁' := by
  have hlen := hst.left.actions.length_eq
  -- The helper that is named in this step joins the renaming.
  obtain ⟨k, hk⟩ : ∃ k, s.helperNumber st = k := ⟨_, rfl⟩
  obtain ⟨k', hk'⟩ : ∃ k', { s with taken := names }.helperNumber st' = k' := ⟨_, rfl⟩
  have hsub : ρ ⊆ ρ ++ [(k, k')] := subset_append_left _ _
  have hmem : (k, k') ∈ ρ ++ [(k, k')] := by simp
  have hbel : (ρ ++ [(k, k')]).Below (k + 1) (k' + 1) :=
    hst.below.snoc (hk ▸ le_fresh s.taken st.rows.next) (hk' ▸ le_fresh names st'.rows.next)
  cases h with
  | cut c call row long last calls row_eq =>
    rw [hk] at calls
    obtain ⟨call', calls'⟩ := exists_callHelper k' calls
    have hrow := rel_append ((Cut.row_renamed hst.left (s.restored subject) c).imp fun _ _ ha => ha.mono hsub)
      (.cons (.call hmem calls calls') .nil)
    obtain ⟨row', row_eq', hren⟩ := of_renamed (hst.owner.mono hsub) hrow (length_row_le (lastCut?_mem last) call)
      row_eq
    refine ⟨ρ ++ [(k, k')], _, hsub, .cut c call' row' (hlen ▸ long) ?_ (hk' ▸ calls') ?_, ?_⟩
    · exact (congrArg lastCut? ((congrArg (cuts · st'.left) hsubj).trans (cuts_renamed hst.left _))).trans last
    · exact (congrArg (fun d => (Row.of s.events st'.owner (c.row d st'.left ++ [call'])).result) hsubj).trans row_eq'
    rw [hk, hk']
    exact ⟨.helper hmem, (Cut.rest_renamed hst.left c).mono hsub, congrArg (· + 1) hst.count,
      rel_append (hst.chain.imp fun _ _ hr => hr.mono hsub) (.cons hren .nil),
      hst.helpers.imp fun _ _ hh => hh.mono hsub, hbel⟩
  | extract call x long stuck calls body =>
    rw [hk] at calls
    obtain ⟨call', calls'⟩ := exists_callHelper k' calls
    obtain ⟨x', body', hrest, hbd⟩ := extract?_renamed (hst.left.actions.imp fun _ _ ha => ha.mono hsub)
      (.call hmem calls calls') body
    refine ⟨ρ ++ [(k, k')], _, hsub, .extract call' x' (hlen ▸ long) ?_ (hk' ▸ calls') body', ?_⟩
    · exact (congrArg lastCut? ((congrArg (cuts · st'.left) hsubj).trans (cuts_renamed hst.left _))).trans stuck
    rw [hk, hk']
    exact ⟨hst.owner.mono hsub, renamesLeft_ofActions hrest, hst.count, hst.chain.imp fun _ _ hr => hr.mono hsub,
      .cons ⟨⟨k, k', hmem, rfl, rfl⟩, hbd⟩ (hst.helpers.imp fun _ _ hh => hh.mono hsub), hbel⟩

/-! ### Splitting -/

lemma count_lt_of_split (h : (s.split subject st).result = .ok out) (hlong : maxPayload < st.left.actions.length) :
    st.count < s.cfg.maxSplits := by
  by_contra hcnt
  rw [split, if_neg (by omega), dif_pos (by omega)] at h
  simp at h

lemma split_of_step (h : s.Step subject st st₁) (hcnt : st.count < s.cfg.maxSplits) :
    (s.split subject st).result = (s.split subject st₁).result := by
  cases h with
  | cut c call row long last calls row_eq =>
    have hcut : (s.cutOff subject c (helperName (s.helperNumber st)) st).result = .ok row := by
      rw [result_cutOff, calls]
      exact row_eq
    rw [restored] at last
    rw [split, if_neg (by omega), dif_neg (by omega)]
    simp only [result_bind, result_nextHelper, traceStep, Settings.result_traceSplit, Except.bind, last]
    rw [helperNumber] at hcut
    rw [hcut]
    rfl
  | extract call x long stuck calls body =>
    have hshort : x.rest.length < st.left.actions.length := by
      have := length_extract? body
      omega
    rw [restored] at stuck
    rw [helperNumber] at calls
    rw [split, if_neg (by omega), dif_neg (by omega)]
    simp only [result_bind, result_nextHelper, traceStep, Except.bind, stuck, calls]
    simp only [body, dif_pos hshort, result_bind, Settings.result_traceSplit]
    rfl

/-- Whatever other names are taken, a block that can be split can be split with other numbers in the same way. -/
theorem split_renamed (names : List Text) (h : (s.split subject st).result = .ok out) (hst : s.RenamesState ρ st st')
    (hsubj : s.restored subject' = s.restored subject) :
    ∃ ρ' out', ρ ⊆ ρ' ∧ (({ s with taken := names } : Setting).split subject' st').result = .ok out'
      ∧ s.RenamesState ρ' out out' := by
  obtain ⟨hsts, hfits⟩ := steps_of_split h
  induction hsts using Relation.ReflTransGen.head_induction_on generalizing ρ st' with
  | refl =>
    refine ⟨ρ, st', List.Subset.refl _, ?_, hst⟩
    rw [split, if_pos (by rw [← hst.left.actions.length_eq]; exact hfits)]
    rfl
  | head hstep hrest ih =>
    rename_i st st₁
    have hlong : maxPayload < st.left.actions.length := by cases hstep <;> assumption
    have hcnt := count_lt_of_split h hlong
    rw [split_of_step hstep hcnt] at h
    obtain ⟨ρ₁, st₁', hρ₁, hstep', hst₁⟩ := hstep.renamed names hst hsubj
    obtain ⟨ρ', out', hρ', hout, hren⟩ := ih h hst₁
    refine ⟨ρ', out', fun p hp => hρ' (hρ₁ hp), ?_, hren⟩
    rwa [split_of_step hstep' (by rw [hst.count]; exact hcnt)]

/-! ### Blocks -/

variable {owner owner' : Owner} {left left' : Remaining} {n n' m : Nat} {rows : Rows} {chains : List Chain}

/-- Chains and helpers are the same up to the names of helpers. -/
structure RenamesRows (s : Setting) (ρ : Renaming) (rows rows' : Rows) : Prop where
  chain : Forall₂ (s.RenamesRow ρ) rows.chain rows'.chain
  helpers : Forall₂ (s.RenamesHelper ρ) rows.helpers rows'.helpers
  below : ρ.Below rows.next rows'.next

lemma splitRows_renamed (names : List Text) (h : (s.splitRows subject owner left n).result = .ok rows)
    (hown : Owner.Renamed ρ owner owner') (hleft : s.RenamesLeft ρ left left') (hbel : ρ.Below n n')
    (hsubj : s.restored subject' = s.restored subject) :
    ∃ ρ' rows', ρ ⊆ ρ' ∧ (({ s with taken := names } : Setting).splitRows subject' owner' left' n').result = .ok rows'
      ∧ s.RenamesRows ρ' rows rows' := by
  rw [splitRows, bind_ok] at h
  obtain ⟨st, hspl, h⟩ := h
  rw [bind_ok] at h
  obtain ⟨row, hrow, h⟩ := h
  cases h
  have hstt : s.RenamesState ρ ⟨owner, left, 0, ⟨[], [], n⟩⟩ ⟨owner', left', 0, ⟨[], [], n'⟩⟩ :=
    ⟨hown, hleft, rfl, .nil, .nil, hbel⟩
  obtain ⟨ρ', st', hρ, hspl', hst⟩ := split_renamed names hspl hstt hsubj
  obtain ⟨row', hrow', hren⟩ := of_renamed hst.owner hst.left.actions (steps_of_split hspl).2 hrow
  refine ⟨ρ', { st'.rows with chain := st'.rows.chain ++ [row'] }, hρ, ?_,
    rel_append hst.chain (.cons hren .nil), hst.helpers, hst.below⟩
  rw [splitRows, bind_ok]
  refine ⟨st', hspl', ?_⟩
  rw [bind_ok]
  exact ⟨row', hrow', rfl⟩

lemma helperRows_renamed (names : List Text) {h h' : Helper} (hrows : (s.helperRows h n).result = .ok rows)
    (hh : s.RenamesHelper ρ h h') (hbel : ρ.Below n n') : ∃ ρ' rows', ρ ⊆ ρ'
      ∧ (({ s with taken := names } : Setting).helperRows h' n').result = .ok rows' ∧ s.RenamesRows ρ' rows rows' := by
  obtain ⟨k, k', hmem, hnm, hnm'⟩ := hh.names
  have hown : Owner.Renamed ρ (.func h.name) (.func h'.name) := by
    rw [hnm, hnm']
    exact .helper hmem
  have hlen := hh.actions.length_eq
  rw [helperRows] at hrows ⊢
  split at hrows
  next hfits =>
    rw [bind_ok] at hrows
    obtain ⟨row, hrow, hrows⟩ := hrows
    cases hrows
    obtain ⟨row', hrow', hren⟩ := of_renamed hown hh.actions hfits hrow
    refine ⟨ρ, ⟨[row'], [], n'⟩, List.Subset.refl _, ?_, .cons hren .nil, .nil, hbel⟩
    rw [if_pos (by omega), bind_ok]
    exact ⟨row', hrow', rfl⟩
  next hlong =>
    rw [if_neg (by omega)]
    exact splitRows_renamed names hrows hown (renamesLeft_ofActions hh.actions) hbel rfl

lemma helpersRows_renamed (names : List Text) {fuel : Nat} {queue queue' : List Helper}
    (h : (s.helpersRows fuel queue n).result = .ok (chains, m)) (hque : Forall₂ (s.RenamesHelper ρ) queue queue')
    (hbel : ρ.Below n n') : ∃ ρ' chains' m', ρ ⊆ ρ'
      ∧ (({ s with taken := names } : Setting).helpersRows fuel queue' n').result = .ok (chains', m')
      ∧ Forall₂ (Forall₂ (s.RenamesRow ρ')) chains chains' ∧ ρ'.Below m m' := by
  induction fuel generalizing ρ queue queue' n n' chains with
  | zero =>
    cases h
    exact ⟨ρ, [], n', List.Subset.refl _, by rw [helpersRows]; rfl, .nil, hbel⟩
  | succ fuel ih =>
    cases hque with
    | nil =>
      cases h
      exact ⟨ρ, [], n', List.Subset.refl _, rfl, .nil, hbel⟩
    | cons hh hrest =>
      simp only [helpersRows, bind_ok] at h
      obtain ⟨-, -, rows, hrows, ⟨more, next⟩, hmore, h⟩ := h
      cases h
      obtain ⟨ρ₁, rows', hρ₁, hrows', hren⟩ := helperRows_renamed names hrows hh hbel
      obtain ⟨ρ', more', m', hρ', hmore', hchs, hbel'⟩ := ih hmore
        (rel_append hren.helpers (hrest.imp fun _ _ hh => hh.mono hρ₁)) hren.below
      refine ⟨ρ', _, m', fun p hp => hρ' (hρ₁ hp), ?_, .cons (hren.chain.imp fun _ _ hr => hr.mono hρ') hchs,
        hbel'⟩
      simp only [helpersRows, bind_ok]
      exact ⟨(), Settings.result_traceSplit _ _, rows', hrows', (more', m'), hmore', rfl⟩

lemma totalLength_renamed {queue queue' : List Helper} (h : Forall₂ (s.RenamesHelper ρ) queue queue') (k : Nat) :
    queue'.foldl (fun n h => n + h.actions.length) k = queue.foldl (fun n h => n + h.actions.length) k := by
  induction h generalizing k with
  | nil => rfl
  | cons hh _ ih => rw [foldl_cons, foldl_cons, ih, hh.actions.length_eq]

lemma withHelpers_renamed (names : List Text) {rows' : Rows} (h : (s.withHelpers rows).result = .ok (chains, m))
    (hrows : s.RenamesRows ρ rows rows') : ∃ ρ' chains' m', ρ ⊆ ρ'
      ∧ (({ s with taken := names } : Setting).withHelpers rows').result = .ok (chains', m')
      ∧ Forall₂ (Forall₂ (s.RenamesRow ρ')) chains chains' ∧ ρ'.Below m m' := by
  obtain ⟨more, hmore, rfl⟩ := withHelpers_run h
  have hque : Forall₂ (s.RenamesHelper ρ) rows.helpers.reverse rows'.helpers.reverse :=
    rel_reverse hrows.helpers
  obtain ⟨ρ', more', m', hρ', hmore', hchs, hbel'⟩ := helpersRows_renamed names hmore hque hrows.below
  refine ⟨ρ', rows'.chain :: more', m', hρ', ?_, .cons (hrows.chain.imp fun _ _ hr => hr.mono hρ') hchs, hbel'⟩
  rw [← totalLength_renamed hque 0] at hmore'
  rw [withHelpers]
  split
  all_goals
    simp only [result_bind, hmore', Settings.result_traceSplit]
    rfl

/-- How a block is put into rows does not depend on the numbers left for helpers, nor on the names taken, up to the
names of the helpers. -/
theorem blockRows_renamed (names : List Text) (h : (s.blockRows owner left n).result = .ok (chains, m))
    (hbel : ρ.Below n n') : ∃ ρ' chains' m', ρ ⊆ ρ'
      ∧ (({ s with taken := names } : Setting).blockRows owner left n').result = .ok (chains', m')
      ∧ Forall₂ (Forall₂ (s.RenamesRow ρ')) chains chains' ∧ ρ'.Below m m' := by
  rw [blockRows] at h ⊢
  split at h
  next subject hsubj =>
    simp only [bind_ok] at h
    obtain ⟨-, -, rows, hrows, h⟩ := h
    obtain ⟨ρ₁, rows', hρ₁, hrows', hren⟩ := splitRows_renamed names hrows (.same owner)
      ⟨Renames.forall₂_same _, rfl⟩ hbel rfl
    obtain ⟨ρ', chains', m', hρ', hchs', hrest⟩ := withHelpers_renamed names h hren
    refine ⟨ρ', chains', m', fun p hp => hρ' (hρ₁ hp), ?_, hrest⟩
    simp only [bind_ok]
    exact ⟨(), Settings.result_traceSplit _ _, rows', hrows', hchs'⟩
  next hsubj =>
    rw [bind_ok] at h
    obtain ⟨row, hrow, h⟩ := h
    cases h
    refine ⟨ρ, [[row]], n', List.Subset.refl _, ?_, .cons (.cons (.same row) .nil) .nil, hbel⟩
    rw [bind_ok]
    exact ⟨row, hrow, rfl⟩

/-! ### Entries -/

lemma RenamesEntry.isNewline_eq {e e' : Entry} (h : s.RenamesEntry ρ e e') : e'.isNewline = e.isNewline := by
  cases h with
  | same => rfl
  | header => rfl
  | action ha => rw [ha.eq_with]; rfl

lemma endsWithNewline_renamed {es es' : List Entry} (h : Forall₂ (s.RenamesEntry ρ) es es') :
    endsWithNewline es' = endsWithNewline es := by
  rw [endsWithNewline, endsWithNewline]
  induction h with
  | nil => rfl
  | cons he hrest ih =>
    cases hrest with
    | nil => exact he.isNewline_eq
    | cons => exact ih

lemma entries_renamed {c c' : Chain} (h : Forall₂ (s.RenamesRow ρ) c c') :
    Forall₂ (s.RenamesEntry ρ) c.entries c'.entries := by
  induction h with
  | nil => exact .nil
  | cons hr hrest ih =>
    cases hrest with
    | nil => exact hr.entries
    | cons => exact rel_append hr.entries (.cons (.same _) ih)

lemma allEntries_renamed {cs cs' : List Chain} (h : Forall₂ (Forall₂ (s.RenamesRow ρ)) cs cs') :
    Forall₂ (s.RenamesEntry ρ) (Chain.allEntries cs) (Chain.allEntries cs') := by
  induction h with
  | nil => exact .nil
  | cons hc hrest ih =>
    cases hrest with
    | nil => exact entries_renamed hc
    | cons =>
      refine rel_append (rel_append (entries_renamed hc) ?_) ih
      rw [endsWithNewline_renamed (entries_renamed hc)]
      exact forall₂_same.mpr fun e _ => .same e

end Setting
end BlockScript.Plan
