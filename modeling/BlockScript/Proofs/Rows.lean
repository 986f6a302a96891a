import BlockScript.Proofs.Unfolding

/-!
# The rows of a block

Splitting a block gives rows that fit, each of which has a header and an entry for each action, and which unfold to
the block's actions (`Setting.blockRows_ok`). No row consists of a call of a helper alone: after a scope was
shortened, the call stands between the action that opens the scope and the one that closes it, and no cut is made
there. The queue of helpers is emptied, since every helper is longer than what is left of it and its own helpers.
-/

open List Option
namespace BlockScript.Plan
open Row
open Script.Compile (bind_ok)

/-! ### Calls stand in scopes of their own -/

section Tight
variable {a o k call : Action} {as bs body pre post : List Action}

/-- Every call of a helper is all that stands in a scope. -/
def Tight (as : List Action) : Prop :=
  ∀ pre c post, as = pre ++ c :: post → (callee? c).isSome → c.opens = false ∧ (∃ pre' o, pre = pre' ++ [o] ∧ o.opens)
    ∧ (c.closes ∨ ∃ k post', post = k :: post' ∧ k.opens = false ∧ k.closes)

lemma tight_of_forall (h : ∀ a ∈ as, callee? a = none) : Tight as := by
  intro pre c post heq hc
  rw [h c (by simp [heq])] at hc
  contradiction

lemma Tight.of_append (h : Tight (as ++ bs)) (hhead : ∀ b, bs.head? = some b → callee? b = none) : Tight bs := by
  intro pre c post heq hc
  obtain ⟨hop, ⟨pre', o, hpre, ho⟩, hnext⟩ := h (as ++ pre) c post (by simp [heq]) hc
  refine ⟨hop, ?_, hnext⟩
  rcases eq_nil_or_concat pre with rfl | ⟨pre'', b, rfl⟩
  · rw [hhead c (by simp [heq])] at hc
    contradiction
  rw [concat_eq_append, ← append_assoc] at hpre
  obtain ⟨-, hb⟩ := append_inj' hpre rfl
  obtain rfl : b = o := by simpa using hb
  exact ⟨pre'', b, by simp, ho⟩

lemma Tight.cons (h : Tight as) (ha : callee? a = none) : Tight (a :: as) := by
  intro pre c post heq hc
  cases pre with
  | nil =>
    obtain ⟨rfl, -⟩ := cons.inj heq
    rw [ha] at hc
    contradiction
  | cons b pre =>
    obtain ⟨rfl, htail⟩ := cons.inj heq
    obtain ⟨hop, ⟨pre', o, rfl, ho⟩, hnext⟩ := h pre c post htail hc
    exact ⟨hop, ⟨a :: pre', o, rfl, ho⟩, hnext⟩

lemma Tight.callee?_none (h : Tight [a]) : callee? a = none := by
  by_contra hc
  obtain ⟨-, ⟨pre', o, hnil, -⟩, -⟩ := h [] a [] rfl (isSome_iff_ne_none.mpr hc)
  simp at hnil

lemma Matched.opens_last_eq_false (h : Matched (as ++ [o])) : o.opens = false := by
  rw [Matched, depthAfter_append] at h
  by_contra ho
  cases hd : depthAfter 0 as <;> simp_all [depthAfter]

-- the call does not stand first in the body, for then it is all that stands there
lemma Tight.inside (h : Tight (pre ++ o :: (body ++ k :: post))) (hm : Matched body) (hlen : 2 ≤ body.length) :
    Tight body := by
  intro p c q heq hc
  obtain ⟨hop, ⟨pre', o', hpre, ho'⟩, hnext⟩ := h (pre ++ o :: p) c (q ++ k :: post) (by simp [heq]) hc
  obtain ⟨p', rfl⟩ : ∃ p', p = p' ++ [o'] := by
    rcases eq_nil_or_concat p with rfl | ⟨p', b, rfl⟩
    · exfalso
      cases q with
      | nil => simp [heq] at hlen
      | cons k' q =>
        rw [heq, Matched, nil_append, depthAfter, if_neg (by simp [hop])] at hm
        by_cases hcls : c.closes
        · simp [hcls] at hm
        obtain ⟨k'', q', hq, hk, hk'⟩ := hnext.resolve_left hcls
        obtain ⟨rfl, -⟩ := cons.inj hq
        simp [depthAfter, hk, hk'] at hm
    rw [concat_eq_append, ← cons_append, ← append_assoc] at hpre
    obtain rfl : b = o' := by simpa using (append_inj' hpre rfl).2
    exact ⟨p', by simp⟩
  refine ⟨hop, ⟨p', o', rfl, ho'⟩, ?_⟩
  by_cases hcls : c.closes
  · exact .inl hcls
  obtain ⟨k', q', hq, hk⟩ := hnext.resolve_left hcls
  cases q with
  | cons k'' q =>
    obtain ⟨rfl, -⟩ := cons.inj hq
    exact .inr ⟨k'', q, rfl, hk⟩
  | nil =>
    exfalso
    rw [heq, Matched, depthAfter_append, depthAfter_append] at hm
    cases hd : depthAfter 0 p' <;> simp_all [depthAfter]

lemma Tight.replace (h : Tight (pre ++ o :: (body ++ k :: post))) (ho : o.opens) (hk : k.opens = false)
    (hk' : k.closes) (hm : Matched body) (hlen : 2 ≤ body.length) (hcall : call.opens = false) :
    Tight (pre ++ o :: call :: k :: post) := by
  intro p c q heq hc
  rcases append_eq_append_iff.mp heq with ⟨p', rfl, htail⟩ | ⟨p', rfl, htail⟩
  · rcases p' with _ | ⟨o', _ | ⟨call', _ | ⟨k', p'⟩⟩⟩ <;>
      simp only [nil_append, cons_append] at htail
    · -- the opening action is no call
      obtain ⟨rfl, -⟩ := htail
      have := (h pre o (body ++ k :: post) rfl hc).1
      simp [ho] at this
    · obtain ⟨rfl, rfl, rfl⟩ := htail
      exact ⟨hcall, ⟨pre, o, rfl, ho⟩, .inr ⟨k, post, rfl, hk, hk'⟩⟩
    · -- the closing action is no call, for the body does not end with an opening one
      obtain ⟨rfl, rfl, rfl, rfl⟩ := htail
      obtain ⟨-, ⟨pre', o', hpre, ho'⟩, -⟩ := h (pre ++ o :: body) k post (by simp) hc
      rcases eq_nil_or_concat body with rfl | ⟨body', b, rfl⟩
      · simp at hlen
      rw [concat_eq_append, ← cons_append, ← append_assoc] at hpre
      rw [concat_eq_append] at hm
      obtain rfl : b = o' := by simpa using (append_inj' hpre rfl).2
      simp [hm.opens_last_eq_false] at ho'
    obtain ⟨rfl, rfl, rfl, rfl⟩ := htail
    obtain ⟨hop, ⟨pre', o', hpre, ho'⟩, hnext⟩ := h (pre ++ o :: (body ++ k :: p')) c q (by simp) hc
    refine ⟨hop, ?_, hnext⟩
    rcases eq_nil_or_concat p' with rfl | ⟨p'', b, rfl⟩
    · rw [← cons_append, ← append_assoc] at hpre
      obtain rfl : k = o' := by simpa using (append_inj' hpre rfl).2
      simp [hk] at ho'
    refine ⟨pre ++ o :: call :: k :: p'', b, by simp, ?_⟩
    have hlast : (pre ++ o :: (body ++ k :: p'')) ++ [b] = pre' ++ [o'] := by simpa using hpre
    obtain rfl : b = o' := by simpa using (append_inj' hlast rfl).2
    exact ho'
  cases p' with
  | nil =>
    obtain ⟨rfl, -⟩ := cons.inj htail.symm
    have := (h p o (body ++ k :: post) (by simp) hc).1
    simp [ho] at this
  | cons c' p' =>
    obtain ⟨rfl, rfl⟩ := cons.inj htail.symm
    obtain ⟨hop, hprev, hnext⟩ := h p c' (p' ++ o :: (body ++ k :: post)) (by simp) hc
    refine ⟨hop, hprev, hnext.imp_right ?_⟩
    rintro ⟨k', post', hpost, hk₁, hk₂⟩
    cases p' with
    | nil =>
      obtain ⟨rfl, -⟩ := cons.inj hpost
      simp [ho] at hk₁
    | cons b p' =>
      obtain ⟨rfl, -⟩ := cons.inj hpost
      exact ⟨b, p' ++ o :: call :: k :: post, rfl, hk₁, hk₂⟩

end Tight

/-! ### Steps keep rows in order -/

/-- A row that fits, has an entry for each action behind its header, and is no call of a helper alone. -/
structure Row.Sound (s : Setting) (r : Row) : Prop where
  fits : r.actions.length ≤ maxPayload
  entries : ∃ header, r.owner.header s.events = .ok header ∧ r.entries = header :: r.actions.map Entry.ofAction
  alone : ∀ a, r.actions = [a] → callee? a = none

variable {s : Setting} {as : List Action} {owner : Owner}

lemma Row.Sound.of_ok {row : Row} (hlen : as.length ≤ maxPayload)
    (halone : ∀ a, as = [a] → callee? a = none) (h : (Row.of s.events owner as).result = .ok row) : row.Sound s := by
  obtain ⟨header, hhdr, rfl⟩ := Row.of_ok hlen h
  exact ⟨hlen, ⟨header, hhdr, rfl⟩, halone⟩

/-- What every step of splitting keeps. -/
structure Tidy (s : Setting) (st : SplitState) : Prop where
  tight : Tight st.left.actions
  /-- No call of a helper stands behind a boundary. -/
  safe : ∀ b ∈ st.left.boundaries, ∀ a, st.left.actions[b.pos]? = some a → callee? a = none
  records : st.left.Records 0 fun _ a => callee? a = none
  rows : ∀ r ∈ st.rows.chain, r.Sound s
  helpers : ∀ h ∈ st.rows.helpers, Tight h.actions ∧ 2 ≤ h.actions.length

lemma Tight.safe {b : Boundary} {a : Action} (h : Tight as) (hb : b ∈ boundaries as)
    (ha : as[b.pos]? = some a) : callee? a = none := by
  obtain ⟨pre, c, post, rfl, rfl, hc⟩ := mem_boundariesFrom hb
  cases post with
  | nil => simp at ha
  | cons a' post =>
    obtain rfl : a' = a := by simpa using ha
    by_contra hcall
    obtain ⟨-, ⟨pre', o, hpre, ho⟩, -⟩ := h (pre ++ [c]) a' post (by simp) (isSome_iff_ne_none.mpr hcall)
    obtain rfl : c = o := by simpa using (append_inj' hpre rfl).2
    simp [hc] at ho

namespace Setting.Step
variable {s : Setting} {subject : Subject} {st st' : SplitState}

theorem tidy (h : s.Step subject st st') (ht : Tidy s st) : Tidy s st' := by
  cases h with
  | cut c call row long last calls row_eq =>
    have place := lastCut?_mem last
    obtain ⟨⟨b, hb, hc⟩, hpos, hlt, -⟩ := mem_cuts.mp place
    have hbpos : c.pos = b.pos := by rw [hc]
    have hnext a : (st.left.actions.drop c.pos).head? = some a → callee? a = none := by
      intro ha
      rw [head?_drop, hbpos] at ha
      exact ht.safe b hb a ha
    have hdrop : Tight (st.left.actions.drop c.pos) := by
      have hti := ht.tight
      rw [← take_append_drop c.pos st.left.actions] at hti
      exact hti.of_append hnext
    constructor
    case tight =>
      rw [Cut.actions_rest]
      cases hr : c.restore with
      | none => exact hdrop
      | some a => exact hdrop.cons (ht.records.restore place hr)
    case safe =>
      intro b' hb' a ha
      rw [Cut.actions_rest] at ha
      rcases mem_boundaries_rest hb' with ⟨sel, hsel, rfl⟩ | ⟨b'', hb'', hlt', rfl⟩
      · rw [hsel] at ha
        exact hnext a (by simpa using ha)
      rw [getElem?_append_right (by simp), Nat.add_sub_cancel, getElem?_drop] at ha
      rw [Nat.add_sub_cancel' (Nat.le_of_lt hlt')] at ha
      exact ht.safe b'' hb'' a ha
    case records => exact ht.records.rest place
    case rows =>
      refine forall_mem_append.mpr ⟨ht.rows, forall_mem_singleton.mpr ?_⟩
      refine .of_ok (length_row_le place call) (fun a ha => ?_) row_eq
      have := congrArg List.length ha
      simp only [Cut.row, length_append, length_take, length_singleton] at this
      omega
    case helpers => exact ht.helpers
  | extract call x long stuck calls body =>
    obtain ⟨pre, o, k, post, heq, hrest, ho, hk, hk', hm, hlen⟩ := extract?_some body
    have hti := ht.tight
    rw [heq] at hti
    have haft : Tight x.rest := by
      rw [hrest]
      exact hti.replace ho hk hk' hm hlen (callHelper_ok calls).2
    constructor
    case tight => exact haft
    case safe => exact fun b hb a => haft.safe hb
    case records => exact records_ofActions _ _ _
    case rows => exact ht.rows
    case helpers => exact forall_mem_cons.mpr ⟨⟨hti.inside hm hlen, hlen⟩, ht.helpers⟩

end Setting.Step

lemma Setting.Steps.keeps {subject : Subject} {st st' : SplitState} {p : SplitState → Prop}
    (h : s.Steps subject st st') (hst : p st) (hstep : ∀ {st st'}, s.Step subject st st' → p st → p st') : p st' := by
  induction h with
  | refl => exact hst
  | tail _ h ih => exact hstep h ih

/-! ### Helpers get shorter -/

def weight : List Helper → Nat
  | [] => 0
  | h :: hs => h.actions.length - 1 + weight hs

@[simp] lemma weight_cons (h : Helper) (hs : List Helper) : weight (h :: hs) = h.actions.length - 1 + weight hs := rfl

@[simp] lemma weight_append (hs hs' : List Helper) : weight (hs ++ hs') = weight hs + weight hs' := by
  induction hs with
  | nil => simp [weight]
  | cons h hs ih => simp [ih, Nat.add_assoc]

namespace Setting.Steps
variable {s : Setting} {subject : Subject} {st st' : SplitState}

lemma eq_of_fits (h : s.Steps subject st st') (hlen : st.left.actions.length ≤ maxPayload) : st' = st := by
  rcases h.cases_head with rfl | ⟨st₁, hstep, -⟩
  · rfl
  · cases hstep <;> omega

/-- What is moved into helpers is taken from the list, of which at least two actions stay. -/
lemma weight_le (h : s.Steps subject st st') (hnone : s.restored subject = none) (hlen : 2 ≤ st.left.actions.length) :
    weight st'.rows.helpers + 2 ≤ weight st.rows.helpers + st.left.actions.length := by
  induction h using Relation.ReflTransGen.head_induction_on with
  | refl => omega
  | @head st st₁ hstep hsts ih =>
    cases hstep with
    | cut c call row long last calls row_eq =>
      have place := lastCut?_mem last
      obtain ⟨⟨b, -, hc⟩, hpos, hlt, -⟩ := mem_cuts.mp place
      have hrest : (c.rest st.left).actions = st.left.actions.drop c.pos := by
        rw [hc, hnone]
        rfl
      by_cases htwo : 2 ≤ st.left.actions.length - c.pos
      · have := ih (by simpa [hrest] using htwo)
        simp only [hrest, length_drop] at this
        omega
      have := eq_of_fits hsts (by simp only [hrest, length_drop, maxPayload, rowSize]; omega)
      rw [this]
      simp only
      omega
    | extract call x long stuck calls body =>
      obtain ⟨hsum, hthree, htwo⟩ := length_extract? body
      have := ih (by simp only [Remaining.ofActions]; omega)
      simp only [Remaining.ofActions, weight_cons] at this
      omega

lemma first_owner (h : s.Steps subject st st') :
    (st'.rows.chain.map Row.owner ++ [st'.owner]).head? = (st.rows.chain.map Row.owner ++ [st.owner]).head? := by
  induction h with
  | refl => rfl
  | @tail st₁ st₂ _ hstep ih =>
    rw [← ih]
    cases hstep with
    | cut c call row long last calls row_eq =>
      have howner : row.owner = st₁.owner := congrArg Prod.fst (definition_ok row_eq)
      simp [howner]
    | extract => rfl

end Setting.Steps

/-! ### Rows that cover a list -/

/-- Rows and helpers that a list was split into. -/
structure Rows.Covers (s : Setting) (owner : Owner) (as : List Action) (next : Nat) (rows : Rows) : Prop where
  outlines : Outlines s next [(owner, as)] rows.next
    (rows.chain.map Row.definition ++ rows.helpers.map Helper.definition)
  sound : ∀ r ∈ rows.chain, r.Sound s
  helpers : ∀ h ∈ rows.helpers, Tight h.actions ∧ 2 ≤ h.actions.length
  first : (rows.chain.map Row.owner).head? = some owner

lemma Rows.Covers.ne_nil {next : Nat} {rows : Rows} (h : rows.Covers s owner as next) : rows.chain ≠ [] := by
  rintro hnil
  have := h.first
  simp [hnil] at this

namespace Setting
variable {s : Setting} {subject : Subject} {owner : Owner} {left : Remaining} {next next' : Nat} {rows : Rows}
  {recorded : Nat → Action → Prop} {h : Helper} {chains : List Chain}
  {p : Helper → Prop} {q : Chain → Prop} {queue : List Helper} {as : List Action}

lemma splitRows_ok (h : (s.splitRows subject owner left next).result = .ok rows) :
    ∃ st row, s.Steps subject ⟨owner, left, 0, ⟨[], [], next⟩⟩ st ∧ st.left.actions.length ≤ maxPayload
      ∧ (Row.of s.events st.owner st.left.actions).result = .ok row
      ∧ rows = ⟨st.rows.chain ++ [row], st.rows.helpers, st.rows.next⟩ := by
  rw [splitRows, bind_ok] at h
  obtain ⟨st, hst, h⟩ := h
  rw [bind_ok] at h
  obtain ⟨row, hrow, h⟩ := h
  obtain ⟨hsts, hlen⟩ := steps_of_split hst
  exact ⟨st, row, hsts, hlen, hrow, (Except.ok.inj h).symm⟩

/-- A list split is covered, the selections made again being inserted. -/
theorem splitRows_covers (h : (s.splitRows subject owner left next).result = .ok rows)
    (ht : Tidy s ⟨owner, left, 0, ⟨[], [], next⟩⟩) (hne : left.actions ≠ []) (hrec : left.Records 0 recorded) :
    ∃ as, Padded (s.Restores subject recorded) 0 left.actions as ∧ rows.Covers s owner as next := by
  obtain ⟨st, row, hsts, hlen, hrow, rfl⟩ := splitRows_ok h
  obtain ⟨as, hpad, hout⟩ := hsts.outlines hne hrec
  have htidy := hsts.keeps ht Step.tidy
  have hdef := definition_ok hrow
  refine ⟨as, hpad.padded, ?_, forall_mem_append.mpr ⟨htidy.rows, forall_mem_singleton.mpr ?_⟩,
    htidy.helpers, ?_⟩
  · simpa [SplitState.definitions, hdef] using hout
  · exact .of_ok hlen (fun a ha => (ha ▸ htidy.tight).callee?_none) hrow
  have howner : row.owner = st.owner := congrArg Prod.fst hdef
  simpa [howner] using hsts.first_owner

lemma restored_helper (s : Setting) (name : Text) : s.restored (.helper name) = none := rfl

lemma helperRows_cases (hrows : (s.helperRows h next).result = .ok rows) : (h.actions.length ≤ maxPayload
      ∧ ∃ row, (Row.of s.events (.func h.name) h.actions).result = .ok row ∧ rows = ⟨[row], [], next⟩)
    ∨ maxPayload < h.actions.length
      ∧ (s.splitRows (.helper h.name) (.func h.name) (.ofActions h.actions) next).result = .ok rows := by
  rw [helperRows] at hrows
  split at hrows
  next hfits =>
    rw [bind_ok] at hrows
    obtain ⟨row, hrow, hrows⟩ := hrows
    exact .inl ⟨hfits, row, hrow, (Except.ok.inj hrows).symm⟩
  next hlong => exact .inr ⟨Nat.lt_of_not_le hlong, hrows⟩

lemma helpersRows_forall {fuel : Nat}
    (h : (s.helpersRows fuel queue next).result = .ok (chains, next')) (hque : ∀ h ∈ queue, p h)
    (hrows : ∀ {h next rows}, p h → (s.helperRows h next).result = .ok rows → q rows.chain ∧ ∀ h ∈ rows.helpers, p h) :
    ∀ c ∈ chains, q c := by
  induction fuel generalizing queue next chains with
  | zero =>
    cases h
    simp
  | succ fuel ih =>
    cases queue with
    | nil =>
      cases h
      simp
    | cons first queue =>
      simp only [helpersRows, bind_ok] at h
      obtain ⟨-, -, rows, hfst, ⟨more, last⟩, hmore, h⟩ := h
      cases h
      obtain ⟨hp, hque⟩ := forall_mem_cons.mp hque
      obtain ⟨hq, hhlp⟩ := hrows hp hfst
      exact forall_mem_cons.mpr ⟨hq, ih hmore (forall_mem_append.mpr ⟨hhlp, hque⟩)⟩

theorem helperRows_covers (hrows : (s.helperRows h next).result = .ok rows) (ht : Tight h.actions)
    (hlen : 2 ≤ h.actions.length) :
    rows.Covers s (.func h.name) h.actions next ∧ weight rows.helpers + 2 ≤ h.actions.length := by
  rcases helperRows_cases hrows with ⟨hfits, row, hrow, rfl⟩ | ⟨-, hrows⟩
  · have hdef := definition_ok hrow
    refine ⟨⟨?_, ?_, by simp, ?_⟩, by simpa [weight] using hlen⟩
    · simpa [hdef] using Outlines.refl next [(Owner.func h.name, h.actions)]
    · simpa using Row.Sound.of_ok hfits (fun a ha => (ha ▸ ht).callee?_none) hrow
    · simpa [Row.definition] using congrArg Prod.fst hdef
  have htidy : Tidy s ⟨.func h.name, .ofActions h.actions, 0, ⟨[], [], next⟩⟩ :=
    ⟨ht, fun b hb a => ht.safe hb, records_ofActions _ _ _, by simp, by simp⟩
  have hne : h.actions ≠ [] := by
    rintro hnil
    simp [hnil] at hlen
  obtain ⟨as, hpad, hcov⟩ := splitRows_covers hrows htidy hne (records_ofActions _ 0 fun _ _ => False)
  obtain rfl : as = h.actions := by
    exact hpad.eq_of_forall_not fun _ _ _ h => h.2
  obtain ⟨st, row, hsts, -, -, rfl⟩ := splitRows_ok hrows
  have := hsts.weight_le (restored_helper s h.name) hlen
  exact ⟨hcov, by simpa [weight, Remaining.ofActions] using this⟩

lemma eq_nil_of_weight {hs : List Helper} (hhs : ∀ h ∈ hs, 2 ≤ h.actions.length) (hw : weight hs = 0) : hs = [] := by
  cases hs with
  | nil => rfl
  | cons h hs =>
    have := hhs h (by simp)
    rw [weight_cons] at hw
    omega

theorem helpersRows_outlines {fuel : Nat} (h : (s.helpersRows fuel queue next).result = .ok (chains, next'))
    (hq : ∀ h ∈ queue, Tight h.actions ∧ 2 ≤ h.actions.length) (hfuel : weight queue ≤ fuel) :
    Outlines s next (queue.map Helper.definition) next' (chains.flatten.map Row.definition) := by
  induction fuel generalizing queue next chains with
  | zero =>
    obtain rfl := eq_nil_of_weight (fun h hh => (hq h hh).2) (Nat.le_zero.mp hfuel)
    cases h
    exact .refl _ _
  | succ fuel ih =>
    cases queue with
    | nil =>
      cases h
      exact .refl _ _
    | cons first queue =>
      simp only [helpersRows, bind_ok] at h
      obtain ⟨-, -, rows, hrows, ⟨more, last⟩, hmore, h⟩ := h
      cases h
      obtain ⟨⟨hti, htwo⟩, hq⟩ := forall_mem_cons.mp hq
      obtain ⟨hcov, hweight⟩ := helperRows_covers hrows hti htwo
      rw [weight_cons] at hfuel
      have hout := ih hmore (forall_mem_append.mpr ⟨hcov.helpers, hq⟩) (by rw [weight_append]; omega)
      refine (hcov.outlines.append_right (queue.map Helper.definition)).trans ?_
      simpa using hout.append_left (rows.chain.map Row.definition)

lemma weight_le_length (hs : List Helper) : weight hs ≤ hs.foldl (fun n h => n + h.actions.length) 0 := by
  have hfold : ∀ hs n, n + weight hs ≤ hs.foldl (fun n h => n + h.actions.length) n := by
    intro hs
    induction hs with
    | nil => simp [weight]
    | cons h hs ih =>
      intro n
      have := ih (n + h.actions.length)
      rw [foldl_cons, weight_cons]
      omega
  simpa using hfold hs 0

/-- What the rows of a block are: those of the block, its parts and its helpers. -/
structure BlockRows (s : Setting) (owner : Owner) (as : List Action) (next next' : Nat) (chains : List Chain) :
    Prop where
  outlines : Outlines s next [(owner, as)] next' (chains.flatten.map Row.definition)
  sound : ∀ r ∈ chains.flatten, r.Sound s
  nonempty : ∀ c ∈ chains, c ≠ []
  first : (chains.flatten.map Row.owner).head? = some owner

lemma withHelpers_run (h : (s.withHelpers rows).result = .ok (chains, next')) :
    ∃ more, (s.helpersRows (rows.helpers.reverse.foldl (fun n h => n + h.actions.length) 0) rows.helpers.reverse
      rows.next).result = .ok (more, next') ∧ chains = rows.chain :: more := by
  rw [withHelpers] at h
  split at h
  · simp only [bind_ok] at h
    obtain ⟨-, -, ⟨more, last⟩, hmore, h⟩ := h
    cases h
    exact ⟨more, hmore, rfl⟩
  simp only [bind_ok] at h
  obtain ⟨⟨more, last⟩, hmore, h⟩ := h
  cases h
  exact ⟨more, hmore, rfl⟩

lemma withHelpers_forall (h : (s.withHelpers rows).result = .ok (chains, next'))
    (hch : q rows.chain) (hhlp : ∀ h ∈ rows.helpers, p h)
    (hrows : ∀ {h next rows}, p h → (s.helperRows h next).result = .ok rows → q rows.chain ∧ ∀ h ∈ rows.helpers, p h) :
    ∀ c ∈ chains, q c := by
  obtain ⟨more, hmore, rfl⟩ := withHelpers_run h
  exact forall_mem_cons.mpr ⟨hch, helpersRows_forall hmore (by simpa using hhlp) hrows⟩

theorem withHelpers_ok (h : (s.withHelpers rows).result = .ok (chains, next'))
    (hcov : rows.Covers s owner as next) : s.BlockRows owner as next next' chains := by
  have hchs := withHelpers_forall (q := fun c => (∀ r ∈ c, r.Sound s) ∧ c ≠ []) h ⟨hcov.sound, hcov.ne_nil⟩
    hcov.helpers fun hp hrows =>
      have hcov := (helperRows_covers hrows hp.1 hp.2).1
      ⟨⟨hcov.sound, hcov.ne_nil⟩, hcov.helpers⟩
  obtain ⟨more, hmore, rfl⟩ := withHelpers_run h
  have hout := helpersRows_outlines hmore (by simpa using hcov.helpers) (weight_le_length _)
  refine ⟨?_, forall_mem_flatten.mpr fun c hc => (hchs c hc).1, fun c hc => (hchs c hc).2, ?_⟩
  · refine hcov.outlines.trans ?_
    have hperm : (rows.chain.map Row.definition ++ rows.helpers.map Helper.definition).Perm
        (rows.chain.map Row.definition ++ rows.helpers.reverse.map Helper.definition) :=
      .append_left _ ((reverse_perm _).symm.map _)
    refine (Outlines.perm hperm).trans ?_
    simpa using hout.append_left (rows.chain.map Row.definition)
  rw [flatten_cons, map_append, head?_append, hcov.first]
  rfl

/-- What may be inserted into the actions of a block behind `n` of them: in an event, the default selection and the
one recorded there. -/
def Inserts (s : Setting) (owner : Owner) (left : Remaining) (n : Nat) (a b : Action) : Prop :=
  (∃ name, owner = .event name) ∧ a = s.defaultPlayer ∧ ⟨n, some b⟩ ∈ left.boundaries

lemma padded_inserts (hsubj : Subject.ofOwner? owner = some subject)
    (h : Padded (s.Restores subject fun n a => ⟨n, some a⟩ ∈ left.boundaries) 0 left.actions as) :
    Padded (s.Inserts owner left) 0 left.actions as := by
  rw [← List.map_id left.actions, ← List.map_id as]
  refine h.map id fun n a b hab => ?_
  obtain ⟨ha, hb⟩ := hab
  cases owner with
  | event name =>
    cases hsubj
    exact ⟨⟨name, rfl⟩, (some.inj ha).symm, hb⟩
  | func name =>
    cases hsubj
    contradiction
  | loop => contradiction

lemma blockRows_cases (h : (s.blockRows owner left next).result = .ok (chains, next'))
    (hsubj : Subject.ofOwner? owner = some subject) : (left.actions.length ≤ maxPayload ∧ next' = next
        ∧ ∃ row, (Row.of s.events owner left.actions).result = .ok row ∧ chains = [[row]])
      ∨ (maxPayload < left.actions.length ∧ ∃ rows, (s.splitRows subject owner left next).result = .ok rows
        ∧ (s.withHelpers rows).result = .ok (chains, next')) := by
  rw [blockRows, hsubj, filter_some] at h
  by_cases hlong : maxPayload < left.actions.length
  · simp only [hlong, decide_true, if_true, bind_ok] at h
    obtain ⟨-, -, rows, hrows, h⟩ := h
    exact .inr ⟨hlong, rows, hrows, h⟩
  simp only [hlong, decide_false, Bool.false_eq_true, if_false, bind_ok] at h
  obtain ⟨row, hrow, h⟩ := h
  cases h
  exact .inl ⟨Nat.le_of_not_lt hlong, rfl, row, hrow, rfl⟩

theorem blockRows_ok (h : (s.blockRows owner left next).result = .ok (chains, next'))
    (hsubj : Subject.ofOwner? owner = some subject) (hown : ∀ a ∈ left.actions, callee? a = none)
    (hrec : left.Records 0 fun _ a => callee? a = none) :
    ∃ as, Padded (s.Inserts owner left) 0 left.actions as ∧ s.BlockRows owner as next next' chains := by
  rcases blockRows_cases h hsubj with ⟨hfits, rfl, row, hrow, rfl⟩ | ⟨hlong, rows, hrows, h⟩
  · have hdef := definition_ok hrow
    refine ⟨left.actions, .refl _ _, ?_, ?_, by simp, ?_⟩
    · simpa [hdef] using Outlines.refl next' [(owner, left.actions)]
    · simpa using Row.Sound.of_ok hfits (fun a ha => hown a (by simp [ha])) hrow
    · simpa [Row.definition] using congrArg Prod.fst hdef
  have htidy : Tidy s ⟨owner, left, 0, ⟨[], [], next⟩⟩ :=
    ⟨tight_of_forall hown, fun b _ a ha => hown a (mem_of_getElem? ha), hrec, by simp, by simp⟩
  have hne : left.actions ≠ [] := by
    rintro hnil
    simp [hnil] at hlong
  have hall : left.Records 0 fun n a => ⟨n, some a⟩ ∈ left.boundaries := by
    rintro ⟨n, sel⟩ hb a rfl
    simpa using hb
  obtain ⟨as, hpad, hcov⟩ := splitRows_covers hrows htidy hne hall
  exact ⟨as, padded_inserts hsubj hpad, withHelpers_ok h hcov⟩

lemma blockRows_loop (h : (s.blockRows owner left next).result = .ok (chains, next'))
    (hsubj : Subject.ofOwner? owner = none) : (∃ name ticks, owner = .loop name ticks)
      ∧ ∃ row, (Row.of s.events owner left.actions).result = .ok row ∧ chains = [[row]] ∧ next' = next := by
  cases owner with
  | event _ | func _ => simp [Subject.ofOwner?] at hsubj
  | loop name ticks =>
    rw [blockRows, hsubj, filter_none, bind_ok] at h
    obtain ⟨row, hrow, h⟩ := h
    cases h
    exact ⟨⟨name, ticks, rfl⟩, row, hrow, rfl, rfl⟩

end Setting
end BlockScript.Plan
