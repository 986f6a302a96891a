import BlockScript.Proofs.Rows

/-!
# Splitting and scopes

A list of actions cut only where no scope is open gives rows in which every scope opened is closed. The
boundaries found in a list are such places (`safe_ofActions`), and cutting and shortening keep them so. Where
boundaries were recorded for another list, all rows are balanced iff the places at which the list is cut
happen to stand in no scope (`Setting.blockRows_balanced_iff`).
-/

open List Option
namespace BlockScript.Plan
open Action
open Row

/-! ### Balanced lists -/

section Balanced
variable {a : Action} {as bs pre body body' post : List Action} {d e n : Nat}

/-- Scopes are closed as often as they are opened, and not before. -/
structure Balanced (as : List Action) : Prop where
  total : as.countP closes = as.countP opens
  order : ∀ n, (as.take n).countP closes ≤ (as.take n).countP opens

def Proper (as : List Action) : Prop := ∀ a ∈ as, a.opens → a.closes = false

/-- The action closes a scope: an action that opens one is not taken for a skip. -/
def isEnd (a : Action) : Bool := !a.opens && a.closes

lemma depthAfter_some_iff : depthAfter d as = some e ↔ e + as.countP isEnd = d + as.countP opens
    ∧ ∀ n, (as.take n).countP isEnd ≤ d + (as.take n).countP opens := by
  induction as generalizing d with
  | nil => simp [depthAfter, eq_comm]
  | cons a as ih =>
    have hsucc (P : Nat → Prop) : (∀ n, P n) ↔ P 0 ∧ ∀ n, P (n + 1) :=
      ⟨fun h => ⟨h 0, fun n => h (n + 1)⟩, fun h n => by cases n; exacts [h.1, h.2 _]⟩
    rw [hsucc]
    simp only [depthAfter, countP_cons, take_succ_cons, take_zero, countP_nil, Nat.zero_le, true_and]
    by_cases ho : a.opens
    · simp only [isEnd, ho, if_true, Bool.not_true, Bool.false_and, Bool.false_eq_true, if_false, ih]
      exact and_congr (by omega) (forall_congr' fun n => by omega)
    rw [if_neg ho]
    by_cases hc : a.closes
    · simp only [isEnd, ho, hc, if_true, Bool.not_false, Bool.true_and, Bool.false_eq_true, if_false]
      rcases Nat.eq_zero_or_pos d with rfl | hd
      · simp only [if_true, reduceCtorEq, false_iff, not_and]
        exact fun _ hall => by simpa using hall 0
      rw [if_neg (by omega), ih]
      exact and_congr (by omega) (forall_congr' fun n => by omega)
    · simp [isEnd, ho, hc, ih]

/-- Every scope opened is closed behind it, and no others are closed. -/
def Nests (as : List Action) : Prop :=
  as.countP isEnd = as.countP opens ∧ ∀ n, (as.take n).countP isEnd ≤ (as.take n).countP opens

lemma matched_iff_nests : Matched as ↔ Nests as := by
  simp [Matched, depthAfter_some_iff, Nests]

lemma Proper.countP_isEnd (h : Proper as) : as.countP isEnd = as.countP closes :=
  countP_congr fun a ha => by cases ho : a.opens <;> simp [isEnd, ho, h a ha]

lemma Proper.take (h : Proper as) (n : Nat) : Proper (as.take n) := fun a ha => h a (mem_of_mem_take ha)

/-- For lists without actions that both open and close a scope, matched means balanced. -/
theorem matched_iff_balanced (h : Proper as) : Matched as ↔ Balanced as := by
  rw [matched_iff_nests, Nests, h.countP_isEnd]
  simp only [(h.take _).countP_isEnd]
  exact ⟨fun h => ⟨h.1, h.2⟩, fun h => ⟨h.total, h.order⟩⟩

/-- The action neither opens nor closes a scope. -/
structure Neutral (a : Action) : Prop where
  opens : a.opens = false
  closes : a.closes = false

lemma depthAfter_of_neutral (h : ∀ a ∈ as, Neutral a) : depthAfter d as = some d := by
  induction as with
  | nil => rfl
  | cons a as ih =>
    have ha := h a (by simp)
    rw [depthAfter, if_neg (by simp [ha.opens]), if_neg (by simp [ha.closes]), ih fun b hb => h b (by simp [hb])]

lemma Matched.depthAfter (h : Matched as) (d : Nat) : depthAfter d as = some d := by
  simpa using depthAfter_add h d

/-- A matched list, no action of which both opens and closes a scope. -/
structure Regular (as : List Action) : Prop where
  proper : Proper as
  matched : Matched as

namespace Regular

lemma balanced (h : Regular as) : Balanced as := (matched_iff_balanced h.proper).mp h.matched

lemma of_neutral (h : ∀ a ∈ as, Neutral a) : Regular as :=
  ⟨fun a ha ho => by simp [(h a ha).opens] at ho, depthAfter_of_neutral h⟩

lemma append (h : Regular as) (h' : Regular bs) : Regular (as ++ bs) := by
  refine ⟨fun a ha => (mem_append.mp ha).elim (h.proper a) (h'.proper a), ?_⟩
  rw [Matched, depthAfter_append, h.matched]
  exact h'.matched

lemma drop (h : Regular as) (hn : Matched (as.take n)) : Regular (as.drop n) := by
  refine ⟨fun a ha => h.proper a (mem_of_mem_drop ha), ?_⟩
  have hmt := h.matched
  rw [← take_append_drop n as, Matched, depthAfter_append, hn] at hmt
  exact hmt

lemma take (h : Regular as) (hn : Matched (as.take n)) : Regular (as.take n) :=
  ⟨fun a ha => h.proper a (mem_of_mem_take ha), hn⟩

lemma replace (h : Regular (pre ++ (body ++ post))) (hm : Matched body) (h' : Regular body') :
    Regular (pre ++ (body' ++ post)) := by
  refine ⟨fun a ha => ?_, ?_⟩
  · rcases mem_append.mp ha with ha | ha
    · exact h.proper a (by simp [ha])
    rcases mem_append.mp ha with ha | ha
    · exact h'.proper a ha
    · exact h.proper a (by simp [ha])
  have hmt := h.matched
  rw [Matched, depthAfter_append] at hmt ⊢
  rw [← hmt]
  refine congrArg _ (funext fun e => ?_)
  rw [depthAfter_append, depthAfter_append, hm.depthAfter, h'.matched.depthAfter]

end Regular
end Balanced

/-! ### Boundaries outside scopes -/

/-- No scope is open at a boundary. -/
def Remaining.Safe (r : Remaining) : Prop := ∀ b ∈ r.boundaries, Matched (r.actions.take b.pos)

lemma countP_boundary {as : List Action} {n d : Nat} {b : Boundary} (hb : b ∈ boundariesFrom n d as) :
    ∃ k, b.pos = n + k
    ∧ d + (as.take k).countP opens ≤ (as.take k).countP closes
    ∧ ∀ s, s <:+ as.take k → s.countP opens ≤ s.countP closes := by
  induction as generalizing n d with
  | nil => simp [boundariesFrom] at hb
  | cons a as ih =>
    rcases mem_boundariesFrom_cons hb with ⟨rfl, rfl, ho⟩ | ⟨d', hb, hd⟩
    · refine ⟨1, rfl, by simp [ho], fun s hs => ?_⟩
      rcases suffix_cons_iff.mp hs with rfl | hs <;> simp_all
    obtain ⟨k, hk, hwh, hends⟩ := ih hb
    have hcons : d + ((a :: as).take (k + 1)).countP opens ≤ ((a :: as).take (k + 1)).countP closes := by
      rw [take_succ_cons, countP_cons, countP_cons]
      omega
    refine ⟨k + 1, by omega, hcons, fun s hs => ?_⟩
    rcases suffix_cons_iff.mp hs with rfl | hs
    · exact (Nat.le_add_left _ d).trans hcons
    · exact hends s hs

lemma depthAfter_boundary {as : List Action} {n d e : Nat} {b : Boundary} (h : Proper as)
    (hd : depthAfter d as = some e)
    (hb : b ∈ boundariesFrom n d as) : ∃ k, b.pos = n + k ∧ depthAfter d (as.take k) = some 0 := by
  obtain ⟨k, hk, hwh, -⟩ := countP_boundary hb
  rw [← take_append_drop k as, depthAfter_append] at hd
  obtain ⟨e', htake, -⟩ := bind_eq_some_iff.mp hd
  have hcnt := (depthAfter_some_iff.mp htake).1
  rw [(h.take k).countP_isEnd] at hcnt
  obtain rfl : e' = 0 := by omega
  exact ⟨k, hk, htake⟩

theorem safe_ofActions {as : List Action} (h : Regular as) : (Remaining.ofActions as).Safe := by
  intro b hb
  obtain ⟨k, hk, htake⟩ := depthAfter_boundary h.proper h.matched hb
  rw [hk, Nat.zero_add]
  exact htake

/-! ### Steps keep rows balanced -/

/-- What splitting inserts neither opens nor closes scopes. -/
structure Setting.Quiet (s : Setting) : Prop where
  player : Neutral s.defaultPlayer
  calls : ∀ k a, (s.callHelper (helperName k)).result = .ok a → Neutral a

/-- A row that fits and has an entry for each of its actions. -/
structure Row.Whole (s : Setting) (r : Row) : Prop where
  fits : r.actions.length ≤ maxPayload
  entries : ∃ header, r.owner.header s.events = .ok header ∧ r.entries = header :: r.actions.map Entry.ofAction

structure Chain.Whole (s : Setting) (c : Chain) : Prop where
  nonempty : c ≠ []
  rows : ∀ r ∈ c, r.Whole s

lemma whole_of_flatten {s : Setting} {cs : List Chain} (h : ∀ c ∈ cs, c.Whole s) : ∀ r ∈ cs.flatten, r.Whole s := by
  intro r hr
  obtain ⟨c, hc, hr⟩ := mem_flatten.mp hr
  exact (h c hc).rows r hr

/-- What every step keeps if cuts are made where no scope is open. -/
structure Closed (s : Setting) (st : SplitState) : Prop where
  left : Regular st.left.actions
  safe : st.left.Safe
  records : st.left.Records 0 fun _ a => Neutral a
  rows : ∀ r ∈ st.rows.chain, Regular r.actions
  helpers : ∀ h ∈ st.rows.helpers, Regular h.actions

section Steps
variable {s : Setting} {subject : Subject} {st st' : SplitState} {c : Cut} {r : Remaining} {call : Action}

lemma Regular.row (hs : s.Quiet) (hr : Regular r.actions) (hc : Matched (r.actions.take c.pos)) (hcall : Neutral call) :
    Regular (c.row (s.restored subject) r ++ [call]) := by
  have hdef : ∀ a ∈ (s.restored subject).toList, Neutral a := by
    intro a ha
    rw [Setting.restored] at ha
    split at ha
    · exact (mem_singleton.mp ha) ▸ hs.player
    · simp at ha
  have hpad : ∀ a ∈ (if c.restore.isSome then (s.restored subject).toList else []), Neutral a := by
    split
    · exact hdef
    · simp
  refine ((hr.take hc).append (.of_neutral hpad)).append (.of_neutral ?_)
  simpa using hcall

lemma Regular.rest (hr : Regular r.actions) (hc : Matched (r.actions.take c.pos))
    (hres : ∀ a ∈ c.restore, Neutral a) : Regular (c.rest r).actions := by
  rw [Cut.actions_rest]
  exact (of_neutral fun a ha => hres a (by simpa using ha)).append (hr.drop hc)

lemma Remaining.Safe.rest (hr : Regular r.actions) (hsafe : r.Safe) (hc : Matched (r.actions.take c.pos))
    (hres : ∀ a ∈ c.restore, Neutral a) : (c.rest r).Safe := by
  have hfr : Regular c.restore.toList := .of_neutral fun a ha => hres a (by simpa using ha)
  intro b hb
  rw [Cut.actions_rest]
  rcases mem_boundaries_rest hb with ⟨a, ha, rfl⟩ | ⟨b', hb', hlt, rfl⟩
  · rw [ha] at hfr ⊢
    exact hfr.matched
  have htake := (hr.take (hsafe b' hb')).drop (n := c.pos) (by rwa [take_take, Nat.min_eq_left (by omega)])
  rw [Nat.add_comm, take_length_add_append, take_drop, Nat.add_sub_cancel' (by omega)]
  exact (hfr.append htake).matched

lemma Closed.extract {x : Extraction} (hs : s.Quiet) (hleft : Regular st.left.actions)
    (hrows : ∀ r ∈ st.rows.chain, Regular r.actions) (hhlp : ∀ h ∈ st.rows.helpers, Regular h.actions)
    (hcall : (s.callHelper (helperName (s.helperNumber st))).result = .ok call)
    (hx : extract? rowSize call st.left.actions = some x) : Closed s ⟨st.owner, .ofActions x.rest, st.count,
      ⟨st.rows.chain, ⟨helperName (s.helperNumber st), x.body⟩ :: st.rows.helpers, s.helperNumber st + 1⟩⟩ := by
  obtain ⟨pre, o, k, post, heq, hrest, -, -, -, hm, -⟩ := extract?_some hx
  rw [heq, append_cons] at hleft
  have haft : Regular x.rest := by
    have hreplaced := hleft.replace hm (.of_neutral (by simpa using hs.calls _ _ hcall) : Regular [call])
    rw [hrest, append_cons]
    exact hreplaced
  have hbody : Regular x.body := ⟨fun a ha => hleft.proper a (by simp [ha]), hm⟩
  exact ⟨haft, safe_ofActions haft, records_ofActions _ _ _, hrows, forall_mem_cons.mpr ⟨hbody, hhlp⟩⟩

/-- Cutting where no scope is open keeps everything balanced, and shortening a scope does so too. -/
theorem Setting.Step.closed (hs : s.Quiet) (h : s.Step subject st st') (hst : Closed s st) : Closed s st' := by
  cases h with
  | cut c call row long last calls row_eq =>
    have place := lastCut?_mem last
    obtain ⟨⟨b, hb, hc⟩, -⟩ := mem_cuts.mp place
    have hmt : Matched (st.left.actions.take c.pos) := by
      rw [hc]
      exact hst.safe b hb
    have hres : ∀ a ∈ c.restore, Neutral a := fun a ha => hst.records.restore place ha
    refine ⟨hst.left.rest hmt hres, hst.safe.rest hst.left hmt hres, hst.records.rest place,
      forall_mem_append.mpr ⟨hst.rows, forall_mem_singleton.mpr ?_⟩, hst.helpers⟩
    rw [actions_of_ok row_eq]
    exact hst.left.row hs hmt (hs.calls _ _ calls)
  | extract call x long stuck calls body => exact .extract hs hst.left hst.rows hst.helpers calls body

lemma Setting.Steps.chain_subset (h : s.Steps subject st st') : ∀ r ∈ st.rows.chain, r ∈ st'.rows.chain := by
  refine fun r hr => h.keeps (p := fun st => r ∈ st.rows.chain) hr fun hstep ih => ?_
  cases hstep with
  | cut => exact mem_append_left _ ih
  | extract => exact ih

end Steps

/-! ### Rows of blocks -/

namespace Setting
variable {s : Setting} {subject : Subject} {owner : Owner} {left : Remaining} {next next' : Nat} {rows : Rows}
  {chains : List Chain}

lemma splitRows_closed (hs : s.Quiet) (h : (s.splitRows subject owner left next).result = .ok rows)
    (hst : Closed s ⟨owner, left, 0, ⟨[], [], next⟩⟩) :
    (∀ r ∈ rows.chain, Regular r.actions) ∧ ∀ h ∈ rows.helpers, Regular h.actions := by
  obtain ⟨st, row, hsts, -, hrow, rfl⟩ := splitRows_ok h
  have hcld := hsts.keeps hst (Step.closed hs)
  refine ⟨forall_mem_append.mpr ⟨hcld.rows, forall_mem_singleton.mpr ?_⟩, hcld.helpers⟩
  rw [actions_of_ok hrow]
  exact hcld.left

lemma helperRows_closed {h : Helper} (hs : s.Quiet) (hh : Regular h.actions)
    (hrows : (s.helperRows h next).result = .ok rows) :
    (∀ r ∈ rows.chain, Regular r.actions) ∧ ∀ h ∈ rows.helpers, Regular h.actions := by
  rcases helperRows_cases hrows with ⟨-, row, hrow, rfl⟩ | ⟨-, hrows⟩
  · exact ⟨by simpa [actions_of_ok hrow] using hh, by simp⟩
  · exact splitRows_closed hs hrows ⟨hh, safe_ofActions hh, records_ofActions _ _ _, by simp, by simp⟩

theorem withHelpers_closed (hs : s.Quiet) (h : (s.withHelpers rows).result = .ok (chains, next'))
    (hch : ∀ r ∈ rows.chain, Regular r.actions) (hhlp : ∀ h ∈ rows.helpers, Regular h.actions) :
    ∀ r ∈ chains.flatten, Regular r.actions :=
  forall_mem_flatten.mpr (withHelpers_forall h hch hhlp (helperRows_closed hs))

end Setting

/-! ### Cut places -/

namespace Remaining
variable {full left : Remaining} {o b : Nat} {c : Cut}

/-- A row that begins behind `o` actions may end behind `b` of them: there is a boundary, and room for a call. -/
structure MayEnd (r : Remaining) (o b : Nat) : Prop where
  recorded : b ∈ r.boundaries.map Boundary.pos
  behind : o < b
  inside : b < r.actions.length
  fits : b - o + 1 ≤ maxPayload

/-- What begins behind `o` actions does not fit into a row, and its first row ends behind `b` actions. -/
structure NextCut (r : Remaining) (o b : Nat) : Prop where
  long : maxPayload < r.actions.length - o
  place : r.MayEnd o b
  last : ∀ b', r.MayEnd o b' → b' ≤ b

/-- The list is cut behind `n` actions (or begins there), before any scope is shortened. -/
def CutAt (r : Remaining) (n : Nat) : Prop := Relation.ReflTransGen r.NextCut 0 n

lemma NextCut.unique {b' : Nat} (h : full.NextCut o b) (h' : full.NextCut o b') : b = b' :=
  Nat.le_antisymm (h'.last b h.place) (h.last b' h'.place)

/-- What is left behind `o` actions, with the boundaries there. -/
structure Behind (full : Remaining) (o : Nat) (left : Remaining) : Prop where
  actions : left.actions = full.actions.drop o
  places : ∀ b, 0 < b → (b ∈ left.boundaries.map Boundary.pos ↔ o + b ∈ full.boundaries.map Boundary.pos)

lemma Behind.refl (full : Remaining) : full.Behind 0 full := ⟨by simp, by simp⟩

lemma Behind.mayEnd_iff (h : full.Behind o left) : full.MayEnd o (o + b) ↔ ⟨b, none⟩ ∈ cuts none left := by
  have hlen : left.actions.length = full.actions.length - o := by rw [h.actions, length_drop]
  rw [mem_cuts]
  simp only [bind_none, Cut.mk.injEq, and_true, Cut.extra, isSome_none, Bool.false_eq_true, if_false, hlen]
  constructor
  · rintro ⟨hrec, hbeh, hins, hfits⟩
    obtain ⟨bd, hbd, hpos⟩ := List.mem_map.mp ((h.places b (by omega)).mpr hrec)
    exact ⟨⟨bd, hbd, hpos.symm⟩, by omega, by omega, by omega⟩
  rintro ⟨⟨bd, hbd, rfl⟩, hpos, hlt, hle⟩
  exact ⟨(h.places bd.pos hpos).mp (List.mem_map_of_mem hbd), by omega, by omega, by omega⟩

lemma restore_of_cuts (h : c ∈ cuts none left) : c = ⟨c.pos, none⟩ := by
  obtain ⟨⟨bd, -, rfl⟩, -⟩ := mem_cuts.mp h
  rfl

lemma Behind.nextCut (h : full.Behind o left) (hlong : maxPayload < left.actions.length)
    (hc : lastCut? (cuts none left) = some c) : full.NextCut o (o + c.pos) ∧ full.Behind (o + c.pos) (c.rest left) := by
  have hmem := lastCut?_mem hc
  have hres := restore_of_cuts hmem
  have hlen : left.actions.length = full.actions.length - o := by rw [h.actions, length_drop]
  refine ⟨⟨by omega, h.mayEnd_iff.mpr (hres ▸ hmem), fun b' hb' => ?_⟩, ?_, fun b hb => ?_⟩
  · obtain ⟨k, rfl⟩ := Nat.exists_eq_add_of_lt hb'.behind
    rw [Nat.add_assoc] at hb'
    have := pos_le_lastCut? hc (h.mayEnd_iff.mp hb')
    dsimp only at this
    omega
  · rw [Cut.actions_rest, hres, h.actions]
    simp
  have hmore : b ∈ (c.rest left).boundaries.map Boundary.pos ↔ c.pos + b ∈ left.boundaries.map Boundary.pos := by
    rw [hres, Cut.rest]
    simp only [List.map_map, List.mem_map, mem_filter, decide_eq_true_eq, Function.comp_apply]
    constructor
    · rintro ⟨bd, ⟨hbd, hlt⟩, rfl⟩
      exact ⟨bd, hbd, by omega⟩
    rintro ⟨bd, hbd, heq⟩
    exact ⟨bd, ⟨hbd, by omega⟩, by omega⟩
  rw [hmore, h.places _ (by omega), Nat.add_assoc]

lemma Behind.not_nextCut (h : full.Behind o left) (hc : lastCut? (cuts none left) = none) : ¬ full.NextCut o b := by
  intro hnext
  obtain ⟨k, rfl⟩ := Nat.exists_eq_add_of_lt hnext.place.behind
  have hplc := hnext.place
  rw [Nat.add_assoc, h.mayEnd_iff, lastCut?_none hc] at hplc
  simp at hplc

end Remaining
namespace Setting.Steps
variable {s : Setting} {subject : Subject} {st st' : SplitState} {full : Remaining} {o : Nat}

lemma matched_take_add {as : List Action} {k : Nat} (h : Matched (as.take o)) :
    Matched (as.take (o + k)) ↔ Matched ((as.drop o).take k) := by
  rw [take_add, Matched, depthAfter_append, h]
  rfl

lemma row_eq_take {c : Cut} {left : Remaining} (hnone : s.restored subject = none) (call : Action) :
    c.row (s.restored subject) left ++ [call] = left.actions.take c.pos ++ [call] := by
  rw [hnone, Cut.row]
  simp

-- up to the first scope that is shortened, what is left is what stands behind a cut place
/-- Rows are balanced if all cut places stand in no scope. -/
theorem regular_of_cutAt (hs : s.Quiet) (hnone : s.restored subject = none) (h : s.Steps subject st st')
    (hfull : Regular full.actions) (hleft : full.Behind o st.left)
    (hcuts : ∀ b, Relation.ReflTransGen full.NextCut o b → Matched (full.actions.take b))
    (hrows : ∀ r ∈ st.rows.chain, Regular r.actions) (hhlp : ∀ h ∈ st.rows.helpers, Regular h.actions) :
    Regular st'.left.actions ∧ (∀ r ∈ st'.rows.chain, Regular r.actions) ∧ ∀ h ∈ st'.rows.helpers,
      Regular h.actions := by
  induction h using Relation.ReflTransGen.head_induction_on generalizing o with
  | refl =>
    rw [hleft.actions]
    exact ⟨hfull.drop (hcuts o .refl), hrows, hhlp⟩
  | @head st st₁ hstep hsts ih =>
    have ho := hcuts o .refl
    have hreg : Regular st.left.actions := hleft.actions ▸ hfull.drop ho
    cases hstep with
    | cut c call row long last calls row_eq =>
      obtain ⟨hnext, hrest⟩ := hleft.nextCut long (hnone ▸ last)
      have hmt : Matched (st.left.actions.take c.pos) := by
        rw [hleft.actions, ← matched_take_add ho]
        exact hcuts _ (.single hnext)
      refine ih hrest (fun b hb => hcuts b (.head hnext hb))
        (forall_mem_append.mpr ⟨hrows, forall_mem_singleton.mpr ?_⟩) hhlp
      rw [actions_of_ok row_eq]
      exact hreg.row hs hmt (hs.calls _ _ calls)
    | extract call x long stuck calls body =>
      have hcld := keeps hsts (.extract hs hreg hrows hhlp calls body) (Step.closed hs)
      exact ⟨hcld.left, hcld.rows, hcld.helpers⟩

/-- If all rows are balanced, all cut places stand in no scope. -/
theorem matched_of_balanced (hs : s.Quiet) (hnone : s.restored subject = none) (h : s.Steps subject st st')
    (hfits : st'.left.actions.length ≤ maxPayload) (hfull : Proper full.actions) (hleft : full.Behind o st.left)
    (ho : Matched (full.actions.take o)) (hrows : ∀ r ∈ st'.rows.chain, Balanced r.actions) {b : Nat}
    (hb : Relation.ReflTransGen full.NextCut o b) : Matched (full.actions.take b) := by
  induction h using Relation.ReflTransGen.head_induction_on generalizing o with
  | refl =>
    rcases hb.cases_head with rfl | ⟨b', hnext, -⟩
    · exact ho
    have := hnext.long
    rw [hleft.actions, length_drop] at hfits
    omega
  | @head st st₁ hstep hsts ih =>
    rcases hb.cases_head with rfl | ⟨b', hnext', hb⟩
    · exact ho
    cases hstep with
    | cut c call row long last calls row_eq =>
      obtain ⟨hnext, hrest⟩ := hleft.nextCut long (hnone ▸ last)
      obtain rfl := hnext'.unique hnext
      refine ih hrest ?_ hb
      rw [row_eq_take hnone] at row_eq
      have hrow : row.actions = st.left.actions.take c.pos ++ [call] :=
        actions_of_ok row_eq
      have hcall := hs.calls _ _ calls
      have hprop : Proper (st.left.actions.take c.pos ++ [call]) := by
        refine forall_mem_append.mpr ⟨fun a ha => ?_, by simp [hcall.opens]⟩
        exact hfull a (mem_of_mem_drop (hleft.actions ▸ mem_of_mem_take ha))
      have hbal := hrows row (chain_subset hsts row (by simp))
      rw [hrow, ← matched_iff_balanced hprop, Matched, depthAfter_append] at hbal
      obtain ⟨d, hd, hlast⟩ := bind_eq_some_iff.mp hbal
      rw [depthAfter_of_neutral (by simpa using hcall)] at hlast
      cases hlast
      rw [matched_take_add ho, ← hleft.actions]
      exact hd
    | extract call x long stuck calls body => exact absurd hnext' (hleft.not_nextCut (hnone ▸ stuck))

end Setting.Steps
namespace Setting
variable {s : Setting} {owner : Owner} {left : Remaining} {next next' : Nat} {chains : List Chain} {name : Text}

lemma balanced_take_of_cutAt {n : Nat} (h : Regular left.actions) :
    Matched (left.actions.take n) ↔ Balanced (left.actions.take n) :=
  matched_iff_balanced fun a ha => h.proper a (mem_of_mem_take ha)

/-- The rows of a function are balanced iff all places at which it is cut, before any of its scopes is
shortened, stand in no scope. -/
theorem blockRows_balanced_iff (hs : s.Quiet) (h : (s.blockRows (.func name) left next).result = .ok (chains, next'))
    (hleft : Regular left.actions) :
    (∀ r ∈ chains.flatten, Balanced r.actions) ↔ ∀ n, left.CutAt n → Balanced (left.actions.take n) := by
  simp only [← balanced_take_of_cutAt hleft]
  rcases blockRows_cases h rfl with ⟨hfits, -, row, hrow, rfl⟩ | ⟨-, rows, hrows, h⟩
  · have hrow' : row.actions = left.actions := actions_of_ok hrow
    refine iff_of_true ?_ fun n hn => ?_
    · simpa [hrow'] using hleft.balanced
    rcases hn.cases_head with rfl | ⟨b, hnext, -⟩
    · rfl
    have := hnext.long
    omega
  obtain ⟨st, row, hsts, hfits, hrow, rfl⟩ := splitRows_ok hrows
  have hrow' : row.actions = st.left.actions := actions_of_ok hrow
  constructor
  · intro hbal n hn
    obtain ⟨more, -, rfl⟩ := withHelpers_run h
    refine hsts.matched_of_balanced hs rfl hfits hleft.proper (.refl left) rfl (fun r hr => hbal r ?_) hn
    simp [hr]
  intro hcuts r hr
  obtain ⟨hlast, hch, hhlp⟩ := hsts.regular_of_cutAt hs rfl hleft (.refl left) hcuts (by simp) (by simp)
  have hrows := forall_mem_append.mpr ⟨hch, forall_mem_singleton.mpr (hrow'.symm ▸ hlast)⟩
  exact (withHelpers_closed hs h hrows hhlp r hr).balanced

/-- The rows of an event or a function are balanced if no scope is open at its boundaries. -/
theorem blockRows_balanced {subject : Subject} (hs : s.Quiet)
    (h : (s.blockRows owner left next).result = .ok (chains, next')) (hsubj : Subject.ofOwner? owner = some subject)
    (hleft : Regular left.actions) (hsafe : left.Safe) (hrec : left.Records 0 fun _ a => Neutral a) :
    ∀ r ∈ chains.flatten, Balanced r.actions := by
  rcases blockRows_cases h hsubj with ⟨-, -, row, hrow, rfl⟩ | ⟨-, rows, hrows, h⟩
  · have hrow' : row.actions = left.actions := actions_of_ok hrow
    simpa [hrow'] using hleft.balanced
  obtain ⟨hch, hhlp⟩ := splitRows_closed hs hrows ⟨hleft, hsafe, hrec, by simp, by simp⟩
  exact fun r hr => (withHelpers_closed hs h hch hhlp r hr).balanced

lemma balanced_of_cutAt {n : Nat} (hleft : Regular left.actions) (hsafe : left.Safe) (hn : left.CutAt n) :
    Balanced (left.actions.take n) := by
  rw [← balanced_take_of_cutAt hleft]
  rcases hn.cases_tail with rfl | ⟨o, -, hnext⟩
  · rfl
  obtain ⟨b, hb, rfl⟩ := List.mem_map.mp hnext.place.recorded
  exact hsafe b hb

/-! ### Entries of rows -/

section Whole
variable {subject : Subject} {rows : Rows}

lemma whole_of_ok {as : List Action} {row : Row} (hlen : as.length ≤ maxPayload)
    (h : (Row.of s.events owner as).result = .ok row) : row.Whole s := by
  obtain ⟨header, hhdr, rfl⟩ := of_ok hlen h
  exact ⟨hlen, header, hhdr, rfl⟩

lemma whole_singleton {row : Row} (h : row.Whole s) : Chain.Whole s [row] :=
  ⟨by simp, by simpa using h⟩

lemma splitRows_whole (h : (s.splitRows subject owner left next).result = .ok rows) : rows.chain.Whole s := by
  obtain ⟨st, row, hsts, hfits, hrow, rfl⟩ := splitRows_ok h
  have hch : ∀ r ∈ st.rows.chain, r.Whole s := by
    refine hsts.keeps (p := fun st => ∀ r ∈ st.rows.chain, r.Whole s) (by simp) fun hstep ih => ?_
    cases hstep with
    | cut c call row long last calls row_eq =>
      have hrow := whole_of_ok (length_row_le (lastCut?_mem last) call) row_eq
      exact forall_mem_append.mpr ⟨ih, forall_mem_singleton.mpr hrow⟩
    | extract => exact ih
  have hlast := whole_of_ok hfits hrow
  exact ⟨by simp, forall_mem_append.mpr ⟨hch, forall_mem_singleton.mpr hlast⟩⟩

lemma helperRows_whole {h : Helper} (hrows : (s.helperRows h next).result = .ok rows) : rows.chain.Whole s := by
  rcases helperRows_cases hrows with ⟨hfits, row, hrow, rfl⟩ | ⟨-, hrows⟩
  · exact whole_singleton (whole_of_ok hfits hrow)
  · exact splitRows_whole hrows

/-- The rows of an event or a function fit and have an entry for each action. -/
theorem blockRows_whole (h : (s.blockRows owner left next).result = .ok (chains, next'))
    (hsubj : Subject.ofOwner? owner = some subject) : chains ≠ [] ∧ ∀ c ∈ chains, c.Whole s := by
  rcases blockRows_cases h hsubj with ⟨hfits, -, row, hrow, rfl⟩ | ⟨-, rows, hrows, h⟩
  · exact ⟨by simp, by simpa using whole_singleton (whole_of_ok hfits hrow)⟩
  obtain ⟨more, -, hchs⟩ := withHelpers_run h
  exact ⟨by simp [hchs], withHelpers_forall (p := fun _ => True) h (splitRows_whole hrows) (by simp) fun _ h =>
    ⟨helperRows_whole h, by simp⟩⟩

end Whole
end Setting
end BlockScript.Plan
