import BlockScript.Proofs.Splitting

/-!
# Calls unfolded

A list of actions, some of which call functions, *unfolds* to the list in which every such call is replaced by what the
function's own list unfolds to. Moving a part of a list into a new function and calling it there changes nothing about
what lists unfold to (`Outlines.unfolds`); splitting a block does just that, again and again.
-/

open List Option
namespace BlockScript
open Text
namespace Plan

/-! ### Unfolding -/

section Unfolds
variable {α β : Type} {callee : α → Option Text} {defs defs' : Text → List α → Prop} {a : α}
  {as bs us us' vs ws : List α}

/-- A list unfolds to another: every call is replaced by what the body of the function unfolds to. `callee` tells
calls, and `defs` relates names to bodies. -/
inductive Unfolds (callee : α → Option Text) (defs : Text → List α → Prop) : List α → List α → Prop
  | nil : Unfolds callee defs [] []
  | keep {a : α} {as us : List α} (h : callee a = none) (rest : Unfolds callee defs as us) :
    Unfolds callee defs (a :: as) (a :: us)
  | call {a : α} {name : Text} {body vs as us : List α} (h : callee a = some name) (def_ : defs name body)
      (inner : Unfolds callee defs body vs) (rest : Unfolds callee defs as us) :
    Unfolds callee defs (a :: as) (vs ++ us)

namespace Unfolds

lemma of_forall (h : ∀ a ∈ as, callee a = none) : Unfolds callee defs as as := by
  induction as with
  | nil => exact .nil
  | cons a as ih => exact .keep (h a (by simp)) (ih fun b hb => h b (by simp [hb]))

lemma append (h : Unfolds callee defs as us) (h' : Unfolds callee defs bs vs) :
    Unfolds callee defs (as ++ bs) (us ++ vs) := by
  induction h with
  | nil => exact h'
  | keep hc _ ih => exact .keep hc ih
  | call hc hd inner _ _ ih =>
    rw [append_assoc]
    exact .call hc hd inner ih

lemma of_append (h : Unfolds callee defs (as ++ bs) ws) :
    ∃ us vs, ws = us ++ vs ∧ Unfolds callee defs as us ∧ Unfolds callee defs bs vs := by
  induction as generalizing ws with
  | nil => exact ⟨[], ws, rfl, .nil, h⟩
  | cons a as ih =>
    cases h with
    | keep hc rest =>
      obtain ⟨us, vs, rfl, hus, hvs⟩ := ih rest
      exact ⟨a :: us, vs, rfl, .keep hc hus, hvs⟩
    | call hc hd inner rest =>
      obtain ⟨us, vs, rfl, hus, hvs⟩ := ih rest
      exact ⟨_ ++ us, vs, by simp, .call hc hd inner hus, hvs⟩

variable {name : Text}

lemma outline {body : List α} (hc : callee a = some name) (hd : defs name body)
    (h : Unfolds callee defs (as ++ (body ++ bs)) us) : Unfolds callee defs (as ++ a :: bs) us := by
  obtain ⟨us, ws, rfl, has, h⟩ := h.of_append
  obtain ⟨vs, ws, rfl, hbd, hbs⟩ := h.of_append
  exact has.append (.call hc hd hbd hbs)

lemma exists_def (h : Unfolds callee defs as us) (ha : a ∈ as) (hc : callee a = some name) :
    ∃ body, defs name body := by
  induction h with
  | nil => simp at ha
  | keep hk _ ih =>
    rcases mem_cons.mp ha with rfl | ha
    · rw [hc] at hk
      contradiction
    · exact ih ha
  | call hk hd _ _ _ ih =>
    rcases mem_cons.mp ha with rfl | ha
    · rw [hc] at hk
      cases hk
      exact ⟨_, hd⟩
    · exact ih ha

lemma unique (hdefs : ∀ a name body body', callee a = some name → defs name body → defs name body' → body = body')
    (h : Unfolds callee defs as us) (h' : Unfolds callee defs as us') : us = us' := by
  induction h generalizing us' with
  | nil => cases h'; rfl
  | keep hc _ ih =>
    cases h' with
    | keep _ rest => rw [ih rest]
    | call hc' => simp [hc] at hc'
  | call hc hd _ _ ihBody ih =>
    cases h' with
    | keep hc' => simp [hc] at hc'
    | call hc' hd' inner rest =>
      obtain rfl := some.inj (hc.symm.trans hc')
      obtain rfl := hdefs _ _ _ _ hc hd hd'
      rw [ihBody inner, ih rest]

lemma map {callee' : β → Option Text} {defs' : Text → List β → Prop} (f : α → β)
    (hcle : ∀ a, callee' (f a) = callee a) (hdefs : ∀ name body, defs name body → defs' name (body.map f))
    (h : Unfolds callee defs as us) : Unfolds callee' defs' (as.map f) (us.map f) := by
  induction h with
  | nil => exact .nil
  | keep hc _ ih => exact .keep (by rw [hcle, hc]) ih
  | call hc hd _ _ ihBody ih =>
    rw [map_append]
    exact .call (by rw [hcle, hc]) (hdefs _ _ hd) ihBody ih

lemma mono (hdefs : ∀ name body, defs name body → defs' name body) (h : Unfolds callee defs as us) :
    Unfolds callee defs' as us := by
  simpa using h.map id (fun _ => rfl) (by simpa using hdefs)

end Unfolds
end Unfolds

/-! ### Insertions -/

section Padded
variable {α β : Type} {pair : Nat → α → α → Prop} {n : Nat} {as bs cs ds : List α}

/-- A list with pairs inserted into it. What may be inserted depends on the place; the list begins at place `n`. -/
inductive Padded (pair : Nat → α → α → Prop) : Nat → List α → List α → Prop
  | nil {n : Nat} : Padded pair n [] []
  | keep {n : Nat} (a : α) {as bs : List α} (rest : Padded pair (n + 1) as bs) : Padded pair n (a :: as) (a :: bs)
  | insert {n : Nat} {a b : α} {as bs : List α} (h : pair n a b) (rest : Padded pair n as bs) :
    Padded pair n as (a :: b :: bs)

namespace Padded

lemma refl (n : Nat) (as : List α) : Padded pair n as as := by
  induction as generalizing n with
  | nil => exact .nil
  | cons a as ih => exact .keep a (ih (n + 1))

lemma append_left (as : List α) (h : Padded pair (n + as.length) bs cs) : Padded pair n (as ++ bs) (as ++ cs) := by
  induction as generalizing n with
  | nil => exact h
  | cons a as ih =>
    refine .keep a (ih ?_)
    rwa [length_cons, Nat.add_comm as.length, ← Nat.add_assoc] at h

lemma mem {b : α} (h : Padded pair n as bs) (hb : b ∈ bs) : b ∈ as ∨ ∃ k c d, pair k c d ∧ (b = c ∨ b = d) := by
  induction h with
  | nil => exact .inl hb
  | keep a _ ih =>
    rcases mem_cons.mp hb with rfl | hb
    · exact .inl (by simp)
    · exact (ih hb).imp_left (mem_cons_of_mem a)
  | insert hp _ ih =>
    rcases mem_cons.mp hb with rfl | hb
    · exact .inr ⟨_, _, _, hp, .inl rfl⟩
    rcases mem_cons.mp hb with rfl | hb
    · exact .inr ⟨_, _, _, hp, .inr rfl⟩
    · exact ih hb

lemma eq_of_forall_not (hp : ∀ n a b, ¬ pair n a b) (h : Padded pair n as bs) : bs = as := by
  induction h with
  | nil => rfl
  | keep a _ ih => rw [ih]
  | insert h => exact absurd h (hp _ _ _)

lemma map {pair' : Nat → β → β → Prop} (f : α → β) (hp : ∀ n a b, pair n a b → pair' n (f a) (f b))
    (h : Padded pair n as bs) : Padded pair' n (as.map f) (bs.map f) := by
  induction h with
  | nil => exact .nil
  | keep a _ ih => exact .keep (f a) ih
  | insert h _ ih => exact .insert (hp _ _ _ h) ih

end Padded

/-- A list with pairs inserted into it, but not before it. -/
def PaddedBehind (pair : Nat → α → α → Prop) (n : Nat) (as bs : List α) : Prop :=
  ∃ a cs ds, as = a :: cs ∧ bs = a :: ds ∧ Padded pair (n + 1) cs ds

lemma PaddedBehind.padded (h : PaddedBehind pair n as bs) : Padded pair n as bs := by
  obtain ⟨a, cs, ds, rfl, rfl, h⟩ := h
  exact .keep a h

lemma PaddedBehind.refl (n : Nat) (hne : as ≠ []) : PaddedBehind pair n as as := by
  cases as with
  | nil => contradiction
  | cons a as => exact ⟨a, as, as, rfl, rfl, .refl _ as⟩

lemma Padded.behind (hne : as ≠ []) (h : Padded pair (n + as.length) bs cs) :
    PaddedBehind pair n (as ++ bs) (as ++ cs) := by
  cases as with
  | nil => contradiction
  | cons a as =>
    refine ⟨a, as ++ bs, as ++ cs, rfl, rfl, .append_left as ?_⟩
    rwa [length_cons, Nat.add_comm as.length, ← Nat.add_assoc] at h

end Padded

/-! ### Moving parts into functions -/

end Plan
namespace Entry

/-- The helper that an action calls. -/
def callee? (e : Entry) : Option Text :=
  (e.args.bind (Text.between? "slot(13)=text(" ")")).filter fun name => Text.startsWith name Plan.helperStem

end Entry
namespace Plan

def callee? (a : Action) : Option Text := (Entry.ofAction a).callee?

lemma callArgs_eq (name : Text) : callArgs name = "slot(13)=text(" ++ (name ++ ")") := by
  change "slot(13)=" ++ Value.wrap "text" name = _
  simp [Value.wrap]

lemma callee?_of_args {a : Action} {n : Nat} (h : a.args = callArgs (helperName n)) :
    callee? a = some (helperName n) := by
  have hne : a.args.isEmpty = false := by rw [h]; rfl
  rw [callee?, Entry.callee?, Entry.ofAction, hne]
  simp only [Bool.false_eq_true, if_false, bind_some]
  rw [h, callArgs_eq, between?_append, filter_some]
  exact if_pos (by simp [startsWith, helperName])

/-- A function, a block or a helper: what it belongs to, and its actions. -/
abbrev Definition := Owner × List Action

def bodies (ds : List Definition) (name : Text) (body : List Action) : Prop := (.func name, body) ∈ ds

/-- Parts of definitions are moved into new functions. A number counts up the names used. -/
inductive Outlines (s : Setting) : Nat → List Definition → Nat → List Definition → Prop
  | perm {n : Nat} {ds ds' : List Definition} (h : ds.Perm ds') : Outlines s n ds n ds'
  | outline {n k : Nat} {call : Action} (hk : n ≤ k) (hcall : (s.callHelper (helperName k)).result = .ok call)
      (o : Owner) (as body bs : List Action) (ds : List Definition) :
    Outlines s n ((o, as ++ (body ++ bs)) :: ds) (k + 1) ((o, as ++ call :: bs) :: (.func (helperName k), body) :: ds)
  | trans {l m n : Nat} {ds ds' ds'' : List Definition} (h : Outlines s l ds m ds') (h' : Outlines s m ds' n ds'') :
    Outlines s l ds n ds''

namespace Outlines
variable {s : Setting} {m n : Nat} {ds ds' : List Definition} {o : Owner} {as us : List Action}
  {call : Action}

lemma refl (n : Nat) (ds : List Definition) : Outlines s n ds n ds := .perm (.refl ds)

/-- Where every definition has become one that unfolds alike, every list unfolds as before. -/
lemma unfolds_of_forall {defs defs' : Text → List Action → Prop}
    (hdefs : ∀ name body, defs name body → ∃ body', defs' name body' ∧
      ∀ us, Unfolds callee? defs' body us → Unfolds callee? defs' body' us)
    (h : Unfolds callee? defs as us) : Unfolds callee? defs' as us := by
  induction h with
  | nil => exact .nil
  | keep hc _ ih => exact .keep hc ih
  | call hc hd _ _ ihBody ih =>
    obtain ⟨body', hd', hbd⟩ := hdefs _ _ hd
    exact .call hc hd' (hbd _ ihBody) ih

lemma outline_mem {k : Nat} {body bs cs : List Action} {p : Owner}
    (hcall : (s.callHelper (helperName k)).result = .ok call) (hmem : (p, cs) ∈ (o, as ++ (body ++ bs)) :: ds) :
    ∃ cs', (p, cs') ∈ (o, as ++ call :: bs) :: (.func (helperName k), body) :: ds ∧
      ∀ us, Unfolds callee? (bodies ((o, as ++ call :: bs) :: (.func (helperName k), body) :: ds)) cs us →
        Unfolds callee? (bodies ((o, as ++ call :: bs) :: (.func (helperName k), body) :: ds)) cs' us := by
  rcases mem_cons.mp hmem with heq | hmem
  · cases heq
    refine ⟨as ++ call :: bs, by simp, fun us h => ?_⟩
    exact h.outline (callee?_of_args (callHelper_ok hcall).1) (by simp [bodies])
  · exact ⟨cs, by simp [hmem], fun _ h => h⟩

/-- Moving parts into functions does not change what a list unfolds to. -/
theorem unfolds (h : Outlines s m ds n ds') (hu : Unfolds callee? (bodies ds) as us) :
    Unfolds callee? (bodies ds') as us := by
  induction h with
  | perm h => exact hu.mono fun _ _ hd => h.mem_iff.mp hd
  | outline _ hcall => exact unfolds_of_forall (fun _ _ hd => outline_mem hcall hd) hu
  | trans _ _ ih ih' => exact ih' (ih hu)

theorem exists_mem (h : Outlines s m ds n ds') (hmem : (o, as) ∈ ds) (hu : Unfolds callee? (bodies ds) as us) :
    ∃ as', (o, as') ∈ ds' ∧ Unfolds callee? (bodies ds') as' us := by
  induction h generalizing as with
  | @perm n _ _ h => exact ⟨as, h.mem_iff.mp hmem, (perm (s := s) (n := n) h).unfolds hu⟩
  | outline hk hcall o cs body bs ds =>
    obtain ⟨as', hmem', hall⟩ := outline_mem hcall hmem
    exact ⟨as', hmem', hall us ((outline hk hcall o cs body bs ds).unfolds hu)⟩
  | trans _ _ ih ih' =>
    obtain ⟨as', hmem', hu'⟩ := ih hmem hu
    exact ih' hmem' hu'

/-- If all definitions unfold, they still do when parts were moved into functions. -/
theorem forall_unfolds (h : Outlines s m ds n ds') (hall : ∀ d ∈ ds, ∃ us, Unfolds callee? (bodies ds) d.2 us) :
    ∀ d ∈ ds', ∃ us, Unfolds callee? (bodies ds') d.2 us := by
  induction h with
  | @perm n _ _ h =>
    intro d hd
    obtain ⟨us, hus⟩ := hall d (h.mem_iff.mpr hd)
    exact ⟨us, (perm (s := s) (n := n) h).unfolds hus⟩
  | outline hk hcall o cs body bs ds =>
    have hstep := outline hk hcall o cs body bs ds
    obtain ⟨ws, hws⟩ := hall (o, cs ++ (body ++ bs)) (by simp)
    refine forall_mem_cons.mpr ⟨?_, forall_mem_cons.mpr ⟨?_, fun d hd => ?_⟩⟩
    · exact ⟨ws, (hstep.unfolds hws).outline (callee?_of_args (callHelper_ok hcall).1) (by simp [bodies])⟩
    · obtain ⟨us, vs, -, -, h⟩ := hws.of_append
      obtain ⟨vs, -, -, hbd, -⟩ := h.of_append
      exact ⟨vs, hstep.unfolds hbd⟩
    · exact (hall d (by simp [hd])).imp fun _ => hstep.unfolds
  | trans _ _ ih ih' => exact ih' (ih hall)

theorem mem_actions (h : Outlines s m ds n ds') {d : Definition} (hd : d ∈ ds') {a : Action} (ha : a ∈ d.2) :
    (∃ d ∈ ds, a ∈ d.2) ∨ ∃ k, (s.callHelper (helperName k)).result = .ok a := by
  induction h generalizing d with
  | perm h => exact .inl ⟨d, h.mem_iff.mpr hd, ha⟩
  | @outline _ k _ hk hcall o cs body bs ds =>
    rcases mem_cons.mp hd with rfl | hd
    · rcases mem_append.mp ha with ha | ha
      · exact .inl ⟨_, mem_cons_self, by simp [ha]⟩
      rcases mem_cons.mp ha with rfl | ha
      · exact .inr ⟨k, hcall⟩
      · exact .inl ⟨_, mem_cons_self, by simp [ha]⟩
    rcases mem_cons.mp hd with rfl | hd
    · exact .inl ⟨_, mem_cons_self, by simp [ha]⟩
    · exact .inl ⟨d, by simp [hd], ha⟩
  | trans _ _ ih ih' =>
    rcases ih' hd ha with ⟨d', hd', ha'⟩ | hcall
    · exact ih hd' ha'
    · exact .inr hcall

/-- What has a name of its own and what has a new one: new names are numbered from `lo` up to `n`. -/
def Numbered (own : Owner) (lo n : Nat) (ds : List Definition) : Prop :=
  (ds.map (·.1)).Nodup ∧ ∀ d ∈ ds, d.1 = own ∨ ∃ k, lo ≤ k ∧ k < n ∧ d.1 = .func (helperName k)

lemma le (h : Outlines s m ds n ds') : m ≤ n := by
  induction h with
  | perm => exact Nat.le_refl _
  | outline hk => omega
  | trans _ _ ih ih' => exact Nat.le_trans ih ih'

theorem numbered {own : Owner} {lo : Nat} (h : Outlines s m ds n ds') (hlo : lo ≤ m)
    (hown : ∀ k, own ≠ .func (helperName k)) (hds : Numbered own lo m ds) : Numbered own lo n ds' := by
  induction h with
  | perm h => exact ⟨(h.map _).nodup_iff.mp hds.1, fun d hd => hds.2 d (h.mem_iff.mpr hd)⟩
  | @outline n k _ hk hcall o cs body bs ds =>
    obtain ⟨hnd, hnms⟩ := hds
    have hnew : ∀ d ∈ (o, cs ++ (body ++ bs)) :: ds, d.1 ≠ .func (helperName k) := by
      intro d hd heq
      rcases hnms d hd with hd' | ⟨j, -, hj, hd'⟩
      · exact hown k (hd'.symm.trans heq)
      have := helperName_injective (Owner.func.inj (hd'.symm.trans heq))
      omega
    refine ⟨?_, fun d hd => ?_⟩
    · obtain ⟨hfst, hrest⟩ := nodup_cons.mp hnd
      simp only [map_cons, nodup_cons, mem_cons, not_or]
      refine ⟨⟨hnew _ mem_cons_self, hfst⟩, ?_, hrest⟩
      intro hmem
      obtain ⟨d, hd, heq⟩ := mem_map.mp hmem
      exact hnew d (mem_cons_of_mem _ hd) heq
    have hlat : ∀ e ∈ (o, cs ++ (body ++ bs)) :: ds,
        e.1 = own ∨ ∃ j, lo ≤ j ∧ j < k + 1 ∧ e.1 = .func (helperName j) := by
      intro e he
      rcases hnms e he with h | ⟨j, hj, hjn, h⟩
      · exact .inl h
      · exact .inr ⟨j, hj, by omega, h⟩
    rcases mem_cons.mp hd with rfl | hd
    · exact hlat (o, cs ++ (body ++ bs)) mem_cons_self
    rcases mem_cons.mp hd with rfl | hd
    · exact .inr ⟨k, by omega, by omega, rfl⟩
    · exact hlat d (mem_cons_of_mem _ hd)
  | trans h h' ih ih' => exact ih' (Nat.le_trans hlo h.le) (ih hlo hds)

lemma append_right (h : Outlines s m ds n ds') (es : List Definition) : Outlines s m (ds ++ es) n (ds' ++ es) := by
  induction h with
  | perm h => exact .perm (h.append_right es)
  | outline hk hcall o cs body bs ds => exact .outline hk hcall o cs body bs (ds ++ es)
  | trans _ _ ih ih' => exact ih.trans ih'

lemma append_left (h : Outlines s m ds n ds') (es : List Definition) : Outlines s m (es ++ ds) n (es ++ ds') :=
  (perm perm_append_comm).trans ((h.append_right es).trans (perm perm_append_comm))

lemma outline_middle {k : Nat} (hk : n ≤ k) (hcall : (s.callHelper (helperName k)).result = .ok call)
    (o : Owner) (as body bs : List Action) (ds es : List Definition) :
    Outlines s n (ds ++ (o, as ++ (body ++ bs)) :: es) (k + 1)
      (ds ++ (o, as ++ call :: bs) :: (.func (helperName k), body) :: es) := by
  refine (perm perm_middle).trans ((outline hk hcall o as body bs (ds ++ es)).trans (perm ?_))
  exact (perm_middle.symm.cons _).trans perm_middle.symm

end Outlines

/-! ### Splitting moves parts into functions -/

def Row.definition (r : Row) : Definition := (r.owner, r.actions)

def Helper.definition (h : Helper) : Definition := (.func h.name, h.actions)

/-- The definitions in a state of splitting, if `left` is left to put into rows. -/
def SplitState.definitions (st : SplitState) (left : List Action) : List Definition :=
  st.rows.chain.map Row.definition ++ (st.owner, left) :: st.rows.helpers.map Helper.definition

section Row
variable {events : Table KnownEvent} {owner : Owner} {as : List Action} {row : Row}

lemma Row.definition_ok (h : (Row.of events owner as).result = .ok row) : row.definition = (owner, as) := by
  obtain ⟨_, _, -, -, rfl⟩ := Row.exists_entries h
  rfl

lemma Row.actions_of_ok (h : (Row.of events owner as).result = .ok row) : row.actions = as :=
  congrArg Prod.snd (Row.definition_ok h)

end Row

lemma le_fresh (taken : List Text) (n : Nat) : n ≤ fresh taken n := by
  have hfrom : ∀ fuel n, n ≤ freshFrom taken fuel n := by
    intro fuel
    induction fuel with
    | zero => exact fun n => Nat.le_refl n
    | succ fuel ih =>
      intro n
      rw [freshFrom]
      split
      · exact Nat.le_trans (Nat.le_succ n) (ih (n + 1))
      · exact Nat.le_refl n
  exact hfrom taken.length n

section
variable {s : Setting} {subject : Subject} {st st' : SplitState} {recorded : Nat → Action → Prop} {n : Nat}
  {c : Cut} {r : Remaining} {default : Option Action}

/-- What is inserted at a cut: the default selection and one recorded there. -/
def Setting.Restores (s : Setting) (subject : Subject) (recorded : Nat → Action → Prop) (n : Nat) (a b : Action) :
    Prop :=
  s.restored subject = some a ∧ recorded n b

/-- The selections recorded at the boundaries of what is left. What is left begins at place `n`. -/
def Remaining.Records (r : Remaining) (n : Nat) (recorded : Nat → Action → Prop) : Prop :=
  ∀ b ∈ r.boundaries, ∀ a, b.selection = some a → recorded (n + b.pos) a

lemma Cut.actions_rest (c : Cut) (r : Remaining) : (c.rest r).actions = c.restore.toList ++ r.actions.drop c.pos := by
  rw [Cut.rest]
  cases c.restore <;> rfl

lemma mem_boundaries_rest {b : Boundary} (h : b ∈ (c.rest r).boundaries) : (∃ a, c.restore = some a ∧ b = ⟨1, some a⟩) ∨
      ∃ b' ∈ r.boundaries, c.pos < b'.pos ∧ b = ⟨b'.pos - c.pos + c.restore.toList.length, b'.selection⟩ := by
  rw [Cut.rest] at h
  cases hr : c.restore with
  | none =>
    rw [hr] at h
    obtain ⟨b', hb', rfl⟩ := mem_map.mp h
    obtain ⟨hmem, hlt⟩ := mem_filter.mp hb'
    exact .inr ⟨b', hmem, by simpa using hlt, rfl⟩
  | some a =>
    rw [hr] at h
    rcases mem_cons.mp h with rfl | h
    · exact .inl ⟨a, rfl, rfl⟩
    obtain ⟨b'', hb'', rfl⟩ := mem_map.mp h
    obtain ⟨b', hb', rfl⟩ := mem_map.mp hb''
    obtain ⟨hmem, hlt⟩ := mem_filter.mp hb'
    exact .inr ⟨b', hmem, by simpa using hlt, rfl⟩

lemma Remaining.Records.restore {a : Action}
    (h : r.Records n recorded) (hc : c ∈ cuts default r) (ha : c.restore = some a) : recorded (n + c.pos) a := by
  obtain ⟨⟨b, hb, rfl⟩, -⟩ := mem_cuts.mp hc
  cases default with
  | none => simp at ha
  | some d => exact h b hb a (filter_eq_some_iff.mp ha).1

-- a selection that is made again is an action more in front
lemma Remaining.Records.rest (h : r.Records n recorded)
    (hc : c ∈ cuts default r) : (c.rest r).Records (n + c.pos - c.restore.toList.length) recorded := by
  obtain ⟨-, hpos, -⟩ := mem_cuts.mp hc
  have hlen := length_toList_le (o := c.restore)
  intro b hb a ha
  rcases mem_boundaries_rest hb with ⟨a', ha', rfl⟩ | ⟨b', hb', hlt, rfl⟩
  · cases ha
    rw [ha', toList_some, length_singleton, Nat.sub_add_cancel (by omega)]
    exact h.restore hc ha'
  have heq : n + c.pos - c.restore.toList.length + (b'.pos - c.pos + c.restore.toList.length) = n + b'.pos := by omega
  rw [heq]
  exact h b' hb' a ha

lemma records_ofActions (as : List Action) (n : Nat) (recorded : Nat → Action → Prop) :
    (Remaining.ofActions as).Records n recorded := by
  intro b hb a ha
  obtain ⟨pre, c, post, -, rfl, -⟩ := mem_boundariesFrom hb
  contradiction

/-- What is cut off and what is left make up the list, with a pair inserted where a selection is made again. -/
lemma paddedBehind_cut {left : List Action} (hrec : r.Records n recorded) (hc : c ∈ cuts (s.restored subject) r)
    (h : PaddedBehind (s.Restores subject recorded) (n + c.pos - c.restore.toList.length) (c.rest r).actions left) :
    PaddedBehind (s.Restores subject recorded) n r.actions (c.row (s.restored subject) r ++ left) := by
  obtain ⟨-, hpos, hlt, -⟩ := mem_cuts.mp hc
  have hlen : (r.actions.take c.pos).length = c.pos := length_take_of_le (by omega)
  have hne : r.actions.take c.pos ≠ [] := by
    intro hnil
    rw [hnil, length_nil] at hlen
    omega
  rw [Cut.actions_rest] at h
  nth_rewrite 1 [← take_append_drop c.pos r.actions]
  rw [Cut.row, append_assoc]
  refine Padded.behind hne ?_
  rw [hlen]
  cases hr : c.restore with
  | none =>
    rw [hr] at h
    exact h.padded
  | some a =>
    obtain ⟨d, hd⟩ := isSome_iff_exists.mp (isSome_default_of_restore hc (by simp [hr]))
    rw [hr] at h
    obtain ⟨a', cs, ds, heq, rfl, h⟩ := h
    obtain ⟨rfl, rfl⟩ := cons.inj heq
    rw [toList_some, length_singleton, Nat.sub_add_cancel (by omega)] at h
    rw [hd]
    exact .insert ⟨hd, hrec.restore hc hr⟩ h

/-- Splitting moves parts of a list into functions, the selections made again being inserted. -/
theorem Setting.Steps.outlines (h : s.Steps subject st st') (hne : st.left.actions ≠ [])
    (hrec : st.left.Records n recorded) : ∃ left, PaddedBehind (s.Restores subject recorded) n st.left.actions left ∧
      Outlines s st.rows.next (st.definitions left) st'.rows.next (st'.definitions st'.left.actions) := by
  induction h using Relation.ReflTransGen.head_induction_on generalizing n recorded with
  | refl => exact ⟨_, .refl n hne, .refl _ _⟩
  | @head st st₁ hstep hsts ih =>
    have hfresh : st.rows.next ≤ s.helperNumber st := le_fresh s.taken st.rows.next
    cases hstep with
    | cut c call row long last calls row_eq =>
      have place := lastCut?_mem last
      obtain ⟨-, -, hlt, -⟩ := mem_cuts.mp place
      have hne' : (c.rest st.left).actions ≠ [] := by
        rw [Cut.actions_rest]
        simp [hlt]
      obtain ⟨left, hpad, hout⟩ := ih hne' (hrec.rest place)
      refine ⟨_, paddedBehind_cut hrec place hpad, ?_⟩
      have hcut := Outlines.outline_middle hfresh calls st.owner (c.row (s.restored subject) st.left) left []
        (st.rows.chain.map Row.definition) (st.rows.helpers.map Helper.definition)
      rw [append_nil, ← Row.definition_ok row_eq] at hcut
      refine hcut.trans ?_
      simpa [SplitState.definitions] using hout
    | extract call x long stuck calls body =>
      -- no selection is recorded any more, so nothing is inserted from here on
      obtain ⟨pre, o, k, post, heq, hrest, -⟩ := extract?_some body
      obtain ⟨left, hpad, hout⟩ :=
        ih (by simp [hrest, Remaining.ofActions]) (records_ofActions x.rest n fun _ _ => False)
      obtain rfl := hpad.padded.eq_of_forall_not fun _ _ _ h => h.2
      refine ⟨_, .refl n hne, ?_⟩
      have hbd := Outlines.outline_middle hfresh calls st.owner (pre ++ [o]) x.body (k :: post)
        (st.rows.chain.map Row.definition) (st.rows.helpers.map Helper.definition)
      refine Outlines.trans ?_ hout
      simpa [SplitState.definitions, Helper.definition, Remaining.ofActions, heq, hrest] using hbd

end
end Plan
end BlockScript
