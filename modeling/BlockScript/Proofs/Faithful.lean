import BlockScript.Proofs.Preparation

/-!
# Plans are faithful

The plan of a script unfolds to the script (`Data.compile_unfolds`): where calls of helpers are replaced by the rows of
the helpers, the row of every event and function becomes the list of all its actions. In events, selections that were
in force at a cut are made again behind it; nothing else is added, and nothing is lost.
-/

open List Option Except
namespace BlockScript
open Text Program
open Entry (ofAction)
open Script (Compile Settings)
open Plan
namespace Plan
variable {s : Setting} {d : Definition} {r : List Entry} {a : Action}

/-- What splitting inserts into rows is ordinary but for the helpers it calls. -/
structure Setting.Plain (s : Setting) : Prop where
  player : Ordinary s.defaultPlayer
  caller : ∀ a, s.caller = .ok a → a.block ≠ "lapis_block" ∧ a.block ≠ "newline"
  events : EventBlocks s.events

def Setting.Allows (s : Setting) (a : Action) : Prop :=
  Ordinary a ∨ ∃ k, (s.callHelper (helperName k)).result = .ok a

lemma Setting.Allows.placed (hs : s.Plain) (h : s.Allows a) :
    (ofAction a).isNewline = false ∧ (ofAction a).isFunc = false := by
  rcases h with h | ⟨k, h⟩
  · exact ⟨h.isNewline, h.isFunc⟩
  rw [result_callHelper] at h
  cases hc : s.caller with
  | error e => simp [hc, Except.map] at h
  | ok c =>
    obtain rfl : { c with args := callArgs (helperName k) } = a := by simpa [hc, Except.map] using h
    obtain ⟨hfn, hmark⟩ := hs.caller c hc
    exact ⟨beq_eq_false_iff_ne.mpr hmark, beq_eq_false_iff_ne.mpr hfn⟩

lemma Setting.Allows.helperTarget? (h : s.Allows a) (hcle : callee? a = none) : (ofAction a).helperTarget? = none := by
  rcases h with h | ⟨k, h⟩
  · exact h.helperTarget?
  rw [callee?_of_args (callHelper_ok h).1] at hcle
  contradiction

lemma Places.isRow (hs : s.Plain) (h : Places s.events d r) (hd : ∀ a ∈ d.2, s.Allows a) : IsRow r := by
  obtain ⟨header, hhdr, rfl⟩ := h
  exact ⟨header, _, rfl, (header_ok hs.events hhdr).1, forall_mem_map.mpr fun a ha => (hd a ha).placed hs⟩

end Plan
namespace Program
variable {ctx : Context} {f : Finished} {m m' : Nat} {ds : List Definition}

/-- What a block is made of is ordinary, and it is no helper. -/
structure Finished.Plain (f : Finished) : Prop where
  actions : ∀ a ∈ f.left.actions, Ordinary a
  records : ∀ bd ∈ f.left.boundaries, ∀ sel ∈ bd.selection, Ordinary sel
  name : ∀ k, f.block.owner ≠ .func (helperName k)

/-- What the rows of a block place. Helpers have numbers from `m` up to `m'`. -/
structure Finished.Planned (ctx : Context) (m : Nat) (f : Finished) (m' : Nat) (ds : List Definition) : Prop where
  rows : Forall₂ (Places ctx.events) ds f.rows
  entries : Chain.allEntries f.chains = joinRows f.rows
  allowed : ∀ d ∈ ds, ∀ a ∈ d.2, ctx.Allows a
  alone : ∀ d ∈ ds, ∀ a, d.2 = [a] → callee? a = none
  le : m ≤ m'
  names : ∀ d ∈ ds, d.1 = f.block.owner ∨ ∃ k, d.1 = .func (helperName k)
  count : ∀ k, (ds.map Prod.fst).count (.func (helperName k)) ≤ if m ≤ k ∧ k < m' then 1 else 0
  unfolds : ∀ d ∈ ds, ∃ us, Unfolds callee? (bodies ds) d.2 us
  nonempty : ds ≠ []
  whole : (Subject.ofOwner? f.block.owner).isSome → ∃ body rest as, ds = (f.block.owner, body) :: rest
    ∧ Unfolds callee? (bodies ds) body as ∧ Padded (ctx.Inserts f.block.owner f.left) 0 f.left.actions as

lemma Finished.Made.planned_of_loop {name : Text} {ticks : Int} (hctx : ctx.Plain) (hf : f.Plain)
    (howner : f.block.owner = .loop name ticks) (h : f.Made ctx m m') : ∃ ds, f.Planned ctx m m' ds := by
  obtain ⟨-, hrows⟩ := h
  rw [howner] at hrows
  obtain ⟨-, row, hrow, hchs, rfl⟩ := Setting.blockRows_loop hrows rfl
  obtain ⟨header, es, hhdr, hes, rfl⟩ := Row.exists_entries hrow
  have hmark : header.block ≠ "newline" := by
    simpa [Entry.isNewline] using (header_ok hctx.events hhdr).1
  obtain ⟨part, parts, hflat, -, -, hjoin, -⟩ :=
    rowEntriesFrom_ok hes (by decide) (by decide) hmark fun a ha => (hf.actions a ha).notMark
  have hord : ∀ p ∈ part :: parts, ∀ a ∈ p, Ordinary a := fun p hp a ha =>
    hf.actions a (hflat ▸ mem_flatten.mpr ⟨p, hp, ha⟩)
  have hplcs : ∀ p, Places ctx.events (.loop name ticks, p) (header :: p.map ofAction) :=
    fun p => ⟨header, hhdr, rfl⟩
  have hisRow : ∀ r ∈ (part :: parts).map (fun p => header :: p.map ofAction), IsRow r :=
    forall_mem_map.mpr fun p hp => (hplcs p).isRow hctx fun a ha => .inl (hord p hp a ha)
  obtain ⟨hjoined, hrowsOf⟩ := Row.joined_of_eq (r := ⟨.loop name ticks, f.left.actions, header :: es⟩) (by simp) hisRow
    hjoin
  have hfrows : f.rows = (part :: parts).map fun p : List Action => header :: p.map ofAction := by
    rw [Finished.rows, hchs]
    simpa using hrowsOf
  refine ⟨(part :: parts).map fun p => (.loop name ticks, p), ?_⟩
  constructor
  case rows =>
    rw [hfrows, forall₂_map_left_iff, forall₂_map_right_iff]
    exact forall₂_same.mpr fun p _ => hplcs p
  case entries =>
    rw [allEntries_chains (by simp [hchs]) (by simpa [hchs] using hjoined), Finished.rows]
  case allowed => exact forall_mem_map.mpr fun p hp a ha => .inl (hord p hp a ha)
  case alone =>
    refine forall_mem_map.mpr fun p hp a ha => ?_
    exact (hord p hp a (by rw [show p = [a] from ha]; simp)).callee?
  case le => exact Nat.le_refl _
  case names => exact forall_mem_map.mpr fun p hp => .inl howner.symm
  case count =>
    intro k
    rw [count_eq_zero_of_not_mem (by simp)]
    exact Nat.zero_le _
  case unfolds => exact forall_mem_map.mpr fun p hp => ⟨p, .of_forall fun a ha => (hord p hp a ha).callee?⟩
  case nonempty => simp
  case whole =>
    intro h
    simp [howner, Subject.ofOwner?] at h

lemma Finished.Made.planned_of_subject {subject : Subject} (hctx : ctx.Plain) (hf : f.Plain)
    (hsubj : Subject.ofOwner? f.block.owner = some subject) (h : f.Made ctx m m') : ∃ ds, f.Planned ctx m m' ds := by
  obtain ⟨as, hpad, hblk⟩ := Setting.blockRows_ok h.rows hsubj (fun a ha => (hf.actions a ha).callee?)
    fun bd hbd a ha => (hf.records bd hbd a ha).callee?
  have has : ∀ a ∈ as, Ordinary a := by
    intro a ha
    rcases hpad.mem ha with ha | ⟨n, c, d, ⟨-, rfl, hrec⟩, rfl | rfl⟩
    · exact hf.actions a ha
    · exact hctx.player
    · exact hf.records _ hrec _ rfl
  have hself : Unfolds callee? (bodies [(f.block.owner, as)]) as as := .of_forall fun a ha => (has a ha).callee?
  have hallowed : ∀ d ∈ f.chains.flatten.map Row.definition, ∀ a ∈ d.2, ctx.Allows a := by
    intro d hd a ha
    refine (hblk.outlines.mem_actions hd ha).imp_left ?_
    rintro ⟨d', hd', ha'⟩
    obtain rfl := mem_singleton.mp hd'
    exact has a ha'
  have hplcs : ∀ r ∈ f.chains.flatten, Places ctx.events r.definition r.entries :=
    fun r hr => (hblk.sound r hr).entries
  have hjoined : ∀ r ∈ f.chains.flatten, r.Joined ∧ rowsOf r.entries = [r.entries] := by
    intro r hr
    refine Row.joined_of_eq (by simp) (fun p hp => ?_) rfl
    obtain rfl := mem_singleton.mp hp
    exact (hplcs r hr).isRow hctx (hallowed _ (List.mem_map_of_mem hr))
  have hfrows : f.rows = f.chains.flatten.map Row.entries := by
    rw [Finished.rows, map_eq_flatMap]
    exact flatMap_congr fun r hr => (hjoined r hr).2
  obtain ⟨hnd, hnames⟩ : Outlines.Numbered f.block.owner m m' (f.chains.flatten.map Row.definition) :=
    hblk.outlines.numbered (Nat.le_refl m) hf.name ⟨by simp, by simp⟩
  refine ⟨f.chains.flatten.map Row.definition, ?_⟩
  constructor
  case rows =>
    rw [hfrows, forall₂_map_left_iff, forall₂_map_right_iff]
    exact forall₂_same.mpr hplcs
  case entries => exact allEntries_chains hblk.nonempty fun r hr => (hjoined r hr).1
  case allowed => exact hallowed
  case alone => exact forall_mem_map.mpr fun r hr => (hblk.sound r hr).alone
  case le => exact hblk.outlines.le
  case names => exact fun d hd => (hnames d hd).imp_right fun ⟨k, _, _, h⟩ => ⟨k, h⟩
  case count =>
    intro k
    split
    · exact nodup_iff_count_le_one.mp hnd _
    next hk =>
      refine Nat.le_of_eq (count_eq_zero_of_not_mem fun hmem => ?_)
      obtain ⟨d, hd, heq⟩ := mem_map.mp hmem
      rcases hnames d hd with hown | ⟨j, hj, hj', hd'⟩
      · exact hf.name k (hown ▸ heq)
      obtain rfl := helperName_injective (Owner.func.inj (hd'.symm.trans heq))
      exact hk ⟨hj, hj'⟩
  case unfolds =>
    refine hblk.outlines.forall_unfolds fun d hd => ?_
    obtain rfl := mem_singleton.mp hd
    exact ⟨as, hself⟩
  case nonempty =>
    intro hnil
    have := hblk.first
    simp [map_eq_nil_iff.mp hnil] at this
  case whole =>
    intro _
    obtain ⟨body, hmem, hunf⟩ := hblk.outlines.exists_mem mem_cons_self hself
    have hfst := hblk.first
    cases hds : f.chains.flatten with
    | nil => simp [hds] at hfst
    | cons r rs =>
      rw [hds] at hfst hmem hnd
      have hr : r.owner = f.block.owner := by simpa using hfst
      refine ⟨r.actions, rs.map Row.definition, as, by simp [Row.definition, hr], ?_, hpad⟩
      -- the owner names one row only
      rcases mem_cons.mp hmem with heq | hmem
      · obtain ⟨-, rfl⟩ := Prod.mk.inj heq
        rw [← hds]
        exact hunf
      rw [map_cons, map_cons, nodup_cons] at hnd
      exact absurd (List.mem_map.mpr ⟨_, hmem, hr.symm⟩) hnd.1

/-- The rows of a block place what it is made of. -/
theorem Finished.Made.planned (hctx : ctx.Plain) (hf : f.Plain) (h : f.Made ctx m m') :
    ∃ ds, f.Planned ctx m m' ds := by
  cases hsubj : Subject.ofOwner? f.block.owner with
  | some subject => exact h.planned_of_subject hctx hf hsubj
  | none =>
    cases howner : f.block.owner with
    | event | func => simp [howner, Subject.ofOwner?] at hsubj
    | loop name ticks => exact h.planned_of_loop hctx hf howner

/-! ### All blocks of a script -/

/-- The rows of all blocks place what the blocks are made of, and no two helpers have one number. -/
theorem Flushed.planned {fs : List Finished} {n : Nat} (h : Flushed ctx fs n) (hctx : ctx.Plain)
    (hfs : ∀ f ∈ fs, f.Plain) :
    ∃ dss : List (List Definition), Forall₂ (fun f ds => ∃ m m', f.Planned ctx m m' ds) fs dss
      ∧ ∀ k, (dss.flatten.map Prod.fst).count (.func (helperName k)) ≤ if k < n then 1 else 0 := by
  induction h with
  | nil => exact ⟨[], .nil, by simp⟩
  | @snoc fs m m' f _ made ih =>
    obtain ⟨dss, hdss, hcnt⟩ := ih fun g hg => hfs g (by simp [hg])
    obtain ⟨ds, hds⟩ := made.planned hctx (hfs f (by simp))
    refine ⟨dss ++ [ds], rel_append hdss (.cons ⟨m, m', hds⟩ .nil), fun k => ?_⟩
    have hk := hcnt k
    have hk' := hds.count k
    have hle := hds.le
    rw [flatten_append, map_append, count_append, flatten_singleton]
    split at hk <;> split at hk' <;> split <;> omega

/-- The rows of functions that a plan has under a name, without their headers. -/
def helperBody (rows : List (List Entry)) (name : Text) (body : List Entry) : Prop :=
  ∃ header, header :: body ∈ rows ∧ defines name (header :: body)

/-- What may be inserted into a block's row unfolded, behind `n` entries: in an event, the default selection
and the one recorded there. -/
def insertedEntries (ctx : Context) (f : Finished) (n : Nat) (a b : Entry) : Prop :=
  (∃ name, f.block.owner = .event name) ∧ a = .ofAction ctx.defaultPlayer
    ∧ ∃ sel, ⟨n, some sel⟩ ∈ f.left.boundaries ∧ b = .ofAction sel

/-- A plan with some rows restores a block whose own rows are `own`: the first of them unfolds to all actions of the
block and to nothing else. -/
structure Finished.Restored (ctx : Context) (rows : List (List Entry)) (f : Finished) (own : List (List Entry)) :
    Prop where
  full : (fullActions ctx f.block).result = .ok f.left.actions
  whole : (∀ name ticks, f.block.owner ≠ .loop name ticks) → ∃ header body rest us, own = (header :: body) :: rest
    ∧ f.block.owner.header ctx.events = .ok header
    ∧ Unfolds Entry.callee? (helperBody rows) body us
    ∧ (∀ us', Unfolds Entry.callee? (helperBody rows) body us' → us' = us)
    ∧ Padded (insertedEntries ctx f) 0 (f.left.actions.map ofAction) us
    ∧ ∀ name, f.block.owner = .func name → us = f.left.actions.map ofAction

lemma eq_of_countP_le_one {α : Type} {p : α → Bool} {xs : List α} {x y : α} (h : xs.countP p ≤ 1) (hx : x ∈ xs)
    (hy : y ∈ xs) (hpx : p x) (hpy : p y) : x = y := by
  rw [countP_eq_length_filter] at h
  have hx' := mem_filter.mpr ⟨hx, hpx⟩
  have hy' := mem_filter.mpr ⟨hy, hpy⟩
  match xs.filter p, h, hx', hy' with
  | [z], _, hx', hy' => rw [mem_singleton.mp hx', mem_singleton.mp hy']

section
variable {fs : List Finished} {dss : List (List Definition)} (hctx : ctx.Plain)
  (h : Forall₂ (fun f ds => ∃ m m', f.Planned ctx m m' ds) fs dss)
  (hcnt : ∀ k, (dss.flatten.map Prod.fst).count (.func (helperName k)) ≤ 1)
  (hnames : ∀ f ∈ fs, ∀ name, f.block.owner = .func name → startsWith name helperStem = false)

include h

lemma forall₂_places : Forall₂ (Places ctx.events) dss.flatten (fs.flatMap Finished.rows) := by
  refine rel_flatten (forall₂_map_right_iff.mpr (h.flip.imp ?_))
  rintro f ds ⟨m, m', hds⟩
  exact hds.rows

lemma exists_planned {d : Definition}
    (hd : d ∈ dss.flatten) : ∃ f ∈ fs, ∃ ds, d ∈ ds ∧ (∀ d ∈ ds, d ∈ dss.flatten) ∧ ∃ m m', f.Planned ctx m m' ds := by
  obtain ⟨ds, hds, hd⟩ := mem_flatten.mp hd
  obtain ⟨f, hf, hpld⟩ := (exists_of_forall₂ h).2 ds hds
  exact ⟨f, hf, ds, hd, fun d hd => mem_flatten.mpr ⟨ds, hds, hd⟩, hpld⟩

lemma noneLeads_of_planned : NoneLeads (fs.flatMap Finished.rows) := by
  intro header call hr _
  obtain ⟨d, hd, header', -, heq⟩ := (exists_of_forall₂ (forall₂_places h)).2 _ hr
  obtain ⟨f, -, ds, hmem, -, m, m', hpld⟩ := exists_planned h hd
  obtain ⟨a, ha, rfl⟩ := map_eq_singleton_iff.mp (cons.inj heq).2.symm
  exact (hpld.allowed d hmem a (by simp [ha])).helperTarget? (hpld.alone d hmem a ha)

include hctx

lemma isRow_of_planned : ∀ r ∈ fs.flatMap Finished.rows, IsRow r := by
  intro r hr
  obtain ⟨d, hd, hplcs⟩ := (exists_of_forall₂ (forall₂_places h)).2 r hr
  obtain ⟨f, -, ds, hmem, -, m, m', hpld⟩ := exists_planned h hd
  exact hplcs.isRow hctx (hpld.allowed d hmem)

lemma unfolds_entries {ds : List Definition} (hds : ∀ d ∈ ds, d ∈ dss.flatten) {as us : List Action}
    (hu : Unfolds callee? (bodies ds) as us) :
    Unfolds Entry.callee? (helperBody (fs.flatMap Finished.rows)) (as.map ofAction) (us.map ofAction) := by
  refine hu.map ofAction (fun _ => rfl) fun name body hbody => ?_
  obtain ⟨r, hr, hplcs⟩ := (exists_of_forall₂ (forall₂_places h)).1 _ (hds _ hbody)
  have hdefines := hplcs.defines hctx.events name
  obtain ⟨header, -, rfl⟩ := hplcs
  exact ⟨header, hr, by simp [hdefines]⟩

include hcnt hnames

lemma countP_defines_le {name : Text} (hnm : startsWith name helperStem) :
    (fs.flatMap Finished.rows).countP (defines name) ≤ 1 := by
  rw [countP_defines hctx.events (forall₂_places h)]
  by_cases hmem : .func name ∈ dss.flatten.map Prod.fst
  · obtain ⟨d, hd, hd'⟩ := mem_map.mp hmem
    obtain ⟨f, hf, ds, hmem, -, m, m', hpld⟩ := exists_planned h hd
    rcases hpld.names d hmem with hown | ⟨k, hk⟩
    · rw [hnames f hf name (by rw [← hown, hd'])] at hnm
      contradiction
    obtain rfl := Owner.func.inj (hd'.symm.trans hk)
    exact hcnt k
  rw [count_eq_zero_of_not_mem hmem]
  exact Nat.zero_le 1

/-- Every helper called has one row. -/
theorem countP_callee {r : List Entry} (hr : r ∈ fs.flatMap Finished.rows) {e : Entry} (he : e ∈ r.tail) {name : Text}
    (hcle : e.callee? = some name) : (fs.flatMap Finished.rows).countP (defines name) = 1 := by
  have hstem : startsWith name helperStem := (filter_eq_some_iff.mp hcle).2
  refine Nat.le_antisymm (countP_defines_le hctx h hcnt hnames hstem) ?_
  obtain ⟨d, hd, header, -, rfl⟩ := (exists_of_forall₂ (forall₂_places h)).2 r hr
  obtain ⟨a, ha, rfl⟩ := mem_map.mp he
  obtain ⟨f, -, ds, hmem, hsub, m, m', hpld⟩ := exists_planned h hd
  obtain ⟨us, hus⟩ := hpld.unfolds d hmem
  obtain ⟨body, hbody⟩ := hus.exists_def ha hcle
  rw [countP_defines hctx.events (forall₂_places h)]
  exact count_pos_iff.mpr (mem_map.mpr ⟨_, hsub _ hbody, rfl⟩)

theorem restored_of_planned
    {f : Finished} (hf : f ∈ fs) (hfull : (fullActions ctx f.block).result = .ok f.left.actions) :
    f.Restored ctx (fs.flatMap Finished.rows) f.rows := by
  refine ⟨hfull, fun hloop => ?_⟩
  obtain ⟨ds, hds, m, m', hpld⟩ := (exists_of_forall₂ h).1 f hf
  have hsubj : (Subject.ofOwner? f.block.owner).isSome := by
    cases howner : f.block.owner with
    | event | func => rfl
    | loop name ticks => exact absurd howner (hloop name ticks)
  obtain ⟨body, rest, as, rfl, hunf, hpad⟩ := hpld.whole hsubj
  have hrows := hpld.rows
  generalize f.rows = own at hrows
  cases hrows with
  | @cons _ r _ rs hplcs _ =>
    obtain ⟨header, hhdr, rfl⟩ := hplcs
    have hunf' := unfolds_entries hctx h (fun d hd => mem_flatten.mpr ⟨_, hds, hd⟩) hunf
    have hpad' : Padded (insertedEntries ctx f) 0 (f.left.actions.map ofAction) (as.map ofAction) :=
      hpad.map ofAction fun n a b ⟨hev, ha, hb⟩ => ⟨hev, by rw [ha], b, hb, rfl⟩
    refine ⟨header, _, rs, _, rfl, hhdr, hunf', fun us' hus' => ?_, hpad', fun name hnm => ?_⟩
    · refine hus'.unique (fun a name body body' hc ⟨hd, hmem, hdef⟩ ⟨hd', hmem', hdef'⟩ => ?_) hunf'
      have hstem : startsWith name helperStem := (filter_eq_some_iff.mp hc).2
      have hone := countP_defines_le hctx h hcnt hnames hstem
      exact (cons.inj (eq_of_countP_le_one hone hmem hmem' hdef hdef')).2
    refine hpad'.eq_of_forall_not fun n a b => ?_
    rintro ⟨⟨name', hev⟩, -⟩
    simp [hnm] at hev

end
end Program

/-! ### Data files -/

namespace KnownEvent
variable {t t' : Table KnownEvent}

lemma eventBlocks_add {e : KnownEvent} (ht : EventBlocks t) (he : e.block = "diamond_block" ∨ e.block = "gold_block") :
    EventBlocks (add t e) := by
  have hnew {t : Table KnownEvent} key : EventBlocks t → EventBlocks (t.setNew key e) := by
    intro ht x hx
    rw [Table.setNew] at hx
    split at hx
    · exact ht x hx
    rcases mem_append.mp hx with hx | hx
    · exact ht x hx
    obtain rfl := mem_singleton.mp hx
    exact he
  exact hnew _ (hnew _ ht)

lemma block_ofRecord {rec : Json} {e : KnownEvent} (h : ofRecord rec = .ok (some e)) :
    e.block = "diamond_block" ∨ e.block = "gold_block" := by
  have hblockOf sign1 block : blockOf? sign1 = some block → block = "diamond_block" ∨ block = "gold_block" := by
    intro hb
    rw [blockOf?] at hb
    repeat' split at hb
    · simp at hb
    · exact .inl (some.inj hb).symm
    · exact .inr (some.inj hb).symm
    · simp at hb
  simp only [ofRecord, bind_eq_ok] at h
  obtain ⟨signs, -, item₀, -, text₀, -, item₁, -, text₁, -, h⟩ := h
  split at h
  · simp [pure, Except.pure] at h
  next block hblk =>
    simp only [bind_eq_ok] at h
    obtain ⟨title, -, text, -, h⟩ := h
    obtain ⟨-, hsome⟩ := ite_none_left_eq_some.mp (ok.inj h)
    cases hsome
    exact hblockOf _ block hblk

lemma eventBlocks_ofCatalog {catalog : Json} (h : ofCatalog catalog = .ok t) : EventBlocks t := by
  have hnil : EventBlocks [] := fun e he => absurd he (by simp)
  cases catalog with
  | arr records =>
    refine foldlM_keeps (fun t r t' ht h => ?_) hnil h
    obtain ⟨e?, hrec, hadd⟩ := bind_eq_ok.mp h
    cases e? with
    | none =>
      cases hadd
      exact ht
    | some e =>
      cases hadd
      exact eventBlocks_add ht (block_ofRecord hrec)
  | _ =>
    cases h
    exact hnil

end KnownEvent
namespace Data
variable {cfg : Settings} {d : Data} {files : Files} {entry : Path} {shown : Text} {ctx : Program.Context}
  {p : Program.Prepared} {s : Program.State} {es : List Entry}

lemma eventBlocks_of_setup (h : (d.setup cfg files entry shown).result = .ok (ctx, p)) : EventBlocks ctx.events := by
  simp only [setup, Compile.bind_ok] at h
  obtain ⟨-, -, api, -, aliases, -, events, hevs, n, -, -, -, h⟩ := h
  simp only [Program.setup, Compile.bind_ok] at h
  obtain ⟨player, -, entity, -, p', -, h⟩ := h
  cases h
  have hload : d.loadEvents = .ok events := by
    cases hl : d.loadEvents with
    | error e => simp [hl, Except.mapError] at hevs
    | ok t => simpa [hl, Except.mapError] using hevs
  rw [loadEvents] at hload
  cases hcat : d.catalog.value? with
  | none =>
    rw [hcat] at hload
    cases hload
    exact fun e he => absurd he (by simp)
  | some catalog =>
    rw [hcat] at hload
    exact KnownEvent.eventBlocks_ofCatalog hload

lemma link_of_compile (hsetup : (d.setup cfg files entry shown).result = .ok (ctx, p))
    (hrun : (run ctx p).result = .ok s) (hcompile : (d.compile cfg files entry shown).result = .ok es) :
    (link cfg (Program.Finished.entries s.done)).result = .ok es := by
  simp only [compile, Compile.bind_ok] at hcompile
  obtain ⟨⟨ctx', p'⟩, hset', s', hrun', hplan⟩ := hcompile
  obtain ⟨rfl, rfl⟩ := Prod.mk.inj (ok.inj (hsetup.symm.trans hset'))
  obtain rfl := ok.inj (hrun.symm.trans hrun')
  simp only [plan, Compile.bind_ok] at hplan
  obtain ⟨es', hlink, -, -, h⟩ := hplan
  cases h
  have hblk : s.block = none := by
    obtain ⟨s₁, -, hfl⟩ := run_ok hrun
    rcases flush_ok hfl with ⟨hblk, rfl⟩ | ⟨f, next, -, -, -, rfl⟩
    · exact hblk
    · rfl
  rw [Program.State.entries, hblk] at hlink
  simpa using hlink

lemma exists_compile (hsetup : (d.setup cfg files entry shown).result = .ok (ctx, p))
    (hrun : (run ctx p).result = .ok s) : ∃ es, (d.compile cfg files entry shown).result = .ok es := by
  simp [compile, plan, Compile.result_bind, hsetup, hrun, result_link, Except.bind]

/-- A plan unfolds to its script. If the actions of the script and what splitting inserts are ordinary and no function
of the script is named like a helper, then the rows of the plan are those of the blocks of the script, one block after
another; every helper called has one row; and where calls of helpers are replaced by the rows of the helpers, the
row of an event or a function becomes all its actions in order. In an event, the default selection and the one recorded
there may stand between two actions as well. -/
theorem compile_unfolds (hsetup : (d.setup cfg files entry shown).result = .ok (ctx, p))
    (hrun : (Program.run ctx p).result = .ok s) (hcompile : (d.compile cfg files entry shown).result = .ok es)
    (hactions : ∀ f ∈ s.done, ∀ a ∈ f.left.actions, Ordinary a)
    (hnames : ∀ f ∈ s.done, ∀ name, f.block.owner = .func name → Text.startsWith name helperStem = false)
    (hplayer : Ordinary ctx.defaultPlayer)
    (hcaller : ∀ a, ctx.caller = .ok a → a.block ≠ "lapis_block" ∧ a.block ≠ "newline") :
    (∃ groups, rowsOf es = groups.flatten ∧ List.Forall₂ (Program.Finished.Restored ctx (rowsOf es)) s.done groups)
      ∧ ∀ r ∈ rowsOf es, ∀ e ∈ r.tail, ∀ name, e.callee? = some name → (rowsOf es).countP (defines name) = 1 := by
  have hctx : ctx.Plain := ⟨hplayer, hcaller, eventBlocks_of_setup hsetup⟩
  have hpl : ∀ f ∈ s.done, f.Plain := by
    refine fun f hf => ⟨hactions f hf, fun bd hbd sel hsel => ?_, fun k hk => ?_⟩
    · obtain ⟨g, hg, negated, hmem⟩ := selects_of_run hrun hf hbd hsel
      have hord := hactions g hg _ hmem
      exact ⟨hord.silent, hord.notFunc, hord.notMark⟩
    · have hstem : startsWith (helperName k) helperStem := by simp [startsWith, helperName]
      rw [hnames f hf _ hk] at hstem
      contradiction
  have hflushed := flushed_of_run hrun
  obtain ⟨dss, hdss, hcnt⟩ := hflushed.planned hctx hpl
  have hcnt k : (dss.flatten.map Prod.fst).count (.func (helperName k)) ≤ 1 := by
    refine Nat.le_trans (hcnt k) ?_
    split <;> omega
  have hisRow := isRow_of_planned hctx hdss
  have hjoin : Program.Finished.entries s.done = joinRows (s.done.flatMap Program.Finished.rows) := by
    refine entries_finished (fun f hf => ?_) fun f hf => ?_
    all_goals obtain ⟨ds, -, m, m', hpld⟩ := (exists_of_forall₂ hdss).1 f hf
    · intro hnil
      have hrows := hpld.rows
      rw [hnil] at hrows
      exact hpld.nonempty (forall₂_nil_right_iff.mp hrows)
    · exact hpld.entries
  have hes : es = joinRows (s.done.flatMap Program.Finished.rows) := by
    have hlink := link_of_compile hsetup hrun hcompile
    rw [hjoin, result_link_joinRows cfg hisRow (noneLeads_of_planned hdss)] at hlink
    exact (ok.inj hlink).symm
  have hrows : rowsOf es = s.done.flatMap Program.Finished.rows := by rw [hes, rowsOf_joinRows hisRow]
  rw [hrows]
  refine ⟨⟨s.done.map Program.Finished.rows, flatMap_def .., ?_⟩, fun r hr e he name hcle => ?_⟩
  · refine forall₂_map_right_iff.mpr (forall₂_same.mpr fun f hf => ?_)
    obtain ⟨m, m', hmade⟩ := hflushed.made hf
    exact restored_of_planned hctx hdss hcnt hnames hf hmade.full
  · exact countP_callee hctx hdss hcnt hnames hr he hcle

/-! ### A long event -/

def sampleSpec (sign1 sign2 : Text) (params : List Json) : Json :=
  .obj [("sign1", .str sign1), ("sign2", .str sign2), ("gui", .str sign2), ("menu", .str sign2), ("aliases", .arr []),
    ("params", .arr params), ("enums", .arr [])]

def sampleSelect (others : Json.Fields) : Text × Json :=
  ("select", .obj (("vybrat_igroka_po_umolchaniyu", sampleSpec "Выбрать объект" "игрок" []) ::
    ("vybrat_suschnost_po_umolchaniyu", sampleSpec "Выбрать объект" "сущность" []) :: others))

def sampleCall : Text × Json := ("game", .obj [("call_function", sampleSpec "Игра" "Вызвать функцию" [])])

/-- A small library: the selections and the call that splitting needs, one more selection, and an action. -/
def sample : Data where
  api := .value (.obj [
    sampleSelect [("all", sampleSpec "Выбрать объект" "все" [])], sampleCall,
    ("a", .obj [("b", sampleSpec "Игра" "b" [])])])
  catalog := .missing
  gameValues := .missing
  aliases := .missing
  blocks := some "[(select) Выбрать объект][(game) Игра]"

def script (text : Text) : Files := [("/main", text)]

section Main
variable (d : Data) (files : Files)

/-- The script `/main` made ready, where nothing is set in the environment. -/
abbrev ready : Script.Compile (Context × Prepared) := d.setup (.ofVariables []) files (.ofText "/main") "main"

/-- What such a script is compiled to. -/
abbrev plan : Script.Compile (List Entry) := d.compile (.ofVariables []) files (.ofText "/main") "main"

end Main

def longEvent : Files :=
  script ("event(x) \x7b\nselect.all\n" ++ (List.replicate 43 ("a.b()\n" : Text)).flatten ++ "\x7d\n")

lemma longEvent_passes : passes (sample.ready longEvent).result fun ctx s =>
      decide (Ordinary ctx.defaultPlayer ∧ (∀ a ∈ ctx.caller.toOption, a.block ≠ "lapis_block" ∧ a.block ≠ "newline")
        ∧ s.done.map (fun f => f.block.owner) = [.event "x"]
        ∧ (∀ f ∈ s.done, maxPayload < f.left.actions.length ∧ ∀ a ∈ f.left.actions, Ordinary a)
        ∧ (∃ f ∈ s.done, 2 ≤ f.chains.flatten.length)
        ∧ ∀ f ∈ s.done, ∀ r ∈ f.chains.flatten, ∀ a ∈ r.actions, a.block ≠ "lapis_block" ∧ a.block ≠ "newline") := by
  decide +kernel

theorem compile_unfolds_longEvent : ∃ ctx p s es,
    (sample.ready longEvent).result = .ok (ctx, p)
      ∧ (Program.run ctx p).result = .ok s
      ∧ (sample.plan longEvent).result = .ok es
      ∧ (∃ f ∈ s.done, maxPayload < f.left.actions.length)
      ∧ (∃ groups, rowsOf es = groups.flatten
          ∧ List.Forall₂ (Program.Finished.Restored ctx (rowsOf es)) s.done groups)
      ∧ ∀ r ∈ rowsOf es, ∀ e ∈ r.tail, ∀ name, e.callee? = some name →
          (rowsOf es).countP (defines name) = 1 := by
  obtain ⟨ctx, p, s, hsetup, hrun, htest⟩ := exists_of_passes longEvent_passes
  obtain ⟨hplayer, hcaller, howns, hdone, -⟩ := of_decide_eq_true htest
  obtain ⟨es, hes⟩ := exists_compile hsetup hrun
  have hev : ∀ f ∈ s.done, f.block.owner = .event "x" := by
    intro f hf
    exact mem_singleton.mp (howns ▸ List.mem_map_of_mem hf)
  refine ⟨ctx, p, s, es, hsetup, hrun, hes, ?_, ?_⟩
  · cases hs : s.done with
    | nil => simp [hs] at howns
    | cons f fs => exact ⟨f, by simp, (hdone f (by simp [hs])).1⟩
  · refine compile_unfolds hsetup hrun hes (fun f hf => (hdone f hf).2) (fun f hf name hnm => ?_) hplayer
      fun a ha => hcaller a (by simp [ha, Except.toOption])
    rw [hev f hf] at hnm
    contradiction

/-- An import whose name is cut out of a call, so that what is left names a helper. -/
def namedLikeHelper : Files :=
  [("/main", "import -x\nevent(x) \x7b\ncall(__autosplit_-x.row_1)\n\x7d\n"), ("/-x.mldsl", [])]

/-- A script need not mention helpers to call one that is not there. -/
theorem exists_undefined_helper : (∀ f ∈ namedLikeHelper, Text.hasInfix f.2 helperStem = false)
    ∧ ∃ es, (sample.plan namedLikeHelper).result = .ok es
      ∧ ∃ r ∈ rowsOf es, ∃ e ∈ r.tail, e.callee? = some (helperName 1)
        ∧ (rowsOf es).countP (defines (helperName 1)) = 0 := by
  have hes : (sample.plan namedLikeHelper).result.toOption
      = some [.ofBlock "diamond_block" "x" "no",
          .ofBlock "game" "Вызвать функцию||Вызвать функцию" "slot(13)=text(__autosplit_row_1)"] := by
    decide +kernel
  refine ⟨by decide +kernel, _, ok_of_toOption hes, _, mem_singleton.mpr rfl, _, mem_singleton.mpr rfl, ?_⟩
  decide +kernel

end Data
end BlockScript
