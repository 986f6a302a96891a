import BlockScript.Proofs.Format
import BlockScript.Proofs.Nested
import BlockScript.Proofs.Traces

/-!
# Every block is declared once

Each event, function and cycle of a script begins rows of its own: an event and a function one, a cycle as many as its
actions need. All other rows of a plan begin with helpers. Splitting gives a block one row with its own header and any
number of helpers (`Setting.blockRows_owners`); linking drops helpers, and where it drops a function that only calls a
helper, the helper's row becomes the function's (`Plan.exists_rows_link`). So the headers of a plan, helpers apart, are
those of the blocks of the script (`Data.compile_declares`).
-/

open List
namespace BlockScript
open Text Program
open Script (Settings)
namespace Plan

/-! ### Owners of rows -/

def Owner.IsHelper (o : Owner) : Prop := ∃ k, o = .func (helperName k)

section Owners
variable {s : Setting} {subject : Subject} {st st' : SplitState} {owner : Owner} {left : Remaining} {next next' : Nat}
  {rows : Rows} {chains : List Chain}

/-- The first row belongs to `owner` and all others to helpers. -/
structure OwnedBy (owner : Owner) (owners : List Owner) : Prop where
  first : owners.head? = some owner
  others : ∀ o ∈ owners.tail, o.IsHelper

lemma OwnedBy.append {owners more : List Owner} (h : OwnedBy owner owners) (hmore : ∀ o ∈ more, o.IsHelper) :
    OwnedBy owner (owners ++ more) := by
  obtain ⟨hfst, hoths⟩ := h
  cases owners with
  | nil => simp at hfst
  | cons o owners =>
    exact ⟨hfst, forall_mem_append.mpr ⟨hoths, hmore⟩⟩

structure SplitState.Owned (owner : Owner) (st : SplitState) : Prop where
  owners : OwnedBy owner (st.rows.chain.map Row.owner ++ [st.owner])
  helpers : ∀ h ∈ st.rows.helpers, ∃ k, h.name = helperName k

lemma SplitState.Owned.step (hstep : s.Step subject st st') (h : st.Owned owner) : st'.Owned owner := by
  cases hstep with
  | cut c call row long last calls row_eq =>
    have howner : row.owner = st.owner := congrArg Prod.fst (Row.definition_ok row_eq)
    refine ⟨?_, h.helpers⟩
    rw [map_append, map_singleton, howner]
    exact h.owners.append (by simp [Owner.IsHelper])
  | extract call x long stuck calls body =>
    exact ⟨h.owners, forall_mem_cons.mpr ⟨⟨_, rfl⟩, h.helpers⟩⟩

lemma Setting.splitRows_owners (h : (s.splitRows subject owner left next).result = .ok rows) :
    OwnedBy owner (rows.chain.map Row.owner) ∧ ∀ h ∈ rows.helpers, ∃ k, h.name = helperName k := by
  obtain ⟨st, row, hsts, -, hrow, rfl⟩ := Setting.splitRows_ok h
  have hst : SplitState.Owned owner ⟨owner, left, 0, ⟨[], [], next⟩⟩ := ⟨⟨rfl, by simp⟩, by simp⟩
  obtain ⟨howns, hhlp⟩ := hsts.keeps hst SplitState.Owned.step
  have howner : row.owner = st.owner := congrArg Prod.fst (Row.definition_ok hrow)
  rw [← howner] at howns
  exact ⟨by simpa using howns, hhlp⟩

lemma OwnedBy.isHelper {name : Text} {owners : List Owner} (h : OwnedBy (.func name) owners)
    (hnm : ∃ k, name = helperName k) : ∀ o ∈ owners, o.IsHelper := by
  obtain ⟨hfst, hoths⟩ := h
  obtain ⟨k, rfl⟩ := hnm
  cases owners with
  | nil => simp
  | cons o owners =>
    cases hfst
    exact forall_mem_cons.mpr ⟨⟨k, rfl⟩, hoths⟩

lemma Setting.helperRows_owners {h : Helper} (hnm : ∃ k, h.name = helperName k)
    (hrows : (s.helperRows h next).result = .ok rows) :
    (∀ r ∈ rows.chain, r.owner.IsHelper) ∧ ∀ h ∈ rows.helpers, ∃ k, h.name = helperName k := by
  rcases helperRows_cases hrows with ⟨-, row, hrow, rfl⟩ | ⟨-, hrows⟩
  · have howner : row.owner = .func h.name := congrArg Prod.fst (Row.definition_ok hrow)
    obtain ⟨k, hk⟩ := hnm
    refine ⟨?_, by simp⟩
    rw [forall_mem_singleton, howner, hk]
    exact ⟨k, rfl⟩
  obtain ⟨howns, hhlp⟩ := splitRows_owners hrows
  exact ⟨fun r hr => howns.isHelper hnm r.owner (mem_map_of_mem hr), hhlp⟩

/-- Of the rows of an event or a function the first is its own, and the others are helpers. -/
theorem Setting.blockRows_owners (h : (s.blockRows owner left next).result = .ok (chains, next'))
    (hsubj : Subject.ofOwner? owner = some subject) : OwnedBy owner (chains.flatten.map Row.owner) := by
  rcases blockRows_cases h hsubj with ⟨-, -, row, hrow, rfl⟩ | ⟨-, rows, hrows, h⟩
  · have howner : row.owner = owner := congrArg Prod.fst (Row.definition_ok hrow)
    exact ⟨by simp [howner], by simp⟩
  obtain ⟨howns, hhlp⟩ := splitRows_owners hrows
  obtain ⟨more, hmore, rfl⟩ := withHelpers_run h
  have hhlp : ∀ c ∈ more, ∀ r ∈ c, r.owner.IsHelper :=
    helpersRows_forall hmore (by simpa using hhlp) helperRows_owners
  rw [flatten_cons, map_append]
  exact howns.append (forall_mem_map.mpr (forall_mem_flatten.mpr hhlp))

end Owners
end Plan
open Plan
namespace Program
variable {ctx : Context} {m m' : Nat} {f : Finished} {header : Entry}
  {e : Entry} {owner : Owner} {fs : List Finished}

/-! ### Rows of blocks -/

/-- How many rows begin with the header of a block: a cycle's actions are spread over rows of its own. -/
def Finished.rowCount (f : Finished) : Nat :=
  match f.block.owner with
  | .loop _ _ => (f.left.actions.length - 1) / maxPayload + 1
  | _ => 1

lemma isHelperHeader_of_helper {o : Owner} (h : o.IsHelper) (hhdr : o.header ctx.events = .ok header) :
    isHelperHeader header := by
  obtain ⟨k, rfl⟩ := h
  cases hhdr
  simp [isHelperHeader, Entry.isFunc, Entry.label, Entry.ofBlock, helperName, startsWith]

lemma rowsOf_of_whole (hevs : EventBlocks ctx.events) {r : Row} (h : r.Whole ctx.toSetting)
    (hr : ∀ a ∈ r.actions, Apart a) : rowsOf r.entries = [r.entries] := by
  obtain ⟨hfits, header, hhdr, hents⟩ := h
  have hled : Led r.entries := by
    rw [hents]
    exact led_of_header hevs hhdr (Nat.lt_succ_of_le hfits) hr
  have hrow : ∀ es ∈ [r.entries], IsRow es := by simpa using hled.isRow
  exact rowsOf_joinRows hrow

lemma heads_of_whole (hevs : EventBlocks ctx.events) {rs : List Row}
    (hrs : ∀ r ∈ rs, r.Whole ctx.toSetting ∧ ∀ a ∈ r.actions, Apart a) :
    (rs.flatMap fun r => rowsOf r.entries).filterMap head?
      = (rs.map Row.owner).filterMap fun o => (o.header ctx.events).toOption := by
  induction rs with
  | nil => rfl
  | cons r rs ih =>
    obtain ⟨hwh, hapart⟩ := hrs r (by simp)
    have hrow := rowsOf_of_whole hevs hwh hapart
    obtain ⟨-, header, hhdr, hents⟩ := hwh
    have htail := ih fun r hr => hrs r (by simp [hr])
    rw [flatMap_cons, filterMap_append, htail, hrow, hents]
    simp [hhdr, Except.toOption]

lemma count_heads_of_owned {owners : List Owner} (h : OwnedBy owner owners)
    (hhdr : owner.header ctx.events = .ok header) (he : isHelperHeader e = false) :
    (owners.filterMap fun o => (o.header ctx.events).toOption).count e = if e = header then 1 else 0 := by
  obtain ⟨hfst, hoths⟩ := h
  cases owners with
  | nil => simp at hfst
  | cons o owners =>
    cases hfst
    have hnone : e ∉ owners.filterMap fun o => (o.header ctx.events).toOption := by
      intro hmem
      obtain ⟨o', ho', heq⟩ := mem_filterMap.mp hmem
      rcases hh : o'.header ctx.events with _ | header'
      · simp [hh, Except.toOption] at heq
      obtain rfl : header' = e := by simpa [hh, Except.toOption] using heq
      simp [isHelperHeader_of_helper (hoths o' ho') hh] at he
    rw [filterMap_cons_some (by rw [hhdr]; rfl), count_cons, count_eq_zero_of_not_mem hnone]
    by_cases heq : e = header
    · simp [heq]
    · simp [heq, Ne.symm heq]

/-- The rows of a cycle: its actions fill one after another, and each begins with its header. -/
lemma heads_of_loop (hevs : EventBlocks ctx.events) {as : List Action} {r : Row}
    (h : (Row.of ctx.events owner as).result = .ok r) (has : ∀ a ∈ as, Apart a) :
    ∃ header, owner.header ctx.events = .ok header
      ∧ (rowsOf r.entries).filterMap head? = replicate ((as.length - 1) / maxPayload + 1) header := by
  obtain ⟨-, header, parts, hhdr, hrows, hcnt⟩ := Row.rowsOf_of_ok hevs h (Row.actions_of_ok h ▸ has)
  refine ⟨header, hhdr, ?_⟩
  rw [hrows, eq_replicate_iff]
  constructor
  · rw [filterMap_map]
    simp [Function.comp_def, hcnt]
  intro e he
  obtain ⟨row, hrow, hhead⟩ := mem_filterMap.mp he
  obtain ⟨p, -, rfl⟩ := mem_map.mp hrow
  exact (Option.some.inj hhead).symm

/-- The rows of a block begin with an entry `h`, as many as the block has rows of its own, or with helpers. -/
structure Finished.Declares (ctx : Context) (f : Finished) (h : Entry) : Prop where
  header : f.block.owner.header ctx.events = .ok h
  count : ∀ e, isHelperHeader e = false → (f.rows.filterMap head?).count e = if e = h then f.rowCount else 0

theorem Finished.Made.declares (h : f.Made ctx m m') (hevs : EventBlocks ctx.events)
    (hactions : ∀ r ∈ f.chains.flatten, ∀ a ∈ r.actions, Apart a) : ∃ header, f.Declares ctx header := by
  have hrows := h.rows
  cases hsubj : Subject.ofOwner? f.block.owner with
  | some subject =>
    obtain ⟨-, hwh⟩ := Setting.blockRows_whole hrows hsubj
    have hhd := heads_of_whole hevs fun r hr => ⟨whole_of_flatten hwh r hr, hactions r hr⟩
    have howned := Setting.blockRows_owners hrows hsubj
    have hone : f.rowCount = 1 := by
      cases howner : f.block.owner <;> simp [howner, Subject.ofOwner?, Finished.rowCount] at hsubj ⊢
    obtain ⟨r, rs, hchs⟩ : ∃ r rs, f.chains.flatten = r :: rs := by
      cases hflat : f.chains.flatten with
      | nil => simpa [hflat] using howned.first
      | cons r rs => exact ⟨r, rs, rfl⟩
    obtain ⟨-, header, hhdr, -⟩ := whole_of_flatten hwh r (by simp [hchs])
    have howner : r.owner = f.block.owner := by simpa [hchs] using howned.first
    rw [howner] at hhdr
    refine ⟨header, hhdr, fun e he => ?_⟩
    rw [Finished.rows, hhd, count_heads_of_owned howned hhdr he, hone]
  | none =>
    obtain ⟨⟨name, ticks, howner⟩, row, hrow, hchs, -⟩ := Setting.blockRows_loop hrows hsubj
    have hdef : row.actions = f.left.actions := Row.actions_of_ok hrow
    have hapart : ∀ a ∈ f.left.actions, Apart a := hdef ▸ hactions row (by simp [hchs])
    obtain ⟨header, hhdr, hhd⟩ := heads_of_loop hevs hrow hapart
    have hall : f.rows.filterMap head? = replicate f.rowCount header := by
      simpa [Finished.rows, hchs, Finished.rowCount, howner] using hhd
    refine ⟨header, hhdr, fun e _ => ?_⟩
    rw [hall, count_replicate]
    by_cases heq : e = header
    · simp [heq]
    · simp [heq, Ne.symm heq]

lemma Finished.Declares.eq_of_mem (h : f.Declares ctx header)
    (he : isHelperHeader e = false) (hmem : e ∈ f.rows.filterMap head?) : e = header := by
  have hcnt := h.count e he
  by_contra hne
  rw [if_neg hne] at hcnt
  exact count_eq_zero.mp hcnt hmem

lemma mem_heads_flatMap : e ∈ (fs.flatMap Finished.rows).filterMap head? ↔ ∃ f ∈ fs, e ∈ f.rows.filterMap head? := by
  rw [filterMap_flatMap, mem_flatMap]

/-- Where blocks have different headers, the header of a block stands in its own rows only. -/
lemma count_heads_flatMap (hfs : ∀ g ∈ fs, ∃ header, g.Declares ctx header) (hf : f ∈ fs) (hhdr : f.Declares ctx header)
    (hnm : isHelperHeader header = false) (hdistinct : (fs.map fun g => g.block.owner.header ctx.events).Nodup) :
    ((fs.flatMap Finished.rows).filterMap head?).count header = f.rowCount := by
  obtain ⟨pre, post, rfl⟩ := append_of_mem hf
  have hoth (gs : List Finished) : (∀ g ∈ gs, g ∈ pre ++ f :: post ∧ g.block.owner.header ctx.events ≠ .ok header) →
      ((gs.flatMap Finished.rows).filterMap head?).count header = 0 := by
    intro hgs
    rw [count_eq_zero, mem_heads_flatMap]
    rintro ⟨g, hg, hmem⟩
    obtain ⟨header', hg'⟩ := hfs g (hgs g hg).1
    exact (hgs g hg).2 (hg'.eq_of_mem hnm hmem ▸ hg'.header)
  rw [map_append, map_cons, nodup_append, nodup_cons] at hdistinct
  obtain ⟨-, ⟨hpost, -⟩, hpre⟩ := hdistinct
  have hbef := hoth pre fun g hg => ⟨by simp [hg], fun heq =>
    hpre _ (mem_map_of_mem hg) _ mem_cons_self (heq.trans hhdr.header.symm)⟩
  have hbeh := hoth post fun g hg => ⟨by simp [hg], fun heq =>
    hpost (by rw [hhdr.header, ← heq]; exact mem_map_of_mem hg)⟩
  rw [flatMap_append, flatMap_cons, filterMap_append, filterMap_append, count_append,
    count_append, hhdr.count header hnm, if_pos rfl]
  omega

end Program
namespace Data
variable {cfg : Settings} {d : Data} {files : Files} {entry : Path} {shown : Text} {ctx : Program.Context}
  {p : Program.Prepared} {s : Program.State} {es : List Entry}

lemma isHelperHeader_eq_false {o : Owner} {header : Entry} (hevs : EventBlocks ctx.events)
    (hhdr : o.header ctx.events = .ok header) (hnm : startsWith o.name helperStem = false) :
    isHelperHeader header = false := by
  by_contra hhelp
  rw [Bool.not_eq_false, isHelperHeader, Bool.and_eq_true] at hhelp
  obtain ⟨name, rfl⟩ := (header_ok hevs hhdr).2 hhelp.1
  cases hhdr
  have hlab : startsWith name helperStem := hhelp.2
  rw [Owner.name, hlab] at hnm
  contradiction

/-- Every event and every function of a script has exactly one row of its own in the plan, a cycle one for every 42
actions, and at least one; every other row belongs to a helper. The blocks must have different headers and names that
are not helpers', and no action may be placed as the header of a function or as a mark. -/
theorem compile_declares (hsetup : (d.setup cfg files entry shown).result = .ok (ctx, p))
    (hrun : (Program.run ctx p).result = .ok s) (hes : (d.compile cfg files entry shown).result = .ok es)
    (hactions : ∀ f ∈ s.done, ∀ r ∈ f.chains.flatten, ∀ a ∈ r.actions, Apart a)
    (hnames : ∀ o ∈ p.owners, Text.startsWith o.name helperStem = false)
    (hdistinct : (p.owners.map fun o => o.header ctx.events).Nodup) : s.done.map (fun f => f.block.owner) = p.owners
      ∧ (∀ f ∈ s.done, ∃ header, f.block.owner.header ctx.events = .ok header
        ∧ (rowsOf es).countP (fun r => r.head? == some header) = f.rowCount)
      ∧ ∀ r ∈ rowsOf es, ∃ e, r.head? = some e
        ∧ ((∃ o ∈ p.owners, o.header ctx.events = .ok e) ∨ isHelperHeader e) := by
  have howns := owners_of_run hrun
  have hevs := eventBlocks_of_setup hsetup
  have hmade : ∀ f ∈ s.done, ∃ m m', f.Made ctx m m' := fun f => (flushed_of_run hrun).made
  obtain ⟨hents, hled⟩ := entries_of_made hmade hevs hactions
  have hdecl : ∀ f ∈ s.done, ∃ header, f.Declares ctx header := by
    intro f hf
    obtain ⟨m, m', h⟩ := hmade f hf
    exact h.declares hevs (hactions f hf)
  have hlink := link_of_compile hsetup hrun hes
  rw [hents] at hlink
  obtain ⟨rows, rfl, hrows, hsame⟩ := exists_rows_link hled hlink
  simp only [heads] at hsame
  rw [rowsOf_joinRows fun r hr => (hrows r hr).isRow]
  have hown : ∀ f ∈ s.done, f.block.owner ∈ p.owners := fun f hf =>
    howns ▸ mem_map_of_mem hf
  refine ⟨howns, fun f hf => ?_, fun r hr => ?_⟩
  · obtain ⟨header, hhdr⟩ := hdecl f hf
    have hnm := isHelperHeader_eq_false hevs hhdr.header (hnames _ (hown f hf))
    refine ⟨header, hhdr.header, ?_⟩
    rw [← count_filterMap, hsame header hnm]
    rw [← howns, map_map] at hdistinct
    exact count_heads_flatMap hdecl hf hhdr hnm hdistinct
  · obtain ⟨-, e, as, rfl, -⟩ := (hrows r hr).formed
    refine ⟨e, rfl, ?_⟩
    by_cases hhelp : isHelperHeader e
    · exact .inr hhelp
    rw [Bool.not_eq_true] at hhelp
    have hmem : e ∈ (s.done.flatMap Program.Finished.rows).filterMap List.head? := by
      rw [← count_pos_iff, ← hsame e hhelp, count_pos_iff]
      exact mem_filterMap.mpr ⟨_, hr, rfl⟩
    obtain ⟨f, hf, hmem⟩ := mem_heads_flatMap.mp hmem
    obtain ⟨header, hhdr⟩ := hdecl f hf
    obtain rfl := hhdr.eq_of_mem hhelp hmem
    exact .inl ⟨_, hown f hf, hhdr.header⟩

/-- A cycle and an event that are too long for a row, and a function. -/
def threeBlocks : Files :=
  script ("loop l 20 \x7b\n" ++ (replicate 43 ("a.b()\n" : Text)).flatten ++ "\x7d\nevent(x) \x7b\n"
    ++ (replicate 43 ("a.b()\n" : Text)).flatten ++ "\x7d\nfunc f \x7b\na.b()\n\x7d\n")

lemma threeBlocks_passes :
    passes (stackSample.ready threeBlocks).result fun ctx s =>
      decide (ctx.events.isEmpty ∧ s.done.map (fun f => f.block.owner) = [.loop "l" 20, .event "x", .func "f"]
        ∧ s.done.map Program.Finished.rowCount = [2, 1, 1]
        ∧ ∀ f ∈ s.done, ∀ r ∈ f.chains.flatten, ∀ a ∈ r.actions, Apart a) := by
  decide +kernel

theorem compile_declares_threeBlocks : ∃ ctx p s es,
    (stackSample.ready threeBlocks).result = .ok (ctx, p)
      ∧ (Program.run ctx p).result = .ok s
      ∧ (stackSample.plan threeBlocks).result = .ok es
      ∧ p.owners = [.loop "l" 20, .event "x", .func "f"] ∧ s.done.map Program.Finished.rowCount = [2, 1, 1]
      ∧ (∀ f ∈ s.done, ∃ header, f.block.owner.header ctx.events = .ok header
        ∧ (rowsOf es).countP (fun r => r.head? == some header) = f.rowCount)
      ∧ ∀ r ∈ rowsOf es, ∃ e, r.head? = some e
        ∧ ((∃ o ∈ p.owners, o.header ctx.events = .ok e) ∨ isHelperHeader e) := by
  obtain ⟨ctx, p, s, hsetup, hrun, htest⟩ := exists_of_passes threeBlocks_passes
  obtain ⟨hevs, howns, hcnts, hactions⟩ := of_decide_eq_true htest
  obtain ⟨es, hes⟩ := exists_compile hsetup hrun
  rw [owners_of_run hrun] at howns
  have hnames : ∀ o ∈ p.owners, startsWith o.name helperStem = false := by
    rw [howns]
    decide
  have hdistinct : (p.owners.map fun o => o.header ctx.events).Nodup := by
    rw [howns]
    have hev : Owner.eventHeader ctx.events ['x'] = .ok (.ofBlock "diamond_block" "x" "no") := by
      rw [Owner.eventHeader, hevs]
      rfl
    simp [Owner.header, hev, Entry.ofBlock]
  obtain ⟨-, hown, hrows⟩ := compile_declares hsetup hrun hes hactions hnames hdistinct
  exact ⟨ctx, p, s, es, hsetup, hrun, hes, howns, hcnts, hown, hrows⟩

def twoNames : Files := script "event(join) \x7b\na.b()\n\x7d\nevent(вход) \x7b\na.b()\n\x7d\n"

def longLoop : Files :=
  script ("loop l 20 \x7b\n" ++ (replicate 43 ("a.b()\n" : Text)).flatten ++ "\x7d\n")

/-- A long cycle begins two rows, two names of one event begin rows with one header, and behind an action placed
as a mark stands a row of no block. -/
theorem exists_declared_again :
    (∃ es, (sample.plan longLoop).result = .ok es
      ∧ (rowsOf es).map List.head? = List.replicate 2 (some (.ofBlock "emerald_block" "l" "20")))
    ∧ (∃ es, (sample.plan twoNames).result = .ok es
      ∧ (rowsOf es).map List.head? = List.replicate 2 (some (.ofBlock "diamond_block" "вход" "no")))
    ∧ ∃ es, (markSample.plan markedEvent).result = .ok es
      ∧ (rowsOf es).map List.head?
        = [some (.ofBlock "diamond_block" "x" "no"), some (.ofBlock "game" "b||b" "no")] := by
  obtain ⟨hloop, hnames⟩ : ((sample.plan longLoop).result.toOption.any fun es =>
      decide ((rowsOf es).map List.head? = List.replicate 2 (some (.ofBlock "emerald_block" "l" "20"))))
      ∧ (sample.plan twoNames).result.toOption.any fun es =>
        decide ((rowsOf es).map List.head? = List.replicate 2 (some (.ofBlock "diamond_block" "вход" "no"))) := by
    decide +kernel
  have hmark : (markSample.plan markedEvent).result.toOption.any fun es =>
      decide ((rowsOf es).map List.head?
        = [some (.ofBlock "diamond_block" "x" "no"), some (.ofBlock "game" "b||b" "no")]) := by
    decide +kernel
  obtain ⟨es, hes, h⟩ := exists_of_any hloop
  obtain ⟨es', hes', h'⟩ := exists_of_any hnames
  obtain ⟨es'', hes'', h''⟩ := exists_of_any hmark
  exact ⟨⟨es, hes, of_decide_eq_true h⟩, ⟨es', hes', of_decide_eq_true h'⟩, es'', hes'', of_decide_eq_true h''⟩

end Data
end BlockScript
