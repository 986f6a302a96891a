import Mathlib.Data.List.Chain
import BlockScript.Proofs.Balance
import BlockScript.Proofs.Faithful
import BlockScript.Proofs.Linking

/-!
# The format of plans

Every row of a plan begins with the block of an event, a function or a cycle and is not too long, and there is exactly
one mark between two rows. Linking changes names and arguments and drops rows, but it never joins what is left of two
rows, as long as the blocks that begin functions and the marks of new rows are no actions of the script
(`Data.compile_formatted`).
-/

open List
namespace BlockScript
open Program
open Script (Error Settings)
open Entry (ofAction)
namespace Plan

/-! ### Rows of a format -/

section Formed
variable {rows : List (List Entry)} {e : Entry}

/-- A plan in which marks stand only between rows, and every row begins with a header and is not too long. -/
structure Formatted (es : List Entry) : Prop where
  first : ∀ e, es.head? = some e → e.isNewline = false
  last : ∀ e, es.getLast? = some e → e.isNewline = false
  apart : es.IsChain fun e e' => ¬ (e.isNewline ∧ e'.isNewline)
  rows : ∀ r ∈ rowsOf es, r.length ≤ rowSize ∧ ∃ header, r.head? = some header ∧ header.isHeader

lemma head?_joinRows (h : ∀ r ∈ rows, IsRow r) (he : (joinRows rows).head? = some e) : e.isNewline = false := by
  cases rows with
  | nil => simp [joinRows] at he
  | cons r rows =>
    obtain ⟨header, as, rfl, hhdr, -⟩ := h r (by simp)
    cases rows <;> (obtain rfl := Option.some.inj he; exact hhdr)

lemma isChain_joinRows (h : ∀ r ∈ rows, IsRow r) :
    (joinRows rows).IsChain fun e e' => ¬ (e.isNewline ∧ e'.isNewline) := by
  have hln : ∀ r, IsRow r → r.IsChain fun e e' => ¬ (e.isNewline ∧ e'.isNewline) := by
    intro r hr
    refine List.Pairwise.isChain (pairwise_of_forall_mem_list fun e he e' _ hmks => ?_)
    simp [hr.isNewline e he] at hmks
  induction rows with
  | nil => exact .nil
  | cons r rows ih =>
    have hr := h r (by simp)
    have hrows : ∀ r ∈ rows, IsRow r := fun r hr => h r (by simp [hr])
    cases rows with
    | nil => exact hln r hr
    | cons r' rows =>
      rw [joinRows_cons (by simp), isChain_append, isChain_cons]
      refine ⟨hln r hr, ⟨fun e he hmks => ?_, ih hrows⟩, fun e he e' _ hmks => ?_⟩
      · simp [head?_joinRows hrows he] at hmks
      · simp [hr.isNewline e (mem_of_getLast? he)] at hmks

lemma formatted_joinRows (h : ∀ r ∈ rows, Formed r) : Formatted (joinRows rows) := by
  have hisRow : ∀ r ∈ rows, IsRow r := fun r hr => (h r hr).isRow
  refine ⟨fun e => head?_joinRows hisRow, fun e => getLast?_joinRows hisRow, isChain_joinRows hisRow, fun r hr => ?_⟩
  rw [rowsOf_joinRows hisRow] at hr
  obtain ⟨hfits, header, as, rfl, hhdr, -⟩ := h r hr
  exact ⟨hfits, header, rfl, hhdr⟩

end Formed

/-! ### Rows of blocks -/

section Rows
variable {events : Table KnownEvent} {owner : Owner} {header : Entry} {part : List Action} {r : Row}

/-- The action is placed neither as the header of a function nor as a mark. -/
def Apart (a : Action) : Prop := a.block ≠ "lapis_block" ∧ a.block ≠ "newline"

instance (a : Action) : Decidable (Apart a) := inferInstanceAs (Decidable (_ ∧ _))

lemma isHeader_of_header (hevs : EventBlocks events) (h : owner.header events = .ok header) : header.isHeader := by
  cases owner with
  | event word =>
    rw [Entry.isHeader]
    rcases block_eventHeader hevs h with hblk | hblk <;> (rw [hblk]; decide)
  | func name =>
    cases h
    rfl
  | loop name ticks =>
    cases h
    rfl

lemma led_of_header (hevs : EventBlocks events) (h : owner.header events = .ok header) (hlen : part.length < rowSize)
    (hpart : ∀ a ∈ part, Apart a) : Led (header :: part.map ofAction) := by
  refine ⟨⟨by simpa using Nat.succ_le_of_lt hlen, header, _, rfl, isHeader_of_header hevs h, fun e he => ?_⟩,
    fun e he => Option.some.inj he ▸ leading_of_header hevs h⟩
  obtain ⟨a, ha, rfl⟩ := mem_map.mp he
  obtain ⟨hfn, hmark⟩ := hpart a ha
  exact ⟨by simpa [Entry.isNewline, ofAction] using hmark, by simpa [Entry.isFunc, ofAction] using hfn⟩

/-- The entries of a row are rows of the format: one, or several with the same header. -/
structure Row.IsFormed (r : Row) : Prop where
  joined : r.Joined
  led : ∀ p ∈ rowsOf r.entries, Led p

lemma Row.rowsOf_of_parts (hevs : EventBlocks events) (h : owner.header events = .ok header)
    {parts : List (List Action)}
    (hne : parts ≠ []) (hpts : ∀ p ∈ parts, p.length < rowSize ∧ ∀ a ∈ p, Apart a)
    (hjoin : r.entries = joinRows (parts.map fun p : List Action => header :: p.map ofAction)) :
    rowsOf r.entries = parts.map (fun p => header :: p.map ofAction) ∧ r.IsFormed := by
  have hled : ∀ row ∈ parts.map (fun p => header :: p.map ofAction), Led row :=
    forall_mem_map.mpr fun p hp => led_of_header hevs h (hpts p hp).1 (hpts p hp).2
  obtain ⟨hjoined, hrows⟩ := Row.joined_of_eq (by simpa using hne) (fun row hrow => (hled row hrow).isRow) hjoin
  exact ⟨hrows, hjoined, by rwa [hrows]⟩

lemma Row.Whole.isFormed {s : Setting} (h : r.Whole s) (hevs : EventBlocks s.events) (hr : ∀ a ∈ r.actions, Apart a) :
    r.IsFormed := by
  obtain ⟨hfits, header, hhdr, hents⟩ := h
  refine (Row.rowsOf_of_parts hevs hhdr (cons_ne_nil r.actions []) ?_ hents).2
  simpa using ⟨Nat.lt_succ_of_le hfits, hr⟩

/-- The row of a cycle becomes rows of the format, with the actions spread over them. -/
lemma Row.rowsOf_of_ok (hevs : EventBlocks events) {as : List Action} (h : (Row.of events owner as).result = .ok r)
    (hr : ∀ a ∈ r.actions, Apart a) :
      r.IsFormed ∧ ∃ header, ∃ parts : List (List Action), owner.header events = .ok header
      ∧ rowsOf r.entries = parts.map (fun p => header :: p.map ofAction)
      ∧ parts.length = (as.length - 1) / maxPayload + 1 := by
  obtain ⟨header, es, hhdr, hes, rfl⟩ := Row.exists_entries h
  have hmark : header.block ≠ "newline" := by simpa [Entry.isNewline] using (header_ok hevs hhdr).1
  obtain ⟨part, parts, hflat, hpart, hpts, hjoin, hcnt⟩ :=
    rowEntriesFrom_ok hes (by decide) (by decide) hmark fun a ha => (hr a ha).2
  obtain ⟨hrows, hform⟩ := Row.rowsOf_of_parts (r := ⟨owner, as, header :: es⟩) hevs hhdr (cons_ne_nil part parts)
    (fun p hp => ⟨(mem_cons.mp hp).elim (fun h => by rw [h]; omega) (hpts p),
      fun a ha => hr a (hflat ▸ mem_flatten.mpr ⟨p, hp, ha⟩)⟩) hjoin
  exact ⟨hform, header, _, hhdr, hrows, by simpa using hcnt⟩

end Rows
end Plan
open Plan
namespace Program
variable {ctx : Context} {m m' : Nat} {f : Finished}

lemma Finished.Made.isFormed (h : f.Made ctx m m') (hevs : EventBlocks ctx.events)
    (hactions : ∀ r ∈ f.chains.flatten, ∀ a ∈ r.actions, Apart a) :
    f.chains ≠ [] ∧ (∀ c ∈ f.chains, c ≠ []) ∧ ∀ r ∈ f.chains.flatten, r.IsFormed := by
  have hrows := h.rows
  cases hown : Subject.ofOwner? f.block.owner with
  | some subject =>
    obtain ⟨hne, hwh⟩ := Setting.blockRows_whole hrows hown
    refine ⟨hne, fun c hc => (hwh c hc).nonempty, fun r hr => ?_⟩
    exact (whole_of_flatten hwh r hr).isFormed hevs (hactions r hr)
  | none =>
    obtain ⟨-, row, hrow, hchs, -⟩ := Setting.blockRows_loop hrows hown
    rw [hchs] at hactions ⊢
    refine ⟨by simp, by simp, fun r hr => ?_⟩
    obtain rfl : r = row := by simpa using hr
    exact (Row.rowsOf_of_ok hevs hrow (hactions r hr)).1

lemma entries_of_made {fs : List Finished} (hmade : ∀ f ∈ fs, ∃ m m', f.Made ctx m m') (hevs : EventBlocks ctx.events)
    (hactions : ∀ f ∈ fs, ∀ r ∈ f.chains.flatten, ∀ a ∈ r.actions, Apart a) :
    Finished.entries fs = joinRows (fs.flatMap Finished.rows) ∧ ∀ r ∈ fs.flatMap Finished.rows, Led r := by
  have hform : ∀ f ∈ fs, f.chains ≠ [] ∧ (∀ c ∈ f.chains, c ≠ []) ∧ ∀ r ∈ f.chains.flatten, r.IsFormed := by
    intro f hf
    obtain ⟨m, m', h⟩ := hmade f hf
    exact h.isFormed hevs (hactions f hf)
  constructor
  · refine entries_finished (fun f hf => ?_) fun f hf => ?_
    all_goals obtain ⟨hne, hchs, hrows⟩ := hform f hf
    · refine flatMap_ne_nil (fun hnil => ?_) fun r hr => (hrows r hr).joined.nonempty
      obtain ⟨c, hc⟩ := exists_mem_of_ne_nil _ hne
      exact hchs c hc (flatten_eq_nil_iff.mp hnil c hc)
    · exact allEntries_chains hchs fun r hr => (hrows r hr).joined
  intro row hrow
  obtain ⟨f, hf, hrow⟩ := mem_flatMap.mp hrow
  obtain ⟨r, hr, hrow⟩ := mem_flatMap.mp hrow
  exact ((hform f hf).2.2 r hr).led row hrow

end Program
namespace Data
variable {cfg : Settings} {d : Data} {files : Files} {entry : Path} {shown : Text} {ctx : Program.Context}
  {p : Program.Prepared} {s : Program.State} {es : List Entry}

/-- If no action of a row is placed as the header of a function or as a mark, the plan of a script has marks only
between rows, and every row of it begins with a header and is not too long. -/
theorem compile_formatted (hsetup : (d.setup cfg files entry shown).result = .ok (ctx, p))
    (hrun : (Program.run ctx p).result = .ok s) (hes : (d.compile cfg files entry shown).result = .ok es)
    (hactions : ∀ f ∈ s.done, ∀ r ∈ f.chains.flatten, ∀ a ∈ r.actions, Apart a) : Formatted es := by
  have hmade : ∀ f ∈ s.done, ∃ m m', f.Made ctx m m' := fun f => (flushed_of_run hrun).made
  obtain ⟨hents, hled⟩ := entries_of_made hmade (eventBlocks_of_setup hsetup) hactions
  have hlink := link_of_compile hsetup hrun hes
  rw [hents] at hlink
  obtain ⟨rows, rfl, hrows, -⟩ := exists_rows_link hled hlink
  exact formatted_joinRows fun r hr => (hrows r hr).formed

theorem compile_formatted_longEvent : ∃ ctx p s es,
    (sample.ready longEvent).result = .ok (ctx, p)
      ∧ (Program.run ctx p).result = .ok s
      ∧ (sample.plan longEvent).result = .ok es
      ∧ (∃ f ∈ s.done, 2 ≤ f.chains.flatten.length)
      ∧ (∀ f ∈ s.done, ∀ r ∈ f.chains.flatten, ∀ a ∈ r.actions, Apart a) ∧ Formatted es := by
  obtain ⟨ctx, p, s, hsetup, hrun, htest⟩ := exists_of_passes longEvent_passes
  obtain ⟨-, -, -, -, hlong, hactions⟩ := of_decide_eq_true htest
  obtain ⟨es, hes⟩ := exists_compile hsetup hrun
  exact ⟨ctx, p, s, es, hsetup, hrun, hes, hlong, hactions, compile_formatted hsetup hrun hes hactions⟩

/-! ### Actions placed as headers and marks -/

/-- The small library with an action placed as the header of a function and one placed as a mark. -/
def markSample : Data :=
  { sample with
    api := .value (.obj [
      sampleSelect [], sampleCall,
      ("a", .obj [("b", sampleSpec "Игра" "b" []), ("f", sampleSpec "Функция" "f" []),
        ("n", sampleSpec "Ряд" "n" [])])])
    blocks := some "[(select) Выбрать объект][(game) Игра][(lapis_block) Функция][(newline) Ряд]" }

/-- An event whose first row ends behind an action placed as the header of a function. -/
def headedEvent : Files :=
  script ("event(x) \x7b\n" ++ (List.replicate 40 ("a.b()\n" : Text)).flatten ++ "a.f()\na.b()\na.b()\n\x7d\n")

def markedEvent : Files := script "event(x) \x7b\na.n()\na.b()\n\x7d\n"

/-- Such actions make rows that are too long and rows without headers. -/
theorem exists_misplaced_rows :
    (∃ es, (markSample.plan headedEvent).result = .ok es
      ∧ ∃ r ∈ rowsOf es, rowSize < r.length)
    ∧ ∃ es, (markSample.plan markedEvent).result = .ok es
      ∧ ∃ r ∈ rowsOf es, ∃ e, r.head? = some e ∧ e.isHeader = false := by
  obtain ⟨hlong, hlo⟩ : ((markSample.plan headedEvent).result.toOption.any
      fun es => decide (∃ r ∈ rowsOf es, rowSize < r.length))
      ∧ (markSample.plan markedEvent).result.toOption.any
        fun es => decide (∃ r ∈ rowsOf es, ∃ e ∈ r.head?, e.isHeader = false) := by
    decide +kernel
  obtain ⟨es, hes, h⟩ := exists_of_any hlong
  obtain ⟨es', hes', h'⟩ := exists_of_any hlo
  exact ⟨⟨es, hes, of_decide_eq_true h⟩, es', hes', of_decide_eq_true h'⟩

end Data
end BlockScript
