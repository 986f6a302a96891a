import BlockScript.Script.Data
import BlockScript.Proofs.Matching
import BlockScript.Proofs.Rows
import BlockScript.Proofs.Runs

/-!
# Plans unfold to their scripts

A plan is made of rows. Where the rows of a script are joined, no row is a call of a helper alone, so there is nothing
to shorten, and the plan consists of the very rows that splitting gave: unfolding the calls of helpers gives back what
the script says (`Data.compile_unfolds`).
-/

open List Option
namespace BlockScript
open Text Program
open Entry (ofAction)
open Script (Compile Settings)
namespace Plan

/-! ### Rows of plans -/

section
variable {r : List Entry} {rows rows' : List (List Entry)} {header e : Entry} {as es : List Entry}
  {isHead : Entry → Bool} {seg : Segment}

def joinRows : List (List Entry) → List Entry
  | [] => []
  | [r] => r
  | r :: rest => r ++ .newline :: joinRows rest

/-- The rows of a plan: what stands between the marks. -/
def rowsOf (es : List Entry) : List (List Entry) := if es.isEmpty then [] else es.splitOnP Entry.isNewline

/-- A header and entries behind it that neither are marks nor begin functions. -/
def IsRow (r : List Entry) : Prop :=
  ∃ header as, r = header :: as ∧ header.isNewline = false ∧ ∀ e ∈ as, e.isNewline = false ∧ e.isFunc = false

lemma joinRows_cons (h : rows ≠ []) : joinRows (r :: rows) = r ++ .newline :: joinRows rows := by
  cases rows with
  | nil => contradiction
  | cons => rfl

lemma joinRows_append (h : rows ≠ []) (h' : rows' ≠ []) :
    joinRows (rows ++ rows') = joinRows rows ++ .newline :: joinRows rows' := by
  induction rows with
  | nil => contradiction
  | cons r rows ih =>
    rw [cons_append, joinRows_cons (by simp [h'])]
    cases rows with
    | nil => rfl
    | cons r' rows =>
      change _ = (r ++ .newline :: joinRows (r' :: rows)) ++ _
      rw [ih (by simp)]
      simp

lemma IsRow.ne_nil (h : IsRow r) : r ≠ [] := by
  obtain ⟨header, as, rfl, -⟩ := h
  simp

lemma IsRow.isNewline (h : IsRow r) : ∀ e ∈ r, e.isNewline = false := by
  obtain ⟨header, as, rfl, hhdr, has⟩ := h
  simpa [hhdr] using fun e he => (has e he).1

lemma joinRows_ne_nil (h : rows ≠ []) (hrows : ∀ r ∈ rows, IsRow r) : joinRows rows ≠ [] := by
  cases rows with
  | nil => contradiction
  | cons r rows =>
    have hr := (hrows r (by simp)).ne_nil
    cases rows with
    | nil => exact hr
    | cons r' rows => simp [joinRows]

lemma rowsOf_joinRows (hrows : ∀ r ∈ rows, IsRow r) : rowsOf (joinRows rows) = rows := by
  have hspl : rows ≠ [] → (joinRows rows).splitOnP Entry.isNewline = rows := by
    intro hne
    induction rows with
    | nil => contradiction
    | cons r rows ih =>
      have hr := splitOnP_eq_singleton (hrows r (by simp)).isNewline
      cases rows with
      | nil => exact hr
      | cons r' rows =>
        rw [joinRows_cons (by simp), splitOnP_append_cons _ _ rfl, hr,
          ih (fun r hr => hrows r (by simp [hr])) (by simp)]
        rfl
  cases rows with
  | nil => rfl
  | cons r rows =>
    rw [rowsOf, if_neg (by simpa using joinRows_ne_nil (by simp) hrows), hspl (by simp)]

/-! ### Segments of rows -/

/-- The segments of a row, in which a header that `isHead` accepts is told apart. -/
def rowSegments (isHead : Entry → Bool) : List Entry → List Segment
  | [] => []
  | header :: as => if isHead header then [.func header as] else (header :: as).map .loose

def segmentsOf (isHead : Entry → Bool) : List (List Entry) → List Segment
  | [] => []
  | [r] => rowSegments isHead r
  | r :: rest => rowSegments isHead r ++ .loose .newline :: segmentsOf isHead rest

lemma segmentsOf_cons (h : rows ≠ []) :
    segmentsOf isHead (r :: rows) = rowSegments isHead r ++ .loose .newline :: segmentsOf isHead rows := by
  cases rows with
  | nil => contradiction
  | cons => rfl

lemma flatten_segmentsOf (isHead : Entry → Bool) (rows : List (List Entry)) :
    Segment.flatten (segmentsOf isHead rows) = joinRows rows := by
  have hrow : ∀ r, Segment.flatten (rowSegments isHead r) = r := by
    rintro (_ | ⟨header, as⟩)
    · rfl
    rw [rowSegments]
    split <;> simp [Segment.flatten, Segment.entries, flatMap_map]
  induction rows with
  | nil => rfl
  | cons r rows ih =>
    cases rows with
    | nil => exact hrow r
    | cons r' rows =>
      rw [segmentsOf_cons (by simp), joinRows_cons (by simp), ← ih, Segment.flatten, flatMap_append,
        ← Segment.flatten, hrow]
      rfl

lemma mem_segmentsOf (h : seg ∈ segmentsOf isHead rows) :
    seg = .loose .newline ∨ ∃ r ∈ rows, seg ∈ rowSegments isHead r := by
  induction rows with
  | nil => simp [segmentsOf] at h
  | cons r rows ih =>
    by_cases hrows : rows = []
    · subst hrows
      exact .inr ⟨r, by simp, h⟩
    rw [segmentsOf_cons hrows, mem_append, mem_cons] at h
    rcases h with h | h | h
    · exact .inr ⟨r, by simp, h⟩
    · exact .inl h
    · exact (ih h).imp_right fun ⟨r', hr', h⟩ => ⟨r', by simp [hr'], h⟩

lemma ofEntries_append (h : ∀ e ∈ as, isHead e = false) :
    Segment.ofEntries isHead (as ++ es) = as.map .loose ++ Segment.ofEntries isHead es := by
  induction as with
  | nil => rfl
  | cons e as ih =>
    rw [cons_append, Segment.ofEntries, if_neg (by simp [h e]), ih fun e he => h e (by simp [he])]
    rfl

lemma ofEntries_row (hhead : ∀ e, isHead e → e.isFunc) (has : ∀ e ∈ as, e.isNewline = false ∧ e.isFunc = false)
    (hes : ∀ e, es.head? = some e → e.isNewline) :
    Segment.ofEntries isHead (header :: (as ++ es)) = rowSegments isHead (header :: as)
      ++ Segment.ofEntries isHead es := by
  have hstop p : (∀ e, es.head? = some e → p e = false) → es.takeWhile p = [] ∧ es.dropWhile p = es := by
    intro hp
    cases es with
    | nil => exact ⟨rfl, rfl⟩
    | cons e es => simp [hp e rfl]
  rw [Segment.ofEntries, rowSegments]
  split
  next =>
    have hln : ∀ e ∈ as, (!e.isNewline) = true := fun e he => by simp [(has e he).1]
    obtain ⟨htake, hdrop⟩ := hstop (!·.isNewline) fun e he => by simp [hes e he]
    rw [takeWhile_append_of_pos hln, dropWhile_append_of_pos hln, htake, hdrop, append_nil]
    rfl
  next =>
    rw [ofEntries_append fun e he => ?_]
    · rfl
    by_contra h
    simpa [(has e he).2] using hhead e (by simpa using h)

lemma ofEntries_joinRows (hhead : ∀ e, isHead e → e.isFunc) (hrows : ∀ r ∈ rows, IsRow r) :
    Segment.ofEntries isHead (joinRows rows) = segmentsOf isHead rows := by
  have hmark : isHead .newline = false := by
    by_contra hh
    simpa [Entry.isFunc, Entry.newline] using hhead .newline (by simpa using hh)
  have hnil : Segment.ofEntries isHead [] = [] := by rw [Segment.ofEntries]
  induction rows with
  | nil => exact hnil
  | cons r rows ih =>
    obtain ⟨header, as, rfl, -, has⟩ := hrows r (by simp)
    by_cases hne : rows = []
    · have hrow : Segment.ofEntries isHead (header :: (as ++ [])) = _ := ofEntries_row hhead has (by simp)
      simpa [hne, joinRows, segmentsOf, hnil] using hrow
    have hrest : Segment.ofEntries isHead (.newline :: joinRows rows) = .loose .newline :: segmentsOf isHead rows := by
      rw [Segment.ofEntries, if_neg (by simp [hmark]), ih fun r hr => hrows r (by simp [hr])]
    rw [joinRows_cons hne, segmentsOf_cons hne, cons_append,
      ofEntries_row hhead has (by simp [Entry.isNewline, Entry.newline]), hrest]

/-! ### Tidying up -/

lemma tidyFrom_append {b : Bool} (h : ∀ e ∈ as, e.isNewline = false) :
    tidyFrom b (as ++ es) = as ++ tidyFrom (b && as.isEmpty) es := by
  induction as generalizing b with
  | nil => simp
  | cons e as ih =>
    rw [cons_append, tidyFrom, if_neg (by simp [h e]), ih fun e he => h e (by simp [he])]
    simp

/-- Marks next to each other are left out with the empty rows between them; one may remain at the end. -/
lemma tidyFrom_joinRows_filter (h : ∀ r ∈ rows, ∀ e ∈ r, e.isNewline = false) :
    ∃ tail, tidyFrom true (joinRows rows) = joinRows (rows.filter (!·.isEmpty)) ++ tail
      ∧ (tail = [] ∨ tail = [.newline] ∧ rows.filter (!·.isEmpty) ≠ []) := by
  induction rows with
  | nil => exact ⟨[], rfl, .inl rfl⟩
  | cons r rows ih =>
    have hr := h r (by simp)
    obtain ⟨tail, htidy, htail⟩ := ih fun r hr => h r (by simp [hr])
    have hmark : Entry.newline.isNewline = true := rfl
    cases r with
    | nil =>
      rw [filter_cons_of_neg (by simp)]
      cases rows with
      | nil => exact ⟨tail, htidy, htail⟩
      | cons r' rows =>
        refine ⟨tail, ?_, htail⟩
        rw [joinRows_cons (by simp), nil_append, tidyFrom, if_pos hmark, if_pos rfl, htidy]
    | cons e as =>
      rw [filter_cons_of_pos (by simp)]
      cases rows with
      | nil =>
        refine ⟨[], ?_, .inl rfl⟩
        simpa [joinRows, tidyFrom] using (tidyFrom_append hr : tidyFrom true ((e :: as) ++ []) = _)
      | cons r' rows =>
        have hjoin : tidyFrom true (joinRows ((e :: as) :: r' :: rows))
            = (e :: as) ++ .newline :: (joinRows ((r' :: rows).filter (!·.isEmpty)) ++ tail) := by
          rw [joinRows_cons (by simp), tidyFrom_append hr, isEmpty_cons, tidyFrom, if_pos hmark,
            if_neg (by simp), htidy]
        rcases htail with rfl | ⟨rfl, hne⟩
        · by_cases hne : (r' :: rows).filter (!·.isEmpty) = []
          · exact ⟨[.newline], by rw [hjoin, hne]; rfl, .inr ⟨rfl, by simp⟩⟩
          · exact ⟨[], by rw [hjoin, joinRows_cons hne]; simp, .inl rfl⟩
        · exact ⟨[.newline], by rw [hjoin, joinRows_cons hne]; simp, .inr ⟨rfl, by simp⟩⟩

lemma getLast?_joinRows (hrows : ∀ r ∈ rows, IsRow r) (h : (joinRows rows).getLast? = some e) :
    e.isNewline = false := by
  induction rows with
  | nil => simp [joinRows] at h
  | cons r rows ih =>
    cases rows with
    | nil => exact (hrows r (by simp)).isNewline e (mem_of_getLast? h)
    | cons r' rows =>
      have hne := joinRows_ne_nil (cons_ne_nil r' rows) fun r hr => hrows r (by simp [hr])
      rw [joinRows_cons (by simp), append_cons, getLast?_append] at h
      obtain ⟨d, hd⟩ := isSome_iff_exists.mp (getLast?_isSome.mpr hne)
      rw [hd] at h
      cases h
      exact ih (fun r hr => hrows r (by simp [hr])) hd

lemma tidy_joinRows (h : ∀ r ∈ rows, r = [] ∨ IsRow r) :
    tidy (joinRows rows) = joinRows (rows.filter (!·.isEmpty)) := by
  have hmks : ∀ r ∈ rows, ∀ e ∈ r, e.isNewline = false := by
    intro r hr e he
    rcases h r hr with rfl | hr
    · simp at he
    · exact hr.isNewline e he
  have hlast : ∀ e, (joinRows (rows.filter (!·.isEmpty))).getLast? = some e → e.isNewline = false := by
    refine fun e he => getLast?_joinRows (fun r hr => ?_) he
    obtain ⟨hr, hne⟩ := mem_filter.mp hr
    exact (h r hr).resolve_left (by simpa using hne)
  obtain ⟨tail, htidy, rfl | ⟨rfl, -⟩⟩ := tidyFrom_joinRows_filter hmks
  · rw [append_nil] at htidy
    rw [tidy, htidy]
    cases he : (joinRows (rows.filter (!·.isEmpty))).getLast? with
    | none => rfl
    | some e => simp [hlast e he]
  · simp [tidy, htidy, Entry.isNewline, Entry.newline]

/-! ### Nothing to shorten -/

def NoneLeads (rows : List (List Entry)) : Prop :=
  ∀ header call, [header, call] ∈ rows → header.isFunc → call.helperTarget? = none

lemma leadsTo?_none (hhead : ∀ e, isHead e → e.isFunc) (hnone : NoneLeads rows) (h : seg ∈ segmentsOf isHead rows) :
    seg.leadsTo? = none := by
  rcases mem_segmentsOf h with rfl | ⟨_ | ⟨header, as⟩, hr, hseg⟩
  · rfl
  · simp [rowSegments] at hseg
  rw [rowSegments] at hseg
  split at hseg
  next hh =>
    obtain rfl := mem_singleton.mp hseg
    rcases as with _ | ⟨call, _ | _⟩
    · rfl
    · simp [Segment.leadsTo?, hnone header call hr (hhead header hh)]
    · rfl
  next =>
    obtain ⟨e, -, rfl⟩ := List.mem_map.mp hseg
    rfl

lemma isFunc_of_onlyHelper (h : isOnlyHelper es e) : e.isFunc ∧ startsWith e.label helperStem := by
  simp only [isOnlyHelper, Bool.and_eq_true] at h
  exact h.1

lemma collapse_joinRows (hrows : ∀ r ∈ rows, IsRow r) (hnone : NoneLeads rows) :
    collapse (joinRows rows) = (joinRows rows, 0) := by
  have hfn : ∀ e, isOnlyHelper (joinRows rows) e → e.isFunc := fun e he => (isFunc_of_onlyHelper he).1
  have hlinks : (segmentsOf (isOnlyHelper (joinRows rows)) rows).filterMap Segment.leadsTo? = [] := by
    rw [filterMap_eq_nil_iff]
    exact fun seg hseg => leadsTo?_none hfn hnone hseg
  simp only [collapse, ofEntries_joinRows hfn hrows, hlinks]
  rfl

lemma promote_joinRows (hrows : ∀ r ∈ rows, IsRow r) (hnone : NoneLeads rows) :
    promote (joinRows rows) = (joinRows rows, 0) := by
  have hwrap : wrapper? (segmentsOf Entry.isFunc rows) = none := by
    rw [wrapper?, findSome?_eq_none_iff]
    intro seg hseg
    simp [leadsTo?_none (fun _ h => h) hnone hseg]
  have hfrom : ∀ fuel, promoteFrom fuel (segmentsOf Entry.isFunc rows) = (segmentsOf Entry.isFunc rows, 0) := by
    rintro (_ | fuel)
    · rfl
    · simp [promoteFrom, hwrap]
  have hfilter : rows.filter (!·.isEmpty) = rows := filter_eq_self.mpr fun r hr => by simpa using (hrows r hr).ne_nil
  simp [promote, ofEntries_joinRows (fun _ h => h) hrows, hfrom, flatten_segmentsOf,
    tidy_joinRows fun r hr => .inr (hrows r hr), hfilter]

lemma result_link (cfg : Settings) (es : List Entry) : (link cfg es).result = .ok (promote (collapse es).1).1 := by
  rw [link]
  dsimp only
  split <;> split <;> simp [Compile.result_bind, Except.bind]

theorem result_link_joinRows (cfg : Settings) (hrows : ∀ r ∈ rows, IsRow r) (hnone : NoneLeads rows) :
    (link cfg (joinRows rows)).result = .ok (joinRows rows) := by
  rw [result_link, collapse_joinRows hrows hnone, promote_joinRows hrows hnone]

end

/-! ### Ordinary actions -/

lemma hasInfix_iff {t u : Text} : hasInfix t u ↔ u <:+: t := by
  induction t with
  | nil => simp [hasInfix]
  | cons c t ih => simp [hasInfix, ih, infix_cons_iff]

/-- An action that mentions no helper and is placed neither as the header of a function nor as a mark. -/
structure Ordinary (a : Action) : Prop where
  silent : Text.hasInfix a.args helperStem = false
  notFunc : a.block ≠ "lapis_block"
  notMark : a.block ≠ "newline"

instance (a : Action) : Decidable (Ordinary a) :=
  decidable_of_iff (Text.hasInfix a.args helperStem = false ∧ a.block ≠ "lapis_block" ∧ a.block ≠ "newline")
    ⟨fun ⟨h, h', h''⟩ => ⟨h, h', h''⟩, fun ⟨h, h', h''⟩ => ⟨h, h', h''⟩⟩

variable {a : Action}

lemma Ordinary.args_infix (h : Ordinary a) {t : Text} (ht : t <:+: (ofAction a).args.getD [])
    (hstem : startsWith t helperStem) : False := by
  have hmem : helperStem <:+: (ofAction a).args.getD [] :=
    (List.IsPrefix.isInfix (by simpa [startsWith] using hstem)).trans ht
  simp only [ofAction] at hmem
  split at hmem
  next =>
    have := hasInfix_iff.mpr hmem
    revert this
    decide
  next =>
    have := hasInfix_iff.mpr hmem
    simp [h.silent] at this

lemma Ordinary.callee? (h : Ordinary a) : callee? a = none := by
  by_contra hne
  obtain ⟨name, hnm⟩ := ne_none_iff_exists'.mp hne
  obtain ⟨hbet, hstem⟩ := filter_eq_some_iff.mp hnm
  exact h.args_infix (infix_of_between? hbet) hstem

lemma Ordinary.helperTarget? (h : Ordinary a) : (ofAction a).helperTarget? = none := by
  rw [Entry.helperTarget?]
  split
  · split
    next m hm =>
      split
      next hstem => exact (h.args_infix (Pattern.group_isInfix hm 1) hstem).elim
      · rfl
    · rfl
  · rfl

lemma Ordinary.isNewline (h : Ordinary a) : (ofAction a).isNewline = false := by
  simpa [Entry.isNewline, ofAction] using h.notMark

lemma Ordinary.isFunc (h : Ordinary a) : (ofAction a).isFunc = false := by
  simpa [Entry.isFunc, ofAction] using h.notFunc

/-! ### Headers -/

section Headers
variable {events : Table KnownEvent} {o : Owner} {e : Entry}

/-- Events are placed as the two blocks that events have. -/
def EventBlocks (events : Table KnownEvent) : Prop :=
  ∀ e ∈ events, e.2.block = "diamond_block" ∨ e.2.block = "gold_block"

/-- A row belongs to a function of a name. -/
def defines (name : Text) (r : List Entry) : Bool := r.head?.any fun e => e.isFunc && e.label == name

lemma block_eventHeader {word : Text} (hevs : EventBlocks events) (h : Owner.eventHeader events word = .ok e) :
    e.block = "diamond_block" ∨ e.block = "gold_block" := by
  rw [Owner.eventHeader] at h
  dsimp only at h
  split at h
  next =>
    cases h
    exact .inl rfl
  split at h
  next =>
    cases h
    exact .inl rfl
  split at h
  next known hkn =>
    cases h
    obtain ⟨pre, post, heq, -⟩ := lookup_eq_some_iff.mp hkn
    exact hevs _ (heq ▸ mem_append_right pre mem_cons_self)
  · simp at h

lemma header_ok (hevs : EventBlocks events) (h : o.header events = .ok e) :
    e.isNewline = false ∧ (e.isFunc → ∃ name, o = .func name) := by
  cases o with
  | event word =>
    rcases block_eventHeader hevs h with hblk | hblk <;>
      (rw [Entry.isNewline, Entry.isFunc, hblk]; exact ⟨by decide, fun h => absurd h (by decide)⟩)
  | func name =>
    cases h
    exact ⟨rfl, fun _ => ⟨name, rfl⟩⟩
  | loop name ticks =>
    cases h
    exact ⟨rfl, fun h => by contradiction⟩

def Places (events : Table KnownEvent) (d : Definition) (r : List Entry) : Prop :=
  ∃ header, d.1.header events = .ok header ∧ r = header :: d.2.map ofAction

lemma Places.defines {d : Definition} {r : List Entry} (hevs : EventBlocks events) (h : Places events d r)
    (name : Text) : defines name r = (d.1 == .func name) := by
  obtain ⟨header, hhdr, rfl⟩ := h
  rw [Plan.defines, head?_cons, any_some]
  cases ho : d.1 with
  | func name' =>
    rw [ho] at hhdr
    cases hhdr
    have hlab : (Owner.func name' == Owner.func name) = (name' == name) := by
      rw [Bool.eq_iff_iff, beq_iff_eq, beq_iff_eq, Owner.func.injEq]
    rw [hlab]
    rfl
  | event _ | loop _ _ =>
    have hfn : header.isFunc = false := by
      by_contra hf
      obtain ⟨_, heq⟩ := (header_ok hevs hhdr).2 (by simpa using hf)
      simp [ho] at heq
    rw [hfn, Bool.false_and, eq_comm]
    simp

lemma countP_defines {ds : List Definition} {rows : List (List Entry)} (hevs : EventBlocks events)
    (h : List.Forall₂ (Places events) ds rows) (name : Text) :
    rows.countP (defines name) = (ds.map Prod.fst).count (.func name) := by
  induction h with
  | nil => rfl
  | cons hd _ ih => rw [countP_cons, map_cons, count_cons, ih, hd.defines hevs]

end Headers

/-! ### Entries of blocks -/

section Joined
variable {α : Type} {g : α → List (List Entry)} {x y : α} {xs : List α}

lemma joinRows_flatMap_cons (hg : ∀ z ∈ x :: y :: xs, g z ≠ []) :
    joinRows ((x :: y :: xs).flatMap g) = joinRows (g x) ++ .newline :: joinRows ((y :: xs).flatMap g) := by
  rw [flatMap_cons, joinRows_append (hg x (by simp))]
  simp [hg y (by simp)]

lemma flatMap_ne_nil (hne : xs ≠ []) (hg : ∀ z ∈ xs, g z ≠ []) : xs.flatMap g ≠ [] := by
  cases xs with
  | nil => contradiction
  | cons x xs => simp [hg x (by simp)]

/-- The entries of a row are joined rows: several, if the actions do not fit into one. -/
structure Row.Joined (r : Row) : Prop where
  nonempty : rowsOf r.entries ≠ []
  isRow : ∀ p ∈ rowsOf r.entries, IsRow p
  join : joinRows (rowsOf r.entries) = r.entries

lemma Row.joined_of_eq {r : Row} {rows : List (List Entry)} (hne : rows ≠ []) (hrows : ∀ p ∈ rows, IsRow p)
    (h : r.entries = joinRows rows) : r.Joined ∧ rowsOf r.entries = rows := by
  have heq : rowsOf r.entries = rows := by rw [h, rowsOf_joinRows hrows]
  exact ⟨⟨heq ▸ hne, heq ▸ hrows, by rw [heq, h]⟩, heq⟩

lemma entries_chain {c : Chain} (h : ∀ r ∈ c, r.Joined) :
    Chain.entries c = joinRows (c.flatMap fun r => rowsOf r.entries) := by
  induction c with
  | nil => rfl
  | cons r c ih =>
    cases c with
    | nil => simp [Chain.entries, (h r (by simp)).join]
    | cons r' c =>
      rw [joinRows_flatMap_cons fun z hz => (h z hz).nonempty, (h r (by simp)).join,
        ← ih fun z hz => h z (by simp [hz])]
      rfl

lemma allEntries_chains {cs : List Chain} (hne : ∀ c ∈ cs, c ≠ []) (h : ∀ r ∈ cs.flatten, r.Joined) :
    Chain.allEntries cs = joinRows (cs.flatten.flatMap fun r => rowsOf r.entries) := by
  have hflat : cs.flatten.flatMap (fun r => rowsOf r.entries)
      = cs.flatMap fun c => c.flatMap fun r => rowsOf r.entries := by
    rw [← flatMap_id, flatMap_assoc]
    rfl
  have hg : ∀ c ∈ cs, c.flatMap (fun r => rowsOf r.entries) ≠ [] := fun c hc =>
    flatMap_ne_nil (hne c hc) fun r hr => (h r (mem_flatten.mpr ⟨c, hc, hr⟩)).nonempty
  rw [hflat]
  clear hflat
  induction cs with
  | nil => rfl
  | cons c cs ih =>
    have hc := entries_chain fun r hr => h r (mem_flatten.mpr ⟨c, by simp, hr⟩)
    cases cs with
    | nil => simp [Chain.allEntries, hc]
    | cons c' cs =>
      have hends : endsWithNewline c.entries = false := by
        rw [endsWithNewline]
        cases hlast : c.entries.getLast? with
        | none => rfl
        | some e =>
          rw [hc] at hlast
          refine getLast?_joinRows (fun p hp => ?_) hlast
          obtain ⟨r, hr, hp⟩ := mem_flatMap.mp hp
          exact (h r (mem_flatten.mpr ⟨c, by simp, hr⟩)).isRow p hp
      have ih := ih (fun c hc => hne c (by simp [hc])) (fun r hr => h r (mem_append_right c hr))
        fun c hc => hg c (by simp [hc])
      rw [joinRows_flatMap_cons hg, ← hc, ← ih]
      simp [Chain.allEntries, hends]

end Joined
end Plan
open Plan
namespace Program

/-- The rows of a block put into rows. -/
def Finished.rows (f : Finished) : List (List Entry) := f.chains.flatten.flatMap fun r => rowsOf r.entries

lemma entries_finished {fs : List Finished} (hne : ∀ f ∈ fs, f.rows ≠ [])
    (h : ∀ f ∈ fs, Chain.allEntries f.chains = joinRows f.rows) :
    Finished.entries fs = joinRows (fs.flatMap Finished.rows) := by
  induction fs with
  | nil => rfl
  | cons f fs ih =>
    cases fs with
    | nil => simp [Finished.entries, h f]
    | cons f' fs =>
      rw [joinRows_flatMap_cons hne, ← h f (by simp),
        ← ih (fun z hz => hne z (by simp [hz])) fun z hz => h z (by simp [hz])]
      rfl

end Program
namespace Plan

/-! ### Rows of cycles -/

lemma rowEntriesFrom_ok {owner : Owner} {header : Entry} {used n : Nat} {last : Text} {as : List Action}
    {es : List Entry} (h : (rowEntriesFrom owner header used n last as).result = .ok es) (hpos : 0 < used)
    (hused : used ≤ rowSize) (hlast : last ≠ "newline") (has : ∀ a ∈ as, a.block ≠ "newline") :
    ∃ part parts, (part :: parts).flatten = as ∧ used + part.length ≤ rowSize ∧ (∀ p ∈ parts, p.length < rowSize)
      ∧ header :: es = joinRows ((part :: parts).map fun p : List Action => header :: p.map ofAction)
      ∧ parts.length = (used - 1 + as.length - 1) / maxPayload := by
  have hsize : rowSize = 43 ∧ maxPayload = 42 := ⟨rfl, rfl⟩
  induction as generalizing used n last es with
  | nil =>
    cases h
    exact ⟨[], [], rfl, hused, by simp, rfl, by simp [hsize] at hused ⊢; omega⟩
  | cons a as ih =>
    have hrest :
      ∀ {used n es}, 0 < used → used < rowSize → (rowEntriesFrom owner header (used + 1) n a.block as).result = .ok es →
        ∃ part parts, (part :: parts).flatten = a :: as ∧ used + part.length ≤ rowSize
          ∧ (∀ p ∈ parts, p.length < rowSize) ∧ header :: .ofAction a :: es
          = joinRows ((part :: parts).map fun p => header :: p.map ofAction)
          ∧ parts.length = (used - 1 + as.length) / maxPayload := by
      intro used n es hpos hused h
      obtain ⟨part, parts, rfl, hpart, hpts, hjoin, hcnt⟩ :=
        ih h (by omega) hused (has a (by simp)) fun b hb => has b (by simp [hb])
      refine ⟨a :: part, parts, rfl, ?_, hpts, ?_, ?_⟩
      · rw [length_cons]
        omega
      · cases parts <;> (obtain ⟨-, rfl⟩ := cons.inj hjoin; rfl)
      rw [hcnt]
      congr 1
      omega
    rw [rowEntriesFrom] at h
    split at h
    next =>
      rw [if_neg (by simpa using hlast)] at h
      simp only [Compile.bind_ok] at h
      obtain ⟨-, -, es', hes', h⟩ := h
      cases h
      obtain ⟨part, parts, hflat, hpart, hpts, hjoin, hcnt⟩ := hrest Nat.one_pos (show 1 < rowSize by decide) hes'
      refine ⟨[], part :: parts, hflat, hused, forall_mem_cons.mpr ⟨by omega, hpts⟩, ?_, ?_⟩
      · rw [hjoin]
        rfl
      rw [length_cons, hcnt, length_cons, hsize.2]
      omega
    next hroom =>
      rw [Compile.bind_ok] at h
      obtain ⟨es', hes', h⟩ := h
      cases h
      exact hrest hpos (Nat.lt_of_not_le hroom) hes'

end Plan
end BlockScript
