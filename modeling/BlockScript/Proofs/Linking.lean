import BlockScript.Proofs.Plans

/-!
# Linking of rows

Linking drops rows that only call helpers, and changes names and arguments in other rows. It works row by row: joined
rows are taken apart into segments (`ofEntries_joinRows`), and what is left is put together again. So every row left has
the format of a row and begins with a header, and the blocks of the script have as many rows as before
(`exists_rows_link`).
-/

open List
namespace BlockScript
open Text
open Entry (block isFunc label ofBlock)
open Script (Settings)
namespace Entry

def headers : List Text := ["diamond_block", "gold_block", "lapis_block", "emerald_block"]

/-- The entry begins a row. -/
def isHeader (e : Entry) : Bool := headers.contains e.block

end Entry
namespace Plan
open Segment

/-! ### Rows of a format -/

section Formed
variable {r r' : List Entry} {e : Entry}

/-- A row that begins with a header, is not too long, and has no marks or headers of functions behind its header. -/
structure Formed (r : List Entry) : Prop where
  fits : r.length ≤ rowSize
  header : ∃ header as, r = header :: as ∧ header.isHeader ∧ ∀ e ∈ as, e.isNewline = false ∧ e.isFunc = false

lemma isNewline_of_header (h : e.isHeader) : e.isNewline = false := by
  by_contra hmark
  have hblk : e.block = "newline" := by simpa [Entry.isNewline] using hmark
  rw [Entry.isHeader, hblk] at h
  revert h
  decide

lemma Formed.isRow (h : Formed r) : IsRow r := by
  obtain ⟨-, header, as, rfl, hhdr, has⟩ := h
  exact ⟨header, as, rfl, isNewline_of_header hhdr, has⟩

lemma Formed.congr (h : Formed r) (hblks : r'.map block = r.map block) : Formed r' := by
  obtain ⟨hfits, header, as, rfl, hhdr, has⟩ := h
  cases r' with
  | nil => simp at hblks
  | cons header' as' =>
    obtain ⟨hblk, hblks⟩ := cons.inj hblks
    refine ⟨?_, header', as', rfl, ?_, fun e he => ?_⟩
    · have hlen := congrArg List.length hblks
      simp only [length_map] at hlen
      simpa [hlen] using hfits
    · rwa [Entry.isHeader, hblk]
    obtain ⟨d, hd, hed⟩ := mem_map.mp (hblks ▸ mem_map_of_mem he)
    rw [Entry.isNewline, isFunc, ← hed]
    exact has d hd

end Formed

/-! ### Heads of rows -/

section Heads
variable {e header : Entry} {hs hs' r : List Entry} {rows : List (List Entry)} {name : Text}
  {k : List Entry → List Entry} {f : Entry → Entry}

def funcHeader (name : Text) : Entry := .ofBlock "lapis_block" name "no"

def isHelperHeader (e : Entry) : Bool := e.isFunc && Text.startsWith e.label helperStem

/-- An entry that can begin a row: it calls no helper, and if it begins a function, it is the header of one. -/
structure Leading (e : Entry) : Prop where
  isNewline : e.isNewline = false
  helperTarget? : e.helperTarget? = none
  isFunc : e.isFunc → e = funcHeader e.label

lemma helperTarget?_none (h : ¬ helperStem <:+: e.args.getD []) : e.helperTarget? = none := by
  rw [Entry.helperTarget?]
  split
  · split
    next m hm =>
      split
      next hstem =>
        exact absurd ((List.IsPrefix.isInfix (by simpa [startsWith] using hstem)).trans (Pattern.group_isInfix hm 1)) h
      · rfl
    · rfl
  · rfl

lemma not_infix_no : ¬ helperStem <:+: "no".toList := by
  decide

lemma leading_funcHeader (name : Text) : Leading (funcHeader name) :=
  ⟨rfl, helperTarget?_none not_infix_no, fun _ => rfl⟩

lemma leading_of_header {events : Table KnownEvent} {owner : Owner} (hevs : EventBlocks events)
    (h : owner.header events = .ok e) : Leading e := by
  obtain ⟨hmark, hfn⟩ := header_ok hevs h
  refine ⟨hmark, helperTarget?_none ?_, fun hf => ?_⟩
  · cases owner with
    | event word =>
      rw [Owner.header, Owner.eventHeader] at h
      dsimp only at h
      repeat' split at h
      all_goals first | (obtain rfl := Except.ok.inj h; exact not_infix_no) | simp at h
    | func name =>
      cases h
      exact not_infix_no
    | loop name ticks =>
      cases h
      intro hinfix
      have hmem : '_' ∈ ofInt (if ticks = 0 then Owner.minTicks else max Owner.minTicks ticks) :=
        hinfix.subset (by decide)
      exact absurd (mem_ofInt hmem) (by decide)
  obtain ⟨name, rfl⟩ := hfn hf
  cases h
  rfl

lemma Leading.label_eq_iff (h : Leading header) (hfn : header.isFunc) :
    header.label = name ↔ header = funcHeader name := by
  constructor
  · rintro rfl
    exact h.isFunc hfn
  rintro rfl
  rfl

lemma not_isFunc_ne (h : header.isFunc = false) (name : Text) : header ≠ funcHeader name := by
  rintro rfl
  simp [funcHeader, isFunc, ofBlock] at h

/-- A row of the format that begins with a leading entry. -/
structure Led (r : List Entry) : Prop where
  formed : Formed r
  leading : ∀ e ∈ r.head?, Leading e

lemma Led.isRow (h : Led r) : IsRow r := h.formed.isRow

/-- The entries that rows begin with. -/
def heads (rows : List (List Entry)) : List Entry := rows.filterMap List.head?

/-- Two lists of heads with the same blocks of the script; helpers may differ. -/
def SameBlocks (hs hs' : List Entry) : Prop := ∀ e, isHelperHeader e = false → hs'.count e = hs.count e

lemma SameBlocks.trans {hs'' : List Entry} (h : SameBlocks hs hs') (h' : SameBlocks hs' hs'') : SameBlocks hs hs'' :=
  fun e he => (h' e he).trans (h e he)

lemma heads_filter (rows : List (List Entry)) : heads (rows.filter (!·.isEmpty)) = heads rows := by
  induction rows with
  | nil => rfl
  | cons r rows ih =>
    rw [heads] at ih
    cases r <;> simp [heads, filterMap_cons, ih]

lemma heads_map (h : ∀ r ∈ rows, (k r).head? = r.head?.map f) : heads (rows.map k) = (heads rows).map f := by
  rw [heads, heads, filterMap_map, map_filterMap]
  exact filterMap_congr h

lemma sameBlocks_map (h : ∀ r ∈ rows, (k r).head? = r.head? ∨ (k r).head? = none ∧ ∀ e ∈ r.head?, isHelperHeader e) :
    SameBlocks (heads rows) (heads (rows.map k)) := by
  intro e he
  induction rows with
  | nil => rfl
  | cons r rows ih =>
    have hrest := ih fun r hr => h r (by simp [hr])
    rw [heads, heads] at hrest
    rcases h r (by simp) with hr | ⟨hr, hhelp⟩
    · simp only [heads, map_cons, filterMap_cons, hr]
      cases r.head? <;> simp [count_cons, hrest, -filterMap_map]
    simp only [heads, map_cons, filterMap_cons, hr, hrest]
    cases hhead : r.head? with
    | none => rfl
    | some d =>
      have hne : d ≠ e := by
        rintro rfl
        simp [hhelp d hhead] at he
      simp [hne]

lemma Led.map (hblk : ∀ e, (f e).block = e.block) (hlead : ∀ e, Leading e → f e = e) (h : Led r) :
    Led (r.map f) ∧ (r.map f).head? = r.head? := by
  have hhead : (r.map f).head? = r.head? := by
    rw [head?_map]
    cases hr : r.head? with
    | none => rfl
    | some e => simp [hlead e (h.leading e hr)]
  exact ⟨⟨h.formed.congr (by simp [hblk]), by rw [hhead]; exact h.leading⟩, hhead⟩

lemma led_of_mem_filter (h : ∀ r ∈ rows, r = [] ∨ Led r) : ∀ r ∈ rows.filter (!·.isEmpty), Led r := by
  intro r hr
  obtain ⟨hr, hne⟩ := mem_filter.mp hr
  exact (h r hr).resolve_left (by simpa using hne)

end Heads

/-! ### Helpers that only call helpers -/

section Links
variable {e header : Entry} {as es r : List Entry} {rows : List (List Entry)} {isHead : Entry → Bool}
  {c ss : List Segment}
  {name target : Text}
  {f : Entry → Entry}

lemma helperTarget?_newline : Entry.newline.helperTarget? = none := rfl

lemma map_joinRows (hmark : f .newline = .newline) (rows : List (List Entry)) :
    (joinRows rows).map f = joinRows (rows.map (List.map f)) := by
  induction rows with
  | nil => rfl
  | cons r rows ih =>
    cases rows with
    | nil => rfl
    | cons r' rows =>
      rw [joinRows_cons (by simp), map_append, map_cons, hmark, ih]
      rfl

lemma filter_segmentsOf {keep : Segment → Bool} (hlo : ∀ e, keep (.loose e)) (rows : List (List Entry)) :
    (segmentsOf isHead rows).filter keep
      = segmentsOf isHead (rows.map fun r => if (rowSegments isHead r).all keep then r else []) := by
  have hrow : ∀ r, (rowSegments isHead r).filter keep
      = rowSegments isHead (if (rowSegments isHead r).all keep then r else []) := by
    rintro (_ | ⟨header, as⟩)
    · rfl
    by_cases hhead : isHead header
    · cases hkp : keep (.func header as) <;> simp [rowSegments, hhead, hkp]
    · simp [rowSegments, hhead, hlo]
  induction rows with
  | nil => rfl
  | cons r rows ih =>
    cases rows with
    | nil => exact hrow r
    | cons r' rows =>
      rw [segmentsOf_cons (by simp), filter_append, filter_cons_of_pos (hlo _), hrow, ih]
      rfl

lemma block_redirect (leads : Table Text) (e : Entry) : (redirect leads e).block = e.block := by
  unfold redirect
  repeat' split
  all_goals rfl

lemma exists_rows_collapse (h : ∀ r ∈ rows, Led r) : ∃ rows', (collapse (joinRows rows)).1 = joinRows rows'
    ∧ (∀ r ∈ rows', Led r) ∧ SameBlocks (heads rows) (heads rows') := by
  rw [collapse, ofEntries_joinRows (fun e he => (isFunc_of_onlyHelper he).1) fun r hr => (h r hr).isRow]
  dsimp only
  split
  · exact ⟨rows, rfl, h, fun _ _ => rfl⟩
  generalize resolveLinks _ = leads
  rw [filter_segmentsOf fun e => rfl, flatten_segmentsOf, map_joinRows (by rw [redirect, helperTarget?_newline]),
    map_map]
  have hmap : ∀ r ∈ rows, Led (r.map (redirect leads)) ∧ (r.map (redirect leads)).head? = r.head? := fun r hr =>
    (h r hr).map (block_redirect leads) fun e he => by rw [redirect, he.helperTarget?]
  have hled : ∀ r ∈ rows.map (List.map (redirect leads) ∘ fun r =>
      if (rowSegments (isOnlyHelper (joinRows rows)) r).all (fun s => s.leadsTo?.isNone) then r else []),
        r = [] ∨ Led r := by
    rw [forall_mem_map]
    intro r hr
    rw [Function.comp_apply]
    split
    · exact .inr (hmap r hr).1
    · exact .inl rfl
  refine ⟨_, tidy_joinRows fun r hr => (hled r hr).imp_right fun h => h.isRow, led_of_mem_filter hled, ?_⟩
  rw [heads_filter]
  refine sameBlocks_map fun r hr => ?_
  rw [Function.comp_apply]
  split
  · exact .inl (hmap r hr).2
  next hdropped =>
    refine .inr ⟨rfl, fun e he => ?_⟩
    cases r with
    | nil => simp at he
    | cons header as =>
      obtain rfl := Option.some.inj he
      by_cases honly : isOnlyHelper (joinRows rows) header
      · simpa [isHelperHeader] using isFunc_of_onlyHelper honly
      · simp [rowSegments, honly, leadsTo?] at hdropped

/-! ### Functions that only call helpers -/

lemma map_segmentsOf {g : Segment → Segment} {k : List Entry → List Entry}
    (hmark : g (.loose .newline) = .loose .newline)
    (hrow : ∀ r ∈ rows, (rowSegments isHead r).map g = rowSegments isHead (k r)) :
    (segmentsOf isHead rows).map g = segmentsOf isHead (rows.map k) := by
  induction rows with
  | nil => rfl
  | cons r rows ih =>
    cases rows with
    | nil => exact hrow r (by simp)
    | cons r' rows =>
      rw [segmentsOf_cons (by simp), map_append, map_cons, hmark, hrow r (by simp),
        ih fun r hr => hrow r (by simp [hr])]
      rfl

lemma dropRow_of_other {seg : Segment} (h : seg.isNamed name = false) :
    dropRow name (seg :: ss) = seg :: dropRow name ss := by
  rw [Plan.dropRow.eq_def]
  simp [h]

lemma dropRow_append (h : ∀ seg ∈ c, seg.isNamed name = false) : dropRow name (c ++ ss) = c ++ dropRow name ss := by
  induction c with
  | nil => rfl
  | cons seg c ih =>
    rw [cons_append, dropRow_of_other (h seg (by simp)), ih fun seg hseg => h seg (by simp [hseg]), cons_append]

lemma rowSegments_named (h : r = [] ∨ Led r) (name : Text) :
    ((∀ seg ∈ rowSegments isFunc r, seg.isNamed name = false) ∧ funcHeader name ∉ r.head?)
      ∨ ∃ as, r = funcHeader name :: as := by
  cases r with
  | nil => exact .inl ⟨by simp [rowSegments], by simp⟩
  | cons header as =>
    have hldg := (h.resolve_left (by simp)).leading header rfl
    by_cases hfn : header.isFunc
    · by_cases hname : header.label = name
      · obtain rfl := (hldg.label_eq_iff hfn).mp hname
        exact .inr ⟨as, rfl⟩
      refine .inl ⟨by simpa [rowSegments, hfn, isNamed] using hname, fun hmem => hname ?_⟩
      exact (hldg.label_eq_iff hfn).mpr (Option.some.inj hmem)
    refine .inl ⟨by simp [rowSegments, hfn, isNamed], fun hmem => ?_⟩
    exact not_isFunc_ne (by simpa using hfn) name (Option.some.inj hmem)

lemma rowSegments_funcHeader (name : Text) (as : List Entry) :
    rowSegments isFunc (funcHeader name :: as) = [.func (funcHeader name) as] := rfl

lemma headCount_segmentsOf (h : ∀ r ∈ rows, r = [] ∨ Led r) (name : Text) :
    headCount (segmentsOf isFunc rows) name = (heads rows).count (funcHeader name) := by
  have hrow r : r = [] ∨ Led r → ((rowSegments isFunc r).filter (isNamed name)).length
      = r.head?.toList.count (funcHeader name) := by
    intro hr
    rcases rowSegments_named hr name with ⟨hoth, hmem⟩ | ⟨as, rfl⟩
    · rw [filter_eq_nil_iff.mpr (by simpa using hoth), count_eq_zero_of_not_mem (by simpa using hmem)]
      rfl
    rw [rowSegments_funcHeader]
    simp [isNamed, funcHeader, label, ofBlock]
  induction rows with
  | nil => rfl
  | cons r rows ih =>
    have hhd : heads (r :: rows) = r.head?.toList ++ heads rows := by cases r <;> rfl
    rw [hhd, count_append, ← hrow r (h r (by simp)), ← ih fun r hr => h r (by simp [hr])]
    by_cases hne : rows = []
    · simp [hne, segmentsOf, headCount]
    rw [segmentsOf_cons hne, headCount, filter_append, filter_cons_of_neg (by simp [isNamed]), length_append, headCount]

lemma exists_rows_dropRow (hne : rows ≠ []) (h : ∀ r ∈ rows, r = [] ∨ Led r) (name : Text) :
    ∃ rows', rows' ≠ [] ∧ dropRow name (segmentsOf isFunc rows) = segmentsOf isFunc rows'
      ∧ (∀ r ∈ rows', r = [] ∨ r ∈ rows) ∧ heads rows' = (heads rows).erase (funcHeader name) := by
  induction rows with
  | nil => contradiction
  | cons r rows ih =>
    have hhd : ∀ rows, heads (r :: rows) = r.head?.toList ++ heads rows := fun rows => by cases r <;> rfl
    rcases rowSegments_named (h r (by simp)) name with ⟨hoth, hmem⟩ | ⟨as, rfl⟩
    · have herase : ∀ rows,
        (heads (r :: rows)).erase (funcHeader name) = r.head?.toList ++ (heads rows).erase (funcHeader name) :=
        fun rows => by rw [hhd, erase_append_right _ (by simpa using hmem)]
      by_cases hrows : rows = []
      · have hsame : dropRow name (rowSegments isFunc r ++ []) = rowSegments isFunc r ++ [] := by
          rw [dropRow_append hoth, dropRow]
        refine ⟨[r], by simp, by simpa [hrows, segmentsOf] using hsame, by simp, ?_⟩
        rw [hrows, herase, hhd]
        rfl
      obtain ⟨rows', hne', hdrop, hrows', hhd'⟩ := ih hrows fun r hr => h r (by simp [hr])
      refine ⟨r :: rows', by simp, ?_, ?_, by rw [herase, hhd, hhd']⟩
      · rw [segmentsOf_cons hrows, dropRow_append hoth, dropRow_of_other rfl, hdrop, segmentsOf_cons hne']
      rw [forall_mem_cons]
      exact ⟨.inr (by simp), fun r hr => (hrows' r hr).imp_right fun h => by simp [h]⟩
    have hnm : (Segment.func (funcHeader name) as).isNamed name := by
      simp [isNamed, funcHeader, label, ofBlock]
    have hgone : (heads ((funcHeader name :: as) :: rows)).erase (funcHeader name) = heads rows := erase_cons_head ..
    -- Where the last row is dropped, the mark before it stays: an empty row is left.
    by_cases hrows : rows = []
    · refine ⟨[[]], by simp, ?_, by simp, by rw [hgone, hrows]; rfl⟩
      rw [hrows, segmentsOf, rowSegments_funcHeader]
      simp [dropRow, hnm, segmentsOf, rowSegments]
    refine ⟨rows, hrows, ?_, fun r hr => .inr (by simp [hr]), hgone.symm⟩
    rw [segmentsOf_cons hrows, rowSegments_funcHeader]
    simp [dropRow, hnm, Entry.isNewline, Entry.newline]

lemma count_map_rename {a b : Entry} (hne : a ≠ b) (l : List Entry) (e : Entry) (he : e ≠ a) :
    (l.map fun x => if x = a then b else x).count e = l.count e + if e = b then l.count a else 0 := by
  induction l with
  | nil => simp
  | cons x l ih =>
    rw [map_cons, count_cons, ih, count_cons]
    by_cases hxa : x = a
    · subst hxa
      by_cases heb : e = b
      · subst heb
        simp [Ne.symm he]
        omega
      · simp [heb, Ne.symm heb, Ne.symm he]
    by_cases heb : e = b
    · subst heb
      simp [hxa]
      omega
    · simp [heb, hxa]

lemma leadsTo?_some {seg : Segment} (h : seg.leadsTo? = some (name, target)) : ∃ header call,
    seg = .func header [call] ∧ header.label = name ∧ name ≠ target ∧ call.helperTarget? = some target := by
  rw [leadsTo?.eq_def] at h
  split at h
  next header call =>
    split at h
    next t ht =>
      split at h
      · simp at h
      next hne =>
        cases h
        exact ⟨header, call, rfl, rfl, fun heq => hne (by simp [heq]), ht⟩
    · simp at h
  · simp at h

lemma wrapper?_some (h : wrapper? ss = some (name, target)) :
    name ≠ target ∧ startsWith target helperStem ∧ headCount ss name = 1 ∧ headCount ss target = 1 := by
  rw [wrapper?, findSome?_eq_some_iff] at h
  obtain ⟨-, seg, -, -, hseg, -⟩ := h
  obtain ⟨hld, hcnts⟩ := Option.filter_eq_some_iff.mp hseg
  rw [Bool.and_eq_true, beq_iff_eq, beq_iff_eq] at hcnts
  obtain ⟨header, call, -, -, hne, ht⟩ := leadsTo?_some hld
  refine ⟨hne, ?_, hcnts⟩
  rw [Entry.helperTarget?] at ht
  split at ht
  · split at ht
    next =>
      split at ht
      next hstem =>
        cases ht
        exact hstem
      · simp at ht
    · simp at ht
  · simp at ht

/-- The head of a row with another name, if it is that of a function. -/
def renameHead (old new : Text) (e : Entry) : Entry := if e = funcHeader old then funcHeader new else e

lemma Led.renameHead (h : Led r) (old new : Text) : Led (r.modifyHead (renameHead old new)) := by
  cases r with
  | nil => exact h
  | cons header as =>
    rw [modifyHead_cons, Plan.renameHead]
    split
    next heq =>
      subst heq
      exact ⟨h.formed.congr rfl, fun e he => Option.some.inj he ▸ leading_funcHeader new⟩
    · exact h

lemma rowSegments_rename (hblk : ∀ e, (f e).block = e.block) (h : r = [] ∨ Led r) (old new : Text) :
    (rowSegments isFunc r).map (fun s => (renameRow old new s).map f)
      = rowSegments isFunc ((r.modifyHead (renameHead old new)).map f) := by
  cases r with
  | nil => rfl
  | cons header as =>
    have hldg := (h.resolve_left (by simp)).leading header rfl
    have hisFunc : ∀ e, (f e).isFunc = e.isFunc := fun e => by rw [isFunc, hblk, isFunc]
    by_cases hfn : header.isFunc
    · have hhead :
        (if header.label = old then { header with name := some new } else header) = renameHead old new header := by
        rw [renameHead]
        by_cases hname : header.label = old
        · obtain rfl := (hldg.label_eq_iff hfn).mp hname
          rw [if_pos hname, if_pos rfl]
          rfl
        · rw [if_neg hname, if_neg fun heq => hname ((hldg.label_eq_iff hfn).mpr heq)]
      have hfn' : (renameHead old new header).isFunc := by
        rw [renameHead]
        split
        · rfl
        · exact hfn
      simp [rowSegments, hfn, hfn', hisFunc, renameRow, hhead, Segment.map]
    have hsame : renameHead old new header = header := if_neg (not_isFunc_ne (by simpa using hfn) old)
    simp [rowSegments, hfn, hisFunc, hsame, renameRow, Segment.map]

lemma exists_rows_promoteOne (h : ∀ r ∈ rows, r = [] ∨ Led r)
    (hwrap : wrapper? (segmentsOf isFunc rows) = some (name, target)) :
    ∃ rows', promoteOne name target (segmentsOf isFunc rows) = segmentsOf isFunc rows'
      ∧ (∀ r ∈ rows', r = [] ∨ Led r) ∧ SameBlocks (heads rows) (heads rows') := by
  obtain ⟨hne, hstem, hname, htgt⟩ := wrapper?_some hwrap
  rw [headCount_segmentsOf h] at hname htgt
  obtain ⟨rows₁, -, hdrop, hrows₁, hhd₁⟩ := exists_rows_dropRow (by rintro rfl; simp [heads] at hname) h name
  have hled : ∀ r ∈ rows₁, r = [] ∨ Led r := fun r hr => (hrows₁ r hr).elim .inl (h r)
  set send : Entry → Entry := fun e => if e.helperTarget? == some target then e.sendTo target name else e with hsend
  have hblk : ∀ e, (send e).block = e.block := fun e => by rw [hsend]; dsimp only; split <;> rfl
  have hmap : ∀ r ∈ rows₁, ((r.modifyHead (renameHead target name)).map send = [] ∨
      Led ((r.modifyHead (renameHead target name)).map send))
      ∧ ((r.modifyHead (renameHead target name)).map send).head? = r.head?.map (renameHead target name) := by
    intro r hr
    rcases hled r hr with rfl | hr
    · exact ⟨.inl rfl, rfl⟩
    obtain ⟨hmapped, hhead⟩ := (hr.renameHead target name).map hblk fun e he => by simp [hsend, he.helperTarget?]
    exact ⟨.inr hmapped, by rw [hhead, head?_modifyHead]⟩
  refine ⟨rows₁.map fun r => (r.modifyHead (renameHead target name)).map send, ?_,
    forall_mem_map.mpr fun r hr => (hmap r hr).1, fun e he => ?_⟩
  · rw [promoteOne, hdrop]
    exact map_segmentsOf rfl fun r hr => rowSegments_rename hblk (hled r hr) target name
  rw [heads_map fun r hr => (hmap r hr).2, hhd₁]
  have hheaders : funcHeader target ≠ funcHeader name := by
    intro heq
    simp only [funcHeader, ofBlock, Entry.mk.injEq, Option.some.injEq] at heq
    exact hne heq.2.1.symm
  have hoth : e ≠ funcHeader target := by
    rintro rfl
    have : isHelperHeader (funcHeader target) = true := by
      simpa [isHelperHeader, funcHeader, isFunc, label, ofBlock] using hstem
    simp [this] at he
  refine (count_map_rename hheaders _ e hoth).trans ?_
  by_cases heq : e = funcHeader name
  · subst heq
    rw [if_pos rfl, count_erase_self, count_erase_of_ne hheaders, hname, htgt]
  · rw [if_neg heq, count_erase_of_ne heq, Nat.add_zero]

lemma exists_rows_promoteFrom (fuel : Nat) (h : ∀ r ∈ rows, r = [] ∨ Led r) :
    ∃ rows', (promoteFrom fuel (segmentsOf isFunc rows)).1 = segmentsOf isFunc rows'
      ∧ (∀ r ∈ rows', r = [] ∨ Led r) ∧ SameBlocks (heads rows) (heads rows') := by
  induction fuel generalizing rows with
  | zero => exact ⟨rows, rfl, h, fun _ _ => rfl⟩
  | succ fuel ih =>
    rw [promoteFrom]
    split
    · exact ⟨rows, rfl, h, fun _ _ => rfl⟩
    next name target hwrap =>
      obtain ⟨rows₁, hone, h₁, hsame⟩ := exists_rows_promoteOne h hwrap
      obtain ⟨rows₂, hrest, h₂, hsame'⟩ := ih h₁
      exact ⟨rows₂, by rw [hone, ← hrest], h₂, hsame.trans hsame'⟩

/-- Linking keeps the format of rows and the rows of the blocks of a script; only helpers come and go. -/
theorem exists_rows_link {cfg : Settings} (h : ∀ r ∈ rows, Led r)
    (hes : (Program.link cfg (joinRows rows)).result = .ok es) :
    ∃ rows', es = joinRows rows' ∧ (∀ r ∈ rows', Led r) ∧ SameBlocks (heads rows) (heads rows') := by
  rw [result_link] at hes
  cases hes
  obtain ⟨rows₁, hcoll, h₁, hsame₁⟩ := exists_rows_collapse h
  obtain ⟨rows₂, hpromote, h₂, hsame₂⟩ :=
    exists_rows_promoteFrom (joinRows rows₁).length fun r hr => .inr (h₁ r hr)
  refine ⟨rows₂.filter (!·.isEmpty), ?_, led_of_mem_filter h₂, ?_⟩
  · rw [hcoll, promote, ofEntries_joinRows (fun _ he => he) fun r hr => (h₁ r hr).isRow]
    dsimp only
    rw [hpromote, flatten_segmentsOf, tidy_joinRows fun r hr => (h₂ r hr).imp_right fun h => h.isRow]
  rw [heads_filter]
  exact hsame₁.trans hsame₂

end Links

/-! ### Helpers that lead to each other -/

section Circles
variable {es : List Entry} {d e : Entry} {s s' : Segment} {t next : Text} {isHead : Entry → Bool}

lemma flatten_ofEntries : Segment.flatten (ofEntries isHead es) = es := by
  fun_induction ofEntries isHead es with
  | case1 => rfl
  | case2 e rest _ ih =>
    rw [Segment.flatten, flatMap_cons, ← Segment.flatten, ih, entries, cons_append, takeWhile_append_dropWhile]
  | case3 e rest _ ih =>
    rw [Segment.flatten, flatMap_cons, ← Segment.flatten, ih]
    rfl

lemma isHead_of_mem_ofEntries {header : Entry} {body : List Entry} (h : .func header body ∈ ofEntries isHead es) :
    isHead header := by
  fun_induction ofEntries isHead es with
  | case1 => cases h
  | case2 e rest he ih =>
    rcases mem_cons.mp h with heq | h
    · cases heq
      exact he
    · exact ih h
  | case3 e rest _ ih => exact ih ((mem_cons.mp h).resolve_left (by simp))

lemma mem_tidy (he : e.isNewline = false) : e ∈ tidy es ↔ e ∈ es := by
  have hfrom : e ∈ tidyFrom true es ↔ e ∈ es := by
    generalize true = b
    induction es generalizing b with
    | nil => rfl
    | cons d es ih =>
      have hne : d.isNewline → e ≠ d := fun hd heq => by simp [← heq, he] at hd
      rw [tidyFrom]
      split
      next hd => split <;> simp [ih, hne hd]
      · simp [ih]
  rw [tidy, ← hfrom]
  split
  next hlast =>
    obtain ⟨d, hd, hmark⟩ : ∃ d, (tidyFrom true es).getLast? = some d ∧ d.isNewline := by
      cases hd : (tidyFrom true es).getLast? with
      | none => simp [hd] at hlast
      | some d => exact ⟨d, rfl, by simpa [hd] using hlast⟩
    have hne : e ≠ d := fun heq => by simp [← heq, he] at hmark
    rw [← dropLast_append_getLast? d hd, mem_append, mem_singleton, or_iff_left hne]
    simp
  · rfl

lemma label_ne_of_leadsTo? (hs' : s' ∈ ofEntries (isOnlyHelper es) es) (hld : s'.leadsTo? = some (t, next))
    (hs : s ∈ ofEntries (isOnlyHelper es) es) (hstay : s.leadsTo? = none) (hd : d ∈ s.entries) (hfn : d.isFunc) :
    d.label ≠ t := by
  obtain ⟨header, call, rfl, rfl, -⟩ := leadsTo?_some hld
  intro hlab
  have hone := isHead_of_mem_ofEntries hs'
  have hfst := (isFunc_of_onlyHelper hone).1
  obtain ⟨pre, post, hspl⟩ := append_of_mem hs'
  have hrest : s ∈ pre ++ post := by
    rw [hspl, mem_append, mem_cons] at hs
    rcases hs with hs | rfl | hs
    · simp [hs]
    · simp [hstay] at hld
    · simp [hs]
  have hcnt : 0 < countP (fun e => e.isFunc && e.label == header.label) (Segment.flatten (pre ++ post)) :=
    countP_pos_iff.mpr ⟨d, mem_flatMap.mpr ⟨s, hrest, hd⟩, by simp [hfn, hlab]⟩
  simp only [isOnlyHelper, Bool.and_eq_true, beq_iff_eq, ← countP_eq_length_filter] at hone
  have hall := hone.2
  rw [← @flatten_ofEntries es (isOnlyHelper es), hspl] at hall
  rw [Segment.flatten, flatMap_append, countP_append] at hall hcnt
  rw [flatMap_cons, countP_append, entries, countP_cons_of_pos (by simp [hfst])] at hall
  omega

end Circles

/-- Where the helpers lead that only call helpers. -/
def helperLinks (es : List Entry) : Table Text := (ofEntries (isOnlyHelper es) es).filterMap leadsTo?

/-- A circle of helpers is cut off: if the links lead from a helper back to it, its row is dropped, and a call of it in
a row that stays is left as it is. -/
theorem collapse_circle {es : List Entry} {e : Entry} {s : Segment} {t : Text}
    (hback : (resolveLinks (helperLinks es)).get? t = some t) (hs : s ∈ ofEntries (isOnlyHelper es) es)
    (hstay : s.leadsTo? = none) (he : e ∈ s.entries) (hmark : e.isNewline = false) (hcall : e.helperTarget? = some t) :
    e ∈ (collapse es).1 ∧ ∀ d ∈ (collapse es).1, d.isFunc → d.label ≠ t := by
  obtain ⟨⟨_, next⟩, hlink, heq⟩ := mem_map.mp (Table.mem_of_get? hback)
  obtain rfl := (Prod.mk.inj heq).1
  have hemp : (helperLinks es).isEmpty = false := by simpa using ne_nil_of_mem hlink
  obtain ⟨s', hs', hld⟩ := mem_filterMap.mp hlink
  have hcoll : (collapse es).1 = tidy ((Segment.flatten ((ofEntries (isOnlyHelper es) es).filter
      fun s => s.leadsTo?.isNone)).map (redirect (resolveLinks (helperLinks es)))) := by
    rw [collapse]
    simp only [helperLinks] at hemp ⊢
    rw [if_neg (by simp [hemp])]
  rw [hcoll]
  constructor
  · rw [mem_tidy hmark]
    refine mem_map.mpr ⟨e, mem_flatMap.mpr ⟨s, by simp [hs, hstay], he⟩, ?_⟩
    simp [redirect, hcall, hback]
  · intro d hd hfn
    have hdm : d.isNewline = false := by
      rw [Entry.isFunc, beq_iff_eq] at hfn
      simp [Entry.isNewline, hfn]
    obtain ⟨d', hd', rfl⟩ := mem_map.mp ((mem_tidy hdm).mp hd)
    obtain ⟨s', hs', hd'⟩ := mem_flatMap.mp hd'
    have hlab : (redirect (resolveLinks (helperLinks es)) d').label = d'.label := by
      unfold redirect
      repeat' split
      all_goals rfl
    rw [isFunc, block_redirect] at hfn
    rw [mem_filter, Option.isNone_iff_eq_none] at hs'
    rw [hlab]
    exact label_ne_of_leadsTo? ‹_› hld hs'.1 hs'.2 hd' hfn

/-- Every call of a helper calls exactly one function of the plan. -/
abbrev Linked (es : List Entry) : Prop :=
  ∀ name ∈ es.filterMap Entry.helperTarget?, (es.filter fun e => e.isFunc && e.label == name).length = 1

/-- Two helpers that only call each other, and an event that calls one of them. -/
def circular : List Entry :=
  let row (header : Entry) (n : Nat) :=
    [header, .ofBlock "lapis_ore" "call function" (Value.wrap "text" (helperName n))]
  joinRows [row (.ofBlock "diamond_block" "join" "no") 1, row (.ofBlock "lapis_block" (helperName 1) "no") 2,
    row (.ofBlock "lapis_block" (helperName 2) "no") 1]

theorem collapse_circle_first : ∃ e ∈ (collapse circular).1, e.helperTarget? = some (helperName 1)
    ∧ ∀ d ∈ (collapse circular).1, d.isFunc → d.label ≠ helperName 1 := by
  have hs : .loose (.ofBlock "lapis_ore" "call function" (Value.wrap "text" (helperName 1)))
      ∈ ofEntries (isOnlyHelper circular) circular := by decide +kernel
  obtain ⟨he, hnone⟩ :=
    collapse_circle (t := helperName 1) (by decide +kernel) hs rfl (mem_singleton.mpr rfl) rfl (by decide +kernel)
  exact ⟨_, he, by decide +kernel, hnone⟩

/-- Helpers that lead to each other are dropped, but the calls of them stay. -/
theorem collapse_circular : Linked circular ∧ ¬ Linked (collapse circular).1
    ∧ ¬ Linked (promote (collapse circular).1).1 := by
  decide +kernel

end Plan
end BlockScript
