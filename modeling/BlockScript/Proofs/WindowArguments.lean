import BlockScript.Window.Argument
import BlockScript.Proofs.Splitting

/-!
# Where the arguments of a window lie

A single pane takes a slot next to it, and a column of a lane takes the three slots below it, which are empty. Both go
through the same list of slots taken, so that no two arguments share a slot, whatever lies in the window
(`arguments_near_placed`). A single pane may take the slot of a switch, but only if the switch is a value of its mode or
there is no other place for an item or a block (`arguments_near_switches`).
-/

open List Option
namespace BlockScript

namespace Window

variable {items : Slots} {taken : List Nat} {mode : Mode} {slot last : Nat}

/-! ### Slots next to each other -/

/-- Two slots lie side by side in one row, or one below the other in one column. -/
def Adjacent (s t : Nat) : Prop :=
  s / rowSize = t / rowSize ∧ distance (s % rowSize) (t % rowSize) = 1
    ∨ s % rowSize = t % rowSize ∧ distance (s / rowSize) (t / rowSize) = 1

def IsClear (items : Slots) (slot : Nat) : Prop := ∀ x, Slots.get? slot items = some x → x.isPane = false

lemma adjacent_of_mem_neighbours {s : Nat} (h : s ∈ neighbours slot last) : Adjacent slot s := by
  obtain ⟨⟨row, col⟩, hplace, rfl⟩ := List.mem_map.mp h
  have hlt : slot % rowSize < rowSize := Nat.mod_lt slot (by decide)
  have hplace := (mem_filter.mp hplace).1
  simp only [mem_append, mem_singleton, mem_ite_nil_right, Prod.mk.injEq] at hplace
  simp only [Adjacent, distance, rowSize] at hlt hplace ⊢
  omega

lemma isClear_of_not_has (h : Slots.has slot items = false) : IsClear items slot := by
  intro x hx
  simp [Slots.has, hx] at h

/-! ### Single panes -/

lemma of_find?_neighbours {q : Nat → Bool} {s : Nat}
    (h : (neighbours slot last).find? (fun s => !taken.contains s && q s) = some s) :
    s ∉ taken ∧ Adjacent slot s ∧ q s := by
  have hs := find?_some h
  simp only [Bool.and_eq_true, Bool.not_eq_true', contains_eq_mem, decide_eq_false_iff_not] at hs
  exact ⟨hs.1, adjacent_of_mem_neighbours (mem_of_find?_eq_some h), hs.2⟩

lemma not_isPane_of_valueItem? {x : Item} (h : valueItem? mode = some x.id) : x.isPane = false := by
  rw [← Bool.not_eq_true]
  intro hpane
  rw [eq_of_beq (show x.id == paneId from hpane)] at h
  cases mode <;> revert h <;> decide

/-- What the argument of a pane may lie on: a value of its mode, or for an item or a block anything but a pane, if every
slot next to the pane is held by an item or used. -/
def Covers (items : Slots) (used : List Nat) (mode : Mode) (pane : Nat) (x : Item) : Prop :=
  valueItem? mode = some x.id ∨ (mode = .item ∨ mode = .block) ∧ x.isPane = false
    ∧ ∀ s ∈ neighbours pane (lastRow items), Slots.has s items ∨ s ∈ used

lemma nearSlot?_some {s : Nat} (h : nearSlot? items taken mode (lastRow items) slot = some s) :
    s ∉ taken ∧ Adjacent slot s ∧ ∀ x, Slots.get? s items = some x → Covers items taken mode slot x := by
  rcases or_eq_some_iff.mp h with h | ⟨-, h⟩
  · obtain ⟨htk, hnear, hs⟩ := of_find?_neighbours h
    exact ⟨htk, hnear, fun x hx => .inl (by simpa [hx] using hs)⟩
  rcases or_eq_some_iff.mp h with h | ⟨hfree, h⟩
  · obtain ⟨htk, hnear, hs⟩ := of_find?_neighbours h
    exact ⟨htk, hnear, fun x hx => by simp [Slots.has, hx] at hs⟩
  split at h
  next hmode =>
    obtain ⟨htk, hnear, hs⟩ := of_find?_neighbours h
    refine ⟨htk, hnear, fun x hx => .inr ⟨by simpa using hmode, by simpa [hx] using hs, fun s hs => ?_⟩⟩
    have hheld := find?_eq_none.mp hfree s hs
    simp only [isFree, Bool.and_eq_true, Bool.not_eq_true', contains_eq_mem, decide_eq_false_iff_not, not_and,
      Bool.not_eq_false] at hheld
    exact or_iff_not_imp_right.mpr hheld
  · contradiction

/-! ### Lanes -/

/-- The column's arguments lie in the three slots below it, and these are empty. -/
def Column.IsFree (items : Slots) (c : Column) : Prop :=
    c.places = below c.slot 3 ∧ ∀ s ∈ c.places, Slots.has s items = false

lemma isFree_of_repeatedColumn? {row col : Nat} {cols : List Nat} {c : Column}
    (h : repeatedColumn? items mode row cols col = some c) : c.IsFree items := by
  simp only [repeatedColumn?] at h
  split at h
  · contradiction
  split at h
  next hfree =>
    cases h
    refine ⟨rfl, fun s hs => ?_⟩
    simpa using (Bool.and_eq_true_iff.mp (List.all_eq_true.mp hfree s hs)).2
  · contradiction

lemma isFree_of_mapM {row : Nat} {cols span : List Nat} {lane : Lane}
    (h : span.mapM (repeatedColumn? items mode row cols) = some lane) : ∀ c ∈ lane, c.IsFree items := by
  induction span generalizing lane with
  | nil =>
    cases h
    nofun
  | cons col span ih =>
    rw [mapM_cons] at h
    obtain ⟨c, hc, h⟩ := bind_eq_some_iff.mp h
    obtain ⟨lane', hlane, h⟩ := bind_eq_some_iff.mp h
    cases h
    exact forall_mem_cons.mpr ⟨isFree_of_repeatedColumn? hc, ih hlane⟩

lemma isFree_of_mem_repeatedLane {c : Column} (h : c ∈ repeatedLane items mode) : c.IsFree items := by
  rw [repeatedLane] at h
  split at h
  · contradiction
  next l ls hlanes =>
    have hmem : ls.foldl better l ∈ l :: ls := Plan.foldl_choice_mem (fun a b => by rw [better]; split <;> simp) ls l
    rw [← hlanes] at hmem
    obtain ⟨row, -, hlane⟩ := mem_filterMap.mp hmem
    rw [repeatedLane?] at hlane
    split at hlane
    · contradiction
    obtain ⟨lane, hcolumns, hlane⟩ := map_eq_some_iff.mp hlane
    rw [← hlane] at h
    exact isFree_of_mapM hcolumns c h

lemma mem_places {lane : Lane} {c : Column} {s : Nat} (h : (c, s) ∈ lane.places) : c ∈ lane ∧ s ∈ c.places := by
  obtain ⟨d, -, h⟩ := mem_flatMap.mp h
  obtain ⟨c', hc', h⟩ := mem_filterMap.mp h
  obtain ⟨s', hs', heq⟩ := map_eq_some_iff.mp h
  obtain ⟨rfl, rfl⟩ := Prod.mk.inj heq
  exact ⟨hc', mem_of_getElem? hs'⟩

/-! ### All arguments -/

/-- The slot of an argument holds no pane. It lies next to its pane, or up to three rows below it and is empty. -/
structure Argument.IsPlaced (items : Slots) (a : Argument) : Prop where
  clear : IsClear items a.slot
  near : Adjacent a.pane a.slot
    ∨ ∃ k, 1 ≤ k ∧ k ≤ 3 ∧ a.slot = a.pane + k * rowSize ∧ Slots.has a.slot items = false

/-- Arguments take slots of their own, none of them among those in `taken`. -/
def TakeOwn (taken : List Nat) (as : List Argument) : Prop :=
  (as.map (·.slot)).Nodup ∧ ∀ a ∈ as, a.slot ∉ taken

lemma TakeOwn.cons {a : Argument} {as : List Argument} (ha : a.slot ∉ taken) (h : TakeOwn (a.slot :: taken) as) :
    TakeOwn taken (a :: as) := by
  refine ⟨nodup_cons.mpr ⟨fun hmem => ?_, h.1⟩, ?_⟩
  · obtain ⟨b, hb, heq⟩ := List.mem_map.mp hmem
    exact h.2 b hb (by simp [heq])
  · exact forall_mem_cons.mpr ⟨ha, fun b hb => fun hmem => h.2 b hb (mem_cons_of_mem _ hmem)⟩

/-- What lies in the slot of an argument is something that its pane may cover. -/
def Argument.IsCovering (items : Slots) (used : List Nat) (a : Argument) : Prop :=
  ∀ x, Slots.get? a.slot items = some x → Covers items used a.marker.mode a.pane x

lemma Argument.IsCovering.mono {used used' : List Nat} {a : Argument} (h : a.IsCovering items used)
    (hsub : used ⊆ used') :
    a.IsCovering items used' := fun x hx =>
  (h x hx).imp_right fun ⟨hmode, hpane, hheld⟩ => ⟨hmode, hpane, fun s hs => (hheld s hs).imp_right (hsub ·)⟩

lemma single?_some {lanes : List (Option Mode × Lane)} {x : Item} {a : Argument}
    (h : single? .near items lanes taken slot x = some a) :
    a.slot ∉ taken ∧ a.IsPlaced items ∧ a.IsCovering items taken := by
  rw [single?] at h
  split at h
  · contradiction
  obtain ⟨mode, -, h⟩ := bind_eq_some_iff.mp h
  obtain ⟨s, hs, rfl⟩ := map_eq_some_iff.mp h
  obtain ⟨htk, hnear, hcov⟩ := nearSlot?_some hs
  exact ⟨htk, ⟨fun x hx => (hcov x hx).elim not_isPane_of_valueItem? fun h => h.2.1, .inl hnear⟩, hcov⟩

lemma singles_spec (items : Slots) (taken : List Nat) (lanes : List (Option Mode × Lane)) (panes : Slots) :
    TakeOwn taken (singles .near items lanes taken panes) ∧ ∀ a ∈ singles .near items lanes taken panes,
      a.IsPlaced items ∧ a.IsCovering items (taken ++ (singles .near items lanes taken panes).map (·.slot)) := by
  induction panes generalizing taken with
  | nil => exact ⟨⟨nodup_nil, nofun⟩, nofun⟩
  | cons p panes ih =>
    rw [singles]
    split
    next a ha =>
      obtain ⟨htk, hplc, hcov⟩ := single?_some ha
      refine ⟨.cons htk (ih _).1, forall_mem_cons.mpr ⟨⟨hplc, hcov.mono (subset_append_left _ _)⟩, ?_⟩⟩
      exact fun b hb => ((ih _).2 b hb).imp_right (·.mono fun s hs => by simpa [or_left_comm] using hs)
    next => exact ih _

lemma laneArguments_spec (reading : Reading) (taken : List Nat) {places : List (Column × Nat)}
    (h : ∀ p ∈ places, p.1.IsFree items ∧ p.2 ∈ p.1.places) : TakeOwn taken (laneArguments reading items taken places)
      ∧ ∀ a ∈ laneArguments reading items taken places, a.IsPlaced items ∧ Slots.has a.slot items = false := by
  induction places generalizing taken with
  | nil => exact ⟨⟨nodup_nil, nofun⟩, nofun⟩
  | cons p places ih =>
    obtain ⟨⟨hfree, hmem⟩, hrest⟩ := forall_mem_cons.mp h
    rw [laneArguments]
    split
    · exact ih _ hrest
    next htk =>
      have hemp := hfree.2 p.2 hmem
      rw [hfree.1] at hmem
      obtain ⟨k, hk, hslot⟩ := List.mem_map.mp hmem
      have hk := mem_range.mp hk
      refine ⟨.cons (fun h => htk (contains_iff_mem.mpr h)) (ih _ hrest).1,
        forall_mem_cons.mpr ⟨?_, (ih _ hrest).2⟩⟩
      exact ⟨⟨isClear_of_not_has hemp, .inr ⟨k + 1, by omega, by omega, hslot.symm, hemp⟩⟩, hemp⟩

lemma arguments_near_spec (r : Record) : ((arguments .near r).map (·.slot)).Nodup ∧ ∀ a ∈ arguments .near r,
    a.IsPlaced r.items ∧ a.IsCovering r.items ((arguments .near r).map (·.slot)) := by
  have hlanes : ∀ p ∈ (Reading.near.lanes r).flatMap (·.2.places), p.1.IsFree r.items ∧ p.2 ∈ p.1.places := by
    intro p hp
    obtain ⟨⟨_, lane⟩, hlane, hp⟩ := mem_flatMap.mp hp
    obtain ⟨mode, -, heq⟩ := List.mem_map.mp hlane
    obtain ⟨-, rfl⟩ := Prod.mk.inj heq
    obtain ⟨hc, hs⟩ := mem_places hp
    exact ⟨isFree_of_mem_repeatedLane hc, hs⟩
  obtain ⟨⟨hown, -⟩, hplc⟩ := singles_spec r.items [] (Reading.near.lanes r) (Slots.sorted r.items)
  obtain ⟨⟨hlane, htk⟩, hplc'⟩ := laneArguments_spec .near
    ((singles .near r.items (Reading.near.lanes r) [] (Slots.sorted r.items)).map (·.slot)) hlanes
  refine ⟨?_, forall_mem_append.mpr ⟨fun a ha => ?_, fun a ha => ?_⟩⟩
  rotate_left
  · exact (hplc a ha).imp_right (·.mono (by simp [arguments]))
  · obtain ⟨hplc, hemp⟩ := hplc' a ha
    exact ⟨hplc, fun x hx => by simp [Slots.has, hx] at hemp⟩
  rw [arguments, map_append]
  refine nodup_append.mpr ⟨hown, hlane, fun s hs t ht => ?_⟩
  rintro rfl
  obtain ⟨a, ha, rfl⟩ := List.mem_map.mp ht
  exact htk a ha hs

/-- Whatever lies in a window, its arguments have slots of their own, and each lies where it belongs: next to its pane
and not in the place of a pane, or one to three rows below its pane in an empty slot. -/
theorem arguments_near_placed (r : Record) :
    ((arguments .near r).map (·.slot)).Nodup ∧ ∀ a ∈ arguments .near r, a.IsPlaced r.items :=
  ⟨(arguments_near_spec r).1, fun a ha => ((arguments_near_spec r).2 a ha).1⟩

/-- An argument lies in the slot of a switch only if what lies there is a value of the argument's mode, or if the
argument is an item or a block and every slot next to its pane is held by an item or used by an argument. -/
theorem arguments_near_switches (r : Record) {a : Argument} (ha : a ∈ arguments .near r) {w : Switch}
    (hw : w ∈ switches .near r.items) (h : a.slot = w.slot) : ∃ x, Slots.get? a.slot r.items = some x
      ∧ Covers r.items ((arguments .near r).map (·.slot)) a.marker.mode a.pane x := by
  obtain ⟨⟨s, y⟩, hy, hsw⟩ := mem_filterMap.mp hw
  have hslot : w.slot = s := by
    simp only at hsw
    split at hsw
    · contradiction
    obtain ⟨o, -, rfl⟩ := map_eq_some_iff.mp hsw
    rfl
  obtain ⟨x, hx⟩ : ∃ x, Slots.get? a.slot r.items = some x := by
    refine ne_none_iff_exists'.mp fun hnone => ?_
    simpa [h, hslot] using lookup_eq_none_iff.mp hnone (s, y) (mem_mergeSort.mp hy)
  exact ⟨x, hx, ((arguments_near_spec r).2 a ha).2 x hx⟩

/-- A window with a pane for an item and a rope with options beside it. -/
def ropeRecord : Record where
  items := [(0, ⟨paneId, 4, "Предмет", []⟩), (1, ⟨"minecraft:lead", 0, "Режим", "● да \\n ○ нет"⟩)]

lemma ropeRecord_shares : ∃ a ∈ arguments .near ropeRecord, ∃ w ∈ switches .near ropeRecord.items, a.slot = w.slot := by
  have hsort : Slots.sorted ropeRecord.items = ropeRecord.items := mergeSort_of_pairwise (by decide)
  simp only [arguments, switches, Reading.lanes, repeatedLane, rows, hsort]
  decide +kernel

theorem arguments_near_switches_rope : ∃ a ∈ arguments .near ropeRecord, ∃ w ∈ switches .near ropeRecord.items,
    a.slot = w.slot ∧ ∃ x, Slots.get? a.slot ropeRecord.items = some x
      ∧ Covers ropeRecord.items ((arguments .near ropeRecord).map (·.slot)) a.marker.mode a.pane x := by
  obtain ⟨a, ha, w, hw, h⟩ := ropeRecord_shares
  exact ⟨a, ha, w, hw, h, arguments_near_switches ropeRecord ha hw h⟩

/-- The item takes the place of the rope. -/
theorem exists_argument_on_switch :
    ¬ ∀ r, ∀ a ∈ arguments .near r, ∀ w ∈ switches .near r.items, a.slot ≠ w.slot := by
  obtain ⟨a, ha, w, hw, h⟩ := ropeRecord_shares
  exact fun hnone => hnone ropeRecord a ha w hw h

end Window

end BlockScript
