import Mathlib.Data.List.Forall2
import BlockScript.Text.Pattern

/-!
# What patterns match

`Pattern.Takes` says, without any search, that a pattern can lead from one place of a text to another.
The matcher finds a way exactly when there is one (`run_some`, `isSome_run`), so facts about matches are facts
about how a text is put together: `Reads s u s'` says that `u` is what stands between two places.
-/

open Option List
namespace BlockScript.Pattern

/-! ### Ways through a pattern -/

/-- Steps that each make progress, one after another. -/
inductive Loop (R : Place → Groups → Place → Groups → Prop) : Place → Groups → Place → Groups → Prop
  | done {s : Place} {g : Groups} : Loop R s g s g
  | more {s s' s'' : Place} {g g' g'' : Groups} :
    R s g s' g' → s.pos < s'.pos → Loop R s' g' s'' g'' → Loop R s g s'' g''

/-- The pattern can lead from the first place to the second, and turns the first groups into the second. -/
def Takes : Pattern → Place → Groups → Place → Groups → Prop
  | .empty, s, g, s', g' => s' = s ∧ g' = g
  | .char p, s, g, s', g' => ∃ c t, s.rest = c :: t ∧ p c ∧ s' = ⟨s.pos + 1, some c, t⟩ ∧ g' = g
  | .seq a b, s, g, s', g' => ∃ s₁ g₁, a.Takes s g s₁ g₁ ∧ b.Takes s₁ g₁ s' g'
  | .alt a b, s, g, s', g' => a.Takes s g s' g' ∨ b.Takes s g s' g'
  | .many a, s, g, s', g' => Loop a.Takes s g s' g'
  | .manyLazy a, s, g, s', g' => Loop a.Takes s g s' g'
  | .opt a, s, g, s', g' => a.Takes s g s' g' ∨ s' = s ∧ g' = g
  | .group i a, s, g, s', g' => ∃ g₁, a.Takes s g s' g₁ ∧ g' = (i, s.rest.take (s'.pos - s.pos)) :: g₁
  | .again i, s, g, s', g' => ∃ t, g.lookup i = some t ∧ readText t s = some s' ∧ g' = g
  | .atStart, s, g, s', g' => s.pos = 0 ∧ s' = s ∧ g' = g
  | .atEnd, s, g, s', g' => (s.rest = [] ∨ s.rest = ['\n']) ∧ s' = s ∧ g' = g
  | .wordEdge, s, g, s', g' => isWordSide s.last ≠ isWordSide s.rest.head? ∧ s' = s ∧ g' = g
  | .ahead a, s, g, s', g' => (a.run s g fun _ _ => some ()).isSome ∧ s' = s ∧ g' = g
  | .notAhead a, s, g, s', g' => (a.run s g fun _ _ => some ()).isSome = false ∧ s' = s ∧ g' = g
  | .notBehind p, s, g, s', g' => (∀ c, s.last = some c → p c = false) ∧ s' = s ∧ g' = g

/-! ### The matcher follows a way -/

variable {α : Type} {p : Char → Bool} {a b : Pattern} {s s' s'' : Place} {g g' : Groups} {t u v : Text}
  {k : Place → Groups → Option α} {R : Place → Groups → Place → Groups → Prop} {m : Match}

section Repeat
variable {R : Place → Groups → Place → Groups → Prop} {n : Nat} {r : α} {F : Nat → Place → Groups → Option α}
  {step : Place → Groups → (Place → Groups → Option α) → Option α} {k : Place → Groups → Option α}

def again? (step : Place → Groups → (Place → Groups → Option α) → Option α) (F : Place → Groups → Option α) (s : Place)
    (g : Groups) : Option α := step s g fun s' g' => if s.pos < s'.pos then F s' g' else none

lemma repeatLong_succ : repeatLong step k (n + 1) s g = (again? step (repeatLong step k n) s g).or (k s g) := by
  rw [repeatLong, again?]
  split <;> simp [*]

lemma repeatShort_succ : repeatShort step k (n + 1) s g = (k s g).or (again? step (repeatShort step k n) s g) := by
  rw [repeatShort, again?]
  split <;> simp [*]

lemma exists_loop (hzero : F 0 = k)
    (hsucc : ∀ {n s g r}, F (n + 1) s g = some r → again? step (F n) s g = some r ∨ k s g = some r)
    (hstep : ∀ s g (k : Place → Groups → Option α) r, step s g k = some r → ∃ s' g', R s g s' g' ∧ k s' g' = some r) :
    ∀ {s g}, F n s g = some r → ∃ s' g', Loop R s g s' g' ∧ k s' g' = some r := by
  induction n with
  | zero =>
    intro s g h
    exact ⟨s, g, .done, hzero ▸ h⟩
  | succ n ih =>
    intro s g h
    rcases hsucc h with h | h
    · obtain ⟨s₁, g₁, h₁, hk⟩ := hstep _ _ _ _ h
      split at hk
      · obtain ⟨s', g', hl, hk'⟩ := ih hk
        exact ⟨s', g', .more h₁ ‹_› hl, hk'⟩
      · cases hk
    · exact ⟨s, g, .done, h⟩

end Repeat

/-- What the matcher finds is a way through the pattern, with the result of going on from there. -/
theorem run_some (a : Pattern) {r : α} (h : a.run s g k = some r) : ∃ s' g', a.Takes s g s' g' ∧ k s' g' = some r := by
  induction a generalizing s g k r with
  | empty => exact ⟨s, g, ⟨rfl, rfl⟩, h⟩
  | char p =>
    simp only [run] at h
    split at h
    · split at h
      · exact ⟨_, _, ⟨_, _, ‹_›, ‹_›, rfl, rfl⟩, h⟩
      · cases h
    · cases h
  | seq a b iha ihb =>
    obtain ⟨s₁, g₁, h₁, hk⟩ := iha h
    obtain ⟨s', g', h₂, hk'⟩ := ihb hk
    exact ⟨s', g', ⟨s₁, g₁, h₁, h₂⟩, hk'⟩
  | alt a b iha ihb =>
    simp only [run] at h
    split at h
    · cases h
      obtain ⟨s', g', h', hk⟩ := iha ‹_›
      exact ⟨s', g', .inl h', hk⟩
    obtain ⟨s', g', h', hk⟩ := ihb h
    exact ⟨s', g', .inr h', hk⟩
  | many a ih =>
    refine exists_loop (R := a.Takes) rfl (fun h => ?_) (fun _ _ _ _ => ih) h
    rw [repeatLong_succ, or_eq_some_iff] at h
    exact h.imp_right And.right
  | manyLazy a ih =>
    refine exists_loop (R := a.Takes) rfl (fun h => ?_) (fun _ _ _ _ => ih) h
    rw [repeatShort_succ, or_eq_some_iff] at h
    exact h.symm.imp_left And.right
  | opt a ih =>
    simp only [run] at h
    split at h
    · cases h
      obtain ⟨s', g', h', hk⟩ := ih ‹_›
      exact ⟨s', g', .inl h', hk⟩
    · exact ⟨s, g, .inr ⟨rfl, rfl⟩, h⟩
  | group i a ih =>
    obtain ⟨s', g', h', hk⟩ := ih h
    exact ⟨s', _, ⟨g', h', rfl⟩, hk⟩
  | again i =>
    simp only [run] at h
    split at h
    · obtain ⟨s', hs', hk⟩ := bind_eq_some_iff.mp h
      exact ⟨s', g, ⟨_, ‹_›, hs', rfl⟩, hk⟩
    · cases h
  | atStart | atEnd | wordEdge | ahead a _ =>
    simp only [run] at h
    split at h
    next he => exact ⟨s, g, ⟨by simpa using he, rfl, rfl⟩, h⟩
    · cases h
  | notAhead a _ =>
    simp only [run] at h
    split at h
    · cases h
    next he => exact ⟨s, g, ⟨by simpa using he, rfl, rfl⟩, h⟩
  | notBehind p =>
    simp only [run] at h
    split at h
    next c hc =>
      split at h
      · cases h
      · exact ⟨s, g, ⟨by simp_all, rfl, rfl⟩, h⟩
    next hn => exact ⟨s, g, ⟨by simp [hn], rfl, rfl⟩, h⟩

/-! ### Texts between places -/

structure Reads (s : Place) (u : Text) (s' : Place) : Prop where
  rest : s.rest = u ++ s'.rest
  pos : s'.pos = s.pos + u.length
  last : s'.last = u.getLast?.or s.last

namespace Reads

lemma refl (s : Place) : Reads s [] s := ⟨rfl, rfl, by simp⟩

lemma trans (h : Reads s u s') (h' : Reads s' v s'') : Reads s (u ++ v) s'' where
  rest := by rw [h.rest, h'.rest, append_assoc]
  pos := by rw [h'.pos, h.pos, length_append, Nat.add_assoc]
  last := by rw [h'.last, h.last, getLast?_append, Option.or_assoc]

lemma eq_of_nil (h : Reads s [] s') : s' = s := by
  obtain ⟨hr, hp, hl⟩ := h
  cases s
  cases s'
  simp_all

lemma eq_mk {c : Char} (h : Reads s [c] s') : s' = ⟨s.pos + 1, some c, s'.rest⟩ := by
  obtain ⟨-, hp, hl⟩ := h
  cases s'
  simp_all

lemma take_eq (h : Reads s u s') : s.rest.take (s'.pos - s.pos) = u := by
  rw [h.rest, h.pos, Nat.add_sub_cancel_left, take_left]

lemma size (h : Reads s u s') : s'.pos + s'.rest.length = s.pos + s.rest.length := by
  rw [h.pos, h.rest, length_append, Nat.add_assoc]

lemma cons {c : Char} (n : Nat) (l : Option Char) (t : Text) : Reads ⟨n, l, c :: t⟩ [c] ⟨n + 1, some c, t⟩ :=
  ⟨rfl, rfl, rfl⟩

lemma split (h : Reads s (u ++ v) s'') : ∃ s', Reads s u s' ∧ Reads s' v s'' := by
  obtain ⟨hr, hp, hl⟩ := h
  refine ⟨⟨s.pos + u.length, u.getLast?.or s.last, v ++ s''.rest⟩, ⟨by simpa using hr, rfl, rfl⟩, rfl, ?_, ?_⟩
  · simpa [Nat.add_assoc] using hp
  · rw [hl, getLast?_append, Option.or_assoc]

end Reads

lemma readText_some : readText t s = some s' ↔ Reads s t s' := by
  induction t generalizing s with
  | nil =>
    simp only [readText, Option.some.injEq]
    exact ⟨fun h => h ▸ Reads.refl s, fun h => h.eq_of_nil.symm⟩
  | cons c t ih =>
    obtain ⟨n, l, rest⟩ := s
    cases rest with
    | nil =>
      simp only [readText, reduceCtorEq, false_iff]
      intro h
      simpa using h.rest
    | cons d rest =>
      simp only [readText]
      constructor
      · intro h
        split at h
        next hc =>
          obtain rfl := by simpa using hc
          exact (Reads.cons n l rest).trans (ih.mp h)
        · cases h
      intro h
      obtain ⟨rfl, hr⟩ : d = c ∧ rest = t ++ s'.rest := by simpa using h.rest
      rw [if_pos (by simp), ih]
      refine ⟨hr, by simpa [Nat.add_right_comm, Nat.add_assoc] using h.pos, ?_⟩
      rw [h.last]
      cases t <;> simp [getLast?_cons]

lemma Loop.reads (hR : ∀ {s g s' g'}, R s g s' g' → ∃ u, Reads s u s') (h : Loop R s g s' g') : ∃ u, Reads s u s' := by
  induction h with
  | done => exact ⟨[], .refl _⟩
  | more h₁ _ _ ih =>
    obtain ⟨u, hu⟩ := hR h₁
    obtain ⟨v, hv⟩ := ih
    exact ⟨u ++ v, hu.trans hv⟩

theorem Takes.reads (h : a.Takes s g s' g') : ∃ u, Reads s u s' := by
  induction a generalizing s g s' g' with
  | char p =>
    obtain ⟨c, t, hs, -, rfl, -⟩ := h
    exact ⟨[c], hs, rfl, rfl⟩
  | seq a b iha ihb =>
    obtain ⟨s₁, g₁, h₁, h₂⟩ := h
    obtain ⟨u, hu⟩ := iha h₁
    obtain ⟨v, hv⟩ := ihb h₂
    exact ⟨u ++ v, hu.trans hv⟩
  | alt a b iha ihb => exact h.elim iha ihb
  | many a ih | manyLazy a ih => exact Loop.reads ih h
  | opt a ih =>
    rcases h with h | ⟨rfl, -⟩
    · exact ih h
    · exact ⟨[], .refl _⟩
  | group i a ih =>
    obtain ⟨g₁, h₁, -⟩ := h
    exact ih h₁
  | again i =>
    obtain ⟨t, -, ht, -⟩ := h
    exact ⟨t, readText_some.mp ht⟩
  | empty =>
    obtain ⟨rfl, -⟩ := h
    exact ⟨[], .refl _⟩
  | atStart | atEnd | wordEdge | ahead | notAhead | notBehind =>
    obtain ⟨-, rfl, -⟩ := h
    exact ⟨[], .refl _⟩

/-! ### The matcher finds a way -/

-- the fuel, one round for each character that is left, lasts because every round reads something
lemma isSome_of_loop {F : Nat → Place → Groups → Option α}
    {step : Place → Groups → (Place → Groups → Option α) → Option α} (hzero : F 0 = k)
    (hsucc : ∀ {n s g}, (again? step (F n) s g).isSome ∨ (k s g).isSome → (F (n + 1) s g).isSome)
    (hR : ∀ {s g s' g'}, R s g s' g' → ∃ u, Reads s u s')
    (hstep : ∀ {s g s' g'} {k : Place → Groups → Option α}, R s g s' g' → (k s' g').isSome → (step s g k).isSome)
    (h : Loop R s g s' g') (hk : (k s' g').isSome) : ∀ {n}, s.rest.length ≤ n → (F n s g).isSome := by
  induction h with
  | done =>
    intro n _
    cases n with
    | zero => rwa [hzero]
    | succ n => exact hsucc (.inr hk)
  | more h₁ hlt _ ih =>
    intro n hn
    obtain ⟨u, hu⟩ := hR h₁
    have hsize := hu.size
    cases n with
    | zero => omega
    | succ n =>
      refine hsucc (.inl (hstep h₁ ?_))
      rw [if_pos hlt]
      exact ih hk (by omega)

/-- If there is a way through the pattern from whose end one can go on, the matcher finds such a way. -/
theorem Takes.isSome_run (h : a.Takes s g s' g') (hk : (k s' g').isSome) : (a.run s g k).isSome := by
  induction a generalizing s g s' g' k with
  | empty =>
    obtain ⟨rfl, rfl⟩ := h
    exact hk
  | char p =>
    obtain ⟨c, t, hs, hc, rfl, rfl⟩ := h
    simpa [run, hs, hc, if_true] using hk
  | seq a b iha ihb =>
    obtain ⟨s₁, g₁, h₁, h₂⟩ := h
    exact iha h₁ (ihb h₂ hk)
  | alt a b iha ihb =>
    simp only [run]
    split
    · rfl
    rcases h with h | h
    · have := iha h hk
      simp_all
    · exact ihb h hk
  | many a ih =>
    refine isSome_of_loop (R := a.Takes) rfl (fun h => ?_) Takes.reads ih h hk (Nat.le_refl _)
    rwa [repeatLong_succ, isSome_or, Bool.or_eq_true]
  | manyLazy a ih =>
    refine isSome_of_loop (R := a.Takes) rfl (fun h => ?_) Takes.reads ih h hk (Nat.le_refl _)
    rwa [repeatShort_succ, isSome_or, Bool.or_eq_true, or_comm]
  | opt a ih =>
    simp only [run]
    split
    · rfl
    rcases h with h | ⟨rfl, rfl⟩
    · have := ih h hk
      simp_all
    · exact hk
  | group i a ih =>
    obtain ⟨g₁, h₁, rfl⟩ := h
    exact ih h₁ hk
  | again i =>
    obtain ⟨t, ht, hs, rfl⟩ := h
    simpa [run, ht, hs, bind_some] using hk
  | atStart | atEnd | wordEdge | ahead a _ =>
    obtain ⟨hs, rfl, rfl⟩ := h
    rw [run, if_pos (by simpa using hs)]
    exact hk
  | notAhead a _ =>
    obtain ⟨hs, rfl, rfl⟩ := h
    rw [run, if_neg (by simp [hs])]
    exact hk
  | notBehind p =>
    obtain ⟨hs, rfl, rfl⟩ := h
    simp only [run]
    split
    next c hc =>
      rw [hs c hc]
      exact hk
    · exact hk

lemma run_lit (t : Text) (s : Place) (g : Groups) (k : Place → Groups → Option α) :
    (lit t).run s g k = (readText t s).bind fun s' => k s' g := by
  induction t generalizing s with
  | nil => rfl
  | cons c t ih =>
    have hstep : (lit (c :: t)).run s g k = (char (c == ·)).run s g fun s' g' => (lit t).run s' g' k := by
      cases t <;> rfl
    rw [hstep, Pattern.run, readText]
    rcases s with ⟨n, l, _ | ⟨d, rest⟩⟩
    · rfl
    · by_cases hd : c == d <;> simp [hd, ih]

/-! ### Patterns that look at the text alone -/

/-- The pattern looks at nothing but the text it takes, and perhaps at whether this is the start of the whole text. -/
def isFree (start : Bool) : Pattern → Bool
  | .empty | .char _ | .many (.char _) | .manyLazy (.char _) => true
  | .seq a b => a.isFree start && b.isFree false
  | .alt a b => a.isFree start && b.isFree start
  | .opt a | .group _ a => a.isFree start
  | .atStart => start
  | _ => false

/-- The pattern takes the text, and turns the first groups into the second. -/
def Spells : Pattern → Text → Groups → Groups → Prop
  | .char p, t, g, g' => ∃ c, p c ∧ t = [c] ∧ g' = g
  | .seq a b, t, g, g' => ∃ u v g₁, t = u ++ v ∧ a.Spells u g g₁ ∧ b.Spells v g₁ g'
  | .alt a b, t, g, g' => a.Spells t g g' ∨ b.Spells t g g'
  | .many (.char p), t, g, g' | .manyLazy (.char p), t, g, g' => (∀ c ∈ t, p c) ∧ g' = g
  | .opt a, t, g, g' => a.Spells t g g' ∨ t = [] ∧ g' = g
  | .group i a, t, g, g' => ∃ g₁, a.Spells t g g₁ ∧ g' = (i, t) :: g₁
  | _, t, g, g' => t = [] ∧ g' = g

lemma exists_reads_nil : (∃ u, Reads s u s' ∧ u = [] ∧ g' = g) ↔ s' = s ∧ g' = g := by
  constructor
  · rintro ⟨_, hr, rfl, rfl⟩
    exact ⟨hr.eq_of_nil, rfl⟩
  rintro ⟨rfl, rfl⟩
  exact ⟨[], .refl _, rfl, rfl⟩

lemma takes_char : (char p).Takes s g s' g' ↔ ∃ u, Reads s u s' ∧ (char p).Spells u g g' := by
  constructor
  · rintro ⟨c, t, hs, hc, rfl, rfl⟩
    exact ⟨[c], ⟨hs, rfl, rfl⟩, c, hc, rfl, rfl⟩
  rintro ⟨_, hr, c, hc, rfl, rfl⟩
  exact ⟨c, s'.rest, hr.rest, hc, hr.eq_mk, rfl⟩

lemma loop_char : Loop (char p).Takes s g s' g' ↔ ∃ u, Reads s u s' ∧ (∀ c ∈ u, p c) ∧ g' = g := by
  constructor
  · intro h
    induction h with
    | done => exact ⟨[], .refl _, by simp, rfl⟩
    | more h₁ _ _ ih =>
      obtain ⟨_, hr, c, hc, rfl, rfl⟩ := takes_char.mp h₁
      obtain ⟨u, hr', hu, rfl⟩ := ih
      exact ⟨c :: u, hr.trans hr', by simp_all, rfl⟩
  rintro ⟨u, hr, hu, rfl⟩
  induction u generalizing s with
  | nil =>
    rw [hr.eq_of_nil]
    exact .done
  | cons c u ih =>
    obtain ⟨s₁, h₁, h₂⟩ := Reads.split (u := [c]) hr
    have hlt : s.pos < s₁.pos := by simp [h₁.pos]
    exact .more (takes_char.mpr ⟨_, h₁, c, hu c (by simp), rfl, rfl⟩) hlt (ih h₂ fun d hd => hu d (by simp [hd]))

/-- A pattern that looks at the text alone takes the texts that it spells, wherever they stand. -/
theorem takes_iff {w : Bool} (ha : a.isFree w) (hs : w → s.pos = 0) :
    a.Takes s g s' g' ↔ ∃ u, Reads s u s' ∧ a.Spells u g g' := by
  induction a generalizing w s g s' g' with
  | empty => exact exists_reads_nil.symm
  | char p => exact takes_char
  | seq a b iha ihb =>
    obtain ⟨ha, hb⟩ := Bool.and_eq_true_iff.mp ha
    constructor
    · rintro ⟨s₁, g₁, h₁, h₂⟩
      obtain ⟨u, hu, h₁⟩ := (iha ha hs).mp h₁
      obtain ⟨v, hv, h₂⟩ := (ihb hb nofun).mp h₂
      exact ⟨u ++ v, hu.trans hv, u, v, g₁, rfl, h₁, h₂⟩
    rintro ⟨_, hr, u, v, g₁, rfl, h₁, h₂⟩
    obtain ⟨s₁, hu, hv⟩ := hr.split
    exact ⟨s₁, g₁, (iha ha hs).mpr ⟨u, hu, h₁⟩, (ihb hb nofun).mpr ⟨v, hv, h₂⟩⟩
  | alt a b iha ihb =>
    obtain ⟨ha, hb⟩ := Bool.and_eq_true_iff.mp ha
    rw [Takes, iha ha hs, ihb hb hs, ← exists_or]
    simp [Spells, and_or_left]
  | many a _ | manyLazy a _ =>
    cases a with
    | char p => exact loop_char
    | _ => contradiction
  | opt a ih =>
    rw [Takes, ih ha hs, ← exists_reads_nil, ← exists_or]
    simp [Spells, and_or_left]
  | group i a ih =>
    constructor
    · rintro ⟨g₁, h, rfl⟩
      obtain ⟨u, hu, h⟩ := (ih ha hs).mp h
      exact ⟨u, hu, g₁, h, by rw [hu.take_eq]⟩
    rintro ⟨u, hu, g₁, h, rfl⟩
    exact ⟨g₁, (ih ha hs).mpr ⟨u, hu, h⟩, by rw [hu.take_eq]⟩
  | atStart =>
    exact ⟨fun h => exists_reads_nil.mpr h.2, fun h => ⟨hs ha, exists_reads_nil.mp h⟩⟩
  | _ => contradiction

lemma spells_many1 : (many1 (char p)).Spells t g g' ↔ t ≠ [] ∧ (∀ c ∈ t, p c) ∧ g' = g := by
  constructor
  · rintro ⟨_, v, _, rfl, ⟨c, hc, rfl, rfl⟩, hv, rfl⟩
    exact ⟨by simp, by simpa using ⟨hc, hv⟩, rfl⟩
  rintro ⟨hne, ht, rfl⟩
  obtain ⟨c, t, rfl⟩ := exists_cons_of_ne_nil hne
  exact ⟨[c], t, _, rfl, ⟨c, ht c (by simp), rfl, rfl⟩, fun d hd => ht d (by simp [hd]), rfl⟩

lemma spells_many1Lazy : (many1Lazy (char p)).Spells t g g' ↔ t ≠ [] ∧ (∀ c ∈ t, p c) ∧ g' = g := spells_many1

lemma spells_ofChars {same : Char → Char → Bool} : (ofChars same u).Spells t g g' ↔
    List.Forall₂ (fun c d => same c d) u t ∧ g' = g := by
  fun_induction ofChars same u generalizing t g with
  | case1 => simp [Spells]
  | case2 c => simp [Spells, forall₂_cons_left_iff, ← and_assoc]
  | case3 c u _ ih =>
    simp only [Spells, forall₂_cons_left_iff, ih]
    constructor
    · rintro ⟨_, v, _, rfl, ⟨d, hd, rfl, rfl⟩, hv, rfl⟩
      exact ⟨⟨d, v, hd, hv, rfl⟩, rfl⟩
    rintro ⟨⟨d, v, hd, hv, rfl⟩, rfl⟩
    exact ⟨[d], v, _, rfl, ⟨d, hd, rfl, rfl⟩, hv, rfl⟩

lemma isFree_ofChars (same : Char → Char → Bool) (u : Text) : (ofChars same u).isFree false := by
  fun_induction ofChars same u with
  | case1 => rfl
  | case2 => rfl
  | case3 c u _ ih => exact ih

lemma spells_lit : (lit u).Spells t g g' ↔ t = u ∧ g' = g := by
  rw [lit, spells_ofChars, eq_comm (a := t)]
  simp

lemma spells_append {a b : Pattern} {P : Text → Prop} (ha : ∀ {u g₁}, a.Spells u g g₁ ↔ P u ∧ g₁ = g) :
    (a ++ b).Spells t g g' ↔ ∃ u v, t = u ++ v ∧ P u ∧ b.Spells v g g' := by
  constructor
  · rintro ⟨u, v, _, rfl, h, hb⟩
    obtain ⟨hu, rfl⟩ := ha.mp h
    exact ⟨u, v, rfl, hu, hb⟩
  rintro ⟨u, v, rfl, hu, hb⟩
  exact ⟨u, v, g, rfl, ha.mpr ⟨hu, rfl⟩, hb⟩

lemma spells_seq : (∀ {a b c : Pattern}, (a ++ b ++ c).Spells t g g' ↔ (a ++ (b ++ c)).Spells t g g') ∧
    (∀ {b : Pattern}, (atStart ++ b).Spells t g g' ↔ b.Spells t g g') ∧
    (∀ {p} {b : Pattern}, (char p ++ b).Spells t g g' ↔ ∃ c v, t = c :: v ∧ p c ∧ b.Spells v g g') ∧
    (∀ {u} {b : Pattern}, (lit u ++ b).Spells t g g' ↔ ∃ v, t = u ++ v ∧ b.Spells v g g') ∧
    (∀ {u} {b : Pattern}, (word u ++ b).Spells t g g' ↔
      ∃ w v, t = w ++ v ∧ List.Forall₂ (fun c d => sameLetter c d) u w ∧ b.Spells v g g') ∧
    (∀ {p} {b : Pattern}, (many (char p) ++ b).Spells t g g' ↔ ∃ u v, t = u ++ v ∧ (∀ c ∈ u, p c) ∧ b.Spells v g g') ∧
    (∀ {p} {b : Pattern}, (many1 (char p) ++ b).Spells t g g' ↔
      ∃ u v, t = u ++ v ∧ (u ≠ [] ∧ ∀ c ∈ u, p c) ∧ b.Spells v g g') ∧ (∀ {a b : Pattern}, (opt a ++ b).Spells t g g' ↔
      ∃ u v g₁, t = u ++ v ∧ (a.Spells u g g₁ ∨ u = [] ∧ g₁ = g) ∧ b.Spells v g₁ g') ∧
    (∀ {i} {a b : Pattern}, (group i a ++ b).Spells t g g' ↔
      ∃ u v g₁, t = u ++ v ∧ a.Spells u g g₁ ∧ b.Spells v ((i, u) :: g₁) g') := by
  refine ⟨?_, ?_, ?_, (spells_append spells_lit).trans (by simp), spells_append spells_ofChars, spells_append .rfl,
    spells_append (spells_many1.trans and_assoc.symm), .rfl, ?_⟩ <;> intros <;> constructor
  · rintro ⟨_, w, g₂, rfl, ⟨u, v, g₁, rfl, h₁, h₂⟩, h₃⟩
    exact ⟨u, v ++ w, g₁, by simp, h₁, v, w, g₂, rfl, h₂, h₃⟩
  · rintro ⟨u, _, g₁, rfl, h₁, v, w, g₂, rfl, h₂, h₃⟩
    exact ⟨u ++ v, w, g₂, by simp, ⟨u, v, g₁, rfl, h₁, h₂⟩, h₃⟩
  · rintro ⟨_, v, _, rfl, ⟨rfl, rfl⟩, h⟩
    exact h
  · exact fun h => ⟨[], t, g, rfl, ⟨rfl, rfl⟩, h⟩
  · rintro ⟨_, v, _, rfl, ⟨c, hc, rfl, rfl⟩, hb⟩
    exact ⟨c, v, rfl, hc, hb⟩
  · rintro ⟨c, v, rfl, hc, hb⟩
    exact ⟨[c], v, g, rfl, ⟨c, hc, rfl, rfl⟩, hb⟩
  · rintro ⟨u, v, _, rfl, ⟨g₁, h, rfl⟩, hb⟩
    exact ⟨u, v, g₁, rfl, h, hb⟩
  rintro ⟨u, v, g₁, rfl, h, hb⟩
  exact ⟨u, v, _, rfl, ⟨g₁, h, rfl⟩, hb⟩

/-! ### Matches -/

lemma Reads.whole (t : Text) : Reads (.start t) t ⟨t.length, t.getLast?, []⟩ :=
  ⟨by simp [Place.start], by simp [Place.start], by simp [Place.start]⟩

lemma match?_some (h : a.match? t = some m) : a.Takes (.start t) [] m.stop m.groups ∧ m.start = .start t := by
  obtain ⟨s', g', ht, hm⟩ := run_some a h
  cases hm
  exact ⟨ht, rfl⟩

lemma fits_iff : a.fits t ↔ ∃ s' g', a.Takes (.start t) [] s' g' := by
  constructor
  · intro h
    obtain ⟨m, hm⟩ := isSome_iff_exists.mp h
    exact ⟨_, _, (match?_some hm).1⟩
  rintro ⟨s', g', h⟩
  exact h.isSome_run rfl

lemma spells_of_match? (ha : a.isFree true) (h : (a ++ .atEnd).match? t = some m) :
    ∃ u r, t = u ++ r ∧ (r = [] ∨ r = ['\n']) ∧ a.Spells u [] m.groups := by
  obtain ⟨s₁, g₁, h, hend, -, hg⟩ := (match?_some h).1
  obtain ⟨u, hu, h⟩ := (takes_iff ha fun _ => rfl).mp h
  exact ⟨u, s₁.rest, hu.rest, hend, hg ▸ h⟩

lemma fits_of_spells (ha : a.isFree true) (h : a.Spells t [] g) : (a ++ .atEnd).fits t :=
  fits_iff.mpr ⟨_, g, _, g, (takes_iff ha fun _ => rfl).mpr ⟨t, Reads.whole t, h⟩, .inl rfl, rfl, rfl⟩

/-- The pattern takes the character somewhere. -/
def admits (c : Char) : Pattern → Bool
  | .char p => p c
  | .seq a b | .alt a b => a.admits c || b.admits c
  | .many a | .manyLazy a | .opt a | .group _ a => a.admits c
  | _ => false

lemma admits_of_spells {c : Char} (h : a.Spells t g g') (hc : c ∈ t) : a.admits c := by
  induction a generalizing t g g' with
  | char p =>
    obtain ⟨d, hd, rfl, -⟩ := h
    rwa [mem_singleton.mp hc]
  | seq a b iha ihb =>
    obtain ⟨u, v, g₁, rfl, h₁, h₂⟩ := h
    rw [admits, Bool.or_eq_true]
    exact (mem_append.mp hc).imp (iha h₁) (ihb h₂)
  | alt a b iha ihb =>
    rw [admits, Bool.or_eq_true]
    exact h.imp (iha · hc) (ihb · hc)
  | many a ih | manyLazy a ih =>
    cases a with
    | char p => exact h.1 c hc
    | _ => simp [h.1] at hc
  | opt a ih =>
    rcases h with h | ⟨rfl, -⟩
    · exact ih h hc
    · contradiction
  | group i a ih =>
    obtain ⟨g₁, h, -⟩ := h
    exact ih h hc
  | _ => simp [h.1] at hc

/-! ### Groups are parts of the text -/

lemma Reads.isInfix (h : Reads s u s') (ht : t <:+: s'.rest) : t <:+: s.rest := by
  rw [h.rest]
  exact ht.trans (suffix_append u s'.rest).isInfix

lemma Loop.mem_groups {i : Nat}
    (hR : ∀ {s g s' g'}, R s g s' g' → (∃ u, Reads s u s') ∧ ((i, t) ∈ g' → (i, t) ∈ g ∨ t <:+: s.rest))
    (h : Loop R s g s' g') (hi : (i, t) ∈ g') : (i, t) ∈ g ∨ t <:+: s.rest := by
  induction h with
  | done => exact .inl hi
  | more h₁ _ _ ih =>
    obtain ⟨⟨u, hu⟩, hgrp⟩ := hR h₁
    rcases ih hi with hi | ht
    · exact hgrp hi
    · exact .inr (hu.isInfix ht)

theorem Takes.mem_groups {i : Nat} (h : a.Takes s g s' g') (hi : (i, t) ∈ g') : (i, t) ∈ g ∨ t <:+: s.rest := by
  induction a generalizing s g s' g' with
  | char p =>
    obtain ⟨-, -, -, -, -, rfl⟩ := h
    exact .inl hi
  | seq a b iha ihb =>
    obtain ⟨s₁, g₁, h₁, h₂⟩ := h
    obtain ⟨u, hu⟩ := h₁.reads
    rcases ihb h₂ hi with hi | ht
    · exact iha h₁ hi
    · exact .inr (hu.isInfix ht)
  | alt a b iha ihb => exact h.elim (iha · hi) (ihb · hi)
  | many a ih | manyLazy a ih => exact Loop.mem_groups (fun h => ⟨h.reads, ih h⟩) h hi
  | opt a ih =>
    rcases h with h | ⟨-, rfl⟩
    · exact ih h hi
    · exact .inl hi
  | group j a ih =>
    obtain ⟨g₁, h₁, rfl⟩ := h
    rcases mem_cons.mp hi with heq | hi
    · cases heq
      exact .inr ( take_prefix _ _).isInfix
    · exact ih h₁ hi
  | again j =>
    obtain ⟨-, -, -, rfl⟩ := h
    exact .inl hi
  | empty =>
    obtain ⟨-, rfl⟩ := h
    exact .inl hi
  | atStart | atEnd | wordEdge | ahead | notAhead | notBehind =>
    obtain ⟨-, -, rfl⟩ := h
    exact .inl hi

lemma group_isInfix (h : a.search? t = some m) (i : Nat) : m.group i <:+: t := by
  have hat {n : Nat} {l : Option Char} {u : Text} : a.matchAt? ⟨n, l, u⟩ = some m → m.group i <:+: u := by
    intro hm
    obtain ⟨s', g', htak, hm⟩ := run_some a hm
    cases hm
    rw [Match.group, Match.group?]
    cases hl : List.lookup i g' with
    | none => exact nil_infix
    | some v =>
      obtain ⟨pre, post, rfl, -⟩ := lookup_eq_some_iff.mp hl
      rcases htak.mem_groups (t := v) (i := i) (by simp) with hmem | hv
      · simp at hmem
      · exact hv
  have hfrom : ∀ u n l, a.searchFrom false n l u = some m → m.group i <:+: u := by
    intro u
    induction u with
    | nil => exact fun n l hm => hat hm
    | cons c u ih =>
      intro n l hm
      rw [searchFrom] at hm
      split at hm
      next m' hm' =>
        cases hm
        exact hat hm'
      · exact (ih _ _ hm).trans (suffix_cons c u).isInfix
  exact hfrom t 0 none h

end BlockScript.Pattern
