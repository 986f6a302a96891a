import Mathlib.Data.List.Basic

/-!
# Outcomes

A step gives a value or a fault. What several steps give in the end is told from what each of them gave.
-/

open List
namespace BlockScript
variable {ε α β : Type} {xs : List α} {f : α → Except ε β} {ys : List β} {x : Except ε α}

lemma bind_eq_ok {b : β} : (x >>= f) = .ok b ↔ ∃ a, x = .ok a ∧ f a = .ok b := by
  cases x <;> simp [bind, Except.bind]

lemma ok_of_toOption {a : α} (h : x.toOption = some a) : x = .ok a := by
  cases x with
  | error e => contradiction
  | ok b => rw [Option.some.inj h]

lemma foldlM_keeps {P : β → Prop} {f : β → α → Except ε β}
    (hf : ∀ b a c, P b → f b a = .ok c → P c) {b c : β} (hb : P b) (h : xs.foldlM f b = .ok c) : P c := by
  induction xs generalizing b with
  | nil =>
    cases h
    exact hb
  | cons x xs ih =>
    rw [foldlM_cons, bind_eq_ok] at h
    obtain ⟨b', hx, h⟩ := h
    exact ih (hf b x b' hb hx) h

lemma mapM_cons_ok_iff {x : α} :
    (x :: xs).mapM f = .ok ys ↔ ∃ y zs, f x = .ok y ∧ xs.mapM f = .ok zs ∧ ys = y :: zs := by
  rw [mapM_cons]
  cases f x with
  | error e => exact ⟨fun h => (nomatch h), fun ⟨y, _, hy, _⟩ => (nomatch hy)⟩
  | ok y =>
    cases xs.mapM f with
    | error e => exact ⟨fun h => (nomatch h), fun ⟨_, zs, _, hzs, _⟩ => (nomatch hzs)⟩
    | ok zs =>
      constructor
      · intro h
        exact ⟨y, zs, rfl, rfl, (Except.ok.inj h).symm⟩
      rintro ⟨y', zs', hy, hzs, rfl⟩
      cases hy
      cases hzs
      rfl

lemma mapM_ok_iff : xs.mapM f = .ok ys ↔ List.Forall₂ (fun x y => f x = .ok y) xs ys := by
  induction xs generalizing ys with
  | nil =>
    constructor
    · intro h
      cases h
      exact .nil
    rintro ⟨⟩
    rfl
  | cons x xs ih =>
    rw [mapM_cons_ok_iff]
    constructor
    · rintro ⟨y, zs, hy, hzs, rfl⟩
      exact .cons hy (ih.mp hzs)
    rintro (_ | ⟨hy, hzs⟩)
    exact ⟨_, _, hy, ih.mpr hzs, rfl⟩

lemma exists_of_forall₂ {R : α → β → Prop} (h : List.Forall₂ R xs ys) :
    (∀ x ∈ xs, ∃ y ∈ ys, R x y) ∧ ∀ y ∈ ys, ∃ x ∈ xs, R x y := by
  induction h with
  | nil => simp
  | cons hxy _ ih =>
    constructor <;> refine forall_mem_cons.mpr ⟨⟨_, mem_cons_self, hxy⟩, fun z hz => ?_⟩
    · exact (ih.1 z hz).imp fun _ h => h.imp_left (mem_cons_of_mem _)
    · exact (ih.2 z hz).imp fun _ h => h.imp_left (mem_cons_of_mem _)

lemma exists_of_mapM_ok (h : xs.mapM f = .ok ys) : ∀ y ∈ ys, ∃ x ∈ xs, f x = .ok y :=
  (exists_of_forall₂ (mapM_ok_iff.mp h)).2

lemma exists_mapM_ok_iff : (∃ ys, xs.mapM f = .ok ys) ↔ ∀ x ∈ xs, ∃ y, f x = .ok y := by
  induction xs with
  | nil => simpa using ⟨[], rfl⟩
  | cons x xs ih =>
    rw [forall_mem_cons, ← ih]
    constructor
    · rintro ⟨ys, h⟩
      obtain ⟨y, zs, hy, hzs, -⟩ := mapM_cons_ok_iff.mp h
      exact ⟨⟨y, hy⟩, ⟨zs, hzs⟩⟩
    rintro ⟨⟨y, hy⟩, zs, hzs⟩
    exact ⟨y :: zs, mapM_cons_ok_iff.mpr ⟨y, zs, hy, hzs, rfl⟩⟩

/-- The answer of a test; no answer counts as no. -/
def told (x : Except ε Bool) : Bool := x.toOption.getD false

lemma eq_ok_iff_told {x : Except ε Bool} {b : Bool} : x = .ok b ↔ x = .ok (told x) ∧ told x = b := by
  cases x <;> simp [told, Except.toOption]

lemma filterM_ok_iff {f : α → Except ε Bool} {ys : List α} :
    xs.filterM f = .ok ys ↔ (∀ x ∈ xs, f x = .ok (told (f x))) ∧ xs.filter (fun x => told (f x)) = ys := by
  -- The walk collects what it keeps in reverse order, behind what it had before.
  have haux : ∀ kept zs, xs.filterAuxM f kept = .ok zs ↔ (∀ x ∈ xs, f x = .ok (told (f x)))
      ∧ (xs.filter fun x => told (f x)).reverse ++ kept = zs := by
    induction xs with
    | nil => simp [pure, Except.pure]
    | cons x xs ih =>
      intro kept zs
      rw [List.filterAuxM, bind_eq_ok, forall_mem_cons]
      constructor
      · rintro ⟨b, hb, h⟩
        obtain ⟨hx, htold⟩ := eq_ok_iff_told.mp hb
        obtain ⟨hxs, rfl⟩ := (ih _ _).mp h
        refine ⟨⟨hx, hxs⟩, ?_⟩
        cases b <;> simp [htold]
      rintro ⟨⟨hx, hxs⟩, rfl⟩
      refine ⟨_, hx, (ih _ _).mpr ⟨hxs, ?_⟩⟩
      cases h : told (f x) <;> simp [h]
  rw [List.filterM, bind_eq_ok]
  constructor
  · rintro ⟨zs, hzs, h⟩
    cases h
    obtain ⟨hxs, rfl⟩ := (haux [] zs).mp hzs
    exact ⟨hxs, by simp⟩
  rintro ⟨hxs, rfl⟩
  exact ⟨_, (haux [] _).mpr ⟨hxs, rfl⟩, by simp [pure, Except.pure]⟩

/-! ### Steps that give a value -/

/-- A step gives a value with a property. -/
def Gives (x : Except ε α) (P : α → Prop) : Prop := ∃ a, x = .ok a ∧ P a

lemma exists_of_any {x : Except ε α} {q : α → Bool} (h : x.toOption.any q) : ∃ a, x = .ok a ∧ q a := by
  cases x with
  | error e => contradiction
  | ok a => exact ⟨a, rfl, h⟩

namespace Gives
variable {P : α → Prop} {Q : β → Prop}

lemma pure {a : α} (h : P a) : Gives (Pure.pure a : Except ε α) P := ⟨a, rfl, h⟩

lemma bind (hx : Gives x P) (hf : ∀ a, P a → Gives (f a) Q) : Gives (x >>= f) Q := by
  obtain ⟨a, rfl, ha⟩ := hx
  exact hf a ha

lemma mono {P' : α → Prop} (hx : Gives x P) (h : ∀ a, P a → P' a) : Gives x P' := by
  obtain ⟨a, hxa, ha⟩ := hx
  exact ⟨a, hxa, h a ha⟩

lemma mapM (h : ∀ x ∈ xs, Gives (f x) Q) : Gives (xs.mapM f) fun ys => ∀ y ∈ ys, Q y := by
  obtain ⟨ys, hys⟩ := exists_mapM_ok_iff.mpr fun x hx => (h x hx).imp fun _ hy => hy.1
  refine ⟨ys, hys, fun y hy => ?_⟩
  obtain ⟨x, hx, hxy⟩ := exists_of_mapM_ok hys y hy
  obtain ⟨y', hxy', hy'⟩ := h x hx
  rw [hxy] at hxy'
  exact Except.ok.inj hxy' ▸ hy'

lemma forall₂_mapM {R : α → β → Prop} (h : ∀ x ∈ xs, Gives (f x) (R x)) : Gives (xs.mapM f) (List.Forall₂ R xs) := by
  induction xs with
  | nil => exact ⟨[], rfl, .nil⟩
  | cons x xs ih =>
    rw [mapM_cons]
    refine (h x (by simp)).bind fun y hy => ?_
    exact (ih fun z hz => h z (by simp [hz])).bind fun ys hys => pure (.cons hy hys)

lemma foldlM {f : β → α → Except ε β} {b : β} (hb : Q b)
    (h : ∀ x ∈ xs, ∀ b, Q b → Gives (f b x) Q) : Gives (xs.foldlM f b) Q := by
  induction xs generalizing b with
  | nil => exact ⟨b, rfl, hb⟩
  | cons x xs ih =>
    refine (h x (by simp) b hb).bind fun c hc => ih hc fun y hy => h y (by simp [hy])

lemma filterMapM {f : α → Except ε (Option β)} (h : ∀ x ∈ xs, Gives (f x) fun _ => True) :
    Gives (xs.filterMapM f) fun _ => True := by
  induction xs with
  | nil => exact ⟨[], rfl, trivial⟩
  | cons x xs ih =>
    rw [filterMapM_cons]
    refine (h x (by simp)).bind fun y _ => ?_
    have hrest := ih fun y hy => h y (by simp [hy])
    cases y with
    | none => exact hrest
    | some y => exact hrest.bind fun ys _ => pure trivial

lemma filterM {f : α → Except ε Bool} (h : ∀ x ∈ xs, Gives (f x) fun _ => True) :
    Gives (xs.filterM f) fun ys => ys.Sublist xs := by
  refine ⟨_, filterM_ok_iff.mpr ⟨fun x hx => ?_, rfl⟩, filter_sublist⟩
  obtain ⟨b, hb, -⟩ := h x hx
  exact (eq_ok_iff_told.mp hb).1

end Gives
end BlockScript
