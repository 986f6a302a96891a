import Mathlib.Data.List.Nodup
import BlockScript.Table

/-!
# Tables

What a table holds behind a change: the name given a value has it, and the other names have theirs.
-/

open List
namespace BlockScript.Table
variable {α : Type} {t u : Table α} {name k : Text} {v w : α}

lemma mem_of_get? (h : get? name t = some v) : (name, v) ∈ t := by
  obtain ⟨l, r, rfl, -⟩ := lookup_eq_some_iff.mp h
  simp

lemma set_of_notMem (h : name ∉ names t) : set name v t = t ++ [(name, v)] := by
  induction t with
  | nil => rfl
  | cons e t ih =>
    obtain ⟨hne, hmem⟩ : name ≠ e.1 ∧ name ∉ names t := by simpa [names] using h
    rw [set, if_neg (by simpa using hne.symm), ih hmem]
    rfl

lemma get?_set_eq (t : Table α) (name k : Text) (v : α) :
    get? name (set k v t) = if name = k then some v else get? name t := by
  induction t with
  | nil => by_cases hnm : name = k <;> simp [set, get?, hnm]
  | cons e t ih =>
    obtain ⟨k', w⟩ := e
    simp only [get?, set] at ih ⊢
    by_cases hk : k' = k
    · rw [if_pos (by simpa using hk), lookup_cons, lookup_cons, hk]
      by_cases hnm : name = k
      · simp [hnm]
      · rw [beq_false_of_ne hnm, if_neg hnm]
    rw [if_neg (by simpa using hk), lookup_cons, lookup_cons, ih]
    by_cases hnm : name = k'
    · simp [hnm, hk]
    · rw [beq_false_of_ne hnm]

lemma get?_set (h : get? name (set k v t) = some w) : w = v ∨ get? name t = some w := by
  rw [get?_set_eq] at h
  split at h
  · exact .inl (Option.some.inj h).symm
  · exact .inr h

lemma get?_set_of_ne (h : name ≠ k) : get? name (set k w t) = get? name t := by rw [get?_set_eq, if_neg h]

lemma get?_set_self (t : Table α) (name : Text) (v : α) : get? name (set name v t) = some v := by
  rw [get?_set_eq, if_pos rfl]

lemma get?_append_left (h : get? name t = some v) : get? name (t ++ u) = some v := by
  rw [get?, lookup_append, show t.lookup name = some v from h, Option.some_or]

lemma has_of_get? (h : get? name t = some v) : has name t := by
  rw [has, any_eq_true]
  exact ⟨(name, v), mem_of_get? h, by simp⟩

lemma isSome_get? (t : Table α) (name : Text) : (get? name t).isSome = has name t := by
  induction t with
  | nil => rfl
  | cons e t ih =>
    obtain ⟨k, w⟩ := e
    simp only [get?, has, lookup_cons, any_cons] at ih ⊢
    by_cases hk : k = name
    · simp [hk]
    rw [beq_false_of_ne hk, beq_false_of_ne fun heq => hk heq.symm]
    exact ih

lemma length_set (t : Table α) (name : Text) (v : α) :
    (set name v t).length = t.length + if has name t then 0 else 1 := by
  induction t with
  | nil => rfl
  | cons e t ih =>
    obtain ⟨k, w⟩ := e
    by_cases hk : k = name
    · simp [set, has, hk]
    have hne : (k == name) = false := beq_false_of_ne hk
    have hhas : has name ((k, w) :: t) = has name t := by simp [has, hne]
    rw [set, if_neg (by simpa using hk), length_cons, length_cons, hhas]
    omega

lemma get?_append_cons (h : k ∉ names t) : get? k (t ++ (k, v) :: u) = some v := by
  refine lookup_eq_some_iff.mpr ⟨t, u, rfl, fun e he => bne_iff_ne.mpr fun heq => h ?_⟩
  exact heq ▸ mem_map_of_mem he

lemma get?_none_iff : get? k t = none ↔ k ∉ names t := by
  simp only [get?, lookup_eq_none_iff, names, mem_map, not_exists, not_and, bne_iff_ne]
  exact forall₂_congr fun e _ => ne_comm

lemma get?_of_nodup (h : (names t).Nodup) (hmem : (k, v) ∈ t) : get? k t = some v := by
  obtain ⟨l, r, rfl⟩ := append_of_mem hmem
  simp only [names, map_append] at h
  exact get?_append_cons fun hk => disjoint_of_nodup_append h hk (by simp)

lemma ofList_of_nodup {es : List (Text × α)} (h : (names es).Nodup) : ofList es = es := by
  suffices hfold : ∀ t, (names (t ++ es)).Nodup → es.foldl (fun t e => set e.1 e.2 t) t = t ++ es from hfold [] h
  clear h
  induction es with
  | nil => simp
  | cons e es ih =>
    intro t ht
    have hnew : e.1 ∉ names t := by
      simp only [names, map_append] at ht ⊢
      exact fun h => disjoint_of_nodup_append ht h (by simp)
    rw [foldl_cons, set_of_notMem hnew, ih _ (by simpa using ht), append_assoc, singleton_append]

end BlockScript.Table
