import BlockScript.Proofs.Balance

/-!
# Scopes that can be shortened

A list is shortened exactly where it has a scope with at least two actions, whatever else is open or closed in it, and
no scope is open at its boundaries: `extract?_exact`.
-/

open List
namespace BlockScript.Plan
open BlockScript.Action (opens closes)
variable {as rest body pre post : List Action} {o k : Action} {limit n d : Nat} {stack s outer : List Nat}
  {call : Action}

def stackAfter : Nat → List Nat → List Action → List Nat
  | _, stack, [] => stack
  | n, stack, a :: as =>
    if a.opens then stackAfter (n + 1) (n :: stack) as
    else if a.closes then stackAfter (n + 1) stack.tail as
    else stackAfter (n + 1) stack as

lemma allFrom_stackAfter :
    Scope.allFrom (n + as.length) (stackAfter n stack as) rest ⊆ Scope.allFrom n stack (as ++ rest) := by
  induction as generalizing n stack with
  | nil => exact List.Subset.refl _
  | cons a as ih =>
    rw [length_cons, Nat.add_comm as.length, ← Nat.add_assoc, cons_append, stackAfter, Scope.allFrom.eq_def n]
    dsimp only
    split
    · exact ih
    split
    · cases stack with
      | nil => exact ih
      | cons first outer =>
        dsimp only
        split
        · exact subset_cons_of_subset _ ih
        · exact ih
    · exact ih

lemma stackAfter_append (h : depthAfter s.length as = some 0) : stackAfter n (s ++ outer) as = outer := by
  induction as generalizing n s with
  | nil => rw [stackAfter, eq_nil_of_length_eq_zero (Option.some.inj h), nil_append]
  | cons a as ih =>
    rw [depthAfter] at h
    rw [stackAfter]
    split at h
    next ho => rw [if_pos ho, ← cons_append, ih (s := n :: s) h]
    next ho =>
      rw [if_neg ho]
      split at h
      next hc =>
        cases s with
        | nil => simp at h
        | cons i s =>
          rw [if_pos hc]
          exact ih h
      next hc => rw [if_neg hc, ih h]

lemma all_ne_nil (ho : o.opens) (hk : k.opens = false ∧ k.closes) (hbd : Matched body) (hsize : 2 ≤ body.length) :
    Scope.all (pre ++ o :: (body ++ k :: post)) ≠ [] := by
  have hsc : ⟨0 + pre.length, 0 + pre.length + 1 + body.length⟩
      ∈ Scope.allFrom (0 + pre.length) (stackAfter 0 [] pre) (o :: (body ++ k :: post)) := by
    rw [Scope.allFrom.eq_def]
    simp only [ho, if_true]
    apply allFrom_stackAfter
    rw [← nil_append (_ :: stackAfter 0 [] pre), stackAfter_append (s := []) hbd]
    simp only [Scope.allFrom, hk, Bool.false_eq_true, if_false, if_true]
    rw [if_pos (by omega)]
    exact mem_cons_self
  exact ne_nil_of_mem (allFrom_stackAfter hsc)

lemma extract?_none_iff : extract? limit call as = none ↔ Scope.all as = [] := by
  rw [extract?, Option.map_eq_none_iff]
  cases Scope.all as <;> simp [Scope.best?]

/-- Scopes are shortened exactly where they can be. What is replaced is the body of a scope, it has at least two actions
and nests; nothing is replaced only where there is no such scope. At the boundaries of a list no scope is open. -/
theorem extract?_exact (limit : Nat) (call : Action) (as : List Action) :
    (∀ x, extract? limit call as = some x → ∃ pre o k post, as = pre ++ o :: (x.body ++ k :: post)
        ∧ x.rest = pre ++ o :: call :: k :: post ∧ o.opens ∧ isEnd k ∧ Nests x.body ∧ 2 ≤ x.body.length)
      ∧ (extract? limit call as = none ↔ ∀ pre o body k post, as = pre ++ o :: (body ++ k :: post) → o.opens → isEnd k →
        Nests body → body.length < 2)
      ∧ ∀ b ∈ boundaries as, ∀ s, s <:+ as.take b.pos → s.countP opens ≤ s.countP closes := by
  have hend k : isEnd k ↔ k.opens = false ∧ k.closes := by simp [isEnd]
  simp only [← matched_iff_nests, hend]
  refine ⟨fun x hx => ?_, ⟨fun hnone pre o body k post heq ho hk hm => ?_, fun hsmall => ?_⟩, fun b hb => ?_⟩
  · obtain ⟨pre, o, k, post, heq, hrest, ho, hk, hk', hm, hlen⟩ := extract?_some hx
    exact ⟨pre, o, k, post, heq, hrest, ho, ⟨hk, hk'⟩, hm, hlen⟩
  · by_contra hlen
    exact all_ne_nil ho hk hm (by omega) (heq ▸ extract?_none_iff.mp hnone)
  · rw [Option.eq_none_iff_forall_ne_some]
    intro x hx
    obtain ⟨pre, o, k, post, heq, -, ho, hk, hk', hm, hlen⟩ := extract?_some hx
    exact absurd (hsmall pre o x.body k post heq ho ⟨hk, hk'⟩ hm) (by omega)
  · obtain ⟨k, hk, -, hends⟩ := countP_boundary hb
    rwa [hk, Nat.zero_add]

end BlockScript.Plan
