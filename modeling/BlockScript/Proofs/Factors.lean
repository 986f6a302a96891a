import BlockScript.Proofs.ExactIntegers
import Mathlib.Algebra.BigOperators.Group.List.Basic

/-!
# Factors of products

A minus sign before several factors negates the value of the whole formula, which takes the place of the part. The
factors multiply to the value just if that makes no difference (`factors_prod_iff`).
-/

open List
namespace BlockScript.Formula
open Binary64 (IsInteger ofInt?_isInteger)
/-- A product of integers below `2 ^ 53` in all its parts, with its value. If it has several factors, `bare` is the
value without the signs before it. `ns` are the values without signs of the products of several factors behind minus
signs. -/
inductive Product : Formula → Int → (bare ns : List Int) → Prop
  | int {n} (h : n < 2 ^ 53) : Product (.int n) n [] []
  | plus {a i bare ns} (h : Product a i bare ns) : Product (.sign .plus a) i bare ns
  | minus {a i bare ns} (h : Product a i bare ns) : Product (.sign .minus a) (-i) bare bare
  | mul {a b i j u v ms ns} (ha : Product a i u ms) (hb : Product b j v ns) (h : (i * j).natAbs < 2 ^ 53) :
    Product (.bin .mul a b) (i * j) [i * j] (ms ++ ns)

variable {f a : Formula} {i w : Int} {bare ns : List Int} {v : Binary64} {t : Text}

lemma value?_of_product (h : Product f i bare ns) : ∃ v, f.value? = some v ∧ IsInteger v i := by
  induction h with
  | int h => exact ofInt?_isInteger h
  | plus _ ih =>
    obtain ⟨v, hv, hi⟩ := ih
    exact ⟨v, by simp [value?, hv, Sign.apply], hi⟩
  | minus _ ih =>
    obtain ⟨v, hv, hi⟩ := ih
    exact ⟨v.neg, by simp [value?, hv, Sign.apply], hi.neg⟩
  | mul _ _ h iha ihb =>
    obtain ⟨x, hx, hi⟩ := iha
    obtain ⟨y, hy, hj⟩ := ihb
    exact ⟨x.mul y, by simp [value?, hx, hy, BinOp.apply?], hi.mul hj h⟩

/-- The factors of a part, where `w` is the value of the whole: the numbers outside negated products, which multiply
to `k`, and `w` for each negated product. -/
lemma factorsIn_of_product (hv : f.value? = some v) (hw : IsInteger v w) (h : Product a i bare ns) :
    ∃ xs is k, factorsIn f a = .ok (some xs) ∧ Forall₂ IsInteger xs is ∧ is.prod = k * w ^ ns.length ∧ i = k * ns.prod
      ∧ (xs.length = 1 ∧ ns = bare ∨ 1 < xs.length ∧ bare = [i]) := by
  induction h with
  | @int n h =>
    obtain ⟨x, hx, hi⟩ := ofInt?_isInteger (i := n) h
    exact ⟨[x], [n], n, by simp [factorsIn, hx], .cons hi .nil, by simp, by simp, .inl ⟨rfl, rfl⟩⟩
  | plus _ ih =>
    obtain ⟨xs, is, k, hxs, ih⟩ := ih
    exact ⟨xs, is, k, by rw [factorsIn, hxs]; rfl, ih⟩
  | minus _ ih =>
    obtain ⟨xs, is, k, hxs, his, hprod, rfl, ⟨hlen, rfl⟩ | ⟨hlen, rfl⟩⟩ := ih
    · -- a number, or a negated product that is the whole already
      obtain ⟨x, rfl⟩ := length_eq_one_iff.mp hlen
      obtain ⟨i, _, hi, hnil, rfl⟩ := forall₂_cons_left_iff.mp his
      obtain rfl := forall₂_nil_left_iff.mp hnil
      refine ⟨[x.neg], [-i], -k, by rw [factorsIn, hxs]; rfl, .cons hi.neg .nil, ?_, by ring, .inl ⟨rfl, rfl⟩⟩
      simpa using hprod
    · refine ⟨[v.neg], [-w], -1, ?_, .cons hw.neg .nil, by simp, by simp, .inl ⟨rfl, rfl⟩⟩
      rw [factorsIn, hxs]
      obtain _ | ⟨x, _ | ⟨y, xs⟩⟩ := xs
      · contradiction
      · simp at hlen
      · simp [bind, Except.bind, hv]
  | mul _ _ _ iha ihb =>
    obtain ⟨xs, is, k, hxs, his, hprod, rfl, hlen⟩ := iha
    obtain ⟨ys, js, l, hys, hjs, hprod', rfl, hlen'⟩ := ihb
    refine ⟨xs ++ ys, is ++ js, k * l, by rw [factorsIn, hxs, hys]; rfl, rel_append his hjs, ?_, ?_, .inr ⟨?_, rfl⟩⟩
    · rw [prod_append, hprod, hprod', length_append]
      ring
    · rw [prod_append]
      ring
    · rw [length_append]
      omega

/-- The factors of a product multiply to its value iff it is zero, or as often multiplied by itself as there are
products behind minus signs it is what these multiply to. -/
theorem factors_prod_iff (hf : parse? t = some f) (h : Product f i bare ns) :
    ∃ v xs is, textValue? t = some v ∧ IsInteger v i ∧ factors t = .ok (some xs) ∧ Forall₂ IsInteger xs is ∧
      (is.prod = i ↔ i = 0 ∨ i ^ ns.length = ns.prod) := by
  obtain ⟨v, hv, hi⟩ := value?_of_product h
  obtain ⟨xs, is, k, hxs, his, hprod, hk, -⟩ := factorsIn_of_product hv hi h
  refine ⟨v, xs, is, by simp [textValue?, hf, hv], hi, by simp [factors, hf, hxs], his, ?_⟩
  rw [hprod]
  by_cases h0 : i = 0
  · cases ns with
    | nil => simpa [h0] using hk.symm
    | cons m ns => simp [h0]
  · have hk0 : k ≠ 0 := by
      rintro rfl
      simp [hk] at h0
    rw [or_iff_right h0]
    nth_rewrite 2 [hk]
    exact mul_right_inj' hk0

/-- The factors of `-(2*3)` do not multiply to its value. -/
theorem factors_prod_iff_negated : ∃ v xs is, textValue? "-(2*3)" = some v ∧ IsInteger v (-6) ∧
    factors "-(2*3)" = .ok (some xs) ∧ Forall₂ IsInteger xs is ∧ is.prod ≠ -6 := by
  have hf : parse? "-(2*3)" = some (.sign .minus (.bin .mul (.int 2) (.int 3))) := rfl
  have h : Product (.sign .minus (.bin .mul (.int 2) (.int 3))) (-6) [6] [6] :=
    .minus (.mul (.int (by decide)) (.int (by decide)) (by decide))
  obtain ⟨v, xs, is, hv, hi, hxs, his, hprod⟩ := factors_prod_iff hf h
  exact ⟨v, xs, is, hv, hi, hxs, his, fun h => absurd (hprod.mp h) (by decide)⟩

end BlockScript.Formula
