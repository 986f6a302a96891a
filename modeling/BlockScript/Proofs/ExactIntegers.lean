import Mathlib.Algebra.Order.Ring.Int
import Mathlib.Tactic.Linarith
import Mathlib.Tactic.Ring
import BlockScript.Formula.Value

/-!
# Integers in floating point

Below `2 ^ 53` an integer is a floating-point number, and sums, differences and products whose exact value is such
an integer are not rounded (`IsInteger.add`, `IsInteger.mul`). The text of such a number is that of the integer
(`IsInteger.valueText`), whatever sign a zero has.
-/

namespace BlockScript.Binary64
variable {k d : Nat} {x y : Binary64} {i j : Int}

/-! ### Rounding an integer -/

lemma log2_mul_bounds (hk : k ≠ 0) (hd : d ≠ 0) :
    k.log2 + d.log2 ≤ (k * d).log2 ∧ (k * d).log2 ≤ k.log2 + d.log2 + 1 := by
  have hkd : k * d ≠ 0 := Nat.mul_ne_zero hk hd
  constructor
  · rw [Nat.le_log2 hkd, Nat.pow_add]
    exact Nat.mul_le_mul (Nat.log2_self_le hk) (Nat.log2_self_le hd)
  have h : k * d < 2 ^ (k.log2 + 1) * 2 ^ (d.log2 + 1) := Nat.mul_lt_mul'' Nat.lt_log2_self Nat.lt_log2_self
  rw [← Nat.pow_add, ← Nat.log2_lt hkd] at h
  omega

lemma scale_of_nonpos (num den s : Nat) : scale num den (-s) = (num * 2 ^ s, den) := by
  unfold scale
  split
  next h =>
    obtain rfl : s = 0 := by omega
    simp
  · simp

lemma exponentOf_mul {s : Nat} (hd : 0 < d) (hs : k.log2 + s = 52) (hk : 0 < k) : exponentOf (k * d) d = -s := by
  have hlow : 2 ^ k.log2 ≤ k := Nat.log2_self_le hk.ne'
  have hhigh : k < 2 ^ (k.log2 + 1) := Nat.lt_log2_self
  obtain ⟨h₁, h₂⟩ := log2_mul_bounds hk.ne' hd.ne'
  have hmin : minExp ≤ -s := by
    rw [minExp]
    omega
  have hpow : 2 ^ k.log2 * 2 ^ s = 2 ^ 52 := by rw [← Nat.pow_add, hs]
  rcases Nat.lt_or_ge (k.log2 + d.log2) (k * d).log2 with h | h
  · -- one bit too many: the first guess is one too large
    have he : ((k * d).log2 : Int) - d.log2 - 52 = 1 - s := by omega
    have hlt : k * d * 2 ^ s < 2 ^ 52 * d * 2 := by
      calc k * d * 2 ^ s < 2 ^ (k.log2 + 1) * d * 2 ^ s := by gcongr
        _ = 2 ^ k.log2 * 2 ^ s * d * 2 := by ring
        _ = 2 ^ 52 * d * 2 := by rw [hpow]
    have hscale : (scale (k * d) d (1 - s)).1 < 2 ^ 52 * (scale (k * d) d (1 - s)).2 := by
      cases s with
      | zero =>
        simp only [scale]
        norm_num at hlt ⊢
        linarith
      | succ s =>
        rw [show 1 - (s + 1 : Nat) = -(s : Int) by push_cast; ring, scale_of_nonpos]
        rw [Nat.pow_succ] at hlt
        linarith
    simp only [exponentOf, he, Nat.pow_eq, hscale, if_true]
    omega
  have he : ((k * d).log2 : Int) - d.log2 - 52 = -s := by omega
  have hge : 2 ^ 52 * d ≤ k * d * 2 ^ s := by
    calc 2 ^ 52 * d = 2 ^ k.log2 * d * 2 ^ s := by rw [← hpow]; ring
      _ ≤ k * d * 2 ^ s := by gcongr
  simp only [exponentOf, he, scale_of_nonpos, Nat.pow_eq]
  omega

lemma round_mul (neg : Bool) (hd : 0 < d) (hk : 0 < k) (hb : k < 2 ^ 53) :
    ∃ s : Nat, round neg (k * d) d = .finite neg (k * 2 ^ s) (-s) := by
  have hlog : k.log2 < 53 := (Nat.log2_lt hk.ne').mpr hb
  obtain ⟨s, hs⟩ : ∃ s, k.log2 + s = 52 := ⟨52 - k.log2, by omega⟩
  refine ⟨s, ?_⟩
  have hexact : divNearest (k * d * 2 ^ s) d = k * 2 ^ s := by
    have hcomm : k * d * 2 ^ s = k * 2 ^ s * d := by ring
    simp [divNearest, hcomm, hd]
  have hsmall : k * 2 ^ s ≠ 2 ^ 53 := by
    have : k * 2 ^ s < 2 ^ (k.log2 + 1) * 2 ^ s := by
      gcongr
      exact Nat.lt_log2_self
    rw [← Nat.pow_add, show k.log2 + 1 + s = 53 by omega] at this
    exact this.ne
  have hmax : ¬ maxExp < -(s : Int) := by
    rw [maxExp]
    omega
  rw [round, if_neg (Nat.mul_ne_zero hk.ne' hd.ne'), exponentOf_mul hd hs hk]
  simp only [scale_of_nonpos, Nat.pow_eq, hexact, hsmall, if_false, hmax]

/-! ### Numbers that are integers -/

def signed (neg : Bool) (n : Nat) : Int := if neg then -n else n

@[simp] lemma signed_true (n : Nat) : signed true n = -n := rfl

@[simp] lemma signed_false (n : Nat) : signed false n = n := rfl

@[simp] lemma natAbs_signed (neg : Bool) (n : Nat) : (signed neg n).natAbs = n := by cases neg <;> simp

lemma signed_natAbs (i : Int) : signed (decide (i < 0)) i.natAbs = i := by
  by_cases h : i < 0
  · simp only [h, decide_true, signed_true]
    omega
  simp only [h, decide_false, signed_false]
  omega

/-- The number is finite and equals the integer. -/
def IsInteger (x : Binary64) (i : Int) : Prop :=
  ∃ neg m e n, x = .finite neg m e ∧ (fraction m e).1 = n * (fraction m e).2 ∧ i = signed neg n

lemma fraction_den_pos (m : Nat) (e : Int) : 0 < (fraction m e).2 := by
  unfold fraction
  split
  · exact Nat.one_pos
  · exact Nat.pow_pos Nat.two_pos

lemma isInteger_zero (neg : Bool) : IsInteger (zero neg) 0 := by
  refine ⟨neg, 0, minExp, 0, rfl, ?_, by cases neg <;> rfl⟩
  rw [fraction, if_neg (by decide), Nat.zero_mul]

lemma isInteger_round (neg : Bool) {n : Nat} (hd : 0 < d) (hn : n < 2 ^ 53) :
    IsInteger (round neg (n * d) d) (signed neg n) := by
  rcases Nat.eq_zero_or_pos n with rfl | hpos
  · have hz : signed neg 0 = 0 := by cases neg <;> rfl
    rw [hz, Nat.zero_mul, round]
    exact isInteger_zero neg
  obtain ⟨s, hs⟩ := round_mul neg hd hpos hn
  refine ⟨neg, _, _, n, hs, ?_, rfl⟩
  unfold fraction
  split
  next h =>
    obtain rfl : s = 0 := by omega
    simp
  · simp

lemma isInteger_ofInt (hi : i.natAbs < 2 ^ 53) : IsInteger (round (decide (i < 0)) i.natAbs 1) i := by
  have h := isInteger_round (decide (i < 0)) Nat.one_pos hi
  rwa [Nat.mul_one, signed_natAbs] at h

lemma ofInt?_isInteger (hi : i.natAbs < 2 ^ 53) : ∃ x, ofInt? i = some x ∧ IsInteger x i := by
  have h := isInteger_ofInt hi
  obtain ⟨neg, m, e, n, hx, -, -⟩ := id h
  exact ⟨_, by rw [ofInt?, hx], hx ▸ h⟩

namespace IsInteger

lemma signedFraction_eq {neg : Bool} {m n : Nat} {e : Int} (h : (fraction m e).1 = n * (fraction m e).2) :
    signedFraction neg m e = (signed neg n * (fraction m e).2, (fraction m e).2) := by
  cases neg <;> simp [signedFraction, h]

lemma neg (hx : IsInteger x i) : IsInteger x.neg (-i) := by
  obtain ⟨s, m, e, n, rfl, hf, rfl⟩ := hx
  exact ⟨!s, m, e, n, rfl, hf, by cases s <;> simp⟩

lemma add (hx : IsInteger x i) (hy : IsInteger y j) (hb : (i + j).natAbs < 2 ^ 53) : IsInteger (x.add y) (i + j) := by
  obtain ⟨s, m, e, n, rfl, hf, rfl⟩ := hx
  obtain ⟨t, m', e', n', rfl, hf', rfl⟩ := hy
  generalize hi : signed s n = i at *
  generalize hj : signed t n' = j at *
  have hd : 0 < (fraction m e).2 * (fraction m' e').2 := Nat.mul_pos (fraction_den_pos m e) (fraction_den_pos m' e')
  have hnum : i * (fraction m e).2 * (fraction m' e').2 + j * (fraction m' e').2 * (fraction m e).2
      = (i + j) * ((fraction m e).2 * (fraction m' e').2 : Nat) := by
    push_cast
    ring
  simp only [Binary64.add, signedFraction_eq hf, signedFraction_eq hf', hi, hj, hnum]
  split
  next h0 =>
    have hz : i + j = 0 := (mul_eq_zero.mp h0).resolve_right (by exact_mod_cast hd.ne')
    rw [hz]
    exact isInteger_zero _
  next =>
    have hneg : ((i + j) * ((fraction m e).2 * (fraction m' e').2 : Nat) < 0) = (i + j < 0) := by
      have hd' : (0 : Int) < (fraction m e).2 * (fraction m' e').2 := by exact_mod_cast hd
      exact propext ⟨fun h => neg_of_mul_neg_left h hd'.le, fun h => mul_neg_of_neg_of_pos h hd'⟩
    rw [Int.natAbs_mul, Int.natAbs_natCast]
    simp only [hneg]
    simpa [signed_natAbs] using isInteger_round (decide (i + j < 0)) hd hb

lemma sub (hx : IsInteger x i) (hy : IsInteger y j) (hb : (i - j).natAbs < 2 ^ 53) : IsInteger (x.sub y) (i - j) := by
  exact hx.add hy.neg hb

lemma mul (hx : IsInteger x i) (hy : IsInteger y j) (hb : (i * j).natAbs < 2 ^ 53) : IsInteger (x.mul y) (i * j) := by
  obtain ⟨s, m, e, n, rfl, hf, rfl⟩ := hx
  obtain ⟨t, m', e', n', rfl, hf', rfl⟩ := hy
  have hd : 0 < (fraction m e).2 * (fraction m' e').2 := Nat.mul_pos (fraction_den_pos m e) (fraction_den_pos m' e')
  have hnum : n * (fraction m e).2 * (n' * (fraction m' e').2) = n * n' * ((fraction m e).2 * (fraction m' e').2) := by
    ring
  have hsign : signed s n * signed t n' = signed (s != t) (n * n') := by cases s <;> cases t <;> simp
  simp only [Binary64.mul, hf, hf', hnum, hsign]
  refine isInteger_round _ hd ?_
  simpa [Int.natAbs_mul] using hb

/-! ### The text of an integer -/

lemma truncate? (hx : IsInteger x i) : x.truncate? = some i := by
  obtain ⟨s, m, e, n, rfl, hf, rfl⟩ := hx
  simp only [Binary64.truncate?, hf, Nat.mul_div_cancel _ (fraction_den_pos m e)]
  cases s <;> rfl

lemma abs_lt_tolerance (hx : IsInteger x 0) : x.abs.lt Formula.tolerance = true := by
  obtain ⟨s, m, e, n, rfl, hf, h0⟩ := hx
  obtain rfl : n = 0 := by
    have := natAbs_signed s n
    omega
  obtain ⟨m', e', ht, hpos⟩ : ∃ m' e', Formula.tolerance = .finite false m' e' ∧ 0 < (signedFraction false m' e').1 :=
    ⟨_, _, rfl, by decide⟩
  rw [ht]
  simp only [abs, lt, signedFraction_eq hf]
  have hd := fraction_den_pos m e
  simpa using Int.mul_pos hpos (by exact_mod_cast hd)

lemma valueText (hx : IsInteger x i) (hi : i.natAbs < 2 ^ 53) : Formula.valueText x = .ok (Text.ofInt i) := by
  have hdiff : IsInteger (x.sub (round (decide (i < 0)) i.natAbs 1)) 0 := by
    simpa using hx.sub (isInteger_ofInt hi) (by simp)
  simp [Formula.valueText, hx.truncate?, hdiff.abs_lt_tolerance]

end IsInteger
end BlockScript.Binary64
