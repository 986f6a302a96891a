import Mathlib.Data.List.Forall2
import BlockScript.Cipher
import BlockScript.Proofs.Outcomes

/-!
# Hidden texts

The circle and the sign of an overflow are not undone: a text is found again iff no character went around the
circle and nothing written is the sign (`decrypt_encrypt_iff`).
-/

open List
namespace BlockScript.Cipher
variable {t r : Text} {k m : Nat}

lemma encrypt_ok (h : (encrypt k t).finish.1 = .ok r) :
    ∃ m, mean (t.map (shift k)) = .ok m ∧ m + k < size ∧ r = t.map (shift k) ++ [Char.ofNat (m + k)] := by
  rw [encrypt] at h
  cases hm : mean (t.map (shift k)) with
  | error e =>
    rw [hm] at h
    cases h
  | ok m =>
    simp only [hm, Run.ofExcept, pure_bind] at h
    by_cases hmark : (size : Int) ≤ m + k
    · rw [if_pos hmark] at h
      cases h
    have hchar : charAt (m + k) = .ok (Char.ofNat (m + k)) := if_neg (by omega)
    rw [if_neg hmark, hchar] at h
    exact ⟨m, rfl, by omega, (Except.ok.inj h).symm⟩

lemma toNat_ofNat {n : Nat} (h : n < size) : (Char.ofNat n).toNat = n := by
  rw [Char.ofNat, dif_pos (.inl (by rw [size] at h; omega))]
  rfl

lemma toNat_shift {c : Char} (hc : c.toNat < size) (hk : k < size) :
    (shift k c).toNat = if c.toNat + k < size then c.toNat + k else c.toNat + k - size := by
  have hmod : ((c.toNat + k : Int).emod size).toNat = (c.toNat + k) % size := rfl
  rw [shift, hmod, toNat_ofNat (Nat.mod_lt _ (by decide))]
  split
  next h => exact Nat.mod_eq_of_lt h
  next h => rw [Nat.mod_eq_sub_mod (by omega), Nat.mod_eq_of_lt (by omega)]

/-- A character that went around the circle is not found, and none is found if the mark is the sign of an overflow. -/
lemma charAt_shift_iff {c : Char} {p : Prop} [Decidable p] (hc : c.toNat < size) (hk : k < size) :
    charAt ((shift k c).toNat - (k + if p then size else 0 : Nat)) = .ok c ↔ ¬ p ∧ c.toNat + k < size := by
  rw [toNat_shift hc hk, charAt]
  by_cases hok : ¬ p ∧ c.toNat + k < size
  · rw [if_pos hok.2, if_neg (by simp [hok]), iff_true_right hok]
    simp [hok]
  rw [if_pos, iff_false_right hok]
  · simp
  by_cases hp : p
  · rw [if_pos hp]
    split <;> omega
  have hround : ¬ c.toNat + k < size := fun h => hok ⟨hp, h⟩
  rw [if_neg hp, if_neg hround]
  omega

/-- A hidden text is found again iff no character went around the circle and the sign of an overflow is not
written. -/
theorem decrypt_encrypt_iff (hcodes : ∀ c ∈ t, c.toNat < size) (h : (encrypt k t).finish.1 = .ok r) :
    decrypt r = .ok t ↔ overflowSign ∉ r ∧ ∀ c ∈ t, c.toNat + k < size := by
  obtain ⟨m, hm, hmark, rfl⟩ := encrypt_ok h
  rw [decrypt, dropLast_concat]
  by_cases hsign : overflowSign ∈ t.map (shift k)
  · -- the sign among the moved characters is taken out, and the text that is found is shorter
    refine iff_of_false (fun hfnd => ?_) fun hnone => hnone.1 (by simp [hsign])
    obtain ⟨_, -, hfnd⟩ := bind_eq_ok.mp hfnd
    have hlen := (mapM_ok_iff.mp hfnd).length_eq
    have hless : ((t.map (shift k)).filter (· != overflowSign)).length < (t.map (shift k)).length :=
      length_filter_lt_length_iff_exists.mpr ⟨_, hsign, by simp⟩
    rw [length_map, ← hlen] at hless
    exact Nat.lt_irrefl _ hless
  · have hsame : Text.without overflowSign (t.map (shift k)) = t.map (shift k) :=
      filter_eq_self.mpr fun c hc => bne_iff_ne.mpr fun heq => hsign (heq ▸ hc)
    obtain ⟨d, hd⟩ : ∃ d, d ∈ t := exists_mem_of_ne_nil t fun hnil => by
      subst hnil
      cases hm
    have hkey : (((Char.ofNat (m + k)).toNat : Int) - m
        + if overflowSign = Char.ofNat (m + k) then (size : Int) else 0).natAbs
          = k + if overflowSign = Char.ofNat (m + k) then size else 0 := by
      rw [toNat_ofNat hmark]
      split <;> omega
    have hfinds c (hc : c ∈ t) := charAt_shift_iff (p := overflowSign = Char.ofNat (m + k)) (hcodes c hc)
      (show k < size by omega)
    rw [hsame, hm]
    simp only [bind, Except.bind, mapM_ok_iff, forall₂_map_left_iff, forall₂_same, getLast?_concat, Option.map_some,
      Option.getD_some, contains_iff_mem, mem_append, hsign, false_or, mem_singleton, hkey]
    rw [forall₂_congr hfinds]
    exact ⟨fun hall => ⟨(hall d hd).1, fun c hc => (hall c hc).2⟩, fun hall c hc => ⟨hall.1, hall.2 c hc⟩⟩

theorem decrypt_encrypt_iff_letters :
    (encrypt 2 "abz").finish.1 = .ok "cd|n".toList ∧ decrypt "cd|n" = .ok "abz".toList :=
  ⟨rfl, (decrypt_encrypt_iff (k := 2) (t := "abz") (by simp [size]) rfl).mpr ⟨by decide, by simp [size]⟩⟩

/-- A character that becomes the sign of an overflow is lost, and one that went around the circle cannot be found. -/
theorem decrypt_encrypt_fails :
    (encrypt 1 "a_b").finish.1 = .ok "b`cc".toList ∧ decrypt "b`cc" = .error .notANumber
      ∧ (encrypt 1 "\ud7fe").finish.1 = .ok "\x00\x01".toList ∧ decrypt "\x00\x01" = .error .notANumber := by
  decide

end BlockScript.Cipher
