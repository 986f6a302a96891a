import BlockScript.Script.Arithmetic
import BlockScript.Proofs.NamedArguments

/-!
# Words and numerals

The characters of words and numerals are neither blank nor special, and a numeral is read back as its number:
`Text.toInt?_ofInt`.
-/

open List
namespace BlockScript
open Text
open Formula (isLatinWord)

/-! ### Characters of words -/

variable {c : Char}

lemma isLatinWord_of_latinStart (h : Formula.isLatinStart c) : isLatinWord c := by
  simp only [Formula.isLatinStart, isLatinWord, Char.isAlphanum, Bool.or_eq_true] at h ⊢
  tauto

lemma notMem_of_all {p : Char → Bool} {cs : List Char} (hc : p c) (h : cs.all (!p ·)) : c ∉ cs := by
  intro hmem
  simpa [hc] using all_eq_true.mp h c hmem

lemma isPlainChar_of_all {p : Char → Bool} (hc : p c)
    (h : ['"', '\'', '\\', '(', ')', '[', ']', '\x7b', '\x7d', '\n'].all (!p ·)) : isPlainChar c := by
  rw [isPlainChar, Bool.not_eq_true', ← Bool.not_eq_true, contains_iff_mem]
  exact notMem_of_all hc h

lemma isPlainChar_of_latinWord (h : isLatinWord c) : isPlainChar c := isPlainChar_of_all h (by decide)

lemma isPlainChar_of_varChar (h : isVarChar c) : isPlainChar c := isPlainChar_of_all h (by decide)

/-! ### White space -/

def blankCodes : List Nat := [9, 10, 11, 12, 13, 28, 29, 30, 31, 32, 0x85, 0xA0, 0x1680, 0x2000, 0x2001, 0x2002, 0x2003,
  0x2004, 0x2005, 0x2006, 0x2007, 0x2008, 0x2009, 0x200A, 0x2028, 0x2029, 0x202F, 0x205F, 0x3000]

lemma isBlank_iff : isBlank c ↔ c.toNat ∈ blankCodes := by
  simp only [isBlank, blankCodes, Bool.or_eq_true, Bool.and_eq_true, decide_eq_true_eq, beq_iff_eq,
    mem_cons, not_mem_nil, or_false]
  omega

lemma of_isBlank {p : Char → Bool} (h : blankCodes.all fun n => p (Char.ofNat n)) (hc : isBlank c) : p c := by
  simpa using all_eq_true.mp h c.toNat (isBlank_iff.mp hc)

lemma not_isBlank_of_all {p : Char → Bool} (hc : p c) (h : blankCodes.all fun n => !p (Char.ofNat n)) :
    isBlank c = false := by
  rw [← Bool.not_eq_true]
  intro hbl
  simpa [hc] using of_isBlank (p := (!p ·)) h hbl

lemma isBlank_of_headChar (h : GameValues.isHeadChar c) : isBlank c = false := not_isBlank_of_all h (by decide)

lemma isBlank_of_latinWord (h : isLatinWord c) : isBlank c = false := not_isBlank_of_all h (by decide)

lemma isBlank_of_varChar (h : isVarChar c) : isBlank c = false := not_isBlank_of_all h (by decide +kernel)

lemma isVarChar_of_blank (h : isBlank c) : isVarChar c = false := by
  rw [← Bool.not_eq_true]
  intro hvar
  simp [isBlank_of_varChar hvar] at h

lemma isVarChar_of_nameChar (h : isNameChar c) : isVarChar c := by simp [isVarChar, h]

namespace Text
variable {t : Text} {c : Char}

lemma append_inj_of_head {p : Char → Bool} {t' u u' : Text} (ht : ∀ c ∈ t, p c) (ht' : ∀ c ∈ t', p c)
    (hu : ∀ c, u.head? = some c → p c = false) (hu' : ∀ c, u'.head? = some c → p c = false)
    (h : t ++ u = t' ++ u') : t = t' ∧ u = u' := by
  have hstop (w : Text) : (∀ c, w.head? = some c → p c = false) → w.takeWhile p = [] := by
    intro hw
    cases w with
    | nil => rfl
    | cons c w => simp [hw c rfl]
  have htake := congrArg (List.takeWhile p) h
  rw [takeWhile_append_of_pos ht, takeWhile_append_of_pos ht', hstop u hu, hstop u' hu', append_nil,
    append_nil] at htake
  subst htake
  exact ⟨rfl, append_cancel_left h⟩

def between? (front back t : Text) : Option Text :=
  (dropLead? front t).bind fun u => if endsWith u back then some (u.take (u.length - back.length)) else none

lemma dropLead?_append (front t : Text) : dropLead? front (front ++ t) = some t := by simp [dropLead?]

lemma between?_append (front back t : Text) : between? front back (front ++ (t ++ back)) = some t := by
  rw [between?, dropLead?_append]
  simp [endsWith]

lemma between?_none {front back : Text} (h : ¬ front <+: t) : between? front back t = none := by
  rw [between?, dropLead?, if_neg (by simpa using h)]
  rfl

lemma infix_of_between? {front back u : Text} (h : between? front back t = some u) : u <:+: t := by
  rw [between?, dropLead?] at h
  split at h
  next =>
    simp only [Option.bind_some] at h
    split at h
    next =>
      cases h
      exact ( take_prefix _ _).isInfix.trans (drop_suffix _ _).isInfix
    · simp at h
  · simp at h

/-! ### Decimal numbers -/

lemma toNat_lt_of_digit (h : c.isDigit) : c.toNat < 128 := by
  simp only [Char.isDigit, Bool.and_eq_true, decide_eq_true_eq, UInt32.le_iff_toNat_le] at h
  have h57 : '9'.val.toNat = 57 := rfl
  have hval : c.val.toNat = c.toNat := rfl
  omega

lemma digitValues?_of_digit (hne : t ≠ []) (h : ∀ c ∈ t, c.isDigit) :
    digitValues? t = some (t.map fun c => c.toNat - '0'.toNat) := by
  have hval c : c.isDigit → decimalValue? c = some (c.toNat - '0'.toNat) := by
    intro hc
    rw [decimalValue?, if_pos (toNat_lt_of_digit hc), if_pos hc]
    rfl
  fun_induction digitValues? t with
  | case1 => exact absurd rfl hne
  | case2 c => simp [hval c (h c (by simp))]
  | case3 c d rest ih => exact absurd (h '_' (by simp)) (by decide)
  | case4 c rest hsingle _ ih =>
    have hrest : rest ≠ [] := fun hnil => hsingle hnil
    rw [ih hrest fun d hd => h d (by simp [hd])]
    simp [hval c (h c (by simp))]

lemma isDigit_ofNat {n : Nat} (h : c ∈ ofNat n) : c.isDigit :=
  Nat.isDigit_of_mem_toDigits (by decide) (by decide) h

lemma mem_ofInt {k : Int} (h : c ∈ ofInt k) : c.isDigit ∨ c = '-' := by
  cases k with
  | ofNat n => exact .inl (isDigit_ofNat h)
  | negSucc n =>
    rcases mem_cons.mp h with rfl | h
    · exact .inr rfl
    · exact .inl (isDigit_ofNat h)

lemma ofNat_ne_nil (n : Nat) : ofNat n ≠ [] := Nat.toDigits_ne_nil

lemma ofDigitValues_ofNat (n : Nat) : ofDigitValues ((ofNat n).map fun c => c.toNat - '0'.toNat) = n := by
  rw [ofDigitValues, foldl_map]
  exact Nat.ofDigitChars_toDigits (by decide) (by decide)

lemma ofNat_injective : Function.Injective ofNat := by
  intro m n h
  rw [← ofDigitValues_ofNat m, h, ofDigitValues_ofNat]

lemma isBlank_of_digit (h : c.isDigit) : isBlank c = false := by
  apply isBlank_of_latinWord
  simp [isLatinWord, Char.isAlphanum, h]

lemma isPlain_ofInt (k : Int) : isPlain (ofInt k) := by
  rw [isPlain, all_eq_true]
  intro c hc
  rcases mem_ofInt hc with hd | rfl
  · exact isPlainChar_of_latinWord (by simp [isLatinWord, Char.isAlphanum, hd])
  · decide

lemma trim_of_digit (h : ∀ c ∈ t, c.isDigit ∨ c = '-') : trim t = t := by
  refine trim_of_not_blank fun c hc => ?_
  rcases h c hc with hd | rfl
  · exact isBlank_of_digit hd
  · decide

lemma toInt?_ofInt {k : Int} (h : (ofNat k.natAbs).length ≤ 4300) : toInt? (ofInt k) = some k := by
  cases k with
  | ofNat n =>
    have hdig : ∀ c ∈ ofNat n, c.isDigit := fun c => isDigit_ofNat
    have hsign : readSign (ofNat n) = (false, ofNat n) := by
      unfold readSign
      split
      next rest heq => exact absurd (hdig '-' (by simp [heq])) (by decide)
      next rest heq => exact absurd (hdig '+' (by simp [heq])) (by decide)
      · rfl
    rw [toInt?, ofInt, trim_of_digit fun c hc => .inl (hdig c hc), hsign]
    simp only [digitValues?_of_digit (ofNat_ne_nil n) hdig, length_map, ofDigitValues_ofNat]
    exact if_neg (Nat.not_lt.mpr h)
  | negSucc n =>
    have hdig : ∀ c ∈ ofNat (n + 1), c.isDigit := fun c => isDigit_ofNat
    have htrim : trim ('-' :: ofNat (n + 1)) = '-' :: ofNat (n + 1) := by
      apply trim_of_digit
      simpa using fun c hc => .inl (hdig c hc)
    rw [toInt?, ofInt, htrim, readSign]
    simp only [digitValues?_of_digit (ofNat_ne_nil _) hdig, length_map, ofDigitValues_ofNat]
    exact if_neg (Nat.not_lt.mpr h)

lemma isPlain_ofNat (n : Nat) : isPlain (ofNat n) := isPlain_ofInt n

end Text
end BlockScript
