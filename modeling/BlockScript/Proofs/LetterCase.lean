import BlockScript.Proofs.Preparation

/-!
# Lower case and white space

Lower case leaves white space, underscores and hyphens as they are and makes no new ones (`any_isSeparator_lower`). The
small form of a letter depends on the letters of its word only, so what stands around a text and is blank does not
matter (`lower_padded`). With this a label is compared by what it is without the white space around it (`Label.key_eq`).
-/

open List
namespace BlockScript
open CaseRun
open Char (ofNat)

/-! ### Separators -/

def isSeparator (c : Char) : Bool := isBlank c || c == '_' || c == '-'

def separatorCodes : List Nat := 45 :: 95 :: blankCodes

variable {c : Char}

lemma isSeparator_iff : isSeparator c ↔ c.toNat ∈ separatorCodes := by
  have hcd : ∀ d, c = d ↔ c.toNat = d.toNat := fun d => Char.toNat_inj.symm
  rw [isSeparator, Bool.or_eq_true, Bool.or_eq_true, isBlank_iff, beq_iff_eq, beq_iff_eq, hcd, hcd, separatorCodes,
    mem_cons, mem_cons]
  tauto

lemma isSeparator_of_blank (h : isBlank c) : isSeparator c := by simp [isSeparator, h]

lemma isBlank_of_separator (h : isSeparator c = false) : isBlank c = false := by
  rw [isSeparator, Bool.or_eq_false_iff, Bool.or_eq_false_iff] at h
  exact h.1.1

/-! ### Small letters -/

namespace CaseRun
variable {runs : List CaseRun} {codes : List Nat} {n m : Nat}

/-- The run has none of some code points, and leads to none of them. -/
def avoids (codes : List Nat) (r : CaseRun) : Bool := codes.all fun (k : Nat) =>
  (k < r.first || r.last < k) && ((k : Int) < r.first + r.shift || r.last + r.shift < k)

lemma find?_eq_some (h : find? n runs = some m) :
    ∃ r ∈ runs, r.first ≤ n ∧ n ≤ r.last ∧ m = ((n : Int) + r.shift).toNat := by
  induction runs with
  | nil => contradiction
  | cons r rest ih =>
    rw [find?] at h
    split at h
    · contradiction
    next hfst =>
      split at h
      next hin => exact ⟨r, by simp, Nat.le_of_not_lt hfst, hin.1, (Option.some.inj h).symm⟩
      obtain ⟨r', hr', hm⟩ := ih h
      exact ⟨r', by simp [hr'], hm⟩

lemma find?_none_of_avoids (h : runs.all (avoids codes)) (hn : n ∈ codes) : find? n runs = none := by
  cases hfind : find? n runs with
  | none => rfl
  | some m =>
    obtain ⟨r, hr, hfst, hlast, -⟩ := find?_eq_some hfind
    have havoids := all_eq_true.mp (all_eq_true.mp h r hr) n hn
    simp only [Bool.and_eq_true, Bool.or_eq_true, decide_eq_true_eq] at havoids
    omega

lemma notMem_of_avoids (h : runs.all (avoids codes)) (hcodes : 0 ∉ codes) (hfind : find? n runs = some m) :
    m ∉ codes := by
  intro hm
  obtain ⟨r, hr, hfst, hlast, rfl⟩ := find?_eq_some hfind
  have havoids := all_eq_true.mp (all_eq_true.mp h r hr) _ hm
  have hpos : (n + r.shift).toNat ≠ 0 := fun h0 => hcodes (h0 ▸ hm)
  simp only [Bool.and_eq_true, Bool.or_eq_true, decide_eq_true_eq] at havoids
  omega

end CaseRun

set_option maxRecDepth 20000 in
lemma lowerRuns_avoid : lowerRuns.all (CaseRun.avoids separatorCodes) := by rfl

lemma toLower_ascii : (List.range 128).all fun n => isSeparator (ofNat n).toLower == isSeparator (ofNat n)
    && (!isSeparator (ofNat n) || (ofNat n).toLower == ofNat n) := by rfl

lemma toLower_of_lt (h : c.toNat < 128) : isSeparator c.toLower = isSeparator c ∧ (isSeparator c → c.toLower = c) := by
  have hc := all_eq_true.mp toLower_ascii c.toNat (mem_range.mpr h)
  rw [Char.ofNat_toNat, Bool.and_eq_true, beq_iff_eq] at hc
  refine ⟨hc.1, fun hsep => ?_⟩
  simpa [hsep] using hc.2

lemma lowerChar_of_separator (h : isSeparator c) : lowerChar c = c := by
  rw [lowerChar]
  split
  next hlt => exact (toLower_of_lt hlt).2 h
  · rw [find?_none_of_avoids lowerRuns_avoid (isSeparator_iff.mp h)]

lemma toNat_ofNat (n : Nat) : (ofNat n).toNat = n ∨ (ofNat n).toNat = 0 := by
  by_cases h : n.isValidChar
  · exact .inl (by rw [ofNat, dif_pos h]; rfl)
  · exact .inr (by rw [ofNat, dif_neg h]; rfl)

lemma isSeparator_lowerChar (c : Char) : isSeparator (lowerChar c) = isSeparator c := by
  cases h : isSeparator c with
  | true => rw [lowerChar_of_separator h, h]
  | false =>
    rw [lowerChar]
    split
    next hlt => rw [(toLower_of_lt hlt).1, h]
    split
    next n hn =>
      have hnot := notMem_of_avoids lowerRuns_avoid (by decide) hn
      rw [← Bool.not_eq_true, isSeparator_iff]
      intro hmem
      rcases toNat_ofNat n with hcd | hcd
      · exact hnot (hcd ▸ hmem)
      rw [hcd] at hmem
      exact absurd hmem (by decide)
    · exact h

set_option maxRecDepth 20000 in
lemma eq_of_sameLetter {d : Char} (hc : c ∈ ['.', '=']) (h : sameLetter c d) : d = c := by
  have hruns : lowerRuns.all (CaseRun.avoids [46, 61]) := rfl
  have hascii : (List.range 128).all fun n => (ofNat n).toLower ∉ ['.', '='] || (ofNat n).toLower == ofNat n
    := rfl
  have hforms : looseForms.all fun f => f.2 ∉ ['.', '='] := rfl
  have hself : looseChar c = c := by
    rcases mem_pair.mp hc with rfl | rfl <;> rfl
  have hcd : c.toNat ∈ [46, 61] := by
    rcases mem_pair.mp hc with rfl | rfl <;> decide
  have hlo : (looseForms.lookup d).getD (lowerChar d) = c := (beq_iff_eq.mp h).symm.trans hself
  cases hform : looseForms.lookup d with
  | some e =>
    obtain ⟨_, _, hmem, -⟩ := lookup_eq_some_iff.mp hform
    simp_all
  | none =>
    rw [hform, Option.getD_none, lowerChar] at hlo
    split at hlo
    next hlt =>
      have hd := all_eq_true.mp hascii d.toNat (mem_range.mpr hlt)
      rw [Char.ofNat_toNat, hlo] at hd
      rcases (Bool.or_eq_true _ _).mp hd with hd | hd
      · exact absurd hc (of_decide_eq_true hd)
      · exact (beq_iff_eq.mp hd).symm
    next =>
      split at hlo
      next n hn =>
        have hnot := notMem_of_avoids hruns (by decide) hn
        rcases toNat_ofNat n with hn | hn <;> rw [hlo] at hn
        · exact absurd (hn ▸ hcd) hnot
        · simp [hn] at hcd
      · exact hlo

/-! ### Words -/

set_option maxRecDepth 20000 in
lemma blank_breaks (h : isBlank c) : isCased c = false ∧ isCaseIgnorable c = false := by
  have hcodes : blankCodes.all fun n => !isCased (ofNat n) && !isCaseIgnorable (ofNat n) := by rfl
  simpa using of_isBlank (p := fun c => !isCased c && !isCaseIgnorable c) hcodes h

namespace Text
variable {t u seen pre post : Text}

lemma nextIsCased_append (h : ∀ c ∈ u, isBlank c) : nextIsCased (t ++ u) = nextIsCased t := by
  induction t with
  | nil =>
    cases u with
    | nil => rfl
    | cons c u =>
      obtain ⟨hcased, hignorable⟩ := blank_breaks (h c (by simp))
      simp [nextIsCased, hcased, hignorable]
  | cons c t ih =>
    rw [nextIsCased, nextIsCased] at ih ⊢
    cases hc : isCaseIgnorable c with
    | true => simpa [hc] using ih
    | false => simp [hc]

lemma lowerFrom_append_seen (h : ∀ c ∈ u, isBlank c) : lowerFrom (seen ++ u) t = lowerFrom seen t := by
  induction t generalizing seen with
  | nil => rfl
  | cons c t ih =>
    rw [lowerFrom, lowerFrom, nextIsCased_append h, ← cons_append, ih]

lemma lowerFrom_blank_append (h : ∀ c ∈ u, isBlank c) :
    lowerFrom seen (u ++ t) = u ++ lowerFrom (u.reverse ++ seen) t := by
  induction u generalizing seen with
  | nil => rfl
  | cons c u ih =>
    have hc := h c (by simp)
    have hsigma : c ≠ 'Σ' := by rintro rfl; exact absurd hc (by decide)
    have hdotted : c ≠ 'İ' := by rintro rfl; exact absurd hc (by decide)
    rw [cons_append, lowerFrom, if_neg (by simpa using hsigma), if_neg (by simpa using hdotted),
      lowerChar_of_separator (isSeparator_of_blank hc), ih fun d hd => h d (by simp [hd])]
    simp

lemma lowerFrom_append_blank (h : ∀ c ∈ u, isBlank c) : lowerFrom seen (t ++ u) = lowerFrom seen t ++ u := by
  induction t generalizing seen with
  | nil =>
    have hbl : lowerFrom seen (u ++ []) = u ++ lowerFrom (u.reverse ++ seen) [] := lowerFrom_blank_append h
    rw [append_nil] at hbl
    rw [nil_append, hbl, lowerFrom, append_nil, lowerFrom, nil_append]
  | cons c t ih =>
    rw [cons_append, lowerFrom, lowerFrom, nextIsCased_append h, ih]
    split
    · rfl
    · split <;> rfl

lemma lower_padded (hpre : ∀ c ∈ pre, isBlank c) (hpost : ∀ c ∈ post, isBlank c) :
    lower (pre ++ t ++ post) = pre ++ lower t ++ post := by
  rw [lower, lowerFrom_append_blank hpost, lowerFrom_blank_append hpre, append_nil]
  have hseen : lowerFrom ([] ++ pre.reverse) t = lowerFrom [] t := lowerFrom_append_seen (by simpa using hpre)
  rw [nil_append] at hseen
  rw [hseen, lower]

lemma any_isSeparator_lowerFrom (seen t : Text) : (lowerFrom seen t).any isSeparator = t.any isSeparator := by
  induction t generalizing seen with
  | nil => rfl
  | cons c t ih =>
    rw [lowerFrom]
    split
    next hc =>
      obtain rfl := beq_iff_eq.mp hc
      rw [any_cons, ih]
      split <;> rfl
    next =>
      split
      next hc =>
        obtain rfl := beq_iff_eq.mp hc
        rw [any_cons, any_cons, ih]
        rfl
      · rw [any_cons, any_cons, ih, isSeparator_lowerChar]

lemma any_isSeparator_lower (t : Text) : (lower t).any isSeparator = t.any isSeparator := any_isSeparator_lowerFrom [] t

end Text

/-! ### Labels -/

namespace Text

lemma exists_padding (t : Text) :
    ∃ pre post : Text, (∀ c ∈ pre, isBlank c) ∧ (∀ c ∈ post, isBlank c) ∧ t = pre ++ trim t ++ post := by
  refine ⟨t.takeWhile isBlank, ((t.dropWhile isBlank).reverse.takeWhile isBlank).reverse, ?_, ?_, ?_⟩
  · exact fun c hc => mem_takeWhile_imp hc
  · exact fun c hc => mem_takeWhile_imp (mem_reverse.mp hc)
  have hback : t.dropWhile isBlank = trim t ++ ((t.dropWhile isBlank).reverse.takeWhile isBlank).reverse := by
    rw [trim, trimBy, dropEndWhile, ← reverse_append, takeWhile_append_dropWhile, reverse_reverse]
  rw [append_assoc, ← hback, takeWhile_append_dropWhile]

lemma isInfix_trim (t : Text) : trim t <:+: t := by
  obtain ⟨pre, post, -, -, heq⟩ := exists_padding t
  exact ⟨pre, post, heq.symm⟩

end Text
namespace Label
variable {t u : Text}

lemma collapseFrom_of_not_blank (h : ∀ c ∈ t, isBlank c = false) (gap : Bool) : collapseFrom gap t = t := by
  induction t generalizing gap with
  | nil => rfl
  | cons c t ih =>
    rw [collapseFrom, if_neg (by rw [h c (by simp)]; exact Bool.false_ne_true), ih fun d hd => h d (by simp [hd])]

lemma collapseFrom_blank_append (h : ∀ c ∈ u, isBlank c) (gap : Bool)
    (hhead : ∀ c, t.head? = some c → isBlank c = false) :
    ∃ pre, (∀ c ∈ pre, isBlank c) ∧ collapseFrom gap (u ++ t) = pre ++ collapseFrom false t := by
  induction u generalizing gap with
  | nil =>
    refine ⟨[], by simp, ?_⟩
    cases t with
    | nil => rfl
    | cons c t => simp [collapseFrom, hhead c rfl]
  | cons c u ih =>
    obtain ⟨pre, hpre, heq⟩ := ih (fun d hd => h d (by simp [hd])) true
    rw [cons_append, collapseFrom, if_pos (h c (by simp)), heq]
    cases gap with
    | true => exact ⟨pre, hpre, rfl⟩
    | false => exact ⟨' ' :: pre, forall_mem_cons.mpr ⟨rfl, hpre⟩, rfl⟩

lemma collapseFrom_blank (h : ∀ c ∈ u, isBlank c) (gap : Bool) : ∀ c ∈ collapseFrom gap u, isBlank c := by
  obtain ⟨pre, hpre, heq⟩ := collapseFrom_blank_append (t := []) h gap (by simp)
  rw [append_nil] at heq
  rw [heq]
  simpa [collapseFrom] using hpre

lemma collapseFrom_append_blank (h : ∀ c ∈ u, isBlank c) (gap : Bool) :
    ∃ post, (∀ c ∈ post, isBlank c) ∧ collapseFrom gap (t ++ u) = collapseFrom gap t ++ post := by
  induction t generalizing gap with
  | nil => exact ⟨_, collapseFrom_blank h gap, rfl⟩
  | cons c t ih =>
    rw [cons_append, collapseFrom, collapseFrom]
    cases hc : isBlank c with
    | true =>
      obtain ⟨post, hpost, heq⟩ := ih true
      refine ⟨post, hpost, ?_⟩
      cases gap <;> simp [heq]
    | false =>
      obtain ⟨post, hpost, heq⟩ := ih false
      exact ⟨post, hpost, by simp [heq]⟩

lemma head?_collapse (h : ∀ c, t.head? = some c → isBlank c = false) : (collapse t).head? = t.head? := by
  cases t with
  | nil => rfl
  | cons c t => simp [collapse, collapseFrom, h c rfl]

lemma collapseFrom_concat {d : Char} (h : isBlank d = false) (gap : Bool) (t : Text) :
    collapseFrom gap (t ++ [d]) = collapseFrom gap t ++ [d] := by
  induction t generalizing gap with
  | nil => simp [collapseFrom, h]
  | cons c t ih =>
    rw [cons_append, collapseFrom, collapseFrom, ih, ih]
    cases isBlank c <;> cases gap <;> rfl

lemma trim_collapse (t : Text) : Text.trim (collapse t) = collapse (Text.trim t) := by
  obtain ⟨pre, post, hpre, hpost, heq⟩ := Text.exists_padding t
  obtain ⟨hhead, hlast⟩ := Text.isBlank_ends_trim t
  rcases eq_nil_or_concat (Text.trim t) with hnil | ⟨core, d, hcore⟩
  · have hbl : ∀ c ∈ collapse t, isBlank c := by
      refine collapseFrom_blank (fun c hc => ?_) false
      rw [heq, hnil, append_nil] at hc
      exact (mem_append.mp hc).elim (hpre c) (hpost c)
    have htrim := Text.trim_append_left (t := []) hbl
    rw [append_nil] at htrim
    rw [htrim, hnil]
    rfl
  have hfr : ∀ c, (Text.trim t ++ post).head? = some c → isBlank c = false := by
    intro c hc
    refine hhead c ?_
    rw [hcore] at hc ⊢
    cases core <;> exact hc
  obtain ⟨pre', hpre', hcoll⟩ := collapseFrom_blank_append hpre false hfr
  obtain ⟨post', hpost', hback⟩ := collapseFrom_append_blank hpost false
  have hwh : collapse t = pre' ++ (collapse (Text.trim t) ++ post') := calc
    collapse t = collapse (pre ++ (Text.trim t ++ post)) := congrArg collapse (heq.trans (append_assoc _ _ _))
    _ = pre' ++ (collapse (Text.trim t) ++ post') := by rw [collapse, hcoll, hback, collapse]
  rw [hwh, Text.trim_append_left hpre', Text.trim_append_right hpost', Text.trim_self_iff]
  constructor
  · rw [head?_collapse hhead]
    exact hhead
  intro c hc
  rw [concat_eq_append] at hcore
  have hd : isBlank d = false := hlast d (by simp [hcore])
  rw [hcore, collapse, collapseFrom_concat hd] at hc
  obtain rfl : d = c := by simpa using hc
  exact hd

lemma any_isSeparator_collapse (t : Text) : (collapse t).any isSeparator = t.any isSeparator := by
  rw [collapse]
  induction t with
  | nil => rfl
  | cons c t ih =>
    rw [collapseFrom]
    cases hc : isBlank c with
    | true =>
      rw [if_pos rfl, if_neg Bool.false_ne_true, any_cons, any_cons, isSeparator_of_blank hc]
      rfl
    | false =>
      rw [if_neg Bool.false_ne_true, any_cons, any_cons, ih]

lemma isSeparator_repairChar (c : Char) :
    isSeparator (repairChar c) = isSeparator c ∧ isBlank (repairChar c) = isBlank c := by
  have htable : repairTable.all fun r => !isSeparator r.1 && !isSeparator r.2 && !isBlank r.1 && !isBlank r.2 := by
    rfl
  rw [repairChar]
  cases hlookup : repairTable.lookup c with
  | none => exact ⟨rfl, rfl⟩
  | some d =>
    obtain ⟨pre, post, htable', -⟩ := lookup_eq_some_iff.mp hlookup
    have hd := all_eq_true.mp htable (c, d) (by rw [htable']; simp)
    simp only [Bool.and_eq_true, Bool.not_eq_true'] at hd
    simp [hd]

lemma any_isSeparator_repair (t : Text) : (repair t).any isSeparator = t.any isSeparator := by
  rw [repair, any_map]
  exact congrArg (t.any ·) (funext fun c => (isSeparator_repairChar c).1)

lemma trim_repair (t : Text) : Text.trim (repair t) = repair (Text.trim t) := by
  have hbl : isBlank ∘ repairChar = isBlank := funext fun c => (isSeparator_repairChar c).2
  rw [Text.trim, Text.trimBy, Text.dropEndWhile, repair, dropWhile_map, ← map_reverse,
    dropWhile_map, hbl, ← map_reverse]
  rfl

lemma dropColorCodes_sublist : ∀ t : Text, (dropColorCodes t).Sublist t
  | [] => .refl _
  | [c] => .refl _
  | c :: d :: rest => by
    rw [dropColorCodes]
    split
    · exact ((dropColorCodes_sublist rest).cons d).cons c
    · exact (dropColorCodes_sublist (d :: rest)).cons_cons c

lemma dropColorCodes_self_iff : ∀ {t : Text}, '\n' ∉ t → (dropColorCodes t = t ↔ '§' ∉ t.dropLast)
  | [], _ => by simp [dropColorCodes]
  | [c], _ => by simp [dropColorCodes]
  | c :: d :: rest, hln => by
    have hd : d ≠ '\n' := fun hd => hln (by simp [hd])
    rw [dropColorCodes, dropLast_cons_cons, mem_cons, not_or]
    by_cases hc : c = '§'
    · rw [if_pos (by simp [hc, hd])]
      refine iff_of_false (fun heq => ?_) (fun h => h.1 hc.symm)
      have hlen := (dropColorCodes_sublist rest).length_le
      rw [heq, length_cons, length_cons] at hlen
      omega
    rw [if_neg (by simp [hc]), cons_inj_right, dropColorCodes_self_iff fun hmem => hln (by simp [hmem])]
    exact (and_iff_right (Ne.symm hc)).symm

/-- A label without colours has no control characters, and a section sign at most at the end. -/
lemma plain_self_iff : plain t = t ↔ (∀ c ∈ t, 32 ≤ c.toNat) ∧ '§' ∉ t.dropLast := by
  have hln : (∀ c ∈ t, 32 ≤ c.toNat) → '\n' ∉ t := fun h hmem => absurd (h _ hmem) (by decide)
  constructor
  · intro h
    have hchr : ∀ c ∈ t, 32 ≤ c.toNat := by
      intro c hc
      rw [← h, plain] at hc
      simpa using (mem_filter.mp hc).2
    have hlen : t.length ≤ (dropColorCodes t).length := by
      have := length_filter_le (fun c => 32 ≤ c.toNat) (dropColorCodes t)
      rw [plain, dropControls] at h
      rwa [h] at this
    exact ⟨hchr, (dropColorCodes_self_iff (hln hchr)).mp ((dropColorCodes_sublist t).eq_of_length_le hlen)⟩
  rintro ⟨hchr, hsign⟩
  rw [plain, (dropColorCodes_self_iff (hln hchr)).mpr hsign, dropControls]
  simpa using hchr

lemma plain_self_of_infix (h : u <:+: t) (ht : plain t = t) : plain u = u := by
  obtain ⟨hchr, hsign⟩ := plain_self_iff.mp ht
  refine plain_self_iff.mpr ⟨fun c hc => hchr c (h.subset hc), fun hmem => hsign ?_⟩
  obtain ⟨before, after, rfl⟩ := h
  rcases eq_nil_or_concat after with rfl | ⟨after, d, rfl⟩
  · have hne : u ≠ [] := by rintro rfl; simp at hmem
    rw [append_nil, dropLast_append_of_ne_nil hne]
    exact mem_append_right _ hmem
  rw [concat_eq_append, ← append_assoc]
  simp [dropLast_subset u hmem]

lemma key_eq (h : plain t = t) : key t = Text.lower (collapse (repair (Text.trim t))) := by
  rw [key, display, h, trim_collapse, trim_repair]

/-- A key need not be its own key. -/
theorem key_capital : key "À" = "à" ∧ key (key "À") = "а" ∧ key (key "À") ≠ key "À" := by decide

end Label
end BlockScript
