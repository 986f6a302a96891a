import BlockScript.Window.Options
import BlockScript.Proofs.LetterCase

/-!
# Options of a switch

The near reading gives back the options that a lore shows just if none of those that are not chosen has a question mark
(`ofLore?_iff_of_shows`): it takes the mark for a bullet lost.
-/

open List
namespace BlockScript.Window
open Text Label
variable {c d : Char} {t u : Text}

lemma afterBullet?_cons_self (c : Char) (t : Text) : afterBullet? [c] (c :: t) = some (trim t) := by
  simp [afterBullet?, cutAt?, Text.findInfix?]

lemma afterBullet?_cons_of_ne (h : c ≠ d) (t : Text) : afterBullet? [c] (d :: t) = afterBullet? [c] t := by
  simp [afterBullet?, cutAt?, Text.findInfix?, h, Function.comp_def]

lemma afterBullet?_of_notMem (h : c ∉ t) : afterBullet? [c] t = none := by
  induction t with
  | nil => rfl
  | cons d t ih =>
    obtain ⟨hne, hmem⟩ := not_or.mp (mem_cons.not.mp h)
    rw [afterBullet?_cons_of_ne hne, ih hmem]

lemma exists_afterBullet? (h : c ∈ t) : ∃ u, afterBullet? [c] t = some u ∧ u.length < t.length := by
  induction t with
  | nil => contradiction
  | cons d t ih =>
    by_cases hcd : c = d
    · rw [hcd, afterBullet?_cons_self]
      exact ⟨_, rfl, Nat.lt_succ_of_le (isInfix_trim t).length_le⟩
    rw [afterBullet?_cons_of_ne hcd]
    exact (ih (mem_of_ne_of_mem hcd h)).imp fun u hu => ⟨hu.1, hu.2.trans (Nat.lt_succ_self _)⟩

/-- A text that can be shown as an option: trimmed, not empty, without bullets, colours and controls. -/
structure IsOption (t : Text) : Prop where
  trim : Text.trim t = t
  filled : t ≠ []
  plain : Label.plain t = t
  bullets : '●' ∉ t ∧ '○' ∉ t

def optionLine (isChosen : Bool) (t : Text) : Text := (if isChosen then '●' else '○') :: ' ' :: t

/-- A lore shows some options with the one in place `i` chosen, one option on a line. -/
def Shows (lore : Text) (ts : List Text) (i : Nat) : Prop :=
  Text.splitOn loreBreak lore = ts.zipIdx.map fun p => optionLine (p.2 == i) p.1

lemma IsOption.shown_optionLine (h : IsOption t) (b : Bool) :
    Text.trim (Label.plain (optionLine b t)) = optionLine b t := by
  obtain ⟨hchr, hsign⟩ := plain_self_iff.mp h.plain
  obtain ⟨d, u, rfl⟩ := List.exists_cons_of_ne_nil h.filled
  have hpl : Label.plain (optionLine b (d :: u)) = optionLine b (d :: u) := by
    refine plain_self_iff.mpr ⟨?_, ?_⟩
    · cases b <;> simpa [optionLine] using hchr
    · cases b <;> simpa [optionLine] using hsign
  rw [hpl, trim_self_iff]
  refine ⟨fun c hc => ?_, ?_⟩
  · obtain rfl : (if b then '●' else '○') = c := by simpa [optionLine] using hc
    cases b <;> rfl
  · simpa [optionLine] using (trim_self_iff.mp h.trim).2

lemma IsOption.optionOn?_chosen (h : IsOption t) : optionOn? .near (optionLine true t) = some (t, true) := by
  have haft : afterBullet? ['●'] (optionLine true t) = some t := by
    exact congrArg some h.trim
  rw [optionOn?, h.shown_optionLine]
  simp [haft, h.filled]

lemma IsOption.optionOn?_other (h : IsOption t) : optionOn? .near (optionLine false t)
    = (((afterBullet? ['?'] t).map (·, true)).or (some (t, false))).filter fun o => !o.1.isEmpty := by
  have hchosen : afterBullet? ['●'] (optionLine false t) = none :=
    afterBullet?_of_notMem (by simp [optionLine, h.bullets.1])
  have hmark : afterBullet? ['?'] (optionLine false t) = afterBullet? ['?'] t := by
    rw [optionLine, afterBullet?_cons_of_ne (by decide), afterBullet?_cons_of_ne (by decide)]
  have haft : afterBullet? ['○'] (optionLine false t) = some t := by
    exact congrArg some h.trim
  rw [optionOn?, h.shown_optionLine]
  simp [haft, hchosen, hmark]

lemma IsOption.optionOn?_of_notMem (h : IsOption t) (hmark : '?' ∉ t) :
    optionOn? .near (optionLine false t) = some (t, false) := by
  simp [h.optionOn?_other, afterBullet?_of_notMem hmark, h.filled]

lemma IsOption.label_ne_of_mem (h : IsOption t) (hmark : '?' ∈ t) :
    (optionOn? .near (optionLine false t)).map (·.1) ≠ some t := by
  intro heq
  obtain ⟨u, hu, hlt⟩ := exists_afterBullet? hmark
  obtain ⟨o, ho, rfl⟩ := Option.map_eq_some_iff.mp heq
  rw [h.optionOn?_other, hu] at ho
  cases (Option.filter_eq_some_iff.mp ho).1
  exact Nat.lt_irrefl _ hlt

/-- Options shown in a lore are read back, with the chosen one, just if no other option has a question mark. -/
theorem ofLore?_iff_of_shows {lore : Text} {ts : List Text} {i : Nat} (hlines : Shows lore ts i)
    (h : ∀ t ∈ ts, IsOption t) (hi : i < ts.length) :
    Options.ofLore? .near lore = some ⟨ts, i⟩ ↔ ∀ p ∈ ts.zipIdx, p.2 ≠ i → '?' ∉ p.1 := by
  have hts : ∀ p ∈ ts.zipIdx, IsOption p.1 := fun p hp => h p.1 (fst_mem_of_mem_zipIdx hp)
  rw [Options.ofLore?, hlines, filterMap_map]
  constructor
  · intro hrd p hp hne hmark
    have hlab : (ts.zipIdx.filterMap fun p => (optionOn? .near (optionLine (p.2 == i) p.1)).map (·.1))
        = ts.zipIdx.map (·.1) := by
      rw [← map_filterMap, zipIdx_map_fst]
      split at hrd
      · contradiction
      · exact congrArg Options.labels (Option.some.inj hrd)
    have hp' := filterMap_eq_map_iff_forall_eq_some.mp hlab p hp
    rw [beq_eq_false_iff_ne.mpr hne] at hp'
    exact (hts p hp).label_ne_of_mem hmark hp'
  · intro hmks
    have hall : ts.zipIdx.filterMap (optionOn? .near ∘ fun p => optionLine (p.2 == i) p.1)
        = ts.zipIdx.map fun p => (p.1, p.2 == i) := by
      refine filterMap_eq_map_iff_forall_eq_some.mpr fun p hp => ?_
      by_cases hp' : p.2 = i
      · simpa [hp'] using (hts p hp).optionOn?_chosen
      · simpa [beq_eq_false_iff_ne.mpr hp'] using (hts p hp).optionOn?_of_notMem (hmks p hp hp')
    have hchosen : ts.zipIdx.findIdx? (·.2 == i) = some i :=
      findIdx?_eq_some_iff_getElem.mpr ⟨by simpa using hi, by simp, fun j hj => by simpa using hj.ne⟩
    rw [hall]
    split
    next hnil => simp [ne_nil_of_length_pos (Nat.zero_lt_of_lt hi)] at hnil
    · simp [findIdx?_map, Function.comp_def, hchosen]

theorem ofLore?_iff_of_shows_doubt : Shows "● да \\n ○ нет?" (texts ["да", "нет?"]) 0
    ∧ Options.ofLore? .near "● да \\n ○ нет?" ≠ some ⟨texts ["да", "нет?"], 0⟩ := by
  have hshows : Shows "● да \\n ○ нет?" (texts ["да", "нет?"]) 0 := by rfl
  have h : ∀ t ∈ texts ["да", "нет?"], IsOption t :=
    forall_mem_cons.mpr ⟨⟨rfl, nofun, rfl, by decide⟩, forall_mem_singleton.mpr ⟨rfl, nofun, rfl, by decide⟩⟩
  refine ⟨hshows, fun heq => ?_⟩
  exact (ofLore?_iff_of_shows hshows h (by decide)).mp heq ("нет?", 1) (by decide) (by decide) (by decide)

end BlockScript.Window
