import Mathlib.Tactic.Lemma
import BlockScript.Script.Assignment

/-!
# Signs of assignments

Where comparisons are read from left to right, an equals sign that is left over assigns (`assigns`). A line is taken for
an assignment where two equals signs stand side by side, or one assigns behind the first character (`hasSign_eq`).
-/

open List
namespace BlockScript.Assignment
open Nesting (top)

/-- An equals sign outside quotes and brackets is left over when comparisons are read from left to right. -/
def assigns (s : Nesting) : Text → Bool
  | c :: d :: rest =>
    if c ∈ ['=', '<', '>', '!'] ∧ d = '=' ∧ (s.read c).isTop then assigns (s.read c) rest
    else if c = '=' ∧ s.isTop then true else assigns (s.read c) (d :: rest)
  | [c] => c = '=' ∧ s.isTop
  | [] => false

/-- Two equals signs stand side by side, the second outside quotes and brackets. -/
def doubled (s : Nesting) : Text → Bool
  | c :: d :: rest => if c = '=' ∧ d = '=' ∧ (s.read c).isTop then true else doubled (s.read c) (d :: rest)
  | _ => false

variable {s : Nesting} {c : Char} {rest : Text}

lemma read_equals (h : s.isTop) : s.read '=' = s := by
  simp only [Nesting.isTop, Bool.and_eq_true, Bool.not_eq_true', Option.isNone_iff_eq_none] at h
  simp [Nesting.read, h, Nesting.isQuote]

lemma hasSignFrom_skip (h : ¬ (c = '=' ∧ s.isTop)) (prev : Option Char) :
    hasSignFrom s prev (c :: rest) = hasSignFrom (s.read c) (some c) rest := by
  have hc : (c == '=' && s.isTop) = false := by simpa using h
  simp [hasSignFrom, hc]

lemma hasSignFrom_doubled (h : s.isTop) (rest : Text) : hasSignFrom s (some '=') ('=' :: rest) = true := by
  induction rest with
  | nil => simp [hasSignFrom, h]
  | cons d rest ih =>
    by_cases hd : d = '='
    · subst hd
      rw [hasSignFrom, read_equals h, ih]
      simp
    · simp [hasSignFrom, h, hd]

lemma hasSignFrom_behind (h : s.isTop) (hrest : hasSignFrom s (some '=') rest = (doubled s rest || assigns s rest)) :
    hasSignFrom s (some '=') rest = (doubled s ('=' :: rest) || assigns s rest) := by
  cases rest with
  | nil => exact hrest
  | cons d rest =>
    by_cases hd : d = '='
    · subst hd
      simp [hasSignFrom_doubled h, doubled, read_equals h, h]
    · rw [hrest, doubled.eq_1 s '=', read_equals h, if_neg (by simp [hd])]

lemma hasSignFrom_eq (s : Nesting) (t : Text) {p : Char} (hp : p ≠ '<' ∧ p ≠ '>' ∧ p ≠ '!') :
    hasSignFrom s (some p) t = (doubled s t || assigns s t) := by
  fun_induction assigns s t generalizing p with
  | case1 s c d rest h ih =>
    obtain ⟨hc, rfl, htop⟩ := h
    have hfrom : hasSignFrom s (some p) (c :: '=' :: rest) = hasSignFrom (s.read c) (some c) ('=' :: rest) := by
      simp [hasSignFrom]
    rw [hfrom, doubled]
    by_cases heq : c = '='
    · subst heq
      simp [hasSignFrom_doubled htop, htop]
    · have hcmp : hasSignFrom (s.read c) (some c) ('=' :: rest) = hasSignFrom (s.read c) (some '=') rest := by
        rw [hasSignFrom, read_equals htop]
        rcases by simpa [heq] using hc with rfl | rfl | rfl <;> simp
      rw [hcmp, hasSignFrom_behind htop (ih (by decide)), if_neg (by simp [heq])]
  | case2 s c d rest h hc =>
    obtain ⟨rfl, htop⟩ := hc
    have hd : d ≠ '=' := by simpa [read_equals htop, htop] using h
    simp [hasSignFrom, htop, hp, hd]
  | case3 s c d rest h hc ih =>
    rw [hasSignFrom_skip hc, doubled, if_neg fun hdbl => h ⟨by simp [hdbl.1], hdbl.2⟩]
    by_cases hcmp : c = '<' ∨ c = '>' ∨ c = '!'
    · have hd : ¬ (d = '=' ∧ (s.read c).isTop) := fun hd => h ⟨by simp [hcmp], hd⟩
      rw [hasSignFrom_skip hd, ← hasSignFrom_skip hd (some ' '), ih (by decide)]
    · exact ih (by simpa using hcmp)
  | case4 s c => simp [hasSignFrom, doubled, hp]
  | case5 s => rfl

/-- A line is taken for an assignment iff two equals signs stand side by side, or one is left over when comparisons
are read and an equals sign at the very start is not counted. -/
theorem hasSign_eq (line : Text) :
    hasSign line = (doubled top line || assigns top (if line.head? = some '=' then line.tail else line)) := by
  cases line with
  | nil => rfl
  | cons c rest =>
    by_cases hc : c = '='
    · subst hc
      have hfirst : hasSign ('=' :: rest) = hasSignFrom top (some '=') rest := by
        rw [hasSign, hasSignFrom, read_equals rfl]
        simp
      rw [hfirst, hasSignFrom_behind rfl (hasSignFrom_eq top rest (by decide))]
      rfl
    · have hskip : ¬ (c = '=' ∧ top.isTop) := by simp [hc]
      rw [hasSign, hasSignFrom_skip hskip, ← hasSignFrom_skip hskip (some ' '), hasSignFrom_eq top _ (by decide)]
      simp [hc]

/-- A comparison counts, and an assignment sign at the very start does not. -/
theorem hasSign_ne_assigns : (hasSign "a == b" = true ∧ assigns top "a == b" = false) ∧
    hasSign "= 1" = false ∧ assigns top "= 1" = true := by decide

end BlockScript.Assignment
