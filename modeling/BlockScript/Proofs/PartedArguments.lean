import BlockScript.Proofs.Preparation

/-!
# Joined arguments

Texts that close their quotes and brackets, without commas outside them, are read back from a list parted by
commas and white space (`splitTop_parted`): a reader comes back to the state that it was in before each of them.
-/

open List
namespace BlockScript.Nesting
open Text (trim joinWith splitTop splitTopFrom skips_cons splitTopFrom_append trim_append_left)
variable {q : Char} {t u : Text} {inner : Bool}

/-- What may stand between quotes: a backslash takes the character behind it. -/
inductive Enclosed (q : Char) : Text → Prop
  | nil : Enclosed q []
  | char {c : Char} {t : Text} (other : c ≠ q) (plain : c ≠ '\\') (rest : Enclosed q t) : Enclosed q (c :: t)
  | escape (c : Char) {t : Text} (rest : Enclosed q t) : Enclosed q ('\\' :: c :: t)

def brackets : List (Char × Char) := [('(', ')'), ('[', ']'), ('\x7b', '\x7d')]

/-- Texts that close their quotes and brackets. Only with `inner`, commas stand outside them. -/
inductive Nested : Bool → Text → Prop
  | nil (inner : Bool) : Nested inner []
  | char {inner : Bool} {c : Char} {t : Text} (plain : c ∉ ['"', '\'', '\\', '(', ')', '[', ']', '\x7b', '\x7d'])
      (comma : c = ',' → inner) (rest : Nested inner t) : Nested inner (c :: t)
  | escape {inner : Bool} (c : Char) {t : Text} (rest : Nested inner t) : Nested inner ('\\' :: c :: t)
  | quoted {inner : Bool} {q : Char} {u t : Text} (quote : isQuote q) (inside : Enclosed q u) (rest : Nested inner t) :
      Nested inner (q :: (u ++ q :: t))
  | bracketed {inner : Bool} {o d : Char} {u t : Text} (pair : (o, d) ∈ brackets) (inside : Nested true u)
      (rest : Nested inner t) : Nested inner (o :: (u ++ d :: t))

/-- A reader comes back to the state it was in, and meets no comma outside on the way. -/
structure Passes (s : Nesting) (t : Text) : Prop where
  back : s.readAll t = s
  skips : skips ',' s t

namespace Passes
variable {s r : Nesting} {o d : Char}

lemma cons {c : Char} (hrd : s.read c = s) (hc : c = ',' → s.isTop = false) (ht : Passes s t) : Passes s (c :: t) := by
  refine ⟨by rw [readAll_cons, hrd, ht.back], ?_⟩
  rw [skips_cons, hrd]
  refine ⟨?_, ht.skips⟩
  by_cases h : c = ',' <;> simp [h, hc]

lemma escape (c : Char) (hs : s.escaped = false) (ht : Passes s t) : Passes s ('\\' :: c :: t) := by
  obtain ⟨quote, escaped, p, b, k⟩ := s
  obtain rfl : escaped = false := hs
  exact ⟨ht.back, by simpa [Nesting.skips, isTop, read] using ht.skips⟩

lemma group (hopen : s.read o = r) (hcl : r.read d = s) (ho : o ≠ ',') (hd : d ≠ ',') (hu : Passes r u)
    (ht : Passes s t) : Passes s (o :: (u ++ d :: t)) := by
  constructor
  · rw [readAll_cons, hopen, readAll_append, hu.back, readAll_cons, hcl, ht.back]
  · simp [Nesting.skips, skips_append, hopen, hu.back, hu.skips, hcl, ht.skips, ho, hd]

end Passes

lemma Enclosed.passes (h : Enclosed q u) {s : Nesting} (hs : s.quote = some q ∧ s.escaped = false) : Passes s u := by
  induction h with
  | nil => exact ⟨rfl, rfl⟩
  | char other plain _ ih => exact ih.cons (by simp [read, hs, other, plain]) fun _ => by simp [isTop, hs]
  | escape c _ ih => exact ih.escape c hs.2

lemma Nested.passes (h : Nested inner t) (p b k : Nat) (hinn : inner → 0 < p + b + k) :
    Passes ⟨none, false, p, b, k⟩ t := by
  induction h generalizing p b k with
  | nil => exact ⟨rfl, rfl⟩
  | char plain comma _ ih =>
    refine (ih p b k hinn).cons ?_ fun hc => ?_
    · simp_all [read, isQuote]
    have := hinn (comma hc)
    simp [isTop]
    omega
  | escape c _ ih => exact (ih p b k hinn).escape c rfl
  | @quoted _ q _ _ quote inside _ ih =>
    have hq : q = '"' ∨ q = '\'' := by simpa [isQuote] using quote
    have hin := inside.passes (s := ⟨some q, false, p, b, k⟩) ⟨rfl, rfl⟩
    refine .group (r := ⟨some q, false, p, b, k⟩) ?_ ?_ ?_ ?_ hin (ih p b k hinn) <;> rcases hq with rfl | rfl <;>
      simp [read, isQuote]
  | bracketed pair _ _ ihu iht =>
    simp only [brackets, mem_cons, Prod.mk.injEq, not_mem_nil, or_false] at pair
    obtain ⟨rfl, rfl⟩ | ⟨rfl, rfl⟩ | ⟨rfl, rfl⟩ := pair
    · exact .group rfl rfl (by decide) (by decide) (ihu (p + 1) b k fun _ => by omega) (iht p b k hinn)
    · exact .group rfl rfl (by decide) (by decide) (ihu p b (k + 1) fun _ => by omega) (iht p b k hinn)
    · exact .group rfl rfl (by decide) (by decide) (ihu p (b + 1) k fun _ => by omega) (iht p b k hinn)

lemma closed_of_blank (h : ∀ c ∈ t, isBlank c) : Closed ',' t := by
  have hpass : Passes top t := by
    induction t with
    | nil => exact ⟨rfl, rfl⟩
    | cons c t ih =>
      have hc := of_isBlank (p := fun c => top.read c == top && c != ',') rfl (h c (by simp))
      simp only [Bool.and_eq_true, beq_iff_eq, bne_iff_ne] at hc
      exact (ih fun d hd => h d (by simp [hd])).cons hc.1 fun heq => absurd heq hc.2
  exact ⟨hpass.back, hpass.skips⟩

lemma splitTopFrom_joinWith {ts : List Text} (hne : ts ≠ []) (h : ∀ t ∈ ts, Closed ',' t) :
    splitTopFrom ',' top [] (joinWith [','] ts) = ts := by
  induction ts with
  | nil => exact absurd rfl hne
  | cons t ts ih =>
    have ht := h t (by simp)
    cases ts with
    | nil =>
      have hlast : splitTopFrom ',' top [] (t ++ []) = _ := splitTopFrom_append ht.skips
      simpa [joinWith, splitTopFrom] using hlast
    | cons t' ts =>
      have hjoin : joinWith [','] (t :: t' :: ts) = t ++ (',' :: joinWith [','] (t' :: ts)) := by simp [joinWith]
      have hcomma : top.read ',' = top := rfl
      rw [hjoin, splitTopFrom_append ht.skips, ht.back, splitTopFrom, if_pos (by decide), hcomma,
        ih (by simp) fun u hu => h u (by simp [hu])]
      simp

/-- Parted arguments are read back: if each closes its quotes and brackets and has no comma outside them, commas
with any white space around them part it from the others. -/
theorem splitTop_parted (ps : List (Text × Text × Text)) (hnest : ∀ p ∈ ps, Nested false p.2.1)
    (hbl : ∀ p ∈ ps, ∀ c ∈ p.1 ++ p.2.2, isBlank c) (htrim : ∀ p ∈ ps, p.2.1 ≠ [] ∧ trim p.2.1 = p.2.1) :
    splitTop ',' (joinWith [','] (ps.map fun p => p.1 ++ (p.2.1 ++ p.2.2))) = ps.map fun p => p.2.1 := by
  rcases eq_or_ne ps [] with rfl | hne
  · rfl
  have hcld : ∀ t ∈ ps.map fun p => p.1 ++ (p.2.1 ++ p.2.2), Closed ',' t := forall_mem_map.mpr fun p hp => by
    have hgaps := forall_mem_append.mp (hbl p hp)
    have hpass := (hnest p hp).passes 0 0 0 (by simp)
    exact (closed_of_blank hgaps.1).append (.append ⟨hpass.back, hpass.skips⟩ (closed_of_blank hgaps.2))
  have htrims : (ps.map fun p => p.1 ++ (p.2.1 ++ p.2.2)).map trim = ps.map fun p => p.2.1 := by
    rw [map_map]
    refine map_congr_left fun p hp => ?_
    have hgaps := forall_mem_append.mp (hbl p hp)
    rw [Function.comp_apply, trim_append_left hgaps.1, Text.trim_append_right hgaps.2, (htrim p hp).2]
  rw [splitTop, splitTopFrom_joinWith (by simpa using hne) hcld, htrims, filter_eq_self]
  exact forall_mem_map.mpr fun p hp => by simpa using (htrim p hp).1

theorem splitTop_parted_call : splitTop ',' "(',',a)\n, \\\"" = ["(',',a)".toList, "\\\""] := by
  have hcall : Nested false "(',',a)" := .bracketed (o := '(') (u := "',',a") (by decide)
    (.quoted (q := '\'') (u := ",") rfl (.char (by decide) (by decide) .nil)
      (.char (by decide) (by decide) (.char (by decide) (by decide) (.nil _)))) (.nil _)
  exact splitTop_parted [([], "(',',a)", "\n"), (" ", "\\\"", [])]
    (forall_mem_cons.mpr ⟨hcall, forall_mem_singleton.mpr (.escape _ (.nil _))⟩)
    (forall_mem_cons.mpr ⟨List.all_eq_true.mp rfl, forall_mem_singleton.mpr (List.all_eq_true.mp rfl)⟩) (by decide)

end BlockScript.Nesting
