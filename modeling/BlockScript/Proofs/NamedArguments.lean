import Mathlib.Data.List.DropRight
import BlockScript.Action.Arguments
import BlockScript.Action.Value
import BlockScript.Proofs.Tables

/-!
# Reading arguments back

Arguments written by name, joined by commas, are read back as they were written: `Arguments.ofText_joinWith`.
What makes this work is that a reader comes back to where it was: a wrapped value opens a parenthesis and closes it,
and no separator inside counts.
-/

open List
namespace BlockScript
open Text
open Nesting (top)
namespace Text
variable {t u : Text} {c d : Char}

/-! ### Trimming -/

lemma isBlank_ends_trim (t : Text) : (∀ c, (trim t).head? = some c → isBlank c = false)
    ∧ ∀ d, (trim t).getLast? = some d → isBlank d = false := by
  obtain ⟨u, hu⟩ : trim t <+: t.dropWhile isBlank := rdropWhile_prefix isBlank _
  constructor
  · intro c hc
    have hfst := head?_dropWhile_not isBlank t
    rw [← hu, head?_append, hc] at hfst
    exact hfst
  intro d hd
  have hne : trim t ≠ [] := by
    intro h
    simp [h] at hd
  have hlast : ¬ isBlank ((trim t).getLast hne) := rdropWhile_last_not isBlank (t.dropWhile isBlank) hne
  rw [getLast?_eq_some_getLast hne] at hd
  simpa [Option.some.inj hd] using hlast

lemma trim_self_iff : trim t = t ↔
    (∀ c, t.head? = some c → isBlank c = false) ∧ ∀ d, t.getLast? = some d → isBlank d = false := by
  constructor
  · intro h
    rw [← h]
    exact isBlank_ends_trim t
  rintro ⟨hhead, hlast⟩
  have hfr : t.dropWhile isBlank = t := by
    cases t with
    | nil => rfl
    | cons a t => exact dropWhile_cons_of_neg (by simp [hhead a rfl])
  rw [trim, trimBy, hfr]
  exact rdropWhile_eq_self_iff.mpr fun hne => by simp [hlast _ (getLast?_eq_some_getLast hne)]

lemma trim_self (hc : t.head? = some c) (hd : t.getLast? = some d) (hc' : isBlank c = false)
    (hd' : isBlank d = false) : trim t = t := trim_self_iff.mpr (by simp [hc, hd, hc', hd'])

lemma trim_of_not_blank (h : ∀ c ∈ t, isBlank c = false) : trim t = t :=
  trim_self_iff.mpr ⟨fun c hc => h c (mem_of_mem_head? hc), fun d hd => h d (mem_of_getLast? hd)⟩

lemma trim_append_left (h : ∀ c ∈ u, isBlank c) : trim (u ++ t) = trim t := by
  rw [trim, trim, trimBy, trimBy, dropWhile_append_of_pos h]

/-- A character that neither opens nor closes anything, escapes nothing and ends no line. -/
def isPlainChar (c : Char) : Bool :=
  !(['"', '\'', '\\', '(', ')', '[', ']', '\x7b', '\x7d', '\n'].contains c)

/-- A text without quotes, brackets, backslashes and line ends, such as the name of a variable. -/
def isPlain (t : Text) : Bool := t.all isPlainChar

@[simp] lemma isPlain_append : isPlain (t ++ u) = (isPlain t && isPlain u) := by simp [isPlain]

@[simp] lemma isPlain_cons : isPlain (c :: t) = (isPlainChar c && isPlain t) := rfl

@[simp] lemma isPlain_nil : isPlain [] = true := rfl

end Text

/-! ### Readers that come back -/

namespace Nesting
variable {s : Nesting} {t u : Text} {c sep : Char}

/-- No `sep` of the text stands outside quotes and brackets, for a reader that begins in the state `s`. -/
def skips (sep : Char) : Nesting → Text → Bool
  | _, [] => true
  | s, c :: t => !(c == sep && s.isTop) && skips sep (s.read c) t

@[simp] lemma readAll_nil : s.readAll [] = s := rfl

@[simp] lemma readAll_cons : s.readAll (c :: t) = (s.read c).readAll t := rfl

lemma readAll_append : s.readAll (t ++ u) = (s.readAll t).readAll u := foldl_append

lemma skips_append : skips sep s (t ++ u) = (skips sep s t && skips sep (s.readAll t) u) := by
  induction t generalizing s with
  | nil => rfl
  | cons c t ih => simp [skips, ih, Bool.and_assoc]

lemma skips_of_notMem (h : sep ∉ t) : skips sep s t := by
  induction t generalizing s with
  | nil => rfl
  | cons c t ih =>
    rw [mem_cons, not_or] at h
    simp [skips, ih h.2, Ne.symm h.1]

def inParens (n : Nat) : Nesting := ⟨none, false, n, 0, 0⟩

lemma read_of_plainChar (n : Nat) (h : isPlainChar c) : (inParens n).read c = inParens n := by
  have hne : ∀ d ∈ ['"', '\'', '\\', '(', ')', '[', ']', '\x7b', '\x7d', '\n'], c ≠ d := by
    rintro d hd rfl
    simp [isPlainChar, hd] at h
  simp only [forall_mem_cons] at hne
  simp only [read, inParens, isQuote]
  simp_all

lemma readAll_of_plain (n : Nat) (h : isPlain t) : (inParens n).readAll t = inParens n := by
  induction t with
  | nil => rfl
  | cons c t ih =>
    obtain ⟨hc, ht⟩ : isPlainChar c ∧ isPlain t := by simpa using h
    rw [readAll_cons, read_of_plainChar n hc, ih ht]

lemma skips_of_plain (n : Nat) (h : isPlain t) (hsep : n = 0 → sep ∉ t) : skips sep (inParens n) t := by
  induction t with
  | nil => rfl
  | cons c t ih =>
    obtain ⟨hc, ht⟩ : isPlainChar c ∧ isPlain t := by simpa using h
    rw [skips, read_of_plainChar n hc, ih ht fun hn => by simp_all]
    by_cases hn : n = 0
    · have : c ≠ sep := by
        rintro rfl
        simp_all
      simp [this]
    · simp [isTop, inParens, hn]

def Inside (t : Text) : Prop :=
  ∀ n, 0 < n → (inParens n).readAll t = inParens n ∧ ∀ sep, skips sep (inParens n) t

lemma Inside.of_isPlain (h : isPlain t) : Inside t := fun n hn =>
  ⟨readAll_of_plain n h, fun _ => skips_of_plain n h (by omega)⟩

lemma Inside.append (ht : Inside t) (hu : Inside u) : Inside (t ++ u) := by
  intro n hn
  refine ⟨by rw [readAll_append, (ht n hn).1, (hu n hn).1], fun sep => ?_⟩
  rw [skips_append, (ht n hn).1, (ht n hn).2, (hu n hn).2]
  rfl

/-- The reader comes back to the outside, and meets no `sep` there. -/
structure Closed (sep : Char) (t : Text) : Prop where
  back : top.readAll t = .top
  skips : skips sep .top t

lemma Closed.of_isPlain (h : isPlain t) (hsep : sep ∉ t) : Closed sep t :=
  ⟨readAll_of_plain 0 h, skips_of_plain 0 h fun _ => hsep⟩

lemma Closed.append (ht : Closed sep t) (hu : Closed sep u) : Closed sep (t ++ u) where
  back := by rw [readAll_append, ht.back, hu.back]
  skips := by rw [skips_append, ht.back, ht.skips, hu.skips]; rfl

lemma Inside.parens (h : Inside t) : Inside ("(" ++ t ++ ")") := by
  intro n hn
  have hopen : (inParens n).read '(' = inParens (n + 1) := rfl
  have hcl : (inParens (n + 1)).read ')' = inParens n := rfl
  obtain ⟨hback, hsk⟩ := h (n + 1) (by omega)
  have hntop m : 0 < m → (inParens m).isTop = false := by
    intro hm
    simp [isTop, inParens, Nat.ne_of_gt hm]
  refine ⟨?_, fun sep => ?_⟩
  · change (((inParens n).read '(').readAll (t ++ [')'])) = _
    rw [hopen, readAll_append, hback, readAll_cons, hcl, readAll_nil]
  change (skips sep (inParens n) ('(' :: (t ++ [')']))) = true
  rw [skips, hopen, skips_append, hsk, hback, hntop n hn]
  simp [skips, hntop (n + 1)]

lemma Closed.parens (h : Inside t) (hsep : sep ≠ '(') : Closed sep ("(" ++ t ++ ")") := by
  have hopen : top.read '(' = inParens 1 := rfl
  have hcl : (inParens 1).read ')' = .top := rfl
  obtain ⟨hback, hsk⟩ := h 1 Nat.one_pos
  constructor
  · change ((top.read '(').readAll (t ++ [')'])) = _
    rw [hopen, readAll_append, hback, readAll_cons, hcl, readAll_nil]
  change (Nesting.skips sep .top ('(' :: (t ++ [')']))) = true
  rw [Nesting.skips, hopen, skips_append, hsk, hback]
  have hne : ('(' == sep) = false := by simpa using hsep.symm
  simp [Nesting.skips, hne, isTop, inParens]

end Nesting

/-! ### Cutting at separators -/

namespace Text
open Nesting
variable {s : Nesting} {t u part before : Text} {ts : List Text} {sep : Char}

lemma joinWith_cons (sep t : Text) (ts : List Text) : joinWith sep (t :: ts) = t ++ ts.flatMap (sep ++ ·) := by
  induction ts generalizing t with
  | nil => simp [joinWith]
  | cons u ts ih =>
    change t ++ sep ++ joinWith sep (u :: ts) = _
    rw [ih, flatMap_cons, append_assoc, append_assoc]

lemma skips_cons {c : Char} : skips sep s (c :: t) ↔ (c == sep && s.isTop) = false ∧ skips sep (s.read c) t := by
  simp only [skips, Bool.and_eq_true, Bool.not_eq_true']

lemma splitTopFrom_append (h : skips sep s t) :
    splitTopFrom sep s part (t ++ u) = splitTopFrom sep (s.readAll t) (t.reverse ++ part) u := by
  induction t generalizing s part with
  | nil => rfl
  | cons c t ih =>
    obtain ⟨hc, ht⟩ := skips_cons.mp h
    rw [cons_append, splitTopFrom, hc, if_neg Bool.false_ne_true, ih ht]
    simp

lemma cutTopFrom?_append (h : skips sep s t) :
    cutTopFrom? sep s before (t ++ u) = cutTopFrom? sep (s.readAll t) (t.reverse ++ before) u := by
  induction t generalizing s before with
  | nil => rfl
  | cons c t ih =>
    obtain ⟨hc, ht⟩ := skips_cons.mp h
    rw [cons_append, cutTopFrom?, hc, ih ht]
    simp

lemma cutTop?_append (h : Closed sep t) : cutTop? sep (t ++ sep :: u) = some (t, u) := by
  rw [cutTop?, cutTopFrom?_append h.skips, h.back, cutTopFrom?, if_pos (by simp [isTop, top])]
  simp

-- the blank behind a comma belongs to the next part until the parts are trimmed; the last part need not come back
lemma map_trim_splitTopFrom (hne : ts ≠ []) (hsk : ∀ t ∈ ts, skips ',' .top t)
    (hback : ∀ t ∈ ts.dropLast, top.readAll t = .top) (hpart : ∀ c ∈ part, isBlank c) :
    (splitTopFrom ',' .top part (joinWith ", " ts)).map trim = ts.map trim := by
  have hbl : ∀ c ∈ part.reverse, isBlank c := by simpa using hpart
  induction ts generalizing part with
  | nil => exact absurd rfl hne
  | cons t ts ih =>
    have ht := hsk t (by simp)
    have hhead : trim (part.reverse ++ t) = trim t := trim_append_left hbl
    cases ts with
    | nil =>
      have h : splitTopFrom ',' .top part (t ++ []) = _ := splitTopFrom_append ht
      rw [append_nil] at h
      simp [joinWith, h, splitTopFrom, hhead]
    | cons t' ts =>
      have hrest : (splitTopFrom ',' .top [' '] (joinWith ", " (t' :: ts))).map trim = (t' :: ts).map trim :=
        ih (by simp) (fun t h => hsk t (by simp [h])) (fun t h => hback t (by simp [h])) (by simp [isBlank])
          (by simp [isBlank])
      have hcomma : top.read ',' = .top := rfl
      have hspace : top.read ' ' = .top := rfl
      have hjoin : joinWith ", " (t :: t' :: ts) = t ++ (',' :: ' ' :: joinWith ", " (t' :: ts)) := by
        simp [joinWith]
      rw [hjoin, splitTopFrom_append ht, hback t (by simp), splitTopFrom, if_pos (by simp [isTop, top]), hcomma,
        splitTopFrom, if_neg (by simp), hspace, map_cons, hrest]
      simp [hhead]

lemma splitTop_joinWith (hsk : ∀ t ∈ ts, skips ',' .top t) (hback : ∀ t ∈ ts.dropLast, top.readAll t = .top)
    (htrim : ∀ t ∈ ts, trim t = t) (hne : ∀ t ∈ ts, t ≠ []) : splitTop ',' (joinWith ", " ts) = ts := by
  cases ts with
  | nil => rfl
  | cons t ts =>
    have hsame : (t :: ts).map trim = t :: ts := (map_congr_left htrim).trans (map_id _)
    rw [splitTop, map_trim_splitTopFrom (by simp) hsk hback (by simp), hsame, filter_eq_self]
    intro u hu
    simpa using hne u hu

end Text

/-! ### Arguments by name -/

namespace Arguments
open Nesting

def written (a : Text × Text) : Text := a.1 ++ "=" ++ a.2

/-- An argument read back as it is written: its name has no blank, comma or equals sign, and its value no comma
outside quotes and brackets. -/
structure Readable (a : Text × Text) : Prop where
  name_ne : a.1 ≠ []
  name_plain : Text.isPlain a.1
  name_chars : ∀ c ∈ a.1, isBlank c = false ∧ c ≠ ',' ∧ c ≠ '='
  value_ne : a.2 ≠ []
  value_trim : Text.trim a.2 = a.2
  value_skips : skips ',' .top a.2

namespace Readable
variable {a : Text × Text}

lemma trim_name (h : Readable a) : trim a.1 = a.1 := trim_of_not_blank fun c hc => (h.name_chars c hc).1

lemma closed_name (h : Readable a) (sep : Char) (hsep : sep = ',' ∨ sep = '=') : Closed sep a.1 :=
  .of_isPlain h.name_plain fun hmem => by
    rcases hsep with rfl | rfl
    · exact (h.name_chars _ hmem).2.1 rfl
    · exact (h.name_chars _ hmem).2.2 rfl

lemma closed_front (h : Readable a) : Closed ',' (a.1 ++ "=") :=
  (h.closed_name ',' (.inl rfl)).append (.of_isPlain rfl (by decide))

lemma skips_written (h : Readable a) : skips ',' .top (written a) := by
  rw [written, skips_append, h.closed_front.back, h.closed_front.skips, h.value_skips]
  rfl

lemma back_written (h : Readable a) (hback : top.readAll a.2 = .top) : top.readAll (written a) = .top := by
  rw [written, readAll_append, h.closed_front.back, hback]

lemma trim_written (h : Readable a) : trim (written a) = written a := by
  obtain ⟨c, t, hc⟩ := exists_cons_of_ne_nil h.name_ne
  obtain ⟨d, hd⟩ := getLast?_isSome.mpr h.value_ne |> Option.isSome_iff_exists.mp
  refine trim_self (by simp [written, hc]) ?_ (h.name_chars c (by simp [hc])).1
    ((trim_self_iff.mp h.value_trim).2 d hd)
  rw [written, getLast?_append, hd, Option.some_or]

lemma isQuoted_written (h : Readable a) : isQuoted (written a) = false := by
  obtain ⟨c, t, hc⟩ := exists_cons_of_ne_nil h.name_ne
  have hpl : isPlainChar c := by
    have := h.name_plain
    simp_all
  have h₁ : c ≠ '"' := by
    rintro rfl
    simp [isPlainChar] at hpl
  have h₂ : c ≠ '\'' := by
    rintro rfl
    simp [isPlainChar] at hpl
  simp [isQuoted, written, hc, h₁, h₂]

lemma add_written (h : Readable a) (as : Arguments) :
    as.add (written a) = { as with named := as.named.set a.1 a.2 } := by
  have hcut : cutTop? '=' (written a) = some (a.1, a.2) := by
    rw [written, append_assoc]
    exact cutTop?_append (h.closed_name '=' (.inr rfl))
  simp [add, h.isQuoted_written, hcut, h.trim_name, h.value_trim]

end Readable
variable {args : List (Text × Text)}

lemma foldl_add_written (h : ∀ a ∈ args, Readable a) (hnd : (args.map (·.1)).Nodup) (as : Arguments)
    (hdisj : ∀ a ∈ args, a.1 ∉ Table.names as.named) :
    (args.map written).foldl add as = { as with named := as.named ++ args } := by
  induction args generalizing as with
  | nil => simp
  | cons a args ih =>
    obtain ⟨hnew, hnd⟩ := nodup_cons.mp hnd
    rw [map_cons, foldl_cons, (h a (by simp)).add_written, Table.set_of_notMem (hdisj a (by simp))]
    rw [ih (fun b hb => h b (by simp [hb])) hnd]
    · simp
    intro b hb hmem
    have hcases : b.1 ∈ Table.names as.named ∨ b.1 = a.1 := by simpa [Table.names] using hmem
    rcases hcases with hold | heq
    · exact hdisj b (by simp [hb]) hold
    · exact hnew (mem_map.mpr ⟨b, hb, heq⟩)

/-- Arguments written by name are read back. -/
theorem ofText_joinWith (h : ∀ a ∈ args, Readable a) (hback : ∀ a ∈ args.dropLast, top.readAll a.2 = .top)
    (hnd : (args.map (·.1)).Nodup) : ofText (joinWith ", " (args.map written)) = ⟨args, []⟩ := by
  have hspl : splitTop ',' (joinWith ", " (args.map written)) = args.map written := by
    apply splitTop_joinWith
    · exact forall_mem_map.mpr fun a ha => (h a ha).skips_written
    · rw [← map_dropLast]
      exact forall_mem_map.mpr fun a ha => (h a (dropLast_subset _ ha)).back_written (hback a ha)
    · exact forall_mem_map.mpr fun a ha => (h a ha).trim_written
    · exact forall_mem_map.mpr fun a _ => by simp [written]
  rw [ofText, hspl, foldl_add_written h hnd _ (by simp [Table.names])]
  simp

lemma dropEmpty_self (h : ∀ a ∈ args, Readable a) (pos : List Text) : dropEmpty ⟨args, pos⟩ = ⟨args, pos⟩ := by
  have : args.filter (fun e => !(trim e.2).isEmpty) = args := by
    rw [filter_eq_self]
    intro a ha
    simpa [(h a ha).value_trim] using (h a ha).value_ne
  simp [dropEmpty, this]

end Arguments
end BlockScript
