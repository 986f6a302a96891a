import BlockScript.Proofs.LetterCase
import BlockScript.Proofs.Nested
import BlockScript.Proofs.Searching
import BlockScript.Tier

/-!
# The tier that a source needs

The tier is found by a search for calls in the text of one source. Every call written there is found, wherever it
stands (`mem_calls`), and the tier is the highest that the rules give to an action called (`le_level_ofCalls_iff`).
What the source does in any other way, and what it takes from other sources, is not seen.
-/

open List
namespace BlockScript.Tier
open Pattern Text
open Requirement (ofCalls)

/-- A call as it is written, with the white space inside. -/
structure Call where
  module : Text
  gap₁ : Text
  gap₂ : Text
  action : Text
  gap₃ : Text

namespace Call

def front (c : Call) : Text := c.module ++ c.gap₁

def back (c : Call) : Text := c.gap₂ ++ (c.action ++ c.gap₃)

def text (c : Call) : Text := c.front ++ '.' :: (c.back ++ ['('])

end Call

def IsName : Text → Prop
  | [] => False
  | c :: t => isLetter c ∧ ∀ d ∈ t, isNamePart d

instance : DecidablePred IsName
  | [] => inferInstanceAs (Decidable False)
  | c :: t => decidable_of_iff (isLetter c ∧ t.all isNamePart) (by simp [IsName])

/-- The parts of the call are names and white space. -/
structure Call.IsWritten (c : Call) : Prop where
  module : IsName c.module
  gap₁ : ∀ d ∈ c.gap₁, isBlank d
  gap₂ : ∀ d ∈ c.gap₂, isBlank d
  action : IsName c.action
  gap₃ : ∀ d ∈ c.gap₃, isBlank d

variable {c d : Call} {t u v x y : Text}

lemma IsName.isNamePart (h : IsName t) : ∀ c ∈ t, isNamePart c := by
  cases t with
  | nil => simp
  | cons c t => exact forall_mem_cons.mpr ⟨by simp [Tier.isNamePart, h.1], h.2⟩

/-- The text does not end in a name, so that a name behind it begins there. -/
def EndsOpen (t : Text) : Prop := ∀ u, u <:+ t → ¬ IsName u

lemma EndsOpen.append (h : EndsOpen t) (hlast : ∀ c, u.getLast? = some c → isNamePart c = false) :
    EndsOpen (u ++ t) := by
  rintro v ⟨w, hw⟩ hnm
  rcases append_eq_append_iff.mp hw with ⟨r, rfl, rfl⟩ | ⟨r, -, rfl⟩
  · rcases eq_nil_or_concat r with rfl | ⟨r, c, rfl⟩
    · exact h _ suffix_rfl hnm
    have hc := hnm.isNamePart c (by simp)
    simp [hlast c (by simp)] at hc
  · exact h v (suffix_append r v) hnm

lemma endsOpen_of_last (hlast : ∀ c, u.getLast? = some c → isNamePart c = false) : EndsOpen u := by
  have hnil : EndsOpen [] := fun v hv => by
    rw [suffix_nil.mp hv]
    exact id
  exact append_nil u ▸ hnil.append hlast

lemma isNamePart_of_blank {c : Char} (h : isBlank c) : isNamePart c = false := by
  simpa using of_isBlank (p := (!isNamePart ·)) (by decide +kernel) h

lemma not_isNamePart_head {b : Text} (h : ∀ d ∈ b, isBlank d) : ∀ d, b.head? = some d → isNamePart d = false :=
  fun d hd => isNamePart_of_blank (h d (mem_of_mem_head? hd))

lemma spells_namePattern {g g' : Groups} : namePattern.Spells t g g' ↔ IsName t ∧ g' = g := by
  constructor
  · rintro ⟨_, u, _, rfl, ⟨c, hc, rfl, rfl⟩, hu, rfl⟩
    exact ⟨⟨hc, hu⟩, rfl⟩
  rintro ⟨ht, rfl⟩
  cases t with
  | nil => exact ht.elim
  | cons c u => exact ⟨[c], u, _, rfl, ⟨c, ht.1, rfl, rfl⟩, ht.2, rfl⟩

lemma takes_callPattern {s s' : Place} {g g' : Groups} : callPattern.Takes s g s' g' ↔
    ∃ c : Call, c.IsWritten ∧ Reads s c.text s' ∧ g' = (2, c.action) :: (1, c.module) :: g := by
  rw [takes_iff (w := false) rfl nofun]
  simp only [callPattern, Pattern.blanks, spells_seq, spells_lit, spells_namePattern]
  constructor
  · rintro ⟨_, hr, m, _, _, rfl, ⟨hm, rfl⟩, b₁, _, rfl, hb₁, _, rfl, b₂, _, rfl, hb₂, a, _, _, rfl, ⟨ha, rfl⟩, b₃,
      _, rfl, hb₃,
      rfl, rfl⟩
    exact ⟨⟨m, b₁, b₂, a, b₃⟩, ⟨hm, hb₁, hb₂, ha, hb₃⟩, by simpa [Call.text, Call.front, Call.back] using hr, rfl⟩
  rintro ⟨⟨m, b₁, b₂, a, b₃⟩, hc, hr, rfl⟩
  exact ⟨_, hr, m, _, g, by simp [Call.text, Call.front, Call.back], ⟨hc.module, rfl⟩, b₁, _, rfl, hc.gap₁, _,
    rfl, b₂, _, rfl,
    hc.gap₂, a, _, _, rfl, ⟨hc.action, rfl⟩, b₃, _, rfl, hc.gap₃, rfl, rfl⟩

/-! ### Calls do not overlap -/

namespace Call.IsWritten

lemma ne_marks {e : Char} (h : isNamePart e ∨ isBlank e) : e ≠ '.' ∧ e ≠ '(' := by
  have hmark : ['.', '('].all fun e => !isNamePart e && !isBlank e := rfl
  simp only [all_cons, Bool.and_eq_true, Bool.not_eq_true'] at hmark
  constructor
  · rintro rfl
    simp [hmark] at h
  rintro rfl
  simp [hmark] at h

lemma front_chars (hc : c.IsWritten) : ∀ e ∈ c.front, e ≠ '.' ∧ e ≠ '(' := by
  intro e he
  rcases mem_append.mp he with he | he
  · exact ne_marks (.inl (hc.module.isNamePart e he))
  · exact ne_marks (.inr (hc.gap₁ e he))

lemma back_chars (hc : c.IsWritten) : ∀ e ∈ c.back, e ≠ '.' ∧ e ≠ '(' := by
  intro e he
  rcases mem_append.mp he with he | he
  · exact ne_marks (.inr (hc.gap₂ e he))
  rcases mem_append.mp he with he | he
  · exact ne_marks (.inl (hc.action.isNamePart e he))
  · exact ne_marks (.inr (hc.gap₃ e he))

lemma front_eq (hc : c.IsWritten) (hd : d.IsWritten) (h : v ++ (c.front ++ '.' :: c.back) = d.front ++ '.' :: d.back) :
    d.front = v ++ c.front ∧ d.back = c.back := by
  have hrev := congrArg List.reverse h
  simp only [reverse_append, reverse_cons, append_assoc] at hrev
  obtain ⟨hback, hfr⟩ := append_inj_of_head (p := (· != '.'))
    (fun e he => by simpa using (hc.back_chars e (mem_reverse.mp he)).1)
    (fun e he => by simpa using (hd.back_chars e (mem_reverse.mp he)).1) (by simp) (by simp) hrev
  refine ⟨?_, (reverse_inj.mp hback).symm⟩
  have := (cons.inj hfr).2
  rw [← reverse_append] at this
  exact (reverse_inj.mp this).symm

lemma ends_before (hc : c.IsWritten) (hd : d.IsWritten) (h : v ++ (c.text ++ x) = d.text ++ y) :
    (∃ z, v = d.text ++ z) ∨ d.front = v ++ c.front ∧ d.back = c.back := by
  have htext : ∀ c : Call, c.text = (c.front ++ '.' :: c.back) ++ ['('] := fun c => by simp [Call.text]
  rcases append_eq_append_iff.mp h with ⟨r, hdr, hr⟩ | ⟨z, hz, -⟩
  · rcases eq_nil_or_concat r with rfl | ⟨r, e, rfl⟩
    · exact .inl ⟨[], by simpa using hdr.symm⟩
    rw [concat_eq_append, htext, ← append_assoc] at hdr
    obtain ⟨hhead, he⟩ := append_inj' hdr rfl
    obtain rfl : '(' = e := by simpa using he
    have hopen (d : Call) : d.IsWritten → ∀ e ∈ d.front ++ '.' :: d.back, (e != '(') = true := by
      intro hd e he
      rcases mem_append.mp he with he | he
      · simpa using (hd.front_chars e he).2
      rcases mem_cons.mp he with rfl | he
      · decide
      · simpa using (hd.back_chars e he).2
    have hcut : (c.front ++ '.' :: c.back) ++ '(' :: x = r ++ '(' :: y := by simpa [htext] using hr
    have hr : ∀ e ∈ r, (e != '(') = true := fun e he => hopen d hd e (by rw [hhead]; exact mem_append_right v he)
    obtain ⟨rfl, -⟩ := append_inj_of_head (hopen c hc) hr (by simp) (by simp) hcut
    exact .inr (front_eq hc hd hhead.symm)
  · exact .inl ⟨z, hz⟩

lemma names_eq (hc : c.IsWritten) (hd : d.IsWritten) (hfr : d.front = c.front) (hback : d.back = c.back) :
    d.module = c.module ∧ d.action = c.action := by
  have hbl {c : Call} : c.IsWritten → ∀ e, (c.action ++ c.gap₃).head? = some e → isBlank e = false := by
    intro hc e he
    obtain ⟨m, b₁, b₂, a, b₃⟩ := c
    cases a with
    | nil => exact hc.action.elim
    | cons f a =>
      obtain rfl : f = e := by simpa using he
      rw [← Bool.not_eq_true]
      intro hf
      simpa [isNamePart_of_blank hf] using hc.action.isNamePart f (by simp)
  refine ⟨(append_inj_of_head hd.module.isNamePart hc.module.isNamePart (not_isNamePart_head hd.gap₁)
    (not_isNamePart_head hc.gap₁) hfr).1, ?_⟩
  have hrest := (append_inj_of_head hd.gap₂ hc.gap₂ (hbl hd) (hbl hc) hback).2
  exact (append_inj_of_head hd.action.isNamePart hc.action.isNamePart (not_isNamePart_head hd.gap₃)
    (not_isNamePart_head hc.gap₃) hrest).1

lemma front_ne (hc : c.IsWritten) (hd : d.IsWritten) (hv : v ≠ []) (hend : EndsOpen v) : d.front ≠ v ++ c.front := by
  intro h
  rcases append_eq_append_iff.mp h with ⟨r, -, hgap⟩ | ⟨r, hr, -⟩
  · obtain ⟨e, m, hm⟩ := exists_cons_of_ne_nil (fun h => by simpa [h, IsName] using hc.module : c.module ≠ [])
    have he : isBlank e := hd.gap₁ e (by simp [hgap, Call.front, hm])
    simpa [isNamePart_of_blank he] using hc.module.isNamePart e (by simp [hm])
  obtain ⟨e, v, rfl⟩ := exists_cons_of_ne_nil hv
  have hnm := hr ▸ hd.module
  exact hend _ suffix_rfl ⟨hnm.1, fun f hf => hnm.2 f (mem_append_left r hf)⟩

end Call.IsWritten

/-! ### The search finds every call -/

lemma Call.text_ne_nil (c : Call) : c.text ≠ [] := by simp [Call.text]

lemma group_of_groups {m : Match} (h : m.groups = [(2, c.action), (1, c.module)]) :
    m.group 1 = c.module ∧ m.group 2 = c.action := by
  simp [Pattern.Match.group, Pattern.Match.group?, h, lookup_cons]

lemma Call.IsWritten.exists_search (hc : c.IsWritten) (n : Nat) (l : Option Char) (u x : Text) (advance : Bool) :
    ∃ m before between, u = before ++ between ∧ callPattern.searchFrom advance n l (u ++ (c.text ++ x)) = some m
      ∧ m.start.rest = between ++ (c.text ++ x) := by
  have htak : callPattern.Takes ⟨n + u.length, u.getLast?.or l, c.text ++ x⟩ []
      ⟨n + u.length + c.text.length, c.text.getLast?.or (u.getLast?.or l), x⟩ [(2, c.action), (1, c.module)] :=
    takes_callPattern.mpr ⟨c, hc, ⟨rfl, rfl, rfl⟩, rfl⟩
  exact exists_searchFrom htak (Nat.lt_add_of_pos_right (length_pos_of_ne_nil c.text_ne_nil)) advance

/-- The induction is on the number of calls that are still looked for. The first match is this call, or it ends before
it and the search goes on. -/
lemma mem_findAllFrom (hc : c.IsWritten) {fuel : Nat} (hfuel : u.length < fuel) (hopen : EndsOpen u) (advance : Bool)
    {s : Place} (hs : s.rest = u ++ (c.text ++ x)) :
    ∃ m ∈ callPattern.findAllFrom fuel advance s, m.group 1 = c.module ∧ m.group 2 = c.action := by
  induction fuel generalizing u advance s with
  | zero => omega
  | succ fuel ih =>
    obtain ⟨m, before, between, rfl, hsrch, hst⟩ := hc.exists_search s.pos s.last u x advance
    rw [Pattern.findAllFrom, hs, hsrch]
    obtain ⟨d, hd, hrd, hgrp⟩ := takes_callPattern.mp (takes_of_searchFrom hsrch)
    have hgroup := group_of_groups hgrp
    have hcut : between ++ (c.text ++ x) = d.text ++ m.stop.rest := hst.symm.trans hrd.rest
    have hbet : EndsOpen between := fun v hv => hopen v (hv.trans (suffix_append before between))
    rcases hc.ends_before hd hcut with ⟨z, rfl⟩ | ⟨hfr, hback⟩
    · have hz : m.stop.rest = z ++ (c.text ++ x) := by
        rw [append_assoc] at hcut
        exact (append_cancel_left hcut).symm
      have hlen := length_pos_of_ne_nil d.text_ne_nil
      simp only [length_append] at hfuel
      obtain ⟨m', hm', hnms⟩ := ih (by omega) (fun v hv => hbet v (hv.trans (suffix_append d.text z))) m.isEmpty hz
      exact ⟨m', mem_cons_of_mem m hm', hnms⟩
    rcases eq_or_ne between [] with rfl | hne
    · obtain ⟨hmod, hact⟩ := hc.names_eq hd hfr hback
      exact ⟨m, mem_cons_self, hgroup.1.trans hmod, hgroup.2.trans hact⟩
    · exact absurd hfr (hc.front_ne hd hne hbet)

/-- A call found begins where its name begins, since the search goes from left to right. -/
lemma endsOpen_of_search (hc : c.IsWritten) {m : Match} {advance : Bool} {n : Nat} {l : Option Char}
    (h : callPattern.searchFrom advance n l (u ++ (c.text ++ x)) = some m) (hst : m.start.rest = c.text ++ x) :
    EndsOpen u := by
  rintro v ⟨w, rfl⟩ hnm
  have hlong : Call.IsWritten { c with module := v ++ c.module } := by
    refine { hc with module := ?_ }
    cases v with
    | nil => exact hnm.elim
    | cons e v => exact ⟨hnm.1, forall_mem_append.mpr ⟨hnm.2, hc.module.isNamePart⟩⟩
  obtain ⟨m', before, between, -, hsrch, hrest⟩ := hlong.exists_search n l w x advance
  have htext : Call.text { c with module := v ++ c.module } = v ++ c.text := by
    simp [Call.text, Call.front]
    rfl
  rw [htext, ← append_assoc, ← append_assoc, append_assoc (w ++ v), h] at hsrch
  obtain rfl := Option.some.inj hsrch
  rw [hst, htext] at hrest
  have hlen := congrArg List.length hrest
  simp only [length_append] at hlen
  rw [eq_nil_of_length_eq_zero (show v.length = 0 by omega)] at hnm
  exact hnm

/-- The call stands in a text and is seen there: it does not go on to the left. -/
def Call.IsSeenIn (c : Call) (t : Text) : Prop := ∃ before after, t = before ++ (c.text ++ after) ∧ EndsOpen before

lemma exists_of_mem_findAllFrom {m : Match} {fuel : Nat} {advance : Bool} {s : Place}
    (h : m ∈ callPattern.findAllFrom fuel advance s) :
    ∃ c : Call, c.IsWritten ∧ c.IsSeenIn s.rest ∧ m.group 1 = c.module ∧ m.group 2 = c.action := by
  induction fuel generalizing advance s with
  | zero => contradiction
  | succ fuel ih =>
    rw [Pattern.findAllFrom] at h
    split at h
    · contradiction
    next m' hm' =>
      obtain ⟨d, hd, hrd, hgrp⟩ := takes_callPattern.mp (takes_of_searchFrom hm')
      obtain ⟨u, hu⟩ := exists_start_of_searchFrom hm'
      rw [hrd.rest] at hu
      rw [hu] at hm'
      have hopen := endsOpen_of_search hd hm' hrd.rest
      rcases mem_cons.mp h with rfl | h
      · exact ⟨d, hd, ⟨u, _, hu, hopen⟩, group_of_groups hgrp⟩
      obtain ⟨c, hc, ⟨before, after, hrest, hbef⟩, hnms⟩ := ih h
      refine ⟨c, hc, ⟨u ++ d.text ++ before, after, by simp [hu, hrest], hbef.append fun e he => ?_⟩, hnms⟩
      rw [show u ++ d.text = u ++ (d.front ++ '.' :: d.back) ++ ['('] by simp [Call.text], getLast?_concat] at he
      obtain rfl := Option.some.inj he
      rfl

lemma mem_keepFirst {α : Type} [BEq α] [LawfulBEq α] {z : α} {xs : List α} : z ∈ keepFirst xs ↔ z ∈ xs := by
  have hfold : ∀ seen, z ∈ xs.foldl (fun seen x => if seen.contains x then seen else seen ++ [x]) seen
      ↔ z ∈ seen ∨ z ∈ xs := by
    induction xs with
    | nil => simp
    | cons y xs ih =>
      intro seen
      rw [foldl_cons, ih, mem_cons]
      split
      next hy =>
        rw [contains_iff_mem] at hy
        constructor
        · tauto
        rintro (h | rfl | h)
        · exact .inl h
        · exact .inl hy
        · exact .inr h
      next =>
        rw [mem_append, mem_singleton, or_assoc]
  simpa [keepFirst] using hfold []

/-- A source without its comments. -/
def codeOf (source : Text) : Text := joinLines ((lines source).map code)

def Call.name (c : Call) : Text := key c.module ++ "." ++ key c.action

def Call.StandsIn (c : Call) (t : Text) : Prop :=
  ∃ before after, t = before ++ (c.text ++ after) ∧ ∀ e, before.getLast? = some e → isNamePart e = false

lemma mem_calls_iff {source name : Text} : name ∈ calls source ↔
    ∃ c : Call, c.IsWritten ∧ c.IsSeenIn (codeOf source) ∧ name ∈ callNames c.module c.action := by
  rw [calls, mem_keepFirst, mem_flatMap]
  constructor
  · rintro ⟨m, hm, hnm⟩
    obtain ⟨c, hc, hin, hmod, hact⟩ := exists_of_mem_findAllFrom hm
    exact ⟨c, hc, hin, by rwa [← hmod, ← hact]⟩
  rintro ⟨c, hc, ⟨before, after, htext, hopen⟩, hnm⟩
  have hlen : before.length < 2 * (codeOf source).length + 2 := by
    rw [htext, length_append]
    omega
  obtain ⟨m, hm, hmod, hact⟩ := mem_findAllFrom hc hlen hopen false (s := .start (codeOf source)) htext
  exact ⟨m, hm, by rwa [hmod, hact]⟩

lemma mem_calls {source : Text} (hc : c.IsWritten) (hin : c.StandsIn (codeOf source)) (hmod : key c.module ≠ [])
    (hact : key c.action ≠ []) : c.name ∈ calls source := by
  obtain ⟨before, after, htext, hlast⟩ := hin
  refine mem_calls_iff.mpr ⟨c, hc, ⟨before, after, htext, endsOpen_of_last hlast⟩, ?_⟩
  simp [callNames, hmod, hact, Call.name]

/-! ### Sources put together -/

lemma linesFrom_append (line a b : Text) : ∃ gap : List Text,
    linesFrom line (a ++ '\n' :: b) = linesFrom line a ++ (gap ++ lines b) := by
  -- a line end of two characters is not made by the line feed behind the text, but for the text `\r`
  have hstill {c : Char} {t : Text} : (∀ t', c = '\r' → t = '\n' :: t' → False) → (c = '\r' ∧ t = [])
      ∨ ∀ t', c = '\r' → t ++ '\n' :: b = '\n' :: t' → False := by
    intro hne
    cases t with
    | nil => exact or_iff_not_imp_left.mpr fun h t' hc _ => h ⟨hc, rfl⟩
    | cons d t => exact .inr fun t' hc ht => hne t hc (by rw [(cons.inj ht).1])
  fun_induction linesFrom line a with
  | case1 line h => exact ⟨[[]], by simp [isEmpty_iff.mp h]; rfl⟩
  | case2 line h => exact ⟨[], rfl⟩
  | case3 line rest ih =>
    obtain ⟨gap, ih⟩ := ih
    exact ⟨gap, congrArg (line.reverse :: ·) ih⟩
  | case4 line c rest hne hend ih =>
    rcases hstill hne with ⟨rfl, rfl⟩ | hne
    · exact ⟨[], rfl⟩
    obtain ⟨gap, ih⟩ := ih
    exact ⟨gap, by rw [cons_append, linesFrom.eq_3 _ _ _ hne, if_pos hend, ih]; rfl⟩
  | case5 line c rest hne hend ih =>
    rcases hstill hne with ⟨rfl, -⟩ | hne
    · exact absurd rfl hend
    obtain ⟨gap, ih⟩ := ih
    exact ⟨gap, by rw [cons_append, linesFrom.eq_3 _ _ _ hne, if_neg hend, ih]⟩

lemma joinLines_append (xs ys : List Text) : ∃ after : Text, joinLines (xs ++ ys) = joinLines xs ++ after := by
  cases xs with
  | nil => exact ⟨_, rfl⟩
  | cons x xs => exact ⟨_, by rw [cons_append, joinLines, joinLines, joinWith_cons, joinWith_cons,
      flatMap_append, append_assoc]⟩

lemma joinLines_append_cons (xs : List Text) (y : Text) (ys : List Text) : ∃ before : Text,
    joinLines (xs ++ y :: ys) = before ++ joinLines (y :: ys) ∧ ∀ c, before.getLast? = some c → c = '\n' := by
  cases xs with
  | nil => exact ⟨[], rfl, nofun⟩
  | cons x xs =>
    refine ⟨x ++ xs.flatMap (['\n'] ++ ·) ++ ['\n'], ?_, by simp⟩
    simp [joinLines, joinWith_cons]

lemma codeOf_append (a b : Text) : (∃ after, codeOf (a ++ '\n' :: b) = codeOf a ++ after)
    ∧ (codeOf b = [] ∨ ∃ before, codeOf (a ++ '\n' :: b) = before ++ codeOf b ∧ ∀ c, before.getLast? = some c → c
      = '\n') := by
  obtain ⟨gap, hls⟩ := linesFrom_append [] a b
  have hcd : codeOf (a ++ '\n' :: b)
      = joinLines ((lines a).map code ++ (gap.map code ++ (lines b).map code)) := by
    rw [codeOf, lines, hls, map_append, map_append]
    rfl
  rw [hcd]
  refine ⟨joinLines_append _ _, ?_⟩
  rw [codeOf]
  cases (lines b).map code with
  | nil => exact .inl rfl
  | cons l ls =>
    rw [← append_assoc]
    exact .inr (joinLines_append_cons _ l ls)

lemma calls_append (a b : Text) : calls a ⊆ calls (a ++ '\n' :: b) ∧ calls b ⊆ calls (a ++ '\n' :: b) := by
  obtain ⟨⟨after, haft⟩, hb⟩ := codeOf_append a b
  constructor
  all_goals
    intro name hnm
    obtain ⟨c, hc, ⟨before', after', htext, hopen⟩, hnm⟩ := mem_calls_iff.mp hnm
    refine mem_calls_iff.mpr ⟨c, hc, ?_, hnm⟩
  · exact ⟨before', after' ++ after, by simp [haft, htext], hopen⟩
  rcases hb with hb | ⟨before, hb, hlast⟩
  · exact absurd (htext.symm.trans hb) (by simp [c.text_ne_nil])
  refine ⟨before ++ before', after', by simp [hb, htext], hopen.append fun e he => ?_⟩
  rw [hlast e he]
  rfl

/-! ### Levels -/

lemma le_level_max_iff {a b : Tier} {n : Nat} : n ≤ (max a b).level ↔ n ≤ a.level ∨ n ≤ b.level := by
  rw [max]
  split <;> omega

lemma le_level_highest_iff {ts : List Tier} {n : Nat} (hn : 0 < n) :
    n ≤ (highest ts).level ↔ ∃ r ∈ ts, n ≤ r.level := by
  have hfold : ∀ a, n ≤ (ts.foldl max a).level ↔ n ≤ a.level ∨ ∃ r ∈ ts, n ≤ r.level := by
    induction ts with
    | nil => simp
    | cons r ts ih =>
      intro a
      rw [foldl_cons, ih, le_level_max_iff, exists_mem_cons_iff, or_assoc]
  rw [highest, hfold]
  exact or_iff_right (by rw [level]; omega)

section Calls
variable {rules : Rules} {known : Numbers} {names names' : List Text} {n : Nat}

lemma mem_ids_iff : n ∈ (keepFirst ((names.filterMap fun c => (known.get? c).map (c, ·)).map (·.2))).filter
      (fun n => (rules.tier? n).isSome) ↔ (∃ name ∈ names, known.get? name = some n) ∧ (rules.tier? n).isSome := by
  rw [mem_filter, mem_keepFirst]
  simp

lemma le_level_ofCalls_iff (hn : 0 < n) : n ≤ (ofCalls rules known names).tier.level ↔
    ∃ name ∈ names, ∃ i r, known.get? name = some i ∧ rules.tier? i = some r ∧ n ≤ r.level := by
  rw [ofCalls, le_level_highest_iff hn]
  simp only [mem_filterMap, mem_ids_iff]
  constructor
  · rintro ⟨r, ⟨i, ⟨⟨name, hnm, hget⟩, -⟩, htier⟩, hle⟩
    exact ⟨name, hnm, i, r, hget, htier, hle⟩
  rintro ⟨name, hnm, i, r, hget, htier, hle⟩
  exact ⟨r, ⟨i, ⟨⟨name, hnm, hget⟩, by simp [htier]⟩, htier⟩, hle⟩

lemma ofCalls_mono (h : names ⊆ names') :
    (ofCalls rules known names).tier.level ≤ (ofCalls rules known names').tier.level
      ∧ (ofCalls rules known names).actions ⊆ (ofCalls rules known names').actions := by
  constructor
  · rcases Nat.eq_zero_or_pos (ofCalls rules known names).tier.level with hzero | hpos
    · omega
    obtain ⟨name, hnm, hlv⟩ := (le_level_ofCalls_iff hpos).mp (Nat.le_refl _)
    exact (le_level_ofCalls_iff hpos).mpr ⟨name, h hnm, hlv⟩
  intro n hn
  rw [ofCalls, mem_mergeSort, mem_ids_iff] at hn ⊢
  exact hn.imp_left fun ⟨name, hnm, hget⟩ => ⟨name, h hnm, hget⟩

end Calls

lemma get?_ofEntries {es : List (Text × Nat)} {name : Text} {i : Nat} (huniq : ∀ j, (name, j) ∈ es → j = i)
    (h : (name, i) ∈ es) : Table.get? name (Numbers.ofEntries es) = some i := by
  have hfold : ∀ known, (name, i) ∈ es ∨ Table.get? name known = some i →
      Table.get? name (es.foldl (fun t e => Table.set e.1 e.2 t) known) = some i := by
    clear h
    induction es with
    | nil => exact fun known h => h.resolve_left (by simp)
    | cons e es ih =>
      intro known h
      refine ih (fun j hj => huniq j (mem_cons_of_mem e hj)) _ ?_
      by_cases hnm : name = e.1
      · obtain rfl : e.2 = i := huniq e.2 (by simp [hnm])
        exact .inr (hnm ▸ Table.get?_set_self known e.1 e.2)
      rcases h with h | h
      · rcases mem_cons.mp h with rfl | h
        · exact absurd rfl hnm
        · exact .inl h
      · exact .inr ((Table.get?_set_of_ne hnm).trans h)
  exact hfold [] (.inl h)

lemma ofCalls_none {rules : Rules} {known : Numbers} (h : rules = [] ∨ known = []) (names : List Text) :
    ofCalls rules known names = .none := by
  rcases h with rfl | rfl
  · simp [ofCalls, Requirement.none, Rules.tier?, highest, sort]
  · simp [ofCalls, Requirement.none, Table.get?, keepFirst, highest, sort]

lemma required_cases (rules : Option Text) (api catalog : Document) :
    (∃ fault, ∀ source, required rules api catalog source = .error fault)
      ∨ ∃ known, ∀ source, required rules api catalog source
        = .ok (.ofCalls (Rules.ofText (rules.getD [])) known (calls source)) := by
  have hnone : ∀ known, Rules.ofText (rules.getD []) = [] ∨ known = [] → ∀ source,
      (.ok .none : Except Fault Requirement) = .ok (.ofCalls (Rules.ofText (rules.getD [])) known (calls source)) :=
    fun known h source => by rw [ofCalls_none h]
  simp only [required]
  split
  next hemp => exact .inr ⟨[], hnone [] (.inl (isEmpty_iff.mp hemp))⟩
  split
  · exact .inr ⟨[], hnone [] (.inr rfl)⟩
  · exact .inr ⟨[], hnone [] (.inr rfl)⟩
  cases api.need with
  | error fault => exact .inl ⟨fault, fun _ => rfl⟩
  | ok api =>
    cases catalog.need with
    | error fault => exact .inl ⟨fault, fun _ => rfl⟩
    | ok catalog =>
      simp only [bind, Except.bind]
      generalize numbers api _ = known
      cases known with
      | error fault => exact .inl ⟨fault, fun _ => rfl⟩
      | ok known =>
        refine .inr ⟨known, fun source => ?_⟩
        dsimp only
        split
        next hemp => exact hnone known (.inr (isEmpty_iff.mp hemp)) source
        next => rfl

lemma exists_required (rules : Text) (api : Json.Fields) (rows : List Json) (source : Text) :
    ∃ r, required (some rules) (.value (.obj api)) (.value (.arr rows)) source = .ok r
      ∧ ∀ n, 0 < n → (n ≤ r.tier.level ↔ ∃ name ∈ calls source, ∃ i t,
        Table.get? name (Numbers.ofEntries (entries api rows)) = some i ∧ (Rules.ofText rules).tier? i = some t
          ∧ n ≤ t.level) := by
  have hnumbers : numbers (.obj api) (.arr rows) = .ok (.ofEntries (entries api rows)) := by
    cases api <;> rfl
  refine ⟨.ofCalls (Rules.ofText rules) (.ofEntries (entries api rows)) (calls source), ?_,
    fun n hn => le_level_ofCalls_iff hn⟩
  simp only [required, Option.getD_some, Document.need, bind, Except.bind, hnumbers]
  split
  next hemp => rw [ofCalls_none (.inl (isEmpty_iff.mp hemp))]; rfl
  split
  next hemp => rw [ofCalls_none (.inr (isEmpty_iff.mp hemp))]; rfl
  next => rfl

/-- For every library and every catalog the source needs exactly the tiers of the actions it calls by name, and a call
written in it counts: the source needs at least the tier of the action that the name of the call stands for. -/
theorem required_level (rules : Text) (api : Json.Fields) (rows : List Json) (source : Text) :
    ∃ r, required (some rules) (.value (.obj api)) (.value (.arr rows)) source = .ok r
      ∧ (∀ n, 0 < n → (n ≤ r.tier.level ↔ ∃ name ∈ calls source, ∃ i t,
        Table.get? name (Numbers.ofEntries (entries api rows)) = some i ∧ (Rules.ofText rules).tier? i = some t
          ∧ n ≤ t.level))
      ∧ ∀ (c : Call) (i : Nat) (t : Tier), c.IsWritten → c.StandsIn (codeOf source) → key c.module ≠ []
        → key c.action ≠ [] →
        (c.name, i) ∈ entries api rows → (∀ j, (c.name, j) ∈ entries api rows → j = i) →
        (Rules.ofText rules).tier? i = some t → t.level ≤ r.tier.level := by
  obtain ⟨r, hr, hlv⟩ := exists_required rules api rows source
  refine ⟨r, hr, hlv, ?_⟩
  intro c i t hc hin hmod hact hmem huniq htier
  rcases Nat.eq_zero_or_pos t.level with hzero | hpos
  · omega
  · exact (hlv t.level hpos).mpr ⟨c.name, mem_calls hc hin hmod hact, i, t, get?_ofEntries huniq hmem, htier,
      Nat.le_refl _⟩

/-! ### Longer sources -/

/-- A source put together from two, line by line, needs what each of them needs: its tier is not below theirs, and
the actions it calls are among its actions. Where the data cannot be read it cannot for the parts either. -/
theorem required_append (rules : Option Text) (api catalog : Document) (a b : Text) :
    (∃ fault, ∀ source, required rules api catalog source = .error fault)
      ∨ ∃ ra rb r, required rules api catalog a = .ok ra ∧ required rules api catalog b = .ok rb
        ∧ required rules api catalog (a ++ '\n' :: b) = .ok r
        ∧ Nat.max ra.tier.level rb.tier.level ≤ r.tier.level ∧ ra.actions ⊆ r.actions ∧ rb.actions ⊆ r.actions := by
  rcases required_cases rules api catalog with h | ⟨known, h⟩
  · exact .inl h
  obtain ⟨ha, hb⟩ := calls_append a b
  obtain ⟨hlv, hacts⟩ := ofCalls_mono ha
  obtain ⟨hlv', hacts'⟩ := ofCalls_mono hb
  exact .inr ⟨_, _, _, h a, h b, h _, Nat.max_le.mpr ⟨hlv, hlv'⟩, hacts, hacts'⟩

/-! ### A sample -/

open Data (sampleSpec sampleSelect sampleCall sampleParam sample script)

def sampleApi : Json.Fields :=
  [sampleSelect [], sampleCall,
   ("var", .obj
     [("set_value", sampleSpec "Переменная" "=" [sampleParam "var" "VARIABLE" 10, sampleParam "value" "ANY" 13])])]

def sampleRows : List Json := [.obj [("signs", .arr [.str "Переменная", .str "="]), ("gui", .str "=")]]

def sampleRules : Text := "king can\n0\n"

lemma entries_sample : entries sampleApi sampleRows
    = [(("set_value" : Text), 0), (("var.set_value" : Text), 0)] := by decide

/-- A call is seen. -/
theorem required_level_call : ∃ r, required (some sampleRules) (.value (.obj sampleApi)) (.value (.arr sampleRows))
      "event(x) \x7b\nvar.set_value(a, 1)\n\x7d" = .ok r ∧ Tier.king.level ≤ r.tier.level := by
  obtain ⟨r, hr, -, hcall⟩ := required_level sampleRules sampleApi sampleRows "event(x) \x7b\nvar.set_value(a, 1)\n\x7d"
  refine ⟨r, hr,
    hcall ⟨"var", [], [], "set_value", []⟩ 0 .king ?_ ⟨"event(x) \x7b\n", "a, 1)\n\x7d", ?_, ?_⟩ ?_ ?_ ?_ ?_ ?_⟩
  · exact ⟨by decide, by simp, by simp, by decide, by simp⟩
  · decide
  · intro e he
    obtain rfl : '\n' = e := by simpa using he
    decide
  · decide
  · decide
  · rw [entries_sample]
    decide
  · intro j hj
    rw [entries_sample] at hj
    rcases mem_pair.mp hj with h | h
    · exact (Prod.mk.inj h).2
    · exact (Prod.mk.inj h).2
  · decide

def assignment : Text := "event(x) \x7b\na = 1\n\x7d"

/-- An assignment becomes the action that sets the variable, and is not seen. -/
theorem required_misses_assignment :
    (({ sample with
        api := .value (.obj sampleApi)
        blocks := some "[(select) Выбрать объект][(game) Игра][(var) Переменная]" } : Data).plan
      (script assignment)).result.toOption.map (List.map Entry.block) = some [("diamond_block" : Text), ("var" : Text)]
    ∧ (("var.set_value" : Text), 0) ∈ entries sampleApi sampleRows ∧ (Rules.ofText sampleRules).tier? 0 = some .king
    ∧ (required (some sampleRules) (.value (.obj sampleApi)) (.value (.arr sampleRows)) assignment).toOption.map
      (·.tier.level) = some 0 := by
  refine ⟨?_, ?_, ?_, ?_⟩
  · decide +kernel
  · rw [entries_sample]
    decide +kernel
  · decide +kernel
  · decide +kernel

end BlockScript.Tier
