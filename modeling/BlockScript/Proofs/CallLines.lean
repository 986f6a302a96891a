import BlockScript.Proofs.LetterCase
import BlockScript.Proofs.Literals

/-!
# Lines that take the result of a function

The line `x = f(a, b, c)` is an assignment whose value is the result of `f`, called with the arguments as they are
written: `Statement.compile_resultLine`.
-/

open List Option
namespace BlockScript
open Text Pattern
open Value (wrap wrap_eq)
open Script (Compile)

lemma Text.notMem_joinWith {c : Char} {sep : Text} {ts : List Text} (hsep : c ∉ sep) (h : ∀ t ∈ ts, c ∉ t) :
    c ∉ joinWith sep ts := by
  fun_induction joinWith sep ts with
  | case1 => simp
  | case2 t => exact h t (by simp)
  | case3 t rest _ ih =>
    simp only [mem_append, not_or]
    exact ⟨⟨h t (by simp), hsep⟩, ih fun u hu => h u (by simp [hu])⟩

namespace Assignment

/-- A name that a function can be called by: no word of the language and no word that wraps values. -/
structure IsFunctionName (f : Text) : Prop where
  ne : f ≠ []
  chars : ∀ c ∈ f, isNameChar c
  word : f ∉ reservedWords
  value : Text.lower f ∉ valueHeads

/-- Arguments read as they are written. -/
structure IsArguments (args : List Text) : Prop where
  closed : ∀ t ∈ args, Nesting.Closed ',' t
  trim : ∀ t ∈ args, Text.trim t = t
  ne : ∀ t ∈ args, t ≠ []
  line : ∀ t ∈ args, '\n' ∉ t

def callText (f : Text) (args : List Text) : Text := f ++ "(" ++ Text.joinWith ", " args ++ ")"

def resultLine (x f : Text) (args : List Text) : Text := x ++ " = " ++ callText f args

variable {x f q : Text} {args : List Text}
  {t v : Text} {c : Char} {m : Pattern.Match}

lemma getLast?_wrap (f q : Text) : (wrap f q).getLast? = some ')' := getLast?_concat

namespace IsArguments

lemma notMem_joinWith (h : IsArguments args) : '\n' ∉ joinWith ", " args := Text.notMem_joinWith (by decide) h.line

lemma splitTop_joinWith (h : IsArguments args) : splitTop ',' (Text.trim (joinWith ", " args)) = args := by
  rw [trim_joinWith fun t ht => ⟨h.trim t ht, h.ne t ht⟩]
  exact Text.splitTop_joinWith (fun t ht => (h.closed t ht).skips)
    (fun t ht => (h.closed t (dropLast_subset _ ht)).back) h.trim h.ne

end IsArguments

/-! ### The call -/

lemma eq_nil_of_getLast? {u w : Text} (hc : t.getLast? = some c) (hw : c ∉ w) (h : t = u ++ w) : w = [] := by
  by_contra hne
  obtain ⟨d, hd⟩ := isSome_iff_exists.mp (getLast?_isSome.mpr hne)
  rw [h, getLast?_append, hd] at hc
  cases hc
  exact hw (mem_of_getLast? hd)

lemma notMem_of_blank {b : Text} (hb : ∀ d ∈ b, isBlank d) (hc : isBlank c = false) : c ∉ b := by
  intro hmem
  simp [hb c hmem] at hc

lemma notMem_end {r : Text} (hc : isBlank c = false) (h : r = [] ∨ r = ['\n']) : c ∉ r := by
  rcases h with rfl | rfl
  · simp
  · exact notMem_of_blank (all_eq_true.mp rfl) hc

lemma fits_wrap (hf : IsFunctionName f) (hq : '\n' ∉ q) : callPattern.fits (wrap f q) := by
  have hin : ∀ c ∈ q, (c != '\n') = true := by
    intro c hc
    simpa using fun heq : c = '\n' => hq (heq ▸ hc)
  refine fits_of_spells (g := [(2, q), (1, f)]) rfl ?_
  simp only [blanks, spells_seq, wrap_eq]
  exact ⟨[], _, _, rfl, .inr ⟨rfl, rfl⟩, f, _, _, rfl, spells_many1.mpr ⟨hf.ne, hf.chars, rfl⟩, [], _, rfl,
    by simp, _, rfl, _, _, _, rfl, ⟨hin, rfl⟩, [], rfl, by simp, rfl⟩

lemma groups_wrap (hf : IsFunctionName f) (hm : callPattern.match? (wrap f q) = some m) :
    m.group 1 = f ∧ m.group 2 = q := by
  have hpar : isNameChar '(' = false := rfl
  have hbl c : isBlank c → isNameChar c = false := by
    intro hc
    rw [← Bool.not_eq_true]
    intro hnm
    simp [isBlank_of_varChar (isVarChar_of_nameChar hnm)] at hc
  obtain ⟨t, r, heq, hend, h⟩ := spells_of_match? rfl hm
  simp only [blanks, spells_seq] at h
  obtain ⟨o, _, _, rfl, ho, w, _, _, rfl, hw, b, _, rfl, hb, _, rfl, u, _, _, rfl, ⟨-, rfl⟩, b', rfl, hb', hg⟩ := h
  obtain ⟨-, hchr, rfl⟩ := spells_many1.mp hw
  -- a module in front would end in a point
  obtain rfl : o = [] := by
    rcases ho with ⟨v, _, rfl, ⟨-, hv⟩, hpt⟩ | ⟨rfl, -⟩
    · obtain ⟨rfl, -⟩ := spells_lit.mp hpt
      rw [wrap_eq, append_assoc, append_assoc] at heq
      have := (append_inj_of_head hf.chars hv (by simpa using hpar) (by simp; decide) heq).2
      simp at this
    · rfl
  replace heq : wrap f q = w ++ (b ++ '(' :: (u ++ ')' :: (b' ++ r))) := by simpa using heq
  obtain rfl := Value.IsHead.eq_of_append hf.chars hpar hbl hchr hb heq
  rw [wrap_eq] at heq
  obtain rfl : b = [] := by
    cases b with
    | nil => rfl
    | cons d b =>
      obtain ⟨rfl, -⟩ := cons.inj (append_cancel_left heq)
      exact absurd (hb '(' (by simp)) (by decide)
  have hend' : b' ++ r = [] := by
    refine eq_nil_of_getLast? (getLast?_wrap w q) (u := w ++ '(' :: (u ++ [')'])) ?_ ?_
    · rw [mem_append, not_or]
      exact ⟨notMem_of_blank hb' (by decide), notMem_end (by decide) hend⟩
    rw [wrap_eq, heq]
    simp
  have hin : q = u := by simpa [hend'] using heq
  rw [Pattern.Match.group, Pattern.Match.group, Pattern.Match.group?, Pattern.Match.group?, hg, hin]
  exact ⟨rfl, rfl⟩

lemma functionCall?_wrap (hf : IsFunctionName f) (hq : '\n' ∉ q) :
    functionCall? (wrap f q) = some (f, splitTop ',' (Text.trim q)) := by
  obtain ⟨m, hm⟩ := isSome_iff_exists.mp (fits_wrap hf hq)
  obtain ⟨h₁, h₂⟩ := groups_wrap hf hm
  have hword : (reservedWords.contains f || valueHeads.contains (lower f)) = false := by
    simp [hf.word, hf.value]
  simp only [functionCall?, hm, bind_some, h₁, h₂, hword, Bool.false_eq_true, if_false]

/-- A pattern whose last part takes something, but nowhere the character that the text ends in, does not match. -/
lemma match?_none_of_getLast? {a b : Pattern} (hc : t.getLast? = some c)
    (hbl : isBlank c = false) (hb : b.isFree false) (hadm : b.admits c = false) (hne : ∀ g g', ¬b.Spells [] g g') :
    (a ++ b ++ .atEnd).match? t = none := by
  rw [← not_isSome_iff_eq_none]
  intro h
  obtain ⟨_, _, s₂, _, ⟨_, _, hfr, hback⟩, hend, -⟩ := fits_iff.mp h
  obtain ⟨u, hu⟩ := hfr.reads
  obtain ⟨v, hv, h⟩ := (takes_iff hb nofun).mp hback
  have hnil : v ++ s₂.rest = [] := by
    refine eq_nil_of_getLast? hc ?_ (by rw [← hv.rest]; exact hu.rest)
    rw [mem_append, not_or]
    refine ⟨fun hmem => ?_, notMem_end hbl hend⟩
    simp [admits_of_spells h hmem] at hadm
  obtain ⟨rfl, -⟩ := append_eq_nil_iff.mp hnil
  exact hne _ _ h

lemma match?_bracket (a : Pattern) : (a ++ lit "]" ++ .atEnd).match? (wrap f q) = none :=
  match?_none_of_getLast? (getLast?_wrap f q) rfl rfl rfl fun g g' h => by
    simp [spells_lit] at h

/-! ### The line -/

lemma notMem_of_varChar (ht : ∀ c ∈ t, isVarChar c) : '=' ∉ t := fun hmem => absurd (ht _ hmem) (by decide)

lemma hasSignFrom_resultLine (hx : ∀ c ∈ x, isVarChar c) (prev : Option Char) (t : Text) :
    hasSignFrom .top prev (x ++ ' ' :: '=' :: ' ' :: t) = true := by
  induction x generalizing prev with
  | nil => rfl
  | cons c x ih =>
    have hc := hx c (by simp)
    have hne : (c == '=') = false := beq_false_of_ne (by rintro rfl; exact absurd hc (by decide))
    have hrd : Nesting.top.read c = .top := Nesting.read_of_plainChar 0 (isPlainChar_of_varChar hc)
    rw [cons_append, hasSignFrom.eq_def]
    simp only [hne, hrd]
    exact ih (fun d hd => hx d (by simp [hd])) _

lemma not_append_tilde {a r : Text} (hx : ∀ c ∈ x, isVarChar c) (hfr : '=' ∉ a) :
    x ++ " = " ++ v ≠ a ++ '~' :: r := by
  intro heq
  have hcut : (x ++ " ") ++ '=' :: ' ' :: v = a ++ '~' :: r := by simpa using heq
  rcases append_eq_append_iff.mp hcut with ⟨_ | ⟨c, u⟩, rfl, hu⟩ | ⟨_ | ⟨c, u⟩, hu, hr⟩
  · simp at hu
  · obtain ⟨rfl, -⟩ := cons.inj hu
    simp at hfr
  · simp at hr
  obtain ⟨rfl, -⟩ := cons.inj hr
  rcases mem_append.mp (hu ▸ mem_append_right a mem_cons_self) with hmem | hmem
  · exact absurd (hx _ hmem) (by decide)
  · exact absurd hmem (by decide)

lemma expandKeep_resultLine (hx : ∀ c ∈ x, isVarChar c) (v : Text) :
    expandKeep (x ++ " = " ++ v) = x ++ " = " ++ v := by
  have hnone : keepPattern.match? (x ++ " = " ++ v) = none := by
    rw [eq_none_iff_forall_ne_some]
    intro m hm
    obtain ⟨t, r, heq, -, h⟩ := spells_of_match? rfl hm
    simp only [blanks, spells_seq] at h
    obtain ⟨b, _, rfl, hb, w, _, _, rfl, hnm, b', _, rfl, hb', u, rfl, -⟩ := h
    refine not_append_tilde (a := b ++ (w ++ b')) hx ?_ (by simpa using heq)
    simp only [mem_append, not_or]
    exact ⟨notMem_of_blank hb rfl, notMem_of_varChar (spells_many1.mp hnm).2.1,
      notMem_of_blank hb' rfl⟩
  rw [expandKeep, hnone]

def targetPattern : Pattern :=
  .atStart ++ blanks ++ savePattern ++ .group 2 Condition.varName ++ blanks
    ++ .opt (lit "~" ++ blanks) ++ .opt (.group 3 (anyOf "+-*/") ++ blanks)

def linePattern : Pattern :=
  targetPattern ++ lit "=" ++ blanks ++ .group 4 (Pattern.many1Lazy any) ++ blanks
    ++ .opt (lit ";") ++ blanks

-- the matcher passes on what is left to do, so it does not see how a sequence is bracketed
lemma match?_pattern (t : Text) : pattern.match? t = (linePattern ++ .atEnd).match? t := rfl

lemma fits_pattern {line sign : Text} (hne : x ≠ []) (hx : ∀ c ∈ x, isVarChar c)
    (hsign : sign = [] ∨ ∃ c ∈ ['+', '-', '*', '/'], sign = [c]) (hv : v ≠ []) (hbreak : '\n' ∉ v)
    (hcut : line = x ++ (" " ++ (sign ++ ("=" ++ (" " ++ v))))) : pattern.fits line := by
  have hchr : ∀ c ∈ v, (c != '\n') = true := fun c hc => by simpa using fun heq : c = '\n' => hbreak (heq ▸ hc)
  have hbl : ∀ c ∈ (" " : Text), isBlank c = true := all_eq_true.mp (by decide)
  obtain ⟨g, hop⟩ : ∃ g, (∃ u b g₁, sign = u ++ b ∧ (anyOf "+-*/").Spells u [(2, x)] g₁ ∧
      blanks.Spells b ((3, u) :: g₁) g) ∨ sign = [] ∧ g = [(2, x)] := by
    rcases hsign with rfl | ⟨c, hc, rfl⟩
    · exact ⟨_, .inr ⟨rfl, rfl⟩⟩
    · exact ⟨_, .inl ⟨[c], [], _, rfl, ⟨c, by simpa using hc, rfl, rfl⟩, by simp, rfl⟩⟩
  rw [Pattern.fits, match?_pattern]
  refine fits_of_spells (g := (4, v) :: g) rfl ?_
  rw [hcut]
  simp only [linePattern, targetPattern, savePattern, blanks, spells_seq]
  exact ⟨[], _, rfl, by simp, [], _, _, rfl, .inr ⟨rfl, rfl⟩, x, _, _, rfl, spells_many1.mpr ⟨hne, hx, rfl⟩,
    " ", _, rfl, hbl, [], _, _, rfl, .inr ⟨rfl, rfl⟩, sign, _, _, rfl, hop, _, rfl, " ", _, rfl, hbl, v, [], _, by simp,
    spells_many1Lazy.mpr ⟨hv, hchr, rfl⟩, [], _, rfl, by simp, [], _, _, rfl, .inr ⟨rfl, rfl⟩, by simp, rfl⟩

lemma notMem_of_sameLetter {u : Text} {e : Char} (h : List.Forall₂ (fun c d => sameLetter c d) t u)
    (he : ∀ c ∈ t, !sameLetter c e) : e ∉ u := by
  intro hmem
  obtain ⟨i, hi, rfl⟩ := getElem_of_mem hmem
  have hlt : i < t.length := h.length_eq ▸ hi
  exact absurd (List.Forall₂.get h hlt hi) (by simpa using he t[i] (getElem_mem hlt))

lemma groups_target {g : Pattern.Groups} (hx : ∀ c ∈ x, isVarChar c) (h : targetPattern.Spells (x ++ " ") [] g) :
    g = [(2, x)] := by
  have hmem : ∀ c ∈ x ++ " ", (isVarChar c || c == ' ') = true := by
    refine forall_mem_append.mpr ⟨fun c hc => ?_, by simp⟩
    rw [hx c hc, Bool.true_or]
  simp only [targetPattern, savePattern, Condition.varName, blanks, Pattern.blanks1, spells_seq] at h
  obtain ⟨b, _, heq, hb, s, _, g₀, rfl, hsave, w, _, _, rfl, hnm, b₁, _, rfl, hb₁, mark, sign, _, rfl, hmark, hsign⟩ :=
    h
  obtain ⟨hw, hchr, rfl⟩ := spells_many1.mp hnm
  rw [heq] at hmem
  rcases hmark with ⟨_, rfl, -⟩ | ⟨rfl, rfl⟩
  · exact absurd (hmem '~' (by simp)) (by decide)
  rcases hsign with ⟨_, _, _, rfl, ⟨_, ⟨c, hc, rfl, -⟩, -⟩, -⟩ | ⟨rfl, rfl⟩
  · have hop : ("+-*/" : Text).all fun c => !(isVarChar c || c == ' ') := rfl
    simpa [hmem c (by simp)] using all_eq_true.mp hop c (by simpa using hc)
  rw [append_nil, append_nil] at heq
  -- only the last character is blank, and the variable stands behind these
  have hfr : ∀ c ∈ b ++ s, isBlank c = false := by
    have hinit : x = (b ++ s) ++ (w ++ b₁).dropLast := by
      rw [← dropLast_append_of_ne_nil (by simp [hw]), append_assoc, ← heq]
      exact dropLast_concat.symm
    exact fun c hc => isBlank_of_varChar (hx c (by rw [hinit]; exact mem_append_left _ hc))
  obtain rfl : b = [] := eq_nil_iff_forall_not_mem.mpr fun c hc => by simpa [hb c hc] using hfr c (by simp [hc])
  rcases hsave with ⟨s, b', _, rfl, -, hblanks⟩ | ⟨rfl, rfl⟩
  · obtain ⟨hne, hblanks, -⟩ := spells_many1.mp hblanks
    obtain ⟨c, b', rfl⟩ := exists_cons_of_ne_nil hne
    simpa [hblanks c (by simp)] using hfr c (by simp)
  have hstop c : b₁.head? = some c → isVarChar c = false := by
    intro hc
    rw [← Bool.not_eq_true]
    intro hvar
    simpa [isBlank_of_varChar hvar] using hb₁ c (mem_of_head? hc)
  obtain ⟨rfl, -⟩ := append_inj_of_head hx hchr (by rintro c ⟨⟩; decide) hstop heq
  rfl

lemma groups_resultLine {d : Char} (hx : ∀ c ∈ x, isVarChar c)
    (hlast : v.getLast? = some d) (hd : isBlank d = false) (hd' : d ≠ ';')
    (hm : pattern.match? (x ++ " = " ++ v) = some m) :
    m.group? 1 = none ∧ m.group 2 = x ∧ m.group 3 = [] ∧ Text.trim (m.group 4) = Text.trim v := by
  obtain ⟨t, r, heq, hend, h⟩ := spells_of_match? (a := linePattern) rfl hm
  simp only [linePattern, spells_seq] at h
  obtain ⟨front, _, g, rfl, hfr, h⟩ := h
  simp only [blanks, spells_seq] at h
  obtain ⟨_, rfl, b₂, _, rfl, hb₂, u, _, _, rfl, hu, b₃, _, rfl, hb₃, semi, b₄, g₂, rfl, hsemi, hb₄, hg⟩ := h
  obtain ⟨-, -, rfl⟩ := spells_many1Lazy.mp hu
  replace heq : (x ++ " ") ++ '=' :: (' ' :: v) = front ++ '=' :: (b₂ ++ (u ++ (b₃ ++ (semi ++ (b₄ ++ r))))) := by
    simpa using heq
  have hfst : ∀ {t : Text}, '=' ∉ t → ∀ c ∈ t, (c != '=') = true := fun ht c hc => by
    simpa using fun h : c = '=' => ht (h ▸ hc)
  have hleft : '=' ∉ x ++ " " := by simpa using notMem_of_varChar hx
  have hright : '=' ∉ front := fun hmem => absurd (admits_of_spells hfr hmem) (by decide)
  obtain ⟨rfl, hsame⟩ := append_inj_of_head (hfst hleft) (hfst hright) (by simp) (by simp) heq
  obtain rfl := groups_target hx hfr
  obtain ⟨hsemi', rfl⟩ : d ∉ semi ∧ g₂ = [(4, u), (2, x)] := by
    rcases hsemi with hsemi | ⟨rfl, rfl⟩
    · obtain ⟨rfl, rfl⟩ := spells_lit.mp hsemi
      exact ⟨by simpa using hd', rfl⟩
    · simp
  have hval : ' ' :: v = b₂ ++ u := by
    have hnil := eq_nil_of_getLast? (t := ' ' :: v) (u := b₂ ++ u) (w := b₃ ++ (semi ++ (b₄ ++ r))) (c := d) ?_ ?_ ?_
    · rw [(cons.inj hsame).2, hnil, append_nil]
    · rw [getLast?_cons, hlast]
      rfl
    · simp only [mem_append, not_or]
      exact ⟨notMem_of_blank hb₃ hd, hsemi', notMem_of_blank hb₄ hd, notMem_end hd hend⟩
    rw [(cons.inj hsame).2]
    simp
  simp only [Pattern.Match.group, Pattern.Match.group?, hg]
  refine ⟨rfl, rfl, rfl, ?_⟩
  calc Text.trim u = Text.trim (b₂ ++ u) := (trim_append_left hb₂).symm
    _ = Text.trim (" " ++ v) := by rw [← hval]; rfl
    _ = Text.trim v := trim_append_left (all_eq_true.mp rfl)

lemma trim_wrap (hf : IsFunctionName f) : Text.trim (wrap f q) = wrap f q := by
  obtain ⟨c, t, rfl⟩ := exists_cons_of_ne_nil hf.ne
  refine trim_self (c := c) (by simp [wrap]) (getLast?_wrap _ _) ?_ rfl
  exact isBlank_of_varChar (isVarChar_of_nameChar (hf.chars c (by simp)))

lemma isMarked_resultLine (hx : ∀ c ∈ x, isVarChar c) (v : Text) : isMarked x (x ++ " = " ++ v) = false := by
  rw [← Bool.not_eq_true, isMarked, fits_iff]
  rintro ⟨s', g', h⟩
  have hfree : (true && (Pattern.word x).isFree false && true && true) = true := by
    simpa using! isFree_ofChars sameLetter x
  obtain ⟨t, ht, h⟩ := (takes_iff (w := true) (by exact hfree) fun _ => rfl).mp h
  simp only [blanks, spells_seq] at h
  obtain ⟨b, _, rfl, hb, s, _, _, rfl, hsave, w, _, rfl, hw, b', _, rfl, hb', htilde⟩ := h
  obtain ⟨rfl, -⟩ := spells_lit.mp htilde
  refine not_append_tilde (a := b ++ (s ++ (w ++ b'))) hx ?_ (by
    simpa [Pattern.Place.start] using ht.rest)
  simp only [mem_append, not_or]
  refine ⟨notMem_of_blank hb (by decide), ?_, notMem_of_sameLetter hw ?_, notMem_of_blank hb' rfl⟩
  · rcases hsave with ⟨u, v, rfl, hu, hv⟩ | ⟨rfl, -⟩
    · rw [mem_append, not_or]
      exact ⟨notMem_of_sameLetter hu (all_eq_true.mp rfl),
        notMem_of_blank (spells_many1.mp hv).2.1 rfl⟩
    · simp
  intro c hc
  rw [Bool.not_eq_true', ← Bool.not_eq_true]
  intro hsame
  obtain rfl : c = '=' := eq_of_sameLetter (by simp) (by rwa [sameLetter, BEq.comm])
  exact notMem_of_varChar hx hc

lemma ofLine?_resultLine {d : Char} (hne : x ≠ []) (hx : ∀ c ∈ x, isVarChar c) (hlast : v.getLast? = some d)
    (hd : isBlank d = false) (hd' : d ≠ ';') (htrim : Text.trim v = v) (hln : '\n' ∉ v) :
    ofLine? (x ++ " = " ++ v) = some ⟨x, false, none, v⟩ := by
  have hv : v ≠ [] := by
    rintro rfl
    simp at hlast
  have hfits : pattern.fits (x ++ " = " ++ v) := fits_pattern hne hx (.inl rfl) hv hln (by simp)
  obtain ⟨m, hm⟩ := isSome_iff_exists.mp hfits
  obtain ⟨hsaved, hgrp, hop, hrhs⟩ := groups_resultLine hx hlast hd hd' hm
  have hnm : Text.trim x = x := trim_of_not_blank fun c hc => isBlank_of_varChar (hx c hc)
  have hsign : hasSign (x ++ " = " ++ v) = true := by simpa [hasSign] using hasSignFrom_resultLine hx none v
  have hfill : (x.isEmpty || v.isEmpty) = false := by simp [hne, hv]
  simp only [ofLine?, expandKeep_resultLine hx, match?, hsign, if_true, hm, hsaved, hgrp, hop, hrhs, htrim, hnm, hfill,
    isMarked_resultLine hx]
  rfl

end Assignment

/-! ### The statement -/

namespace Statement
open Assignment
variable {x f q : Text} {args : List Text}

lemma dropWhile_isNameChar (hx : ∀ c ∈ x, isVarChar c) (r : Text) :
    (∃ t, (x ++ ' ' :: '=' :: r).dropWhile isNameChar = '%' :: t) ∨
      (x ++ ' ' :: '=' :: r).dropWhile isNameChar = ' ' :: '=' :: r := by
  induction x with
  | nil => exact .inr rfl
  | cons c x ih =>
    by_cases hc : isNameChar c
    · rw [cons_append, dropWhile_cons_of_pos hc]
      exact ih fun d hd => hx d (by simp [hd])
    obtain rfl : c = '%' := by simpa [isVarChar, hc] using hx c (by simp)
    exact .inl ⟨_, dropWhile_cons_of_neg hc⟩

lemma notCall_resultLine (v : Text) (hx : ∀ c ∈ x, isVarChar c) (hne : x ≠ []) :
    Call.ofLine? (x ++ " = " ++ v) = none ∧ bareCall? (x ++ " = " ++ v) = none := by
  have hln : x ++ " = " ++ v = x ++ ' ' :: '=' :: ' ' :: v := by simp
  rw [hln]
  generalize ht : x ++ ' ' :: '=' :: ' ' :: v = t
  have hst : trimStart t = t := by
    obtain ⟨c, x, rfl⟩ := exists_cons_of_ne_nil hne
    rw [← ht, trimStart, cons_append]
    simp [isBlank_of_varChar (hx c (by simp))]
  have hdrop : t.drop (t.takeWhile isNameChar).length = t.dropWhile isNameChar := by
    have hleft : (_ ++ t.dropWhile isNameChar).drop (t.takeWhile isNameChar).length = _ := drop_left
    rwa [takeWhile_append_dropWhile] at hleft
  have hspace : trimStart (' ' :: '=' :: ' ' :: v) = '=' :: ' ' :: v := rfl
  have hpercent : ∀ t, trimStart ('%' :: t) = '%' :: t := fun _ => rfl
  rw [Call.ofLine?, bareCall?]
  simp only [hst, hdrop]
  rcases dropWhile_isNameChar hx (' ' :: v) with ⟨u, hu⟩ | hu <;> rw [← ht, hu]
  · simp [afterParen?, hpercent]
  · simp [afterParen?, hspace]

/-- The line calls the function and takes its result, whatever is written as its arguments. -/
theorem compile_resultText (lib : Library) (sigs : Signatures) (trace : Bool) (hne : x ≠ []) (hx : ∀ c ∈ x, isVarChar c)
    (hf : IsFunctionName f) (hq : '\n' ∉ q) :
    ∃ a : Assignment, isPlain a.name ∧ (compile lib sigs trace (x ++ " = " ++ wrap f q)).result
      = (resultActions lib sigs trace a f (splitTop ',' (Text.trim q))).result.map some := by
  obtain ⟨hcall, hbare⟩ := notCall_resultLine (wrap f q) hx hne
  have hln : '\n' ∉ wrap f q := by
    rw [wrap_eq]
    simp only [mem_append, mem_cons, not_or]
    exact ⟨fun hmem => absurd (hf.chars _ hmem) (by decide), by decide, hq, by decide⟩
  have ha := ofLine?_resultLine hne hx (getLast?_wrap f q) rfl (by decide) (trim_wrap hf) hln
  refine ⟨⟨x, false, none, wrap f q⟩, all_eq_true.mpr fun c hc => isPlainChar_of_varChar (hx c hc), ?_⟩
  have hlist : ((wrap f q).head? == some '[') = false := by
    obtain ⟨c, t, rfl⟩ := exists_cons_of_ne_nil hf.ne
    have hc : c ≠ '[' := by
      rintro rfl
      exact absurd (hf.chars '[' (by simp)) (by decide)
    simp [wrap, hc]
  have hslice : slicePattern.match? (wrap f q) = none := match?_bracket _
  have hindex : indexPattern.match? (wrap f q) = none := match?_bracket _
  rw [compile, hcall, hbare, ha]
  simp only [isSome_none, Bool.false_eq_true, if_false, Assignment.compile, hlist, hslice, hindex,
    functionCall?_wrap hf hq, Bool.false_and, Compile.result_bind]
  cases (resultActions lib sigs trace _ f (splitTop ',' (Text.trim q))).result <;> rfl

theorem compile_resultLine (lib : Library) (sigs : Signatures) (trace : Bool) (hne : x ≠ []) (hx : ∀ c ∈ x, isVarChar c)
    (hf : IsFunctionName f) (hargs : IsArguments args) :
    ∃ a : Assignment, isPlain a.name ∧ (compile lib sigs trace (resultLine x f args)).result
      = (resultActions lib sigs trace a f args).result.map some := by
  have h := compile_resultText lib sigs trace hne hx hf hargs.notMem_joinWith
  rwa [hargs.splitTop_joinWith] at h

end Statement
end BlockScript
