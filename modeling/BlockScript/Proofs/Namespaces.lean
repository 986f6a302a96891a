import BlockScript.Proofs.Format
import BlockScript.Proofs.Nested

/-!
# Names of imported files before names

A line may write the name of an imported file and a point before what the file defines. The names are dropped one
after another, each by a search of its own, and the search looks neither at quotes nor at the other names.

If the names are words, `dropNamespaces_eq` says what all the searches together do: `unqualify` reads the line once,
word by word, and drops each word that is one of the names, with the point behind it. So the order of the names does
not matter, and what stands between quotes is treated like any other part of the line. Names that are no words, such as
the name of the file `a.b.mldsl`, overlap with others, and the order decides.
-/

open List Option
namespace BlockScript
open Source Program
namespace Source
open Pattern
variable {p q : Text → Bool} {t u v w rest : Text} {ns : Text} {namespaces names : List Text}
  {c : Char}

/-! ### Words before points -/

/-- What follows the first word of a text and the point behind it, if the word is one that `p` names. -/
def afterQualifier? (p : Text → Bool) (t : Text) : Option Text :=
  match t.dropWhile isWordChar with
  | '.' :: rest =>
    let w := t.takeWhile isWordChar
    if !w.isEmpty && p w then some rest else none
  | _ => none

lemma afterQualifier?_iff : afterQualifier? p t = some rest ↔
    ∃ w, w ≠ [] ∧ (∀ c ∈ w, isWordChar c) ∧ p w ∧ t = w ++ '.' :: rest := by
  constructor
  · intro h
    have hspl : t.takeWhile isWordChar ++ t.dropWhile isWordChar = t := takeWhile_append_dropWhile
    rw [afterQualifier?] at h
    split at h
    case h_1 r hdrop =>
      dsimp only at h
      split at h
      case isTrue hw =>
        obtain rfl : r = rest := by simpa using h
        rw [Bool.and_eq_true, Bool.not_eq_true', isEmpty_eq_false_iff] at hw
        exact ⟨_, hw.1, fun c hc => mem_takeWhile_imp hc, hw.2, by rw [← hdrop, hspl]⟩
      case isFalse => simp at h
    case h_2 => simp at h
  rintro ⟨w, hne, hw, hp, rfl⟩
  have hdot : isWordChar '.' = false := rfl
  have htake : (w ++ '.' :: rest).takeWhile isWordChar = w := by
    rw [takeWhile_append_of_pos hw, takeWhile_cons_of_neg (by simp [hdot]), append_nil]
  have hdrop : (w ++ '.' :: rest).dropWhile isWordChar = '.' :: rest := by
    rw [dropWhile_append_of_pos hw, dropWhile_cons_of_neg (by simp [hdot])]
  simp [afterQualifier?, htake, hdrop, hne, hp]

lemma length_afterQualifier? (h : afterQualifier? p t = some rest) : rest.length < t.length := by
  obtain ⟨w, -, -, -, rfl⟩ := afterQualifier?_iff.1 h
  simp
  omega

/-- Drop the words that `p` names, each with the point behind it. `inWord` says that the text goes on with a word that
began before it. -/
def unqualify (p : Text → Bool) (inWord : Bool) : Text → Text
  | [] => []
  | c :: t =>
    match _h : if inWord then none else afterQualifier? p (c :: t) with
    | some rest => unqualify p false rest
    | none => c :: unqualify p (isWordChar c) t
termination_by t => t.length
decreasing_by
  · split at _h
    · simp at _h
    · exact length_afterQualifier? _h
  · simp

@[simp] lemma unqualify_nil (inWord : Bool) : unqualify p inWord [] = [] := by rw [unqualify]

lemma unqualify_of_some (h : afterQualifier? p t = some rest) : unqualify p false t = unqualify p false rest := by
  cases t with
  | nil => simp [afterQualifier?] at h
  | cons c t =>
    rw [unqualify]
    split
    case h_1 r hr =>
      rw [h] at hr
      rw [some.inj hr]
    case h_2 hr => simp [h] at hr

lemma unqualify_of_none (h : afterQualifier? p (c :: t) = none) (inWord : Bool) :
    unqualify p inWord (c :: t) = c :: unqualify p (isWordChar c) t := by
  rw [unqualify]
  split
  case h_1 r hr => cases inWord <;> simp [h] at hr
  case h_2 => rfl

@[simp] lemma unqualify_true_cons {c : Char} : unqualify p true (c :: t) = c :: unqualify p (isWordChar c) t := by
  rw [unqualify]
  split
  case h_1 r hr => simp at hr
  case h_2 => rfl

lemma unqualify_true_append (hw : ∀ c ∈ w, isWordChar c) : unqualify p true (w ++ t) = w ++ unqualify p true t := by
  induction w with
  | nil => rfl
  | cons c w ih =>
    rw [cons_append, unqualify_true_cons, hw c (by simp), ih fun d hd => hw d (by simp [hd]), cons_append]

lemma unqualify_cons (hc : isWordChar c = false) (inWord : Bool) :
    unqualify p inWord (c :: t) = c :: unqualify p false t := by
  have hnone : afterQualifier? p (c :: t) = none := by
    rw [eq_none_iff_forall_ne_some]
    rintro rest h
    obtain ⟨w, hne, hw, -, heq⟩ := afterQualifier?_iff.1 h
    obtain ⟨d, w, rfl⟩ := exists_cons_of_ne_nil hne
    obtain ⟨rfl, -⟩ := cons.inj heq
    simp [hw c] at hc
  rw [unqualify_of_none hnone, hc]

lemma exists_of_unqualify_true (hw : ∀ c ∈ w, isWordChar c) :
    ∀ {t}, unqualify p true t = w ++ '.' :: v → ∃ r, t = w ++ '.' :: r ∧ unqualify p false r = v := by
  induction w with
  | nil =>
    rintro (_ | ⟨d, t⟩) h
    · simp at h
    rw [unqualify_true_cons, nil_append] at h
    obtain ⟨rfl, rfl⟩ := h
    exact ⟨t, rfl, rfl⟩
  | cons c w ih =>
    rintro (_ | ⟨d, t⟩) h
    · simp at h
    rw [unqualify_true_cons, cons_append, List.cons.injEq] at h
    obtain ⟨rfl, h⟩ := h
    rw [hw d (by simp)] at h
    obtain ⟨r, rfl, hr⟩ := ih (fun c hc => hw c (by simp [hc])) h
    exact ⟨r, rfl, hr⟩

lemma afterQualifier?_unqualify :
    afterQualifier? p (c :: unqualify q true t) = (afterQualifier? p (c :: t)).map (unqualify q false) := by
  ext v
  rw [map_eq_some_iff, afterQualifier?_iff]
  constructor
  · rintro ⟨w, hne, hw, hp, heq⟩
    obtain ⟨d, w, rfl⟩ := exists_cons_of_ne_nil hne
    rw [cons_append, List.cons.injEq] at heq
    obtain ⟨rfl, heq⟩ := heq
    obtain ⟨r, rfl, hr⟩ := exists_of_unqualify_true (fun d hd => hw d (by simp [hd])) heq
    exact ⟨r, afterQualifier?_iff.2 ⟨c :: w, hne, hw, hp, rfl⟩, hr⟩
  rintro ⟨r, h, rfl⟩
  obtain ⟨w, hne, hw, hp, heq⟩ := afterQualifier?_iff.1 h
  obtain ⟨d, w, rfl⟩ := exists_cons_of_ne_nil hne
  rw [cons_append] at heq
  obtain ⟨rfl, rfl⟩ := heq
  refine ⟨c :: w, hne, hw, hp, ?_⟩
  rw [unqualify_true_append fun d hd => hw d (by simp [hd]), unqualify_cons (by decide), cons_append]

lemma afterQualifier?_or (t : Text) :
    afterQualifier? (fun w => p w || q w) t = (afterQualifier? p t).or (afterQualifier? q t) := by
  rw [afterQualifier?, afterQualifier?, afterQualifier?]
  split <;> simp only [or_none]
  by_cases hw : (t.takeWhile isWordChar).isEmpty <;> by_cases hp : p (t.takeWhile isWordChar) <;> simp [hw, hp]

/-- Dropping some words and then others is dropping them all at once. -/
theorem unqualify_unqualify (p q : Text → Bool) (inWord : Bool) (t : Text) :
    unqualify p inWord (unqualify q inWord t) = unqualify (fun w => p w || q w) inWord t := by
  induction h : t.length using Nat.strong_induction_on generalizing inWord t with
  | _ n ih =>
  subst h
  cases t with
  | nil => simp
  | cons c t =>
    have hkp b := ih t.length (by simp) b t rfl
    cases inWord with
    | true => rw [unqualify_true_cons, unqualify_true_cons, unqualify_true_cons, hkp]
    | false =>
      by_cases hc : isWordChar c = false
      · rw [unqualify_cons hc, unqualify_cons hc, unqualify_cons hc, hkp]
      rw [Bool.not_eq_false] at hc
      rcases hq : afterQualifier? q (c :: t) with _ | r
      · -- The word stays behind for the second search.
        have haft := afterQualifier?_unqualify (p := p) (q := q) (t := t) (c := c)
        rw [unqualify_of_none hq, hc]
        rcases hp : afterQualifier? p (c :: t) with _ | r
        · rw [hp] at haft
          rw [unqualify_of_none haft, unqualify_of_none (by rw [afterQualifier?_or, hp, hq, or_none]), hc, hkp]
        rw [hp] at haft
        rw [unqualify_of_some haft, unqualify_of_some (t := c :: t) (by rw [afterQualifier?_or, hp, some_or])]
        exact ih r.length (length_afterQualifier? hp) false r rfl
      rw [unqualify_of_some hq, ih r.length (length_afterQualifier? hq) false r rfl]
      refine (unqualify_of_some ?_).symm
      rw [afterQualifier?_or, hq]
      rcases hp : afterQualifier? p (c :: t) with _ | r'
      · rw [none_or]
      -- Both name the first word, and what follows it is the same.
      obtain ⟨w, -, hw, -, heq⟩ := afterQualifier?_iff.1 hq
      obtain ⟨w', -, hw', -, heq'⟩ := afterQualifier?_iff.1 hp
      have hrest v (hv : ∀ c ∈ v, isWordChar c) r :
          (v ++ '.' :: r).dropWhile isWordChar = '.' :: r := by
        rw [dropWhile_append_of_pos hv, dropWhile_cons_of_neg (by decide)]
      have hsame := hrest w hw r
      rw [← heq, heq', hrest w' hw' r', List.cons.injEq] at hsame
      rw [some_or, hsame.2]

lemma unqualify_of_not (hp : ∀ w, w ≠ [] → p w = false) (inWord : Bool) (t : Text) : unqualify p inWord t = t := by
  induction t generalizing inWord with
  | nil => simp
  | cons c t ih =>
    have hnone : afterQualifier? p (c :: t) = none := by
      rw [eq_none_iff_forall_ne_some]
      intro rest h
      obtain ⟨w, hne, -, hpw, -⟩ := afterQualifier?_iff.1 h
      simp [hp w hne] at hpw
    rw [unqualify_of_none hnone, ih]

/-! ### The search for one name -/

def qualifier (ns : Text) : Pattern := wordEdge ++ lit ns ++ lit "."

lemma matchAt?_qualifier (hne : ns ≠ []) (hw : ∀ c ∈ ns, isWordChar c) (n : Nat) (l : Option Char) (t : Text) :
    (qualifier ns).matchAt? ⟨n, l, t⟩ = if isWordSide l then none
      else (afterQualifier? (· == ns) t).map fun rest => ⟨⟨n, l, t⟩, ⟨n + ns.length + 1, some '.', rest⟩, []⟩ := by
  have hrun : (qualifier ns).matchAt? ⟨n, l, t⟩ = if isWordSide l != isWordSide t.head? then
      (readText ns ⟨n, l, t⟩).bind fun s => (readText ['.'] s).map fun s' => ⟨⟨n, l, t⟩, s', []⟩ else none := by
    simp only [matchAt?, qualifier, HAppend.hAppend, Pattern.run]
    split
    · rw [run_lit]
      congr 1
      funext s
      rw [run_lit, Option.map_eq_bind]
      rfl
    · rfl
  rw [hrun]
  rcases hq : afterQualifier? (· == ns) t with _ | rest
  · have hrd : (readText ns ⟨n, l, t⟩).bind (fun s => (readText ['.'] s).map fun s' =>
        (⟨⟨n, l, t⟩, s', []⟩ : Match)) = none := by
      rw [bind_eq_none_iff]
      intro s hs
      rw [map_eq_none_iff, eq_none_iff_forall_ne_some]
      intro s' hs'
      have hreads := (readText_some.1 hs).trans (readText_some.1 hs')
      have hsome : afterQualifier? (· == ns) t = some s'.rest :=
        afterQualifier?_iff.2 ⟨ns, hne, hw, beq_self_eq_true ns, by simpa using hreads.rest⟩
      simp [hq] at hsome
    rw [hrd]
    simp
  obtain ⟨w, -, -, hwns, rfl⟩ := afterQualifier?_iff.1 hq
  obtain rfl := eq_of_beq hwns
  have hrd : readText w ⟨n, l, w ++ '.' :: rest⟩ = some ⟨n + w.length, w.getLast?.or l, '.' :: rest⟩ :=
    readText_some.2 ⟨rfl, rfl, rfl⟩
  obtain ⟨c, w, rfl⟩ := exists_cons_of_ne_nil hne
  have hhead : isWordSide ((c :: w) ++ '.' :: rest).head? = true := hw c (by simp)
  rw [hhead, hrd]
  cases hl : isWordSide l <;> simp [readText]

lemma searchFrom_qualifier (hne : ns ≠ []) (hw : ∀ c ∈ ns, isWordChar c) (n : Nat) (l : Option Char) (t : Text) :
    match (qualifier ns).searchFrom false n l t with
    | none => unqualify (· == ns) (isWordSide l) t = t
    | some m => n ≤ m.start.pos ∧ m.start.pos < m.stop.pos ∧ m.stop.last = some '.' ∧ m.stop.rest.length < t.length
        ∧ unqualify (· == ns) (isWordSide l) t = t.take (m.start.pos - n) ++ unqualify (· == ns) false m.stop.rest := by
  induction t generalizing n l with
  | nil =>
    have hnone : afterQualifier? (· == ns) [] = none := rfl
    rw [searchFrom, if_neg (by simp), matchAt?_qualifier hne hw, hnone]
    simp
  | cons c t ih =>
    rw [searchFrom, if_neg (by simp), matchAt?_qualifier hne hw]
    by_cases hfnd : isWordSide l = false ∧ ∃ rest, afterQualifier? (· == ns) (c :: t) = some rest
    · obtain ⟨hl, rest, hq⟩ := hfnd
      simp only [hl, hq, Bool.false_eq_true, if_false, map_some]
      refine ⟨le_rfl, by omega, trivial, length_afterQualifier? hq, ?_⟩
      rw [Nat.sub_self, take_zero]
      exact unqualify_of_some hq
    -- Nothing is found here: the character stays and the search goes on behind it.
    have hkp : unqualify (· == ns) (isWordSide l) (c :: t) = c :: unqualify (· == ns) (isWordChar c) t
        ∧ (if isWordSide l then none else (afterQualifier? (· == ns) (c :: t)).map fun rest =>
          (⟨⟨n, l, c :: t⟩, ⟨n + ns.length + 1, some '.', rest⟩, []⟩ : Match)) = none := by
      cases hl : isWordSide l with
      | true => exact ⟨unqualify_true_cons, rfl⟩
      | false =>
        have hq : afterQualifier? (· == ns) (c :: t) = none := by
          rw [eq_none_iff_forall_ne_some]
          exact fun rest h => hfnd ⟨hl, rest, h⟩
        exact ⟨unqualify_of_none hq false, by simp [hq]⟩
    have hrest := ih (n + 1) (some c)
    rw [isWordSide] at hrest
    rw [hkp.1, hkp.2]
    rcases hs : (qualifier ns).searchFrom false (n + 1) (some c) t with _ | m <;> rw [hs] at hrest <;>
      dsimp only at hrest ⊢
    · rw [hrest]
    obtain ⟨hle, hlt, hlast, hlen, heq⟩ := hrest
    refine ⟨by omega, hlt, hlast, by simp; omega, ?_⟩
    rw [heq, show m.start.pos - n = m.start.pos - (n + 1) + 1 by omega, take_succ_cons, cons_append]

lemma substituteFrom_qualifier (hne : ns ≠ []) (hw : ∀ c ∈ ns, isWordChar c) (fuel : Nat) :
    ∀ s : Place, s.rest.length < fuel → substituteFrom (fun _ => []) s ((qualifier ns).findAllFrom fuel false s)
        = unqualify (· == ns) (isWordSide s.last) s.rest := by
  induction fuel with
  | zero => intro s h; omega
  | succ fuel ih =>
    intro s hlen
    have hsrch := searchFrom_qualifier hne hw s.pos s.last s.rest
    rw [findAllFrom]
    rcases hs : (qualifier ns).searchFrom false s.pos s.last s.rest with _ | m <;> rw [hs] at hsrch <;>
      dsimp only at hsrch ⊢
    · rw [substituteFrom, hsrch]
    obtain ⟨-, hlt, hlast, hshort, heq⟩ := hsrch
    have hemp : m.isEmpty = false := by
      rw [Match.isEmpty, beq_eq_false_iff_ne]
      omega
    have hgo := ih m.stop (by omega)
    rw [hlast] at hgo
    rw [substituteFrom, hemp, hgo, heq, append_nil]
    rfl

lemma dropNamespace_eq (hw : ∀ c ∈ ns, isWordChar c) (line : Text) :
    dropNamespace line ns = unqualify (· == ns) false line := by
  by_cases hne : ns = []
  · subst hne
    exact (unqualify_of_not (fun w hw => by simpa using hw) false line).symm
  have hfuel := substituteFrom_qualifier hne hw (2 * line.length + 2) (.start line) (by simp [Place.start]; omega)
  rw [dropNamespace, if_neg (by simp [hne])]
  exact hfuel

/-- Dropping names one after another is dropping them all at once. -/
theorem dropNamespaces_eq (hw : ∀ n ∈ namespaces, ∀ c ∈ n, isWordChar c) (line : Text) :
    dropNamespaces namespaces line = unqualify namespaces.contains false line := by
  induction namespaces generalizing line with
  | nil => exact (unqualify_of_not (fun _ _ => rfl) false line).symm
  | cons n ns ih =>
    have hstep : dropNamespaces (n :: ns) line = dropNamespaces ns (dropNamespace line n) := rfl
    rw [hstep, ih (fun m hm => hw m (by simp [hm])), dropNamespace_eq (hw n (by simp)), unqualify_unqualify]
    congr 1
    funext w
    rw [contains_cons, Bool.or_comm]

/-! ### What is dropped -/

/-- A word that `p` names stands before a point. `inWord` says that the text goes on with a word that began before
it. -/
def QualifiedFrom (p : Text → Bool) (inWord : Bool) (t : Text) : Prop :=
  ∃ u w v, t = u ++ (w ++ '.' :: v) ∧ (u.getLast?.map isWordChar).getD inWord = false
    ∧ w ≠ [] ∧ (∀ c ∈ w, isWordChar c) ∧ p w

/-- One of the names stands in the text as a word of its own, before a point. -/
def Qualified (names : List Text) (t : Text) : Prop := QualifiedFrom names.contains false t

lemma length_unqualify_le (inWord : Bool) (t : Text) : (unqualify p inWord t).length ≤ t.length := by
  fun_induction unqualify p inWord t with
  | case1 => simp
  | case2 inWord c t rest h ih =>
    cases inWord with
    | true => simp at h
    | false => exact ih.trans (length_afterQualifier? h).le
  | case3 inWord c t h ih => exact Nat.succ_le_succ ih

lemma qualifiedFrom_cons {inWord : Bool} (h : inWord = false → afterQualifier? p (c :: t) = none) :
    QualifiedFrom p inWord (c :: t) ↔ QualifiedFrom p (isWordChar c) t := by
  constructor
  · rintro ⟨u, w, v, heq, hu, hne, hw, hp⟩
    cases u with
    | nil =>
      have hsome := afterQualifier?_iff.2 ⟨w, hne, hw, hp, heq⟩
      rw [h hu] at hsome
      simp at hsome
    | cons d u =>
      obtain ⟨rfl, rfl⟩ := heq
      refine ⟨u, w, v, rfl, ?_, hne, hw, hp⟩
      rw [getLast?_cons] at hu
      cases hlast : u.getLast? <;> simpa [hlast] using hu
  rintro ⟨u, w, v, rfl, hu, hne, hw, hp⟩
  refine ⟨c :: u, w, v, rfl, ?_, hne, hw, hp⟩
  rw [getLast?_cons]
  cases hlast : u.getLast? <;> simpa [hlast] using hu

lemma unqualify_self_iff (inWord : Bool) (t : Text) : unqualify p inWord t = t ↔ ¬ QualifiedFrom p inWord t := by
  induction t generalizing inWord with
  | nil =>
    simp only [unqualify_nil, true_iff]
    rintro ⟨u, w, v, heq, -⟩
    simp at heq
  | cons c t ih =>
    by_cases hfnd : inWord = false ∧ ∃ rest, afterQualifier? p (c :: t) = some rest
    · obtain ⟨rfl, rest, hq⟩ := hfnd
      obtain ⟨w, hne, hw, hp, heq⟩ := afterQualifier?_iff.1 hq
      have hshort := length_unqualify_le (p := p) false rest
      have hrest := length_afterQualifier? hq
      refine iff_of_false ?_ (not_not_intro ⟨[], w, rest, heq, rfl, hne, hw, hp⟩)
      intro hsame
      rw [unqualify_of_some hq] at hsame
      rw [hsame] at hshort
      omega
    have hnone : inWord = false → afterQualifier? p (c :: t) = none := by
      intro hin
      rw [eq_none_iff_forall_ne_some]
      exact fun rest h => hfnd ⟨hin, rest, h⟩
    have hkp : unqualify p inWord (c :: t) = c :: unqualify p (isWordChar c) t := by
      cases inWord with
      | true => exact unqualify_true_cons
      | false => exact unqualify_of_none (hnone rfl) false
    rw [hkp, qualifiedFrom_cons hnone, ← ih, List.cons.injEq, and_iff_right rfl]

/-! ### Quotes -/

/-- A character that is neither of a word nor a point parts what is read before it from what is read behind it. -/
lemma afterQualifier?_append (hc : isWordChar c = false) (hdot : c ≠ '.') (u v : Text) :
    afterQualifier? p (u ++ c :: v) = (afterQualifier? p u).map (· ++ c :: v) := by
  ext rest
  rw [map_eq_some_iff, afterQualifier?_iff]
  constructor
  · rintro ⟨w, hne, hw, hp, heq⟩
    have hmem : c ∉ w ++ ['.'] := by
      rw [mem_append, mem_singleton, not_or]
      exact ⟨fun hcw => by simp [hw c hcw] at hc, hdot⟩
    rw [show w ++ '.' :: rest = (w ++ ['.']) ++ rest by simp, append_eq_append_iff] at heq
    obtain ⟨a, hwa, hva⟩ | ⟨a, hua, hra⟩ := heq
    · cases a with
      | nil =>
        refine ⟨[], afterQualifier?_iff.2 ⟨w, hne, hw, hp, ?_⟩, hva⟩
        simpa using hwa.symm
      | cons d a =>
        obtain ⟨rfl, -⟩ := cons.inj hva
        exact absurd (by simp [hwa]) hmem
    · exact ⟨a, afterQualifier?_iff.2 ⟨w, hne, hw, hp, by simpa using hua⟩, hra.symm⟩
  rintro ⟨r, h, rfl⟩
  obtain ⟨w, hne, hw, hp, rfl⟩ := afterQualifier?_iff.1 h
  exact ⟨w, hne, hw, hp, by simp⟩

lemma unqualify_append_cons (hc : isWordChar c = false) (hdot : c ≠ '.') (inWord : Bool) (u v : Text) :
    unqualify p inWord (u ++ c :: v) = unqualify p inWord u ++ c :: unqualify p false v := by
  induction h : u.length using Nat.strong_induction_on generalizing inWord u with
  | _ n ih =>
  subst h
  cases u with
  | nil => rw [nil_append, unqualify_cons hc, unqualify_nil, nil_append]
  | cons d u =>
    have hnext b := ih u.length (by simp) b u rfl
    have haft := afterQualifier?_append (p := p) hc hdot (d :: u) v
    cases inWord with
    | true => rw [cons_append, unqualify_true_cons, unqualify_true_cons, hnext, cons_append]
    | false =>
      rcases hq : afterQualifier? p (d :: u) with _ | r
      · rw [hq, cons_append] at haft
        rw [cons_append, unqualify_of_none haft, unqualify_of_none hq, hnext, cons_append]
      rw [hq] at haft
      rw [unqualify_of_some haft, unqualify_of_some hq]
      exact ih r.length (length_afterQualifier? hq) false r rfl

lemma dropNamespaces_quoted (hw : ∀ n ∈ namespaces, ∀ c ∈ n, isWordChar c) {quote : Char} (hq : Nesting.isQuote quote)
    (u s v : Text) : dropNamespaces namespaces (u ++ quote :: (s ++ quote :: v)) = dropNamespaces namespaces u
        ++ quote :: (dropNamespaces namespaces s ++ quote :: dropNamespaces namespaces v) := by
  have hpl : isWordChar quote = false ∧ quote ≠ '.' := by
    rw [Nesting.isQuote, Bool.or_eq_true, beq_iff_eq, beq_iff_eq] at hq
    rcases hq with rfl | rfl <;> decide
  simp [dropNamespaces_eq hw, unqualify_append_cons hpl.1 hpl.2]

lemma dropNamespaces_self_iff (hw : ∀ n ∈ namespaces, ∀ c ∈ n, isWordChar c) (s : Text) :
    dropNamespaces namespaces s = s ↔ ¬ Qualified namespaces s := by
  rw [dropNamespaces_eq hw]
  exact unqualify_self_iff false s

lemma dropNamespaces_perm (hw : ∀ n ∈ namespaces, ∀ c ∈ n, isWordChar c) (hperm : names.Perm namespaces) :
    dropNamespaces names = dropNamespaces namespaces := by
  funext line
  have hcontains : names.contains = namespaces.contains := by
    funext w
    rw [Bool.eq_iff_iff, contains_iff_mem, contains_iff_mem, hperm.mem_iff]
  rw [dropNamespaces_eq (fun n hn => hw n (hperm.mem_iff.1 hn)), dropNamespaces_eq hw, hcontains]

end Source
namespace Program
variable {ctx : Context} {p : Prepared} {names : List Text}

lemma lines_congr {namespaces : List Text} (h : dropNamespaces names = dropNamespaces namespaces)
    (ls : List Text) : ∀ n s, lines ctx names n s ls = lines ctx namespaces n s ls := by
  induction ls with
  | nil => exact fun n s => rfl
  | cons raw rest ih =>
    intro n s
    have hln : line ctx names n raw s = line ctx namespaces n raw s := by rw [line, line, h]
    rw [lines]
    congr 1
    funext s'
    exact ih (n + 1) s'

/-- If the names of the imported files are words, a script is the same program whatever the order in which the names
are dropped. Between quotes they are dropped as well: what stands there is kept exactly if none of them stands in it as
a word before a point. -/
theorem run_names_perm (hw : ∀ n ∈ p.namespaces, n.all isWordChar) (hperm : names.Perm p.namespaces) :
    (∀ line, dropNamespaces names line = dropNamespaces p.namespaces line)
      ∧ run ctx { p with namespaces := names } = run ctx p
      ∧ ∀ quote, Nesting.isQuote quote → ∀ u s v,
        dropNamespaces p.namespaces (u ++ quote :: (s ++ quote :: v))
            = dropNamespaces p.namespaces u
              ++ quote :: (dropNamespaces p.namespaces s ++ quote :: dropNamespaces p.namespaces v)
          ∧ (dropNamespaces p.namespaces s = s ↔ ¬ Source.Qualified p.namespaces s) := by
  have hword : ∀ n ∈ p.namespaces, ∀ c ∈ n, isWordChar c := fun n hn c hc => List.all_eq_true.1 (hw n hn) c hc
  have hsame := dropNamespaces_perm hword hperm
  refine ⟨fun line => by rw [hsame], ?_, fun quote hqt u s v =>
    ⟨dropNamespaces_quoted hword hqt u s v, dropNamespaces_self_iff hword s⟩⟩
  rw [run, run, lines_congr hsame]

end Program
namespace Data

/-! ### Scripts with imports -/

/-- A script that imports two files and writes their names before an action. -/
def twoImports : Files :=
  [("/main", "import lib\nimport util\nevent(e) \x7b\nlib.a.b()\nutil.lib.a.b()\n\x7d\n"), ("/lib.mldsl", []),
    ("/util.mldsl", [])]

lemma twoImports_passes : (passes (sample.ready twoImports).result fun _ s =>
      decide (s.done.map (fun f => f.left.actions.length) = [2]))
    ∧ (sample.ready twoImports).result.toOption.all
      fun r => r.2.namespaces == texts ["lib", "util"] := by
  decide +kernel

lemma twoImports_namespaces {ctx : Program.Context} {p : Program.Prepared}
    (h : (sample.ready twoImports).result = .ok (ctx, p)) :
    p.namespaces = texts ["lib", "util"] := by
  have hall := twoImports_passes.2
  rw [h] at hall
  exact eq_of_beq hall

theorem run_names_perm_twoImports : ∃ ctx p s,
    (sample.ready twoImports).result = .ok (ctx, p)
      ∧ (Program.run ctx p).result = .ok s
      ∧ s.done.map (fun f => f.left.actions.length) = [2]
      ∧ p.namespaces = texts ["lib", "util"]
      ∧ Program.run ctx { p with namespaces := texts ["util", "lib"] } = Program.run ctx p
      ∧ dropNamespaces p.namespaces "lib.say('see libs.txt')" = "say('see libs.txt')".toList := by
  obtain ⟨ctx, p, s, hset, hrun, htest⟩ := exists_of_passes twoImports_passes.1
  have hnms := twoImports_namespaces hset
  have hperm : (texts ["util", "lib"]).Perm p.namespaces := by
    rw [hnms]
    exact List.Perm.swap _ _ _
  have hword : ∀ n ∈ p.namespaces, n.all isWordChar := by
    rw [hnms]
    decide
  obtain ⟨-, hsame, hquot⟩ : _ ∧ Program.run ctx { p with namespaces := texts ["util", "lib"] } = Program.run ctx p
    ∧ _ := run_names_perm hword hperm
  refine ⟨ctx, p, s, hset, hrun, of_decide_eq_true htest, hnms, hsame, ?_⟩
  have hln := (hquot '\'' (by decide) "lib.say(" "see libs.txt" ")").1
  rw [hnms] at hln ⊢
  exact hln.trans (by decide +kernel)

/-- A script that imports a file and another one whose name goes on with a point. -/
def overlappingImports : Files :=
  [("/main", "import x\nimport x.a.mldsl\nevent(e) \x7b\nx.a.b()\n\x7d\n"), ("/x.mldsl", []), ("/x.a.mldsl", [])]

def noteSample : Data :=
  { sample with
    api := .value (.obj [
      sampleSelect [], sampleCall,
      ("a", .obj [("b", sampleSpec "Игра" "b" [sampleParam "text" "TEXT" 9])])]) }

def quotedImport : Files :=
  [("/main", "import lib\nevent(e) \x7b\na.b(\"see lib.txt\")\n\x7d\n"), ("/lib.mldsl", [])]

/-- The names `x` and `x.a` overlap, and their order decides whether a line is an action; a name between quotes is
dropped. -/
theorem exists_names_order :
    (∃ ctx p s s', (sample.ready overlappingImports).result = .ok (ctx, p)
      ∧ (Program.run ctx p).result = .ok s
      ∧ (Program.run ctx { p with namespaces := p.namespaces.reverse }).result = .ok s'
      ∧ s.done.map (fun f => f.left.actions.length) = [1] ∧ s'.done.map (fun f => f.left.actions.length) = [0])
    ∧ ∃ es, (noteSample.plan quotedImport).result = .ok es
      ∧ es.map (fun e => e.args) = [some "no".toList, some "slot(9)=text(see txt)".toList] := by
  have horder : (sample.ready overlappingImports).result.toOption.any
      fun ready => passes (.ok ready) (fun _ s => s.done.map (fun f => f.left.actions.length) == [1])
        && passes (.ok (ready.1, { ready.2 with namespaces := ready.2.namespaces.reverse }))
          (fun _ s => s.done.map (fun f => f.left.actions.length) == [0]) := by
    decide +kernel
  have hquot : (noteSample.plan quotedImport).result.toOption.any
      fun es => decide (es.map (fun e => e.args) = [some "no".toList, some "slot(9)=text(see txt)".toList]) := by
    decide +kernel
  obtain ⟨es, hes, hargs⟩ := exists_of_any hquot
  rcases hset : (sample.ready overlappingImports).result with e | ⟨ctx, p⟩
  · rw [hset] at horder
    contradiction
  rw [hset] at horder
  obtain ⟨h, h'⟩ := Bool.and_eq_true_iff.1 horder
  obtain ⟨_, _, s, heq, hrun, hs⟩ := exists_of_passes h
  obtain ⟨_, _, s', heq', hrun', hs'⟩ := exists_of_passes h'
  cases heq
  cases heq'
  exact ⟨⟨ctx, p, s, s', rfl, hrun, hrun', eq_of_beq hs, eq_of_beq hs'⟩, es, hes, of_decide_eq_true hargs⟩

end Data
end BlockScript
