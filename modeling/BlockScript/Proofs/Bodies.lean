import BlockScript.Proofs.Preparation

/-!
# Bodies by indentation

The bodies of templates and multiple selections are the lines behind their first lines indented more. Scripts
that differ by comments which end no body, and by the margins of lines outside bodies (`Layout.Loose`), have the same
templates and the same multiple selections (`Template.collect_loose`, `Multiselect.expandFrom_loose`), so that they are
written out alike (`Program.writtenOut_loose`).
-/

open List Except
namespace BlockScript
open Text Layout Template Multiselect
open Nesting (top)
open Pattern (fits)
open Script (Error)
namespace Layout

/-! ### Bodies -/

/-- A line that is empty or indented by more than `k`. Such lines belong to a body whose first line is indented by
`k`. -/
def isDeeper (k : Nat) (l : Text) : Bool := allBlank l || k < (indent l).length

def leads (p : Pattern) (l : Text) : Bool := p.fits (trim l)

/-- The body that a line belongs to or begins, by the indentation of its first line. -/
def bodyOf (p : Pattern) (K : Option Nat) (l : Text) : Option Nat :=
  if K.any (isDeeper · l) then K else if leads p l then some (indent l).length else none

/-- The next line that says something is not in the body. -/
def Leaves (k : Nat) (ls : List Text) : Prop := ∀ l ∈ ls.find? fun l => !isIdle l, isDeeper k l = false
deriving Decidable

/-- No body begins on a line that says nothing. -/
def Quiet (p : Pattern) : Prop := ∀ l, isIdle l → leads p l = false

variable {p : Pattern} {K : Option Nat} {k : Nat} {l l' : Text} {ls ls' : List Text}

lemma leads_congr (p : Pattern) (h : trimStart l = trimStart l') : leads p l = leads p l' := by
  rw [leads, leads, ← trim_trimStart l, h, trim_trimStart]

lemma isIdle_congr (h : trimStart l = trimStart l') : isIdle l = isIdle l' := by
  rw [← isIdle_trimStart l, h, isIdle_trimStart]

@[simp] lemma trimStart_trimStart (l : Text) : trimStart (trimStart l) = trimStart l :=
  dropWhile_idempotent ..

lemma codeLines_cons_congr (h : trimStart l = trimStart l') (hls : codeLines ls = codeLines ls') :
    codeLines (l :: ls) = codeLines (l' :: ls') := by
  cases hl : isIdle l with
  | true => rw [codeLines_idle hl, codeLines_idle (isIdle_congr h ▸ hl), hls]
  | false => rw [codeLines_cons hl, codeLines_cons (isIdle_congr h ▸ hl), hls, h]

lemma bodyOf_of_deeper (h : isDeeper k l) : bodyOf p (some k) l = some k := by simp [bodyOf, h]

lemma bodyOf_of_not_deeper (h : isDeeper k l = false) : bodyOf p (some k) l = bodyOf p none l := by simp [bodyOf, h]

lemma bodyOf_not_leads (h : leads p l = false) : bodyOf p none l = none := by simp [bodyOf, h]

/-- Some lines that say nothing are left out, and some lines outside bodies have other margins. The body that is open
is known by the indentation of its first line. A line left out ends no body that would go on. -/
inductive Loose (p : Pattern) : Option Nat → List Text → List Text → Prop
  | nil (K : Option Nat) : Loose p K [] []
  | keep {K : Option Nat} (l : Text) {ls ls' : List Text} (rest : Loose p (bodyOf p K l) ls ls') :
    Loose p K (l :: ls) (l :: ls')
  | drop {K : Option Nat} {l : Text} {ls ls' : List Text} (idle : isIdle l)
    (inert : ∀ k, K = some k → isDeeper k l ∨ Leaves k ls') (rest : Loose p (bodyOf p K l) ls ls') :
      Loose p K (l :: ls) ls'
  | shift {l l' : Text} {ls ls' : List Text} (same : trimStart l = trimStart l') (plain : leads p l = false)
    (rest : Loose p none ls ls') : Loose p none (l :: ls) (l' :: ls')

lemma Loose.codeLines (h : Loose p K ls ls') : codeLines ls = codeLines ls' := by
  induction h with
  | nil => rfl
  | keep l _ ih => exact codeLines_cons_congr rfl ih
  | drop idle _ _ ih => rw [codeLines_idle idle, ih]
  | shift same _ _ ih => exact codeLines_cons_congr same ih

lemma Leaves.of_cons_isIdle (h : Leaves k (l :: ls)) (hl : isIdle l) : Leaves k ls := by
  intro l' hl'
  exact h l' (by simpa [hl] using hl')

lemma Leaves.not_isDeeper (h : Leaves k (l :: ls)) (hl : isIdle l = false) : isDeeper k l = false :=
  h l (by simp [hl])

lemma Loose.dropWhile_right (hp : Quiet p) (h : Loose p none ls ls') (hlv : Leaves k ls') :
    (ls'.takeWhile (isDeeper k)).filter (fun l => !isIdle l) = [] ∧ Loose p none ls (ls'.dropWhile (isDeeper k)) := by
  generalize hK : none = K at h
  induction h with
  | nil => exact ⟨rfl, .nil _⟩
  | @keep K l ls ls' rest ih =>
    subst hK
    cases hin : isDeeper k l with
    | false => exact ⟨by simp [hin], by simpa [hin] using .keep l rest⟩
    | true =>
      have hidle : isIdle l := by
        by_contra hl
        simp [hlv.not_isDeeper (by simpa using hl)] at hin
      obtain ⟨hcd, hlo⟩ := ih (hlv.of_cons_isIdle hidle) (bodyOf_not_leads (hp l hidle)).symm
      rw [takeWhile_cons_of_pos hin, dropWhile_cons_of_pos hin]
      exact ⟨by simpa [hidle] using hcd, .drop hidle nofun hlo⟩
  | @drop K l ls ls' idle inert rest ih =>
    subst hK
    obtain ⟨hcd, hlo⟩ := ih hlv (bodyOf_not_leads (hp l idle)).symm
    exact ⟨hcd, .drop idle nofun hlo⟩
  | @shift l l' ls ls' same plain rest ih =>
    cases hin : isDeeper k l' with
    | false => exact ⟨by simp [hin], by simpa [hin] using .shift same plain rest⟩
    | true =>
      have hidle : isIdle l' := by
        by_contra hl
        simp [hlv.not_isDeeper (by simpa using hl)] at hin
      obtain ⟨hcd, hlo⟩ := ih (hlv.of_cons_isIdle hidle) rfl
      rw [takeWhile_cons_of_pos hin, dropWhile_cons_of_pos hin]
      refine ⟨by simpa [hidle] using hcd, .drop (isIdle_congr same ▸ hidle) nofun ?_⟩
      rwa [bodyOf_not_leads plain]

/-- Bodies hold the same lines that say something, and what follows them differs as little. -/
theorem Loose.body (hp : Quiet p) (h : Loose p (some k) ls ls') :
    (ls.takeWhile (isDeeper k)).filter (fun l => !isIdle l) = (ls'.takeWhile (isDeeper k)).filter (fun l => !isIdle l)
      ∧ Loose p none (ls.dropWhile (isDeeper k)) (ls'.dropWhile (isDeeper k)) := by
  generalize hK : some k = K at h
  induction h with
  | nil => exact ⟨rfl, .nil _⟩
  | @keep K l ls ls' rest ih =>
    subst hK
    cases hin : isDeeper k l with
    | true =>
      obtain ⟨hcd, hlo⟩ := ih (bodyOf_of_deeper hin).symm
      simpa [hin, filter_cons, hcd] using hlo
    | false =>
      simpa [hin] using Loose.keep l (bodyOf_of_not_deeper hin ▸ rest)
  | @drop K l ls ls' idle inert rest ih =>
    subst hK
    cases hin : isDeeper k l with
    | true =>
      obtain ⟨hcd, hlo⟩ := ih (bodyOf_of_deeper hin).symm
      simpa [hin, idle, hcd] using hlo
    | false =>
      -- the line ends the body here, and nothing but idle lines is left of the body there
      have hneg : ¬ isDeeper k l = true := by simp [hin]
      have hnone : bodyOf p (some k) l = none := by
        rw [bodyOf_of_not_deeper hin, bodyOf_not_leads (hp l idle)]
      obtain ⟨hcd, hlo⟩ := (hnone ▸ rest).dropWhile_right hp ((inert k rfl).resolve_left hneg)
      rw [takeWhile_cons_of_neg hneg, dropWhile_cons_of_neg hneg, hcd]
      refine ⟨rfl, .drop idle nofun ?_⟩
      rwa [bodyOf_not_leads (hp l idle)]
  | shift => contradiction

/-! ### Margins -/

lemma isBlank_of_mem_indent {c : Char} (h : c ∈ indent l) : isBlank c := by
  have hc := mem_takeWhile_imp h
  rcases Bool.or_eq_true_iff.mp hc with hc | hc <;> rw [beq_iff_eq.mp hc] <;> rfl

lemma trimStart_append {u t : Text} (h : ∀ c ∈ u, isBlank c) : trimStart (u ++ t) = trimStart t := by
  rw [trimStart, trimStart, dropWhile_append_of_pos h]

lemma trimStart_drop (h : k ≤ (indent l).length) : trimStart (l.drop k) = trimStart l := by
  obtain ⟨t, ht⟩ : indent l <+: l := takeWhile_prefix _
  have hmar : ∀ c ∈ (indent l).drop k, isBlank c := fun c hc => isBlank_of_mem_indent (mem_of_mem_drop hc)
  calc trimStart (l.drop k)
      = trimStart ((indent l).drop k ++ t) := by rw [← drop_append_of_le_length h, ht]
    _ = trimStart t := trimStart_append hmar
    _ = trimStart l := by
      rw [← trimStart_append (fun c hc => isBlank_of_mem_indent hc), ht]

lemma isIdle_of_allBlank (h : allBlank l) : isIdle l := by
  have htrim : trim l = [] := by
    rw [trim, trimBy, dropWhile_eq_nil_iff.mpr (by simpa [allBlank] using h)]
    rfl
  simp [isIdle, htrim]

lemma codeLines_map {f : Text → Text}
    (h : ∀ l ∈ ls, isIdle (f l) = isIdle l ∧ (isIdle l = false → trimStart (f l) = trimStart l)) :
    codeLines (ls.map f) = codeLines ls := by
  induction ls with
  | nil => rfl
  | cons l ls ih =>
    obtain ⟨hidle, hsame⟩ := h l (by simp)
    have ih := ih fun l hl => h l (by simp [hl])
    cases hl : isIdle l with
    | true => rw [map_cons, codeLines_idle hl, codeLines_idle (hidle.trans hl), ih]
    | false =>
      rw [map_cons, codeLines_cons hl, codeLines_cons (hidle.trans hl), ih, hsame hl]

lemma exists_leads_of_codeLines (hp : Quiet p) (h : codeLines ls = codeLines ls') (hl : l ∈ ls) (hld : leads p l) :
    ∃ l' ∈ ls', leads p l' := by
  have hcd : isIdle l = false := by
    by_contra hidle
    simp [hp l (by simpa using hidle)] at hld
  have hmem : trimStart l ∈ codeLines ls' := by
    rw [← h]
    exact mem_map_of_mem (mem_filter.mpr ⟨hl, by simp [hcd]⟩)
  obtain ⟨l', hl', hsame⟩ := mem_map.mp hmem
  exact ⟨l', (mem_filter.mp hl').1, by rwa [leads_congr p hsame]⟩

lemma exists_of_cons_le {n : Nat} (h : (l :: ls).length ≤ n) : ∃ m, n = m + 1 ∧ ls.length ≤ m :=
  ⟨n - 1, by simp at h; omega⟩

end Layout

/-! ### Templates -/

namespace Template
variable {T T' known known' : Table Template} {name l : Text} {ls ls' rest : List Text} {n n' : Nat}

/-- What of a template matters: its parameters, and the lines that say something. -/
def gist (t : Template) : List Text × Table Text × List Text := (t.params, t.defaults, codeLines t.body)

def gists (T : Table Template) : Table (List Text × Table Text × List Text) := T.map fun e => (e.1, e.2.gist)

lemma get?_gists (name : Text) (T : Table Template) : (gists T).get? name = (T.get? name).map gist := by
  induction T with
  | nil => rfl
  | cons e T ih =>
    obtain ⟨k, t⟩ := e
    simp only [Table.get?, gists, map_cons, lookup_cons] at ih ⊢
    cases name == k with
    | true => rfl
    | false => exact ih

lemma has_gists (name : Text) (T : Table Template) : (gists T).has name = T.has name := by
  simp [Table.has, gists, Function.comp_def]

lemma names_gists (T : Table Template) : (gists T).names = T.names := by
  simp [Table.names, gists]

lemma gists_set (name : Text) (t : Template) (T : Table Template) :
    gists (T.set name t) = (gists T).set name t.gist := by
  induction T with
  | nil => rfl
  | cons e T ih =>
    simp only [Table.set, gists, map_cons] at ih ⊢
    split
    · rfl
    · rw [map_cons, ih]

lemma quiet_headPattern : Quiet headPattern := by
  intro l hl
  rw [leads]
  rcases trim_of_idle hl with ht | ⟨u, ht⟩ <;> rw [ht] <;> rfl

lemma inBody_eq : Template.inBody = isDeeper 0 := by
  funext l
  simp only [Template.inBody, isDeeper]
  cases indent l <;> simp

lemma codeLines_unindent (ls : List Text) : codeLines (unindent ls) = codeLines ls := by
  refine codeLines_map fun l hl => ?_
  cases hbl : allBlank l with
  | true => simp [isIdle_of_allBlank hbl, show isIdle [] = true from rfl]
  | false =>
    have hmar : (((ls.filter fun l => !allBlank l).map fun l => (indent l).length).min?).getD 0
        ≤ (indent l).length := by
      cases hmin : ((ls.filter fun l => !allBlank l).map fun l => (indent l).length).min? with
      | none => exact Nat.zero_le _
      | some m =>
        exact (min?_eq_some_iff.mp hmin).2 _ (mem_map_of_mem (mem_filter.mpr ⟨hl, by simp [hbl]⟩))
    have hsame := trimStart_drop hmar
    exact ⟨isIdle_congr hsame, fun _ => hsame⟩

/-! ### Definitions -/

lemma collect_cons (n : Nat) (known : Table Template) (rest : List Text) (h : leads headPattern l = false) :
    collect (n + 1) known (l :: rest) = (collect n known rest).map fun r => (l :: r.1, r.2) := by
  have hnone : headPattern.match? (trim l) = none := by simpa [leads, fits] using h
  rw [collect, hnone]
  cases collect n known rest <;> rfl

lemma collect_cons_of_leads (n : Nat) (known : Table Template) (rest : List Text) {m : Pattern.Match}
    (h : headPattern.match? (trim l) = some m) : collect (n + 1) known (l :: rest) =
      if !(indent l).isEmpty then .error .templateIndented
      else if known.has (m.group 1) then .error (.templateTwice (m.group 1))
      else (params? (m.group 1) (trim (m.group 2))).bind fun r =>
        if (rest.takeWhile (isDeeper 0)).all allBlank then .error (.templateEmpty (m.group 1))
        else collect n (known.set (m.group 1) ⟨r.1, r.2, unindent (rest.takeWhile (isDeeper 0))⟩)
          (rest.dropWhile (isDeeper 0)) := by
  rw [collect, h, inBody_eq]
  simp only
  split
  · rfl
  split
  · rfl
  · cases params? (m.group 1) (trim (m.group 2)) <;> rfl

/-- Every definition has a line in its body that says something. -/
def Filled : List Text → Prop
  | [] => True
  | l :: rest => (leads headPattern l → ∃ c ∈ rest.takeWhile (isDeeper 0), isIdle c = false) ∧ Filled rest

instance decidableFilled : (ls : List Text) → Decidable (Filled ls)
  | [] => .isTrue trivial
  | l :: rest =>
    have := decidableFilled rest
    inferInstanceAs
      (Decidable ((leads headPattern l → ∃ c ∈ rest.takeWhile (isDeeper 0), isIdle c = false) ∧ Filled rest))

lemma Filled.dropWhile (h : Filled ls) (p : Text → Bool) : Filled (ls.dropWhile p) := by
  induction ls with
  | nil => trivial
  | cons l ls ih =>
    rw [dropWhile_cons]
    split
    · exact ih h.2
    · exact h

lemma not_all_allBlank (h : ∃ c ∈ ls, isIdle c = false) : ls.all allBlank = false := by
  obtain ⟨c, hc, hcd⟩ := h
  refine all_eq_false.mpr ⟨c, hc, fun hbl => ?_⟩
  simp [isIdle_of_allBlank hbl] at hcd

lemma exists_of_filter_eq (h : ls.filter (fun l => !isIdle l) = ls'.filter fun l => !isIdle l)
    (hls : ∃ c ∈ ls, isIdle c = false) : ∃ c ∈ ls', isIdle c = false := by
  obtain ⟨c, hc, hcd⟩ := hls
  have hmem : c ∈ ls'.filter fun l => !isIdle l := by
    rw [← h]
    exact mem_filter.mpr ⟨hc, by simp [hcd]⟩
  exact ⟨c, (mem_filter.mp hmem).1, hcd⟩

theorem collect_loose (h : Loose headPattern none ls ls') (hn : ls.length ≤ n) (hn' : ls'.length ≤ n')
    (hkn : gists known = gists known') (hfill : Filled ls) :
    (collect n known ls).map (fun r => (codeLines r.1, gists r.2))
      = (collect n' known' ls').map fun r => (codeLines r.1, gists r.2) := by
  have hmap : ∀ (x : Except Error (List Text × Table Template)) l,
      (x.map fun r => (l :: r.1, r.2)).map (fun r => (codeLines r.1, gists r.2))
        = (x.map fun r => (codeLines r.1, gists r.2)).map fun r => (codeLines [l] ++ r.1, r.2) := by
    intro x l
    cases x with
    | error e => rfl
    | ok r => simp [Except.map, ← codeLines_append]
  induction n using Nat.strongRecOn generalizing n' known known' ls ls' with
  | ind n ih =>
    cases h with
    | nil =>
      cases n <;> cases n' <;> simp [collect, Except.map, hkn]
    | @keep _ l ls ls' rest =>
      obtain ⟨n, rfl, hlen⟩ := exists_of_cons_le hn
      obtain ⟨n', rfl, hlen'⟩ := exists_of_cons_le hn'
      cases hmt : headPattern.match? (trim l) with
      | none =>
        have hld : leads headPattern l = false := by simp [leads, fits, hmt]
        rw [bodyOf_not_leads hld] at rest
        rw [collect_cons n known ls hld, collect_cons n' known' ls' hld, hmap, hmap,
          ih n (by omega) rest hlen hlen' hkn hfill.2]
      | some m =>
        have hld : leads headPattern l := by simp [leads, fits, hmt]
        have hsameHas : known.has (m.group 1) = known'.has (m.group 1) := by rw [← has_gists, hkn, has_gists]
        rw [collect_cons_of_leads n known ls hmt, collect_cons_of_leads n' known' ls' hmt, hsameHas]
        split
        · rfl
        next hindent =>
          have hbd : bodyOf headPattern none l = some 0 := by
            have hlen : (indent l).length = 0 := by simpa using hindent
            simp [bodyOf, hld, hlen]
          obtain ⟨hcd, hrest⟩ := (hbd ▸ rest).body quiet_headPattern
          have hfull := not_all_allBlank (hfill.1 hld)
          have hfull' := not_all_allBlank (exists_of_filter_eq hcd (hfill.1 hld))
          have hset : ∀ r : List Text × Table Text,
              gists (known.set (m.group 1) ⟨r.1, r.2, unindent (ls.takeWhile (isDeeper 0))⟩)
                = gists (known'.set (m.group 1) ⟨r.1, r.2, unindent (ls'.takeWhile (isDeeper 0))⟩) := by
            intro r
            rw [gists_set, gists_set, hkn, gist, gist, codeLines_unindent, codeLines_unindent, codeLines, codeLines,
              hcd]
          split
          · rfl
          cases params? (m.group 1) (trim (m.group 2)) with
          | error e => rfl
          | ok r =>
            simp only [hfull, hfull']
            exact ih n (by omega) hrest (Nat.le_trans (length_dropWhile_le _ _) hlen)
              (Nat.le_trans (length_dropWhile_le _ _) hlen') (hset r) (hfill.2.dropWhile _)
    | @drop _ l ls ls' idle inert rest =>
      obtain ⟨n, rfl, hlen⟩ := exists_of_cons_le hn
      have hld := quiet_headPattern l idle
      rw [bodyOf_not_leads hld] at rest
      rw [collect_cons n known ls hld, hmap, codeLines_idle idle, ih n (by omega) rest hlen hn' hkn hfill.2]
      cases collect n' known' ls' <;> rfl
    | @shift l l' ls ls' same plain rest =>
      obtain ⟨n, rfl, hlen⟩ := exists_of_cons_le hn
      obtain ⟨n', rfl, hlen'⟩ := exists_of_cons_le hn'
      have hsame : codeLines [l] = codeLines [l'] := (Loose.shift same plain (.nil none)).codeLines
      rw [collect_cons n known ls plain,
        collect_cons n' known' ls' (leads_congr headPattern same ▸ plain), hmap, hmap, hsame,
        ih n (by omega) rest hlen hlen' hkn hfill.2]

/-! ### Calls -/

lemma read_top_of_blank {c : Char} (h : isBlank c) : top.read c = top := by
  simpa using of_isBlank (p := (top.read · == top)) rfl h

lemma substitute_cons {values : Table Text} {c : Char} {t : Text} (hc : isVarChar c = false)
    (hrd : top.read c = top) : substitute values (c :: t) = c :: substitute values t := by
  rw [substitute, substituteFrom]
  simp [hc, hrd, substitute]

lemma substitute_append_left {values : Table Text} {u t : Text} (h : ∀ c ∈ u, isBlank c) :
    substitute values (u ++ t) = u ++ substitute values t := by
  induction u with
  | nil => rfl
  | cons c u ih =>
    have hc := h c (by simp)
    rw [cons_append, substitute_cons (isVarChar_of_blank hc) (read_top_of_blank hc),
      ih fun d hd => h d (by simp [hd]), cons_append]

lemma trimStart_substitute (values : Table Text) (l : Text) :
    trimStart (substitute values l) = trimStart (substitute values (trimStart l)) := by
  have hbl : ∀ c ∈ l.takeWhile isBlank, isBlank c := fun c hc => mem_takeWhile_imp hc
  have hspl : l.takeWhile isBlank ++ trimStart l = l := takeWhile_append_dropWhile
  rw [← hspl, substitute_append_left hbl, trimStart_append hbl, hspl]

lemma isIdle_substitute (values : Table Text) (h : isIdle l) : isIdle (substitute values l) := by
  have hsame : trimStart (substitute values l) = trimStart (substitute values (trimStart l)) :=
    trimStart_substitute values l
  rw [isIdle_congr hsame]
  rcases isIdle_iff.mp h with ht | ⟨t, ht⟩
  · rw [ht]
    rfl
  rw [ht]
  exact isIdle_iff.mpr (.inr ⟨_, rfl⟩)

/-- What a call says does not depend on the margins in the template and of the call, nor on comments. -/
lemma codeLines_instantiate (t : Template) (values : Table Text) (l : Text) :
    codeLines (instantiate t values (indent l)) = codeLines ((codeLines t.body).map (substitute values)) := by
  have hmar : ∀ c ∈ indent l, isBlank c := fun c hc => isBlank_of_mem_indent hc
  rw [instantiate]
  induction t.body with
  | nil => rfl
  | cons b body ih =>
    rw [map_cons]
    cases hidle : isIdle b with
    | true =>
      rw [codeLines_idle hidle, ← ih]
      refine codeLines_idle ?_
      split
      · rfl
      rw [isIdle_congr (trimStart_append hmar)]
      exact isIdle_substitute values hidle
    | false =>
      have hbl : allBlank b = false := by
        by_contra hbl
        simp [isIdle_of_allBlank (by simpa using hbl)] at hidle
      have hsame : trimStart (indent l ++ substitute values b)
          = trimStart (substitute values (trimStart b)) := by
        rw [trimStart_append hmar, trimStart_substitute]
      simp only [hbl]
      rw [codeLines_cons hidle]
      exact codeLines_cons_congr hsame ih

def expandLine (T : Table Template) (depth : Nat) (stack : List Text) (l : Text) : Except Error (List Text) :=
  (call? T l).elim (.ok [l]) fun c =>
    if stack.contains c.1 then .error (.templateCycle (stack ++ [c.1]))
    else (Template.bind c.1 c.2.1 (Arguments.ofText c.2.2)).bind fun values =>
      expandLines T depth (stack ++ [c.1]) (instantiate c.2.1 values (indent l))

lemma expandLines_succ (T : Table Template) (depth : Nat) (stack ls : List Text) :
    expandLines T (depth + 1) stack ls = (ls.mapM (expandLine T depth stack)).map List.flatten := by
  refine congrArg (fun f => Except.bind (ls.mapM f) fun parts => .ok parts.flatten) (funext fun l => ?_)
  rw [expandLine]
  cases call? T l <;> rfl

/-- Where every line gives alike with or without its margin, and lines that say nothing give themselves, all lines give
what those do that say something. -/
lemma mapM_codeLines {F G : Text → Except Error (List Text)} (hidle : ∀ l, isIdle l → F l = .ok [l])
    (hcd : ∀ l, (F l).map codeLines = (G (trimStart l)).map codeLines) (ls : List Text) :
    ((ls.mapM F).map List.flatten).map codeLines = (((codeLines ls).mapM G).map List.flatten).map codeLines := by
  have hcons : ∀ (F : Text → Except Error (List Text)) l ls,
      (((l :: ls).mapM F).map List.flatten).map codeLines = ((F l).map codeLines).bind fun out =>
        (((ls.mapM F).map List.flatten).map codeLines).map (out ++ ·) := by
    intro F l ls
    rw [mapM_cons]
    cases F l with
    | error e => rfl
    | ok out =>
      cases ls.mapM F with
      | error e => rfl
      | ok parts =>
        change ok (codeLines (out :: parts).flatten) = .ok (codeLines out ++ codeLines parts.flatten)
        rw [flatten_cons, codeLines_append]
  induction ls with
  | nil => rfl
  | cons l ls ih =>
    cases hl : isIdle l with
    | true =>
      rw [hcons, hidle l hl, ih, codeLines_idle hl]
      cases ((codeLines ls).mapM G) <;> simp [Except.bind, Except.map, codeLines_idle hl]
    | false => rw [codeLines_cons hl, hcons, hcons, hcd, ih]

lemma expandLine_of_idle (T : Table Template) (depth : Nat) (stack : List Text) (h : isIdle l) :
    expandLine T depth stack l = .ok [l] := by
  simp [expandLine, call?, h]

lemma bind_congr {t t' : Template} (h : t.gist = t'.gist) (name : Text) (args : Arguments) :
    Template.bind name t args = Template.bind name t' args := by
  obtain ⟨params, defaults, body⟩ := t
  obtain ⟨params', defaults', body'⟩ := t'
  obtain ⟨rfl, rfl, -⟩ : params = params' ∧ defaults = defaults' ∧ codeLines body = codeLines body' := by
    simpa [gist] using h
  rfl

/-- A call says the same for templates that say the same. -/
theorem expandLines_codeLines (hT : gists T = gists T') (depth : Nat) (stack ls : List Text) :
    (expandLines T depth stack ls).map codeLines = (expandLines T' depth stack (codeLines ls)).map codeLines := by
  induction depth generalizing stack ls T with
  | zero => rfl
  | succ depth ih =>
    rw [expandLines_succ, expandLines_succ]
    refine mapM_codeLines (fun l hl => expandLine_of_idle T depth stack hl) (fun l => ?_) ls
    have hself : codeLines [l] = codeLines [trimStart l] :=
      codeLines_cons_congr (trimStart_trimStart l).symm rfl
    have hget : ∀ name, (T.get? name).map gist = (T'.get? name).map gist := fun name => by
      rw [← get?_gists, hT, get?_gists]
    rw [expandLine, expandLine, call?, call?, isIdle_trimStart, trim_trimStart]
    split
    · exact congrArg ok hself
    cases bareCall? (trim l) with
    | none => exact congrArg ok hself
    | some c =>
      have hc := hget c.1
      simp only
      cases ht : T.get? c.1 with
      | none =>
        obtain ht' : T'.get? c.1 = none := by simpa [ht] using hc.symm
        simp only [ht']
        exact congrArg ok hself
      | some t =>
        obtain ⟨t', ht', hgist⟩ : ∃ t', T'.get? c.1 = some t' ∧ t'.gist = t.gist := by
          simpa [ht] using hc.symm
        simp only [ht', Option.map_some, Option.elim, bind_congr hgist]
        split
        · rfl
        cases Template.bind c.1 t (Arguments.ofText c.2) with
        | error e => rfl
        | ok values =>
          have hbd : codeLines t'.body = codeLines t.body := by
            simp only [gist, Prod.mk.injEq] at hgist
            exact hgist.2.2
          rw [ok_bind, ok_bind, ih hT, ih rfl _ (instantiate t' values _), codeLines_instantiate,
            codeLines_instantiate, hbd]

/-- Scripts that say the same, with templates that say the same, say the same when the templates are written out. -/
theorem expand_codeLines (hT : gists T = gists T') (h : codeLines ls = codeLines ls') :
    (expand T ls).map codeLines = (expand T' ls').map codeLines := by
  have hemp : T.isEmpty = T'.isEmpty := by
    have := congrArg List.isEmpty hT
    simpa [gists] using this
  rw [expand, expand, hemp]
  split
  · exact congrArg ok h
  · rw [expandLines_codeLines hT, h, ← expandLines_codeLines rfl]

end Template

/-! ### Multiple selections -/

namespace Multiselect
variable {l : Text} {ls ls' rest : List Text} {n n' : Nat}

lemma quiet_headPattern : Quiet headPattern := by
  intro l hl
  rw [leads]
  rcases trim_of_idle hl with ht | ⟨u, ht⟩ <;> rw [ht] <;> rfl

lemma expandFrom_cons (n : Nat) (rest : List Text) (h : leads headPattern l = false) :
    expandFrom (n + 1) (l :: rest) = (expandFrom n rest).map (l :: ·) := by
  have hnone : headPattern.match? (trim l) = none := by simpa [leads, fits] using h
  rw [expandFrom, hnone]
  cases expandFrom n rest <;> rfl

lemma expandFrom_leads (n : Nat) (rest : List Text) {m : Pattern.Match} (h : headPattern.match? (trim l) = some m) :
    expandFrom (n + 1) (l :: rest) = (Scope.ofText? (m.group 1)).elim (.error (.scopeUnknown (m.group 1))) fun scope =>
      if (rest.takeWhile (isDeeper (indent l).length)).all isIdle then .error .multiselectEmpty
      else (blockLines (indent l) scope (m.group 2) (m.group 3) (rest.takeWhile (isDeeper (indent l).length))).bind
        fun out => (expandFrom n (rest.dropWhile (isDeeper (indent l).length))).map (out ++ ·) := by
  have hbd : inBody (indent l) = isDeeper (indent l).length := rfl
  rw [expandFrom, h]
  simp only
  cases Scope.ofText? (m.group 1) with
  | none => rfl
  | some scope =>
    simp only [Option.elim, hbd]
    split
    · rfl
    cases blockLines (indent l) scope (m.group 2) (m.group 3) (rest.takeWhile (isDeeper (indent l).length)) with
    | error e => rfl
    | ok out => cases expandFrom n (rest.dropWhile (isDeeper (indent l).length)) <;> rfl

lemma expandFrom_of_not_leads (hn : ls.length ≤ n) (h : ∀ l ∈ ls, leads headPattern l = false) :
    expandFrom n ls = .ok ls := by
  induction ls generalizing n with
  | nil => cases n <;> rfl
  | cons l ls ih =>
    obtain ⟨n, rfl, hlen⟩ := exists_of_cons_le hn
    rw [expandFrom_cons n ls (h l (by simp)), ih hlen fun l hl => h l (by simp [hl])]
    rfl

lemma all_isIdle_iff : ls.all isIdle ↔ ls.filter (fun l => !isIdle l) = [] := by
  simp

theorem expandFrom_loose (h : Loose headPattern none ls ls') (hn : ls.length ≤ n) (hn' : ls'.length ≤ n') :
    (expandFrom n ls).map codeLines = (expandFrom n' ls').map codeLines := by
  have hmap : ∀ (x : Except Error (List Text)) out,
      (x.map (out ++ ·)).map codeLines = (x.map codeLines).map (codeLines out ++ ·) := by
    intro x out
    cases x with
    | error e => rfl
    | ok r => exact congrArg ok (codeLines_append out r)
  induction n using Nat.strongRecOn generalizing n' ls ls' with
  | ind n ih =>
    cases h with
    | nil => cases n <;> cases n' <;> rfl
    | @keep _ l ls ls' rest =>
      obtain ⟨n, rfl, hlen⟩ := exists_of_cons_le hn
      obtain ⟨n', rfl, hlen'⟩ := exists_of_cons_le hn'
      cases hmt : headPattern.match? (trim l) with
      | none =>
        have hld : leads headPattern l = false := by simp [leads, fits, hmt]
        rw [bodyOf_not_leads hld] at rest
        rw [expandFrom_cons n ls hld, expandFrom_cons n' ls' hld]
        exact (hmap _ [l]).trans ((congrArg _ (ih n (by omega) rest hlen hlen')).trans (hmap _ [l]).symm)
      | some m =>
        have hbd : bodyOf headPattern none l = some (indent l).length := by
          simp [bodyOf, leads, fits, hmt]
        obtain ⟨hcd, hrest⟩ := (hbd ▸ rest).body quiet_headPattern
        have hemp : (ls.takeWhile (isDeeper (indent l).length)).all isIdle
            = (ls'.takeWhile (isDeeper (indent l).length)).all isIdle := by
          rw [Bool.eq_iff_iff, all_isIdle_iff, all_isIdle_iff, hcd]
        have hblk scope :
          blockLines (indent l) scope (m.group 2) (m.group 3) (ls.takeWhile (isDeeper (indent l).length))
            = blockLines (indent l) scope (m.group 2) (m.group 3) (ls'.takeWhile (isDeeper (indent l).length)) := by
          rw [blockLines, blockLines, hcd]
        have hnext := ih n (by omega) hrest (Nat.le_trans (length_dropWhile_le _ _) hlen)
          (Nat.le_trans (length_dropWhile_le _ _) hlen')
        rw [expandFrom_leads n ls hmt, expandFrom_leads n' ls' hmt, hemp]
        cases Scope.ofText? (m.group 1) with
        | none => rfl
        | some scope =>
          simp only [Option.elim, hblk]
          split
          · rfl
          cases blockLines (indent l) scope (m.group 2) (m.group 3) (ls'.takeWhile (isDeeper (indent l).length)) with
          | error e => rfl
          | ok out => rw [ok_bind, ok_bind, hmap, hmap, hnext]
    | @drop _ l ls ls' idle inert rest =>
      obtain ⟨n, rfl, hlen⟩ := exists_of_cons_le hn
      have hld := quiet_headPattern l idle
      rw [bodyOf_not_leads hld] at rest
      rw [expandFrom_cons n ls hld]
      refine (hmap _ [l]).trans ?_
      rw [codeLines_idle idle, ih n (by omega) rest hlen hn']
      cases expandFrom n' ls' <;> rfl
    | @shift l l' ls ls' same plain rest =>
      obtain ⟨n, rfl, hlen⟩ := exists_of_cons_le hn
      obtain ⟨n', rfl, hlen'⟩ := exists_of_cons_le hn'
      have hsame : codeLines [l] = codeLines [l'] := codeLines_cons_congr same rfl
      rw [expandFrom_cons n ls plain, expandFrom_cons n' ls' (leads_congr headPattern same ▸ plain)]
      refine (hmap _ [l]).trans (.trans ?_ (hmap _ [l']).symm)
      rw [hsame, ih n (by omega) rest hlen hlen']

end Multiselect

/-! ### Scripts -/

namespace Program
variable {ls ls' namespaces : List Text}

lemma unfolded_not_leads (h : ∀ l ∈ ls, leads Template.headPattern l = false) : unfolded ls = .ok (ls, []) := by
  have hcol n ls : ls.length ≤ n → (∀ l ∈ ls, leads Template.headPattern l = false) →
      collect n [] ls = .ok (ls, []) := by
    intro hn h
    induction ls generalizing n with
    | nil => cases n <;> rfl
    | cons l ls ih =>
      obtain ⟨n, rfl, hlen⟩ := exists_of_cons_le hn
      rw [collect_cons n [] ls (h l (by simp)), ih n hlen fun l hl => h l (by simp [hl])]
      rfl
  rw [unfolded, hcol _ ls (Nat.le_refl _) h]
  rfl

/-- The script has no templates, or no multiple selections once they are written out. -/
def OneKind (ls : List Text) : Prop :=
  (∀ l ∈ ls, leads Template.headPattern l = false)
    ∨ ∀ r ∈ (unfolded ls).toOption, ∀ l ∈ r.1, leads Multiselect.headPattern l = false
deriving Decidable

lemma unfolded_loose (h : Loose Template.headPattern none ls ls') (hfill : Template.Filled ls) :
    (unfolded ls).map (fun r => (codeLines r.1, r.2.names)) = (unfolded ls').map fun r =>
      (codeLines r.1, r.2.names) := by
  have hcol := collect_loose h (Nat.le_refl _) (Nat.le_refl _) (rfl : gists [] = gists [])
    hfill
  rw [unfolded, unfolded]
  rcases cases_of_map_eq hcol with ⟨e, hc, hc'⟩ | ⟨r, r', hc, hc', hr⟩
  · rw [hc, hc']
  obtain ⟨hcd, hgists⟩ := Prod.mk.inj hr
  rw [hc, hc', ok_bind, ok_bind]
  rcases cases_of_map_eq (expand_codeLines hgists hcd) with ⟨e, he, he'⟩ | ⟨out, out', he, he', hout⟩
  · rw [he, he']
    rfl
  have hnms : r.2.names = r'.2.names := by rw [← names_gists, hgists, names_gists]
  rw [he, he']
  exact congrArg ok (Prod.ext hout hnms)

lemma signed_congr {T T' : Table Template} {out out' : List Text} (hcd : codeLines out = codeLines out')
    (hnms : T.names = T'.names) (namespaces : List Text) :
    (signed namespaces T out).map Prepared.gist = (signed namespaces T' out').map Prepared.gist := by
  have hsigs : signaturesOf out = signaturesOf out' := by
    rw [← signaturesOf_codeLines, hcd, signaturesOf_codeLines]
  rw [signed, signed, hsigs]
  cases signaturesOf out' with
  | error e => rfl
  | ok sigs =>
    have hchk : checkNames T sigs = checkNames T' sigs := by rw [checkNames, checkNames, hnms]
    rw [ok_bind, ok_bind, hchk]
    cases checkNames T' sigs with
    | error e => rfl
    | ok _ => simp [Except.map, Prepared.gist, hcd, hnms]

lemma not_leads_of_codeLines {p : Pattern} (hp : Layout.Quiet p) (h : codeLines ls = codeLines ls')
    (hnone : ∀ l ∈ ls, leads p l = false) : ∀ l ∈ ls', leads p l = false := by
  intro l hl
  by_contra hld
  obtain ⟨l', hl', hld'⟩ := exists_leads_of_codeLines hp h.symm hl (by simpa using hld)
  simp [hnone l' hl'] at hld'

theorem writtenOut_loose (hT : Loose Template.headPattern none ls ls') (hM : Loose Multiselect.headPattern none ls ls')
    (hfill : Template.Filled ls) (hone : OneKind ls) (namespaces : List Text) :
    (writtenOut namespaces ls).map Prepared.gist = (writtenOut namespaces ls').map Prepared.gist := by
  rw [writtenOut, writtenOut]
  rcases hone with hnone | hnone
  · have hnone' := not_leads_of_codeLines Template.quiet_headPattern hT.codeLines hnone
    rw [unfolded_not_leads hnone, unfolded_not_leads hnone', ok_bind, ok_bind]
    rcases cases_of_map_eq (expandFrom_loose hM (Nat.le_refl _) (Nat.le_refl _)) with
      ⟨e, he, he'⟩ | ⟨out, out', he, he', hout⟩
    · rw [Multiselect.expand, Multiselect.expand, he, he']
    rw [Multiselect.expand, Multiselect.expand, he, he']
    exact signed_congr hout rfl namespaces
  rcases cases_of_map_eq (unfolded_loose hT hfill) with ⟨e, hu, hu'⟩ | ⟨r, r', hu, hu', hr⟩
  · rw [hu, hu']
  obtain ⟨hcd, hnms⟩ := Prod.mk.inj hr
  have hnone := hnone r (by rw [hu]; rfl)
  have hnone' := not_leads_of_codeLines Multiselect.quiet_headPattern hcd hnone
  rw [hu, hu', ok_bind, ok_bind, Multiselect.expand, Multiselect.expand, expandFrom_of_not_leads (Nat.le_refl _) hnone,
    expandFrom_of_not_leads (Nat.le_refl _) hnone']
  exact signed_congr hcd hnms namespaces

end Program
end BlockScript
