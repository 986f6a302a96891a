import BlockScript.Script.Source
import BlockScript.Proofs.Spelling

/-!
# Reading scripts

Reading a script follows its imports, each file once, so the number of steps that reading is given is enough
(`Source.cost_le_stepBound`). Lines that import nothing are only passed on: where such lines of the files are
exchanged for others, the same happens to the lines of the script (`Source.load_rewritten`).
-/

open List Bool
namespace BlockScript
open Text
open Script (Error)

/-! ### Paths -/

namespace Text
variable {f : Char → Bool} {t u part : Text} {c : Char}

lemma splitBy_eq_singleton (h : ∀ c ∈ t, f c = false) : splitBy f t = [t] := by
  induction t with
  | nil => rfl
  | cons c t ih => simp [splitBy, h c, ih fun d hd => h d (by simp [hd])]

lemma splitBy_append_cons (h : ∀ c ∈ t, f c = false) (hc : f c) : splitBy f (t ++ c :: u) = t :: splitBy f u := by
  induction t with
  | nil => simp [splitBy, hc]
  | cons d t ih => simp [splitBy, h d, ih fun d hd => h d (by simp [hd])]

lemma eq_false_of_mem_splitBy (h : part ∈ splitBy f t) (hc : c ∈ part) : f c = false := by
  induction t generalizing part with
  | nil =>
    obtain rfl : part = [] := by simpa [splitBy] using h
    simp at hc
  | cons d t ih =>
    rw [splitBy] at h
    split at h
    next =>
      rcases mem_cons.mp h with rfl | h
      · simp at hc
      · exact ih h hc
    next hd =>
      split at h
      next =>
        obtain rfl := mem_singleton.mp h
        obtain rfl := mem_singleton.mp hc
        simpa using hd
      next first rest heq =>
        rcases mem_cons.mp h with rfl | h
        · rcases mem_cons.mp hc with rfl | hc
          · simpa using hd
          · exact ih (heq ▸ mem_cons_self) hc
        · exact ih (heq ▸ mem_cons_of_mem first h) hc

lemma splitChar_joinWith {parts : List Text} (hne : parts ≠ []) (h : ∀ part ∈ parts, c ∉ part) :
    splitChar c (joinWith [c] parts) = parts := by
  induction parts with
  | nil => contradiction
  | cons part parts ih =>
    have hpart : ∀ d ∈ part, (d == c) = false := by
      intro d hd
      simpa using fun heq : d = c => h part (by simp) (heq ▸ hd)
    cases parts with
    | nil => exact splitBy_eq_singleton hpart
    | cons next parts =>
      have hjoin : joinWith [c] (part :: next :: parts) = part ++ c :: joinWith [c] (next :: parts) := by
        simp [joinWith]
      rw [hjoin, splitChar, splitBy_append_cons hpart (by simp)]
      exact congrArg _ (ih (by simp) fun part hp => h part (by simp [hp]))

end Text
namespace Path
variable {p q : Path}

/-- The names of a path are not empty, no single dot, and hold no slash. -/
def Proper (p : Path) : Prop := ∀ part ∈ p.parts, part ≠ [] ∧ part ≠ "." ∧ '/' ∉ part

lemma proper_ofText (t : Text) : (ofText t).Proper := by
  intro part hpart
  obtain ⟨hspl, hkept⟩ := mem_filter.mp hpart
  simp only [and_eq_true, not_eq_true', isEmpty_eq_false_iff, bne_iff_ne] at hkept
  refine ⟨hkept.1, hkept.2, fun hsl => ?_⟩
  simpa using eq_false_of_mem_splitBy hspl hsl

lemma Proper.resolve (hp : p.Proper) (hq : q.Proper) : (p.resolve q).Proper := by
  have hclimb : ∀ parts done, ∀ part ∈ climb done parts, part ∈ done ∨ part ∈ parts := by
    intro parts
    induction parts with
    | nil => simp [climb]
    | cons first parts ih =>
      intro done part hpart
      rw [climb] at hpart
      split at hpart
      · rcases ih _ part hpart with h | h
        · exact .inl (mem_of_mem_drop h)
        · exact .inr (by simp [h])
      rcases ih _ part hpart with h | h
      · rcases mem_cons.mp h with rfl | h
        · exact .inr (by simp)
        · exact .inl h
      · exact .inr (by simp [h])
  intro part hpart
  have hmem := (hclimb _ [] part hpart).resolve_left (by simp)
  rw [join] at hmem
  split at hmem
  · exact hq part hmem
  · exact (mem_append.mp hmem).elim (hp part) (hq part)

lemma Proper.parent (hp : p.Proper) : p.parent.Proper := fun part hpart => hp part ((dropLast_sublist _).subset hpart)

lemma Proper.ofText_toText (hp : p.Proper) : ofText p.toText = p := by
  have hkept : p.parts.filter (fun part : Text => !part.isEmpty && part != ".") = p.parts := by
    refine filter_eq_self.mpr fun part hpart => ?_
    simpa using ⟨(hp part hpart).1, (hp part hpart).2.1⟩
  have hpts : (splitChar '/' (joinWith "/" p.parts)).filter (fun part : Text => !part.isEmpty && part != ".")
      = p.parts := by
    cases hnil : p.parts with
    | nil => rfl
    | cons part parts =>
      have hspl := splitChar_joinWith (cons_ne_nil part parts)
        fun part' h => (hp part' (hnil ▸ h)).2.2
      rw [hnil] at hkept
      exact (congrArg _ hspl).trans hkept
  obtain ⟨absolute, parts⟩ := p
  cases absolute with
  | true =>
    have hcut : splitChar '/' ('/' :: joinWith "/" parts) = [] :: splitChar '/' (joinWith "/" parts) := rfl
    simp only [ofText]
    exact congrArg _ hpts
  | false =>
    cases parts with
    | nil => rfl
    | cons part parts =>
      obtain ⟨hne, -, hsl⟩ := hp part (by simp)
      obtain ⟨c, name, rfl⟩ := exists_cons_of_ne_nil hne
      have hbd : ∃ rest, joinWith "/" ((c :: name) :: parts) = c :: rest := by
        cases parts with
        | nil => exact ⟨name, rfl⟩
        | cons => exact ⟨_, rfl⟩
      obtain ⟨rest, hrest⟩ := hbd
      have hc : c ≠ '/' := fun heq => hsl (heq ▸ mem_cons_self)
      simp only [toText, ofText, hrest]
      rw [hrest] at hpts
      simpa [hc] using hpts

lemma Proper.toText_injective (hp : p.Proper) (hq : q.Proper) (h : p.toText = q.toText) : p = q := by
  rw [← hp.ofText_toText, h, hq.ofText_toText]

end Path
namespace Source
variable {files files' : Files} {s s' : State} {t : Task} {ts ts' more : List Task}

/-! ### Enough steps -/

def Task.path : Task → Path
  | .line p _ => p
  | .file p => p

def pool (visited : List Path) : Files → Nat
  | [] => 0
  | f :: rest => (if visited.any (·.toText == f.1) then 0 else 2 * (fileLines f.2).length) + pool visited rest

/-- How many steps tasks take at most, the reading of files apart. -/
def cost : List Task → Nat
  | [] => 0
  | .line .. :: ts => 2 + cost ts
  | .file _ :: ts => 1 + cost ts

lemma cost_append (ts ts' : List Task) : cost (ts ++ ts') = cost ts + cost ts' := by
  induction ts with
  | nil => simp [cost]
  | cons t ts ih => cases t <;> (simp only [cons_append, cost]; omega)

lemma cost_lines (path : Path) (ls : List Text) : cost (ls.map (.line path)) = 2 * ls.length := by
  induction ls with
  | nil => rfl
  | cons l ls ih =>
    rw [map_cons, cost, length_cons]
    omega

lemma pool_visit {visited : List Path} {path : Path} {text : Text}
    (hvis : visited.any (·.toText == path.toText) = false)
    (h : files.get? path.toText = some text) :
    pool (visited ++ [path]) files + 2 * (fileLines text).length ≤ pool visited files := by
  have hle files : pool (visited ++ [path]) files ≤ pool visited files := by
    induction files with
    | nil => exact Nat.le_refl _
    | cons f files ih =>
      rw [pool, pool, any_append]
      cases visited.any (·.toText == f.1) with
      | true => simpa using ih
      | false =>
        split
        · simp only [false_eq_true]
          omega
        · simpa using ih
  induction files with
  | nil => simp [Table.get?] at h
  | cons f files ih =>
    rw [Table.get?, lookup_cons] at h
    rw [pool, pool]
    cases hnm : path.toText == f.1 with
    | true =>
      rw [hnm] at h
      cases h
      have hnm : path.toText = f.1 := by simpa using hnm
      have := hle files
      rw [hnm] at hvis
      rw [any_append, hvis]
      simp only [any_cons, hnm, beq_self_eq_true, Bool.true_or, Bool.false_or, false_eq_true, if_true, if_false]
      omega
    | false =>
      rw [hnm] at h
      have := ih h
      rw [any_append]
      simp only [any_cons, any_nil, hnm, Bool.or_false]
      omega

lemma cost_step (h : step files t s = .ok (more, s')) (ht : t.path.Proper) (hs : ∀ path ∈ s.visited, path.Proper) :
    cost more + pool s'.visited files < cost [t] + pool s.visited files := by
  cases t with
  | line file text =>
    rw [step] at h
    split at h
    all_goals
      cases h
      simp [cost]
  | file path =>
    rw [step] at h
    split at h
    next =>
      cases h
      simp [cost]
    next hnew =>
      split at h
      · simp at h
      next text htext =>
        cases h
        have hvis : s.visited.any (·.toText == path.toText) = false := by
          rw [any_eq_false]
          intro other hoth heq
          obtain rfl := (hs other hoth).toText_injective ht (by simpa [Task.path] using heq)
          exact hnew (by simpa using hoth)
        have hpool := pool_visit hvis htext
        rw [cost_lines]
        simp only [cost]
        omega

lemma proper_step (h : step files t s = .ok (more, s')) (ht : t.path.Proper) (hs : ∀ path ∈ s.visited, path.Proper) :
    (∀ t' ∈ more, t'.path.Proper) ∧ ∀ path ∈ s'.visited, path.Proper := by
  cases t with
  | line file text =>
    rw [step] at h
    split at h
    all_goals
      cases h
      refine ⟨?_, hs⟩
    · simpa [Task.path, importPath] using ht.parent.resolve (Path.proper_ofText _)
    · simp
  | file path =>
    rw [step] at h
    split at h
    next =>
      cases h
      exact ⟨by simp, hs⟩
    split at h
    · simp at h
    next text _ =>
      cases h
      refine ⟨fun t' ht' => ?_, fun other hoth => ?_⟩
      · obtain ⟨l, -, rfl⟩ := mem_map.mp ht'
        exact ht
      rcases mem_append.mp hoth with hoth | hoth
      · exact hs other hoth
      obtain rfl := mem_singleton.mp hoth
      exact ht

lemma cost_le_stepBound (files : Files) (entry : Path) : cost [.file entry] + pool [] files ≤ stepBound files := by
  have hfold : ∀ files n,
      n + pool [] files ≤ files.foldl (fun n f => n + 1 + 2 * (fileLines f.2).length) n := by
    intro files
    induction files with
    | nil => simp [pool]
    | cons f files ih =>
      intro n
      rw [pool]
      refine Nat.le_trans ?_ (ih _)
      simp only [any_nil, false_eq_true, if_false]
      omega
  refine Nat.le_trans ?_ (hfold files 2)
  simp [cost]

/-! ### Lines exchanged -/

section Rewritten
variable {U : List Text → List Text → Prop} {ls ls' ks ks' : List Text}

/-- Some lines are exchanged for others, as `U` allows. -/
inductive Rewritten (U : List Text → List Text → Prop) : List Text → List Text → Prop
  | nil : Rewritten U [] []
  | keep (l : Text) {ls ls' : List Text} (rest : Rewritten U ls ls') : Rewritten U (l :: ls) (l :: ls')
  | swap {a a' ls ls' : List Text} (allowed : U a a') (rest : Rewritten U ls ls') : Rewritten U (a ++ ls) (a' ++ ls')

lemma Rewritten.refl (ls : List Text) : Rewritten U ls ls := by
  induction ls with
  | nil => exact .nil
  | cons l ls ih => exact .keep l ih

lemma Rewritten.append (h : Rewritten U ls ls') (h' : Rewritten U ks ks') : Rewritten U (ls ++ ks) (ls' ++ ks') := by
  induction h with
  | nil => exact h'
  | keep l _ ih => exact .keep l ih
  | swap allowed _ ih =>
    rw [append_assoc, append_assoc]
    exact .swap allowed ih

lemma Rewritten.single {a a' : List Text} (h : U a a') : Rewritten U a a' := by
  simpa using Rewritten.swap h .nil

/-- What is exchanged imports nothing, and is not nothing. -/
structure Silent (U : List Text → List Text → Prop) : Prop where
  left : ∀ a a', U a a' → a ≠ [] ∧ ∀ l ∈ a, import? l = none
  right : ∀ a a', U a a' → ∀ l ∈ a', import? l = none

inductive Related (U : List Text → List Text → Prop) : List Task → List Task → Prop
  | nil : Related U [] []
  | same (t : Task) {ts ts' : List Task} (rest : Related U ts ts') : Related U (t :: ts) (t :: ts')
  | swap (path : Path) {a a' : List Text} {ts ts' : List Task} (allowed : U a a') (rest : Related U ts ts') :
    Related U (a.map (.line path) ++ ts) (a'.map (.line path) ++ ts')

lemma Rewritten.related (path : Path) (h : Rewritten U ls ls') (hts : Related U ts ts') :
    Related U (ls.map (.line path) ++ ts) (ls'.map (.line path) ++ ts') := by
  induction h with
  | nil => exact hts
  | keep l _ ih => exact .same _ ih
  | swap allowed _ ih =>
    rw [map_append, map_append, append_assoc, append_assoc]
    exact .swap path allowed ih

/-- Files of the same names whose lines are exchanged. -/
def FilesRewritten (U : List Text → List Text → Prop) (files files' : Files) : Prop :=
  List.Forall₂ (fun f f' => f.1 = f'.1 ∧ Rewritten U (fileLines f.2) (fileLines f'.2)) files files'

lemma FilesRewritten.get? (h : FilesRewritten U files files') (name : Text) :
    (files.get? name = none ∧ files'.get? name = none)
      ∨ ∃ text text', files.get? name = some text ∧ files'.get? name = some text'
        ∧ Rewritten U (fileLines text) (fileLines text') := by
  induction h with
  | nil => exact .inl ⟨rfl, rfl⟩
  | @cons f f' files files' hf _ ih =>
    obtain ⟨k, text⟩ := f
    obtain ⟨k', text'⟩ := f'
    obtain ⟨rfl, hls⟩ : k = k' ∧ _ := hf
    simp only [Table.get?, lookup_cons] at ih ⊢
    cases name == k with
    | true => exact .inr ⟨text, text', rfl, rfl, hls⟩
    | false => exact ih

structure State.Rewritten (U : List Text → List Text → Prop) (s s' : State) : Prop where
  visited : s'.visited = s.visited
  namespaces : s'.namespaces = s.namespaces
  lines : Source.Rewritten U s.lines s'.lines

/-- Reading fails in the same way, or both times with lines exchanged. -/
inductive SameRead (R : State → State → Prop) : Except Error State → Except Error State → Prop
  | error (e : Error) : SameRead R (.error e) (.error e)
  | ok {s s' : State} (related : R s s') : SameRead R (.ok s) (.ok s')

lemma run_lines {path : Path} {a : List Text} {fuel : Nat} (ha : ∀ l ∈ a, import? l = none) (hfuel : a.length ≤ fuel) :
    run files fuel (a.map (.line path) ++ ts) s = run files (fuel - a.length) ts { s with lines := s.lines ++ a } := by
  induction a generalizing fuel s with
  | nil => simp
  | cons l a ih =>
    obtain ⟨k, rfl⟩ : ∃ k, fuel = k + 1 := ⟨fuel - 1, by simp at hfuel; omega⟩
    rw [map_cons, cons_append, run, step]
    simp only [ha l (by simp), nil_append]
    rw [ih (fun l hl => ha l (by simp [hl])) (by simpa using hfuel)]
    simp

lemma step_related (hU : FilesRewritten U files files') (hs : s.Rewritten U s') (t : Task) :
    (∃ e, step files t s = .error e ∧ step files' t s' = .error e)
      ∨ ∃ more more' s₁ s₁', step files t s = .ok (more, s₁) ∧ step files' t s' = .ok (more', s₁')
        ∧ s₁.Rewritten U s₁' ∧ ∀ ts ts', Related U ts ts' → Related U (more ++ ts) (more' ++ ts') := by
  obtain ⟨visited, lines, namespaces⟩ := s
  obtain ⟨visited', lines', namespaces'⟩ := s'
  obtain ⟨rfl, rfl, hls⟩ : visited' = visited ∧ namespaces' = namespaces ∧ Rewritten U lines lines' :=
    ⟨hs.visited, hs.namespaces, hs.lines⟩
  cases t with
  | line file text =>
    right
    simp only [step]
    cases import? text with
    | some raw => exact ⟨_, _, _, _, rfl, rfl, ⟨rfl, rfl, hls⟩, fun ts ts' h => .same _ h⟩
    | none => exact ⟨_, _, _, _, rfl, rfl, ⟨rfl, rfl, hls.append (.refl [text])⟩, fun ts ts' h => h⟩
  | file path =>
    simp only [step]
    split
    · exact .inr ⟨_, _, _, _, rfl, rfl, ⟨rfl, rfl, hls⟩, fun ts ts' h => h⟩
    rcases hU.get? path.toText with ⟨hget, hget'⟩ | ⟨text, text', hget, hget', htext⟩
    · rw [hget, hget']
      exact .inl ⟨_, rfl, rfl⟩
    rw [hget, hget']
    exact .inr ⟨_, _, _, _, rfl, rfl, ⟨rfl, rfl, hls⟩, fun ts ts' h => htext.related path h⟩

/-- Reading exchanged lines gives exchanged lines. -/
theorem run_related (hsil : Silent U) (hU : FilesRewritten U files files') {n n' : Nat} (h : Related U ts ts')
    (hs : s.Rewritten U s') (hprop : ∀ t ∈ ts, t.path.Proper) (hvis : ∀ path ∈ s.visited, path.Proper)
    (hn : cost ts + pool s.visited files ≤ n) (hn' : cost ts' + pool s'.visited files' ≤ n') :
    SameRead (State.Rewritten U) (run files n ts s) (run files' n' ts' s') := by
  induction n using Nat.strongRecOn generalizing n' ts ts' s s' with
  | ind n ih =>
    cases h with
    | nil =>
      cases n <;> cases n' <;> exact .ok hs
    | @same t ts ts' rest =>
      have htail : ∀ t' ∈ ts, t'.path.Proper := fun t' ht' => hprop t' (by simp [ht'])
      have hone : cost (t :: ts) = cost [t] + cost ts ∧ cost (t :: ts') = cost [t] + cost ts' :=
        ⟨cost_append [t] ts, cost_append [t] ts'⟩
      have hpos : 0 < cost [t] := by cases t <;> simp [cost]
      obtain ⟨k, rfl⟩ : ∃ k, n = k + 1 := ⟨n - 1, by omega⟩
      obtain ⟨k', rfl⟩ : ∃ k', n' = k' + 1 := ⟨n' - 1, by omega⟩
      rw [run, run]
      rcases step_related hU hs t with ⟨e, he, he'⟩ | ⟨more, more', s₁, s₁', hstep, hstep', hs₁, hmore⟩
      · rw [he, he']
        exact .error e
      have ht := hprop t (by simp)
      obtain ⟨hmoreProper, hvis₁⟩ := proper_step hstep ht hvis
      have hcost := cost_step hstep ht hvis
      have hcost' := cost_step hstep' ht (hs.visited ▸ hvis)
      rw [hstep, hstep']
      refine ih k (by omega) (hmore _ _ rest) hs₁ (fun t' ht' => ?_) hvis₁ ?_ ?_
      · exact (mem_append.mp ht').elim (hmoreProper t') (htail t')
      · rw [cost_append]
        omega
      rw [cost_append]
      omega
    | @swap path a a' ts ts' allowed rest =>
      obtain ⟨hne, ha⟩ := hsil.left a a' allowed
      have ha' := hsil.right a a' allowed
      have hpos : 0 < a.length := length_pos_iff.mpr hne
      rw [cost_append, cost_lines] at hn hn'
      rw [run_lines ha (by omega), run_lines ha' (by omega)]
      refine ih (n - a.length) (by omega) rest ⟨hs.visited, hs.namespaces, ?_⟩ (fun t ht => hprop t (by simp [ht]))
        hvis ?_ ?_
      · exact hs.lines.append (.single allowed)
      · dsimp only
        omega
      dsimp only
      omega

lemma proper_start {entry : Path} (hent : entry.Proper) : (start entry).Proper :=
  Path.Proper.resolve (by simp [Path.Proper]) hent

/-- Scripts with exchanged lines are read alike: with the same error, or with the same names and exchanged lines. -/
theorem load_rewritten (hsil : Silent U) (hU : FilesRewritten U files files') {entry : Path} (hent : entry.Proper) :
    (∃ e, load files entry = .error e ∧ load files' entry = .error e)
      ∨ ∃ ls ls' namespaces, load files entry = .ok ⟨ls, namespaces⟩ ∧ load files' entry = .ok ⟨ls', namespaces⟩
        ∧ Rewritten U ls ls' := by
  have h : SameRead (State.Rewritten U) (run files (stepBound files) [.file (start entry)] ⟨[], [], []⟩)
      (run files' (stepBound files') [.file (start entry)] ⟨[], [], []⟩) :=
    run_related hsil hU (.same _ .nil) ⟨rfl, rfl, .nil⟩ (by simpa [Task.path] using proper_start hent) (by simp)
      (cost_le_stepBound files _) (cost_le_stepBound files' _)
  rw [load, load]
  revert h
  generalize run files (stepBound files) [.file (start entry)] ⟨[], [], []⟩ = x
  generalize run files' (stepBound files') [.file (start entry)] ⟨[], [], []⟩ = x'
  intro h
  cases h with
  | error e => exact .inl ⟨e, rfl, rfl⟩
  | @ok s s' hs =>
    exact .inr ⟨s.lines, s'.lines, s.namespaces, rfl, by rw [← hs.namespaces], hs.lines⟩

end Rewritten
end Source
end BlockScript
