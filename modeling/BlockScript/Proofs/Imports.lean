import BlockScript.Proofs.Loading
import BlockScript.Proofs.Runs

/-!
# Imports

The lines of a script are those of the files that its first file reaches through imports. `Reads` says how they are
read, without a bound on the steps: behind an import of a file that was not visited stand the lines of this file, with
its own imports. What a script shows follows from it: every line once, in order, and each file at the first import that
leads to it (`Inlined`).
-/

open List
namespace BlockScript.Source
open Script (Error)

/-- A line of a file, and its number in the file. -/
structure Origin where
  file : Path
  number : Nat
  text : Text

namespace Origin

def In (files : Files) (o : Origin) : Prop :=
  ∃ text, files.get? o.file.toText = some text ∧ (fileLines text)[o.number]? = some o.text

def target? (o : Origin) : Option Path := (import? o.text).map (importPath o.file)

lemma eq_mk_iff {o : Origin} {p : Path} {n : Nat} {l : Text} :
    o = ⟨p, n, l⟩ ↔ o.file = p ∧ o.number = n ∧ o.text = l := by
  obtain ⟨file, number, text⟩ := o
  simp

end Origin

def Imports (files : Files) (p q : Path) : Prop := ∃ o : Origin, o.In files ∧ o.file = p ∧ o.target? = some q

abbrev Reaches (files : Files) : Path → Path → Prop := Relation.ReflTransGen (Imports files)

/-- The lines that import nothing. -/
def kept (os : List Origin) : List Text := (os.filter fun o => o.target?.isNone).map Origin.text

lemma kept_append (os os' : List Origin) : kept (os ++ os') = kept os ++ kept os' := by
  simp [kept]

variable {os : List Origin} {files : Files}

lemma kept_cons_of_some {o : Origin} {q : Path} (h : o.target? = some q) : kept (o :: os) = kept os := by
  simp [kept, h]

lemma kept_cons_of_none {o : Origin} (h : o.target? = none) : kept (o :: os) = o.text :: kept os := by
  simp [kept, h]

/-! ### Reading -/

/-- Lines of the file `p` are read, the first of which has the number `n`, when the files `v` were visited; then the
files `v'` were visited. Lines are read in the order `os`, import lines included. -/
inductive Reads (files : Files) : List Path → Path → Nat → List Text → List Origin → List Path → Prop
  | nil (v : List Path) (p : Path) (n : Nat) : Reads files v p n [] [] v
  /-- A line imports nothing, or a file visited. -/
  | pass {v v' : List Path} {p : Path} {n : Nat} {l : Text} {ls : List Text} {os : List Origin}
      (old : ∀ q, Origin.target? ⟨p, n, l⟩ = some q → q ∈ v) (rest : Reads files v p (n + 1) ls os v') :
    Reads files v p n (l :: ls) (⟨p, n, l⟩ :: os) v'
  /-- A line imports a file that was not visited: its lines follow. -/
  | first {v v₁ v' : List Path} {p q : Path} {n : Nat} {l text : Text} {ls : List Text} {os os' : List Origin}
      (target : Origin.target? ⟨p, n, l⟩ = some q) (new : q ∉ v) (file : files.get? q.toText = some text)
      (inner : Reads files (v ++ [q]) q 0 (fileLines text) os v₁) (rest : Reads files v₁ p (n + 1) ls os' v') :
    Reads files v p n (l :: ls) (⟨p, n, l⟩ :: (os ++ os')) v'

namespace Reads
variable {files : Files} {v v' : List Path} {p q : Path} {n : Nat} {ls : List Text} {os : List Origin} {o : Origin}

lemma subset (h : Reads files v p n ls os v') : v ⊆ v' := by
  induction h with
  | nil => exact List.Subset.refl _
  | pass _ _ ih => exact ih
  | first _ _ _ _ _ ihInner ihRest => exact fun q hq => ihRest (ihInner (mem_append_left _ hq))

lemma mem_of_target? (h : Reads files v p n ls os v') (ho : o ∈ os) (hq : o.target? = some q) : q ∈ v' := by
  induction h with
  | nil => simp at ho
  | pass old rest ih =>
    rcases mem_cons.mp ho with rfl | ho
    · exact rest.subset (old q hq)
    · exact ih ho
  | first target _ _ inner rest ihInner ihRest =>
    rcases mem_cons.mp ho with rfl | ho
    · obtain rfl := Option.some.inj (target.symm.trans hq)
      exact rest.subset (inner.subset (by simp))
    rcases mem_append.mp ho with ho | ho
    · exact rest.subset (ihInner ho)
    · exact ihRest ho

lemma cons_line_iff {l : Text} : (n ≤ o.number ∧ (l :: ls)[o.number - n]? = some o.text) ↔
    (o.number = n ∧ o.text = l) ∨ (n + 1 ≤ o.number ∧ ls[o.number - (n + 1)]? = some o.text) := by
  rcases Nat.lt_trichotomy o.number n with hlt | heq | hgt
  · exact iff_of_false (fun h => absurd h.1 (by omega)) (by omega)
  · have hself : ¬ n + 1 ≤ n := by omega
    simp only [heq, Nat.le_refl, Nat.sub_self, getElem?_cons_zero, Option.some.injEq, true_and, hself,
      false_and, or_false]
    exact eq_comm
  obtain ⟨k, hk⟩ : ∃ k, o.number - n = k + 1 := ⟨o.number - n - 1, by omega⟩
  have hk' : o.number - (n + 1) = k := by omega
  rw [hk, hk']
  constructor
  · exact fun h => .inr ⟨by omega, h.2⟩
  rintro (h | h)
  · omega
  · exact ⟨by omega, h.2⟩

lemma mem_iff (h : Reads files v p n ls os v') (hp : p ∈ v) :
    o ∈ os ↔ (o.file = p ∧ n ≤ o.number ∧ ls[o.number - n]? = some o.text)
      ∨ (o.file ∈ v' ∧ o.file ∉ v ∧ o.In files) := by
  induction h with
  | nil => simp +contextual
  | pass _ _ ih =>
    rw [mem_cons, cons_line_iff, Origin.eq_mk_iff, ih hp, and_or_left, or_assoc]
  | @first v v₁ v' p q n l text ls os os' _ new file inner rest ihInner ihRest =>
    have hsub₁ : ∀ r, r ∈ v ∨ r = q → r ∈ v₁ := fun r hr => inner.subset (by simpa using hr)
    have hsub' := rest.subset
    have hqp : q ≠ p := fun h => new (h ▸ hp)
    rw [mem_cons, mem_append, cons_line_iff, Origin.eq_mk_iff, ihInner (by simp), ihRest (hsub₁ p (.inl hp))]
    simp only [mem_append, mem_singleton]
    by_cases hfile : o.file = q
    · have hin : o.In files ↔ (fileLines text)[o.number]? = some o.text := by simp [Origin.In, hfile, file]
      subst hfile
      have h₁ := hsub₁ o.file (.inr rfl)
      simp [hin, hsub' h₁, new, hqp]
    simp only [hfile]
    by_cases hv : o.file ∈ v
    · have h₁ := hsub₁ o.file (.inl hv)
      simp [hv, h₁, and_or_left]
    by_cases h₁ : o.file ∈ v₁
    · simp [hv, h₁, hsub' h₁, and_or_left, or_assoc, or_comm (a := o.In files)]
    · simp [hv, h₁, and_or_left, or_assoc]

lemma exists_text (h : Reads files v p n ls os v') (hq : q ∈ v') (hnew : q ∉ v) :
    ∃ text, files.get? q.toText = some text := by
  induction h with
  | nil => contradiction
  | pass _ _ ih => exact ih hq hnew
  | @first v v₁ v' p q' n l text ls os os' _ _ file _ _ ihInner ihRest =>
    by_cases hq' : q = q'
    · exact ⟨text, hq' ▸ file⟩
    by_cases hmem : q ∈ v₁
    · exact ihInner hmem (by simp [hnew, hq'])
    · exact ihRest hq hmem

lemma reaches (h : Reads files v p n ls os v')
    (hls : ∀ o : Origin, o.file = p → n ≤ o.number → ls[o.number - n]? = some o.text → o.In files)
    (hq : q ∈ v') (hnew : q ∉ v) : Reaches files p q := by
  induction h with
  | nil => contradiction
  | pass _ _ ih =>
    exact ih (fun o hfile hn hl => hls o hfile (by omega) (cons_line_iff.mpr (.inr ⟨hn, hl⟩)).2) hq hnew
  | @first v v₁ v' p q' n l text ls os os' target _ file _ _ ihInner ihRest =>
    have hstep : Imports files p q' := ⟨⟨p, n, l⟩, hls _ rfl (Nat.le_refl n) (by simp), rfl, target⟩
    by_cases hq' : q = q'
    · exact hq' ▸ .single hstep
    by_cases hmem : q ∈ v₁
    · refine .head hstep (ihInner (fun o hfile _ hl => ⟨text, hfile ▸ file, hl⟩) hmem ?_)
      simp [hnew, hq']
    · exact ihRest (fun o hfile hn hl => hls o hfile (by omega) (cons_line_iff.mpr (.inr ⟨hn, hl⟩)).2) hq hmem

lemma ordered (h : Reads files v p n ls os v') (hp : p ∈ v) :
    os.Pairwise fun a b => a.file = b.file → a.number < b.number := by
  induction h with
  | nil => exact .nil
  | pass _ rest ih =>
    refine .cons (fun b hb hfile => ?_) (ih hp)
    rcases (rest.mem_iff hp).mp hb with ⟨-, hle, -⟩ | ⟨-, hnew, -⟩
    · exact hle
    · exact absurd (hfile ▸ hp) hnew
  | @first v v₁ v' p q n l text ls os os' _ new _ inner rest ihInner ihRest =>
    have hp₁ : p ∈ v₁ := inner.subset (mem_append_left _ hp)
    have hq₁ : q ∈ v₁ := inner.subset (by simp)
    -- the lines of the file that is imported are none of the file itself, and none that are read later
    have hinn : ∀ a ∈ os, a.file ∈ v₁ ∧ a.file ≠ p := by
      intro a ha
      rcases (inner.mem_iff (by simp)).mp ha with ⟨rfl, -⟩ | ⟨hmem, hnew, -⟩
      · exact ⟨hq₁, fun h => new (h ▸ hp)⟩
      · exact ⟨hmem, fun h => hnew (by simp [h, hp])⟩
    have hrest : ∀ b ∈ os', (b.file = p ∧ n < b.number) ∨ b.file ∉ v₁ := by
      intro b hb
      rcases (rest.mem_iff hp₁).mp hb with ⟨hfile, hle, -⟩ | ⟨-, hnew, -⟩
      · exact .inl ⟨hfile, hle⟩
      · exact .inr hnew
    refine .cons (fun b hb hfile => ?_) (pairwise_append.mpr ⟨ihInner (by simp), ihRest hp₁, ?_⟩)
    · rcases mem_append.mp hb with hb | hb
      · exact absurd hfile.symm (hinn b hb).2
      rcases hrest b hb with ⟨-, hlt⟩ | hnew
      · exact hlt
      · exact absurd (hfile ▸ hp₁) hnew
    intro a ha b hb hfile
    obtain ⟨hmem, hne⟩ := hinn a ha
    rcases hrest b hb with ⟨hb, -⟩ | hnew
    · exact absurd (hfile.trans hb) hne
    · exact absurd (hfile ▸ hmem) hnew

end Reads

/-- Lines `os` are in the order files are put in the place of imports: behind the first line that imports the
file `q` stand its lines, with what they import, and none of the importing file. -/
def PutAt (files : Files) (os : List Origin) (q : Path) : Prop :=
  ∃ before o block behind, os = before ++ o :: (block ++ behind) ∧ o.target? = some q
    ∧ (∀ o' ∈ before, o'.target? ≠ some q) ∧ (∀ o' ∈ os, o'.file = q → o' ∈ block)
    ∧ ∀ o' ∈ block, o'.file ≠ o.file ∧ Reaches files q o'.file

lemma PutAt.append {q : Path} (h : PutAt files os q) (pre post : List Origin)
    (hpre : ∀ o ∈ pre, o.file ≠ q ∧ o.target? ≠ some q) (hpost : ∀ o ∈ post, o.file ≠ q) :
    PutAt files (pre ++ (os ++ post)) q := by
  obtain ⟨before, o, block, behind, rfl, htgt, hbef, hfile, hblk⟩ := h
  refine ⟨pre ++ before, o, block, behind ++ post, by simp, htgt, ?_, ?_, hblk⟩
  · exact forall_mem_append.mpr ⟨fun o' ho' => (hpre o' ho').2, hbef⟩
  intro o' ho' hq
  rcases mem_append.mp ho' with ho' | ho'
  · exact absurd hq (hpre o' ho').1
  rcases mem_append.mp ho' with ho' | ho'
  · exact hfile o' ho' hq
  · exact absurd hq (hpost o' ho')

lemma Reads.putAt {v v' : List Path} {p q : Path} {n : Nat} {ls : List Text}
    (h : Reads files v p n ls os v') (hp : p ∈ v) (hq : q ∈ v') (hnew : q ∉ v) : PutAt files os q := by
  induction h with
  | nil => contradiction
  | @pass v v' p n l ls os old _ ih =>
    have hself : ∀ o ∈ [(⟨p, n, l⟩ : Origin)], o.file ≠ q ∧ o.target? ≠ some q :=
      forall_mem_singleton.mpr ⟨fun h => hnew (h ▸ hp), fun h => hnew (old q h)⟩
    simpa using (ih hp hq hnew).append _ [] hself (by simp)
  | @first v v₁ v' p q' n l text ls os os' target new file inner rest ihInner ihRest =>
    have hp₁ : p ∈ v₁ := inner.subset (mem_append_left _ hp)
    have hpq : p ≠ q := fun h => hnew (h ▸ hp)
    have hlat : q ∈ v₁ → ∀ o ∈ os', o.file ≠ q := by
      rintro hq₁ o ho rfl
      rcases (rest.mem_iff hp₁).mp ho with ⟨hfile, -⟩ | ⟨-, hnew₁, -⟩
      · exact hpq hfile.symm
      · exact hnew₁ hq₁
    by_cases hq' : q = q'
    · -- this is the line that imports the file first
      subst hq'
      have hq₁ : q ∈ v₁ := inner.subset (by simp)
      have hlns :
        ∀ o : Origin, o.file = q → 0 ≤ o.number → (fileLines text)[o.number - 0]? = some o.text → o.In files :=
        fun o hfile _ hl => ⟨text, hfile ▸ file, hl⟩
      refine ⟨[], ⟨p, n, l⟩, os, os', rfl, target, by simp, fun o ho hfile => ?_, fun o ho => ?_⟩
      · rcases mem_cons.mp ho with rfl | ho
        · exact absurd hfile hpq
        · exact (mem_append.mp ho).resolve_right fun ho => hlat hq₁ o ho hfile
      rcases (inner.mem_iff (by simp)).mp ho with ⟨rfl, -⟩ | ⟨hmem, hnew₁, -⟩
      · exact ⟨hpq.symm, .refl⟩
      · exact ⟨fun h => hnew₁ (by simp [h, hp]), inner.reaches hlns hmem hnew₁⟩
    have hself : (⟨p, n, l⟩ : Origin).file ≠ q ∧ Origin.target? ⟨p, n, l⟩ ≠ some q :=
      ⟨hpq, fun h => hq' (Option.some.inj (h.symm.trans target))⟩
    by_cases hmem : q ∈ v₁
    · have hput := ihInner (by simp) hmem (by simp [hnew, hq'])
      exact hput.append [⟨p, n, l⟩] os' (by simpa using hself) (hlat hmem)
    have hput := ihRest hp₁ hq hmem
    have hinn : ∀ o ∈ os, o.file ≠ q ∧ o.target? ≠ some q := by
      intro o ho
      refine ⟨?_, fun h => hmem (inner.mem_of_target? ho h)⟩
      rintro rfl
      rcases (inner.mem_iff (by simp)).mp ho with ⟨hfile, -⟩ | ⟨hmem', -⟩
      · exact hq' hfile
      · exact hmem hmem'
    have hpre : ∀ o ∈ ⟨p, n, l⟩ :: os, o.file ≠ q ∧ o.target? ≠ some q :=
      forall_mem_cons.mpr ⟨hself, hinn⟩
    simpa using hput.append _ [] hpre (by simp)

/-! ### Steps -/

section Steps
variable {files : Files} {s s' : State} {t : Task} {ts more : List Task} {fuel : Nat} {entry : Path}
  {p : Path}

structure Enough (files : Files) (fuel : Nat) (ts : List Task) (s : State) : Prop where
  tasks : ∀ t ∈ ts, t.path.Proper
  visited : ∀ p ∈ s.visited, p.Proper
  steps : cost ts + pool s.visited files ≤ fuel

lemma enough_entry (hentry : entry.Proper) (h : stepBound files ≤ fuel) :
    Enough files fuel [.file (start entry)] ⟨[], [], []⟩ := by
  refine ⟨?_, by simp, Nat.le_trans (cost_le_stepBound files _) h⟩
  simpa [Task.path] using proper_start hentry

lemma Enough.pos (h : Enough files fuel (t :: ts) s) : ∃ n, fuel = n + 1 := by
  have hsts := h.steps
  have hpos : 0 < cost (t :: ts) := by cases t <;> (rw [cost]; omega)
  exact ⟨fuel - 1, by omega⟩

lemma Enough.step (h : Enough files (fuel + 1) (t :: ts) s) (hstep : step files t s = .ok (more, s')) :
    Enough files fuel (more ++ ts) s' := by
  obtain ⟨ht, hts⟩ := forall_mem_cons.mp h.tasks
  obtain ⟨hmore, hvis⟩ := proper_step hstep ht h.visited
  refine ⟨forall_mem_append.mpr ⟨hmore, hts⟩, hvis, ?_⟩
  have hcost := cost_step hstep ht h.visited
  have hsts := h.steps
  have hcons : cost (t :: ts) = cost [t] + cost ts := cost_append [t] ts
  rw [cost_append]
  omega

lemma run_eq_of_enough {fuel' : Nat} (h : Enough files fuel ts s) (h' : Enough files fuel' ts s) :
    run files fuel ts s = run files fuel' ts s := by
  induction fuel generalizing fuel' ts s with
  | zero =>
    cases ts with
    | nil => cases fuel' <;> rfl
    | cons t ts => obtain ⟨n, hn⟩ := h.pos; contradiction
  | succ fuel ih =>
    cases ts with
    | nil => cases fuel' <;> rfl
    | cons t ts =>
      obtain ⟨n, rfl⟩ := h'.pos
      rw [run, run]
      cases hstep : step files t s with
      | error e => rfl
      | ok r => exact ih (h.step hstep) (h'.step hstep)

def Ends (files : Files) (fuel : Nat) (ts : List Task) (s s' : State) : Prop :=
  Enough files fuel ts s ∧ run files fuel ts s = .ok s'

lemma Ends.step (h : Ends files fuel (t :: ts) s s') :
    ∃ n more s₁, fuel = n + 1 ∧ step files t s = .ok (more, s₁) ∧ Ends files n (more ++ ts) s₁ s' := by
  obtain ⟨hen, hrun⟩ := h
  obtain ⟨n, rfl⟩ := hen.pos
  rw [run] at hrun
  cases hstep : step files t s with
  | error e => simp [hstep] at hrun
  | ok r =>
    rw [hstep] at hrun
    exact ⟨n, r.1, r.2, rfl, rfl, hen.step hstep, hrun⟩

/-- A file is visited and its lines are read, unless done before. -/
lemma Ends.file (h : Ends files fuel (.file p :: ts) s s') : ∃ n < fuel, (p ∈ s.visited ∧ Ends files n ts s s')
    ∨ p ∉ s.visited ∧ ∃ text, files.get? p.toText = some text
      ∧ Ends files n ((fileLines text).map (.line p) ++ ts) { s with visited := s.visited ++ [p] } s' := by
  obtain ⟨n, more, s₁, rfl, hstep, hends⟩ := h.step
  refine ⟨n, Nat.lt_succ_self n, ?_⟩
  rw [Source.step] at hstep
  split at hstep
  next hvis =>
    cases hstep
    exact .inl ⟨by simpa using hvis, hends⟩
  next hvis =>
    split at hstep
    · contradiction
    next text htext =>
      cases hstep
      exact .inr ⟨by simpa using hvis, text, htext, hends⟩

theorem Ends.reads {ls : List Text} (n : Nat) (h : Ends files fuel (ls.map (.line p) ++ ts) s s') :
    ∃ os v namespaces, ∃ k ≤ fuel, Reads files s.visited p n ls os v
      ∧ Ends files k ts ⟨v, s.lines ++ kept os, namespaces⟩ s' := by
  induction fuel using Nat.strongRecOn generalizing ts s p ls n with
  | ind fuel ih =>
    cases ls with
    | nil => exact ⟨[], s.visited, s.namespaces, fuel, Nat.le_refl _, .nil _ _ _, by simpa [kept] using h⟩
    | cons l ls =>
      obtain ⟨k, more, s₁, rfl, hstep, hends⟩ := Ends.step h
      rw [Source.step] at hstep
      split at hstep
      next raw himp =>
        have htgt : Origin.target? ⟨p, n, l⟩ = some (importPath p raw) := by simp [Origin.target?, himp]
        cases hstep
        obtain ⟨k₁, hk₁, hends⟩ := Ends.file hends
        rcases hends with ⟨hold, hends⟩ | ⟨hnew, text, htext, hends⟩
        · obtain ⟨os, v, namespaces, k₂, hk₂, hrd, hends⟩ := ih k₁ (by omega) (n + 1) hends
          refine ⟨⟨p, n, l⟩ :: os, v, namespaces, k₂, by omega, .pass (fun q hq => ?_) hrd, ?_⟩
          · obtain rfl := Option.some.inj (htgt.symm.trans hq)
            exact hold
          · rwa [kept_cons_of_some htgt]
        obtain ⟨os, v, namespaces, k₂, hk₂, hinn, hends⟩ := ih k₁ (by omega) 0 hends
        obtain ⟨os', v', namespaces', k₃, hk₃, hrest, hends⟩ := ih k₂ (by omega) (n + 1) hends
        refine ⟨⟨p, n, l⟩ :: (os ++ os'), v', namespaces', k₃, by omega, .first htgt hnew htext hinn hrest, ?_⟩
        rwa [kept_cons_of_some htgt, kept_append, ← append_assoc]
      next himp =>
        have htgt : Origin.target? ⟨p, n, l⟩ = none := by simp [Origin.target?, himp]
        cases hstep
        obtain ⟨os, v, namespaces, k₂, hk₂, hrd, hends⟩ := ih k (Nat.lt_succ_self k) (n + 1) hends
        refine ⟨⟨p, n, l⟩ :: os, v, namespaces, k₂, by omega, .pass (fun q hq => ?_) hrd, ?_⟩
        · rw [htgt] at hq
          contradiction
        · rwa [kept_cons_of_none htgt, append_cons]

/-! ### Missing files -/

def Task.Reached (files : Files) (p : Path) : Task → Prop
  | .line q l => Reaches files p q ∧ ∃ n, Origin.In files ⟨q, n, l⟩
  | .file q => Reaches files p q

lemma reached_of_step (ht : t.Reached files p) (h : step files t s = .ok (more, s')) :
    ∀ t' ∈ more, t'.Reached files p := by
  cases t with
  | line q l =>
    obtain ⟨hq, n, hin⟩ := ht
    rw [step] at h
    split at h
    next raw himp =>
      cases h
      intro t' ht'
      obtain rfl := mem_singleton.mp ht'
      exact hq.tail ⟨⟨q, n, l⟩, hin, rfl, by simp [Origin.target?, himp]⟩
    next =>
      cases h
      simp
  | file q =>
    rw [step] at h
    split at h
    next =>
      cases h
      simp
    split at h
    · contradiction
    next text htext =>
      cases h
      intro t' ht'
      obtain ⟨l, hl, rfl⟩ := mem_map.mp ht'
      obtain ⟨n, hn⟩ := mem_iff_getElem?.mp hl
      exact ⟨ht, n, text, htext, hn⟩

lemma missing_of_run {e : Error} (hts : ∀ t ∈ ts, t.Reached files p) (h : run files fuel ts s = .error e) :
    ∃ q, Reaches files p q ∧ files.get? q.toText = none ∧ e = .importMissing q.toText := by
  induction fuel generalizing ts s with
  | zero => cases ts <;> simp [run] at h
  | succ fuel ih =>
    cases ts with
    | nil => simp [run] at h
    | cons t ts =>
      obtain ⟨ht, hts⟩ := forall_mem_cons.mp hts
      rw [run] at h
      cases hstep : step files t s with
      | ok r =>
        rw [hstep] at h
        exact ih (forall_mem_append.mpr ⟨reached_of_step ht hstep, hts⟩) h
      | error e' =>
        rw [hstep] at h
        obtain rfl := Except.error.inj h
        cases t with
        | line => simp only [step] at hstep; split at hstep <;> contradiction
        | file q =>
          simp only [step] at hstep
          split at hstep
          · contradiction
          split at hstep
          next hmiss => exact ⟨q, ht, hmiss, (Except.error.inj hstep).symm⟩
          · contradiction

end Steps

/-! ### Scripts -/

/-- All lines reached from a file, in the order files are put in the place of imports. -/
structure Inlined (files : Files) (p : Path) (os : List Origin) : Prop where
  mem_iff : ∀ o, o ∈ os ↔ Reaches files p o.file ∧ o.In files
  nodup : os.Nodup
  ordered : os.Pairwise fun a b => a.file = b.file → a.number < b.number
  placed : ∀ q, Reaches files p q → q ≠ p → PutAt files os q

variable {files : Files} {entry p q : Path}

lemma Reads.inlined {text : Text} {v : List Path} (hfile : files.get? p.toText = some text)
    (h : Reads files [p] p 0 (fileLines text) os v) :
    Inlined files p os ∧ ∀ q, Reaches files p q → ∃ text, files.get? q.toText = some text := by
  have hp : p ∈ [p] := mem_singleton_self p
  have hself : ∀ o : Origin, o.file = p → (o.In files ↔ (fileLines text)[o.number]? = some o.text) := by
    rintro o rfl
    simp [Origin.In, hfile]
  have hex : ∀ q ∈ v, ∃ text, files.get? q.toText = some text := by
    intro q hq
    by_cases hqp : q = p
    · exact ⟨text, hqp ▸ hfile⟩
    · exact h.exists_text hq (by simpa using hqp)
  have hmem o : o ∈ os ↔ o.file ∈ v ∧ o.In files := by
    rw [h.mem_iff hp]
    by_cases ho : o.file = p
    · have hv : o.file ∈ v := ho ▸ h.subset hp
      simp [hself o ho, ho, ho ▸ hv]
    · simp [ho]
  -- the files that were visited are closed under imports
  have hrch q : Reaches files p q ↔ q ∈ v := by
    constructor
    · intro hq
      induction hq with
      | refl => exact h.subset hp
      | tail _ himports ih =>
        obtain ⟨o, hin, rfl, htgt⟩ := himports
        exact h.mem_of_target? ((hmem o).mpr ⟨ih, hin⟩) htgt
    intro hq
    by_cases hqp : q = p
    · exact hqp ▸ .refl
    refine h.reaches (fun o ho _ hl => ?_) hq (by simpa using hqp)
    exact (hself o ho).mpr hl
  have hordered := h.ordered hp
  refine ⟨⟨fun o => ?_, ?_, hordered, fun q hq hne => ?_⟩, fun q hq => hex q ((hrch q).mp hq)⟩
  · rw [hmem, hrch]
  · exact hordered.imp fun hlt heq => absurd (hlt (congrArg _ heq)) (by rw [heq]; exact Nat.lt_irrefl _)
  · exact h.putAt hp ((hrch q).mp hq) (by simpa using hne)

/-- Reading a script ends, and fails iff a file is missing that imports lead to. Otherwise the lines of the
script are all lines of all files that imports lead to, those that import something left out: each once, those of one
file in order, and each file at the first import that leads to it. -/
theorem load_inlines (files : Files) (hentry : entry.Proper) :
    (∀ fuel, stepBound files ≤ fuel → run files fuel [.file (start entry)] ⟨[], [], []⟩
        = run files (stepBound files) [.file (start entry)] ⟨[], [], []⟩)
      ∧ ((∃ e, load files entry = .error e) ↔ ∃ q, Reaches files (start entry) q ∧ files.get? q.toText = none)
      ∧ (∀ e, load files entry = .error e → ∃ q, Reaches files (start entry) q ∧ files.get? q.toText = none
        ∧ e = .importMissing q.toText)
      ∧ ∀ loaded, load files entry = .ok loaded → ∃ os, Inlined files (start entry) os ∧ loaded.lines = kept os := by
  have hen : Enough files (stepBound files) [.file (start entry)] ⟨[], [], []⟩ := enough_entry hentry (Nat.le_refl _)
  have herror e : load files entry = .error e → ∃ q, Reaches files (start entry) q ∧ files.get? q.toText = none
      ∧ e = .importMissing q.toText := by
    intro h
    rw [load] at h
    split at h
    next => contradiction
    next e' hrun =>
      obtain rfl := Except.error.inj h
      exact missing_of_run (by simpa using .refl) hrun
  have hok loaded : load files entry = .ok loaded → ∃ os, Inlined files (start entry) os ∧ loaded.lines = kept os
      ∧ ∀ q, Reaches files (start entry) q → ∃ text, files.get? q.toText = some text := by
    intro h
    rw [load] at h
    split at h
    next s hrun =>
      cases h
      obtain ⟨n, -, ⟨hvis, -⟩ | ⟨-, text, htext, hends⟩⟩ := Ends.file ⟨hen, hrun⟩
      · simp at hvis
      · obtain ⟨os, v, namespaces, k, -, hrd, -, hend⟩ := hends.reads 0
        obtain ⟨hinl, hex⟩ := hrd.inlined htext
        have hs : s = ⟨v, kept os, namespaces⟩ := by cases k <;> simpa [run] using hend.symm
        exact ⟨os, hinl, by rw [hs], hex⟩
    next => contradiction
  refine ⟨fun fuel hfuel => run_eq_of_enough (enough_entry hentry hfuel) hen, ⟨?_, ?_⟩, herror, fun loaded h => ?_⟩
  · rintro ⟨e, he⟩
    obtain ⟨q, hq, hmiss, -⟩ := herror e he
    exact ⟨q, hq, hmiss⟩
  · rintro ⟨q, hq, hmiss⟩
    cases hload : load files entry with
    | error e => exact ⟨e, rfl⟩
    | ok loaded =>
      obtain ⟨os, -, -, hex⟩ := hok loaded hload
      obtain ⟨text, htext⟩ := hex q hq
      rw [hmiss] at htext
      contradiction
  · obtain ⟨os, hinl, hlns, -⟩ := hok loaded h
    exact ⟨os, hinl, hlns⟩

/-- Files that import each other, one of them twice and through another directory. -/
def sampleFiles : Files := [("/a.mldsl", "import b\none\nimport lib/c"), ("/b.mldsl", "import a\ntwo"),
  ("/lib/c.mldsl", "import ../b\nthree\nimport c\nfour")]

theorem load_inlines_sample : ∃ loaded os, load sampleFiles (.ofText "/lib/../a.mldsl") = .ok loaded
    ∧ loaded.lines = (["two", "one", "three", "four"] : List Text) ∧ Inlined sampleFiles (.ofText "/a.mldsl") os
    ∧ loaded.lines = kept os := by
  have hload : (load sampleFiles (.ofText "/lib/../a.mldsl")).toOption.map (fun loaded => loaded.lines)
      = some (["two", "one", "three", "four"] : List Text) := by decide
  have hst : start (.ofText "/lib/../a.mldsl") = Path.ofText "/a.mldsl" := by decide
  obtain ⟨loaded, h, hlns⟩ := Option.map_eq_some_iff.mp hload
  obtain ⟨os, hinl, hkept⟩ := (load_inlines sampleFiles (Path.proper_ofText _)).2.2.2 loaded (ok_of_toOption h)
  exact ⟨loaded, os, ok_of_toOption h, hlns, hst ▸ hinl, hkept⟩

end BlockScript.Source
