import BlockScript.Proofs.Outcomes
import BlockScript.Script.Selector

/-!
# What selectors mean

A chain of words such as `select.player.ifplayer.name` means the one selection of its domain that goes by its last word
or, if there is none, by the menu name of the condition on players of that name. Where none or several do, the chain is
refused: `Selector.find_eq_ok_iff`.
-/

open Except List
namespace BlockScript.Selector
open Label
variable {api : Api} {palette : Palette} {domain : Option Domain} {chain name canon : Text} {f : Text × Spec}
  {fs : List (Text × Spec)}

/-- The action makes a selection, one of the domain if there is one. -/
structure Selects (palette : Palette) (domain : Option Domain) (spec : Spec) : Prop where
  sign1 : ∃ sign, spec.sign1 = .ok sign ∧ palette.signKey sign = .ok selectSign
  sign2 : ∀ d ∈ domain, ∃ sign, spec.getText "sign2" = .ok sign ∧ Label.tight sign = d.sign2

/-- A name that an action goes by: its name in the library, another name, or a label of its menu and sign. -/
def IsNameOf (name : Text) (f : Text × Spec) : Prop :=
  ∃ k : Json, k.isTruthy ∧ Label.tight k.spell = name ∧ (k = .str f.1
    ∨ (∃ v ks, f.2.get "aliases" = .ok v ∧ v.asItems = .ok ks ∧ k ∈ ks)
    ∨ ∃ key ∈ texts ["menu", "gui", "sign2"], f.2.get key = .ok k)

open Classical in
/-- The actions that make a selection of the domain and go by the name. -/
noncomputable def meant (palette : Palette) (domain : Option Domain) (name : Text) (fs : List (Text × Spec)) :
    List (Text × Spec) := fs.filter fun f => Selects palette domain f.2 ∧ IsNameOf name f

open Classical in
/-- The menu name of the first condition on players that goes by the name. -/
def ConditionNamed (api : Api) (name menu : Text) : Prop :=
  ∃ mod f label, moduleOf api ["if_player"] = .ok mod ∧ (records mod).find? (IsNameOf name ·) = some f
    ∧ f.2.menuName = .ok label ∧ Label.tight label = menu

abbrev wordsOf (chain : Text) : List Text := (Text.splitChar '.' chain).filter (!·.isEmpty)

lemma isCandidate_ok {spec : Spec} {b : Bool} (h : isCandidate palette domain spec = .ok b) :
    b ↔ Selects palette domain spec := by
  simp only [isCandidate, bind_eq_ok] at h
  obtain ⟨sign, hsign, key, hkey, h⟩ := h
  have hsel : (∃ sign, spec.sign1 = .ok sign ∧ palette.signKey sign = .ok selectSign) ↔ key = selectSign := by
    simp [hsign, hkey]
  split at h
  next hne =>
    cases h
    exact ⟨fun h => by contradiction, fun h => absurd (hsel.mp h.sign1) (by simpa using hne)⟩
  next heq =>
    have heq := hsel.mpr (by simpa using heq)
    cases domain with
    | none =>
      cases h
      exact ⟨fun _ => ⟨heq, by simp⟩, fun _ => rfl⟩
    | some d =>
      obtain ⟨label, hlab, h⟩ := bind_eq_ok.mp h
      cases h
      rw [beq_iff_eq]
      constructor
      · intro hti
        refine ⟨heq, fun d' hd' => ⟨label, hlab, ?_⟩⟩
        rwa [← Option.some.inj hd']
      intro h
      obtain ⟨label', hlab', hti⟩ := h.sign2 d rfl
      rwa [ok.inj (hlab.symm.trans hlab')]

lemma goesBy_ok {b : Bool} (h : goesBy name f.1 f.2 = .ok b) : b ↔ IsNameOf name f := by
  simp only [goesBy, bind_eq_ok, mapM_ok_iff] at h
  obtain ⟨v, hv, ks, hks, labels, hlabels, h⟩ := h
  have hmem : ∀ k, k ∈ labels ↔ ∃ key ∈ texts ["menu", "gui", "sign2"], f.2.get key = .ok k := by
    generalize texts ["menu", "gui", "sign2"] = keys at hlabels
    clear h
    induction hlabels with
    | nil => simp
    | cons hkey _ ih => simp [ih, hkey, eq_comm]
  cases h
  simp only [IsNameOf, hv, ← hmem, any_eq_true, mem_append, mem_cons, Bool.and_eq_true, beq_iff_eq]
  constructor
  · rintro ⟨k, (rfl | hk) | hk, htrue, hname⟩
    · exact ⟨_, htrue, hname, .inl rfl⟩
    · exact ⟨k, htrue, hname, .inr (.inl ⟨v, ks, rfl, hks, hk⟩)⟩
    · exact ⟨k, htrue, hname, .inr (.inr hk)⟩
  rintro ⟨k, htrue, hname, rfl | ⟨v', ks', hv', hks', hk⟩ | hk⟩
  · exact ⟨_, .inl (.inl rfl), htrue, hname⟩
  · cases hv'
    cases hks.symm.trans hks'
    exact ⟨k, .inl (.inr hk), htrue, hname⟩
  · exact ⟨k, .inr hk, htrue, hname⟩

lemma named_ok {cs xs : List (Text × Spec)} (hcs : fs.filterM (fun f => isCandidate palette domain f.2) = .ok cs)
    (hxs : named name cs = .ok xs) : xs = meant palette domain name fs := by
  obtain ⟨hrd, rfl⟩ := filterM_ok_iff.mp hcs
  obtain ⟨hnms, rfl⟩ := filterM_ok_iff.mp hxs
  classical
  rw [filter_filter]
  refine filter_congr fun f hf => ?_
  have hselects := isCandidate_ok (hrd f hf)
  rw [Bool.eq_iff_iff, decide_eq_true_iff, Bool.and_eq_true, and_comm, hselects]
  refine and_congr_right fun h => goesBy_ok (hnms f (mem_filter.mpr ⟨hf, hselects.mpr h⟩))

lemma conditionName_ok {menu menu' : Text} (h : conditionName api name = .ok menu) (hne : menu' ≠ []) :
    ConditionNamed api name menu' ↔ menu' = menu := by
  simp only [conditionName, bind_eq_ok] at h
  obtain ⟨mod, hmod, o, ho, h⟩ := h
  classical
  have hfind : o = (records mod).find? (IsNameOf name ·) := by
    clear h hmod
    generalize records mod = fs at ho
    induction fs with
    | nil => exact (ok.inj ho).symm
    | cons f fs ih =>
      obtain ⟨b, hb, ho⟩ := bind_eq_ok.mp ho
      have hname := goesBy_ok hb
      cases b with
      | true =>
        cases ho
        rw [find?_cons_of_pos (by simpa using hname)]
      | false => rw [ih ho, find?_cons_of_neg (by simpa using hname)]
  have hnm : ConditionNamed api name menu' ↔
      ∃ f ∈ o, ∃ label, f.2.menuName = .ok label ∧ tight label = menu' := by
    simp only [ConditionNamed, hmod, hfind, ok.injEq, Option.mem_def, exists_and_left, exists_eq_left']
  rw [hnm]
  cases o with
  | none =>
    cases h
    simp [hne]
  | some f =>
    obtain ⟨label, hlab, h⟩ := bind_eq_ok.mp h
    cases h
    simp [hlab, eq_comm]

lemma hits_eq_singleton_iff {cs xs : List (Text × Spec)}
    (hcs : fs.filterM (fun f => isCandidate palette domain f.2) = .ok cs) (hxs : hits api name cs = .ok xs) :
    xs = [f] ↔ meant palette domain name fs = [f] ∨ meant palette domain name fs = [] ∧
      ∃ menu, menu ≠ [] ∧ ConditionNamed api name menu ∧ meant palette domain menu fs = [f] := by
  simp only [hits, bind_eq_ok] at hxs
  obtain ⟨direct, hdirect, hxs⟩ := hxs
  rw [← named_ok hcs hdirect]
  cases direct with
  | cons g gs =>
    cases hxs
    simp
  | nil =>
    obtain ⟨menu, hmenu, hxs⟩ := bind_eq_ok.mp hxs
    have hcond : (∃ menu', menu' ≠ [] ∧ ConditionNamed api name menu' ∧ meant palette domain menu' fs = [f])
        ↔ menu ≠ [] ∧ meant palette domain menu fs = [f] := by
      constructor
      · rintro ⟨menu', hne, hnm, hmeant⟩
        cases (conditionName_ok hmenu hne).mp hnm
        exact ⟨hne, hmeant⟩
      rintro ⟨hne, hmeant⟩
      exact ⟨menu, hne, (conditionName_ok hmenu hne).mpr rfl, hmeant⟩
    rw [hcond]
    cases menu with
    | nil =>
      cases hxs
      simp
    | cons c cs =>
      rw [named_ok hcs hxs]
      simp

/-- A chain means the only selection of its domain that goes by its last word or, if none does, by the menu name of the
first condition of that name; where there is none or more than one, or the data has another shape, it is refused. -/
theorem find_eq_ok_iff : find api palette chain = .ok canon ↔ (∀ fault, find api palette chain ≠ .error (.data fault)) ∧
    ∃ mod leaf spec, moduleOf api ["select", "misc"] = .ok mod ∧ (wordsOf chain).getLast? = some leaf ∧
      (meant palette (Domain.ofHints? (wordsOf chain).dropLast) (target leaf) (records mod) = [(canon, spec)] ∨
        meant palette (Domain.ofHints? (wordsOf chain).dropLast) (target leaf) (records mod) = [] ∧
          ∃ menu, menu ≠ [] ∧ ConditionNamed api (target leaf) menu ∧
            meant palette (Domain.ofHints? (wordsOf chain).dropLast) menu (records mod) = [(canon, spec)]) := by
  cases hmod : moduleOf api ["select", "misc"] with
  | error fault =>
    have hfind : find api palette chain = .error (.data fault) := by
      simp only [find, find.ofData, hmod, Except.mapError, bind, Except.bind]
    simp [hfind]
  | ok mod =>
    cases hleaf : (wordsOf chain).getLast? with
    | none =>
      have hfind : find api palette chain = .error .emptySelector := by
        simp only [find, find.ofData, hmod, hleaf, Except.mapError, bind, Except.bind]
      simp [hfind]
    | some leaf =>
      cases hcs : (records mod).filterM fun f => isCandidate palette (Domain.ofHints? (wordsOf chain).dropLast) f.2 with
      | error fault =>
        have hfind : find api palette chain = .error (.data fault) := by
          simp only [find, find.ofData, hmod, hleaf, hcs, Except.mapError, bind, Except.bind]
        simp [hfind]
      | ok cs =>
        cases hxs : hits api (target leaf) cs with
        | error fault =>
          have hfind : find api palette chain = .error (.data fault) := by
            simp only [find, find.ofData, hmod, hleaf, hcs, hxs, Except.mapError, bind, Except.bind]
          simp [hfind]
        | ok xs =>
          simp only [ok.injEq, Option.some.injEq, exists_and_left, exists_eq_left', ← hits_eq_singleton_iff hcs hxs]
          simp only [find, find.ofData, hmod, hleaf, hcs, hxs, Except.mapError, bind, Except.bind]
          match xs with
          | [] => simp
          | [(canon', spec)] => simp [pure, Except.pure]
          | f :: g :: fs =>
            simp only
            split <;> simp

end BlockScript.Selector
