import BlockScript.Cli
import BlockScript.Proofs.Tables

/-!
# What the compile command leaves behind

All variables and all files but the plan are as before. The plan is written before the tier is looked up, so that also a
command that fails may have replaced it.
-/

open List
namespace BlockScript
open Table
namespace Table
variable {α : Type} {t : Table α} {name : Text} {v : α}

lemma set_set_of_get? (h : get? name t = some v) (w : α) : set name v (set name w t) = t := by
  induction t with
  | nil => contradiction
  | cons e t ih =>
    obtain ⟨k, u⟩ := e
    by_cases hk : k = name
    · subst hk
      obtain rfl : u = v := by simpa [get?] using h
      simp [set]
    have hget : get? name t = some v := by
      simpa [get?, lookup_cons, beq_eq_false_iff_ne.mpr (Ne.symm hk)] using h
    simp [set, hk, ih hget]

lemma remove_set_of_get? (h : get? name t = none) : remove name (set name v t) = t := by
  have hmem : name ∉ names t := get?_none_iff.mp h
  rw [set_of_notMem hmem, remove, filter_append, filter_eq_self.mpr]
  · simp
  intro e he
  rw [bne_iff_ne]
  rintro rfl
  exact hmem (mem_map_of_mem he)

end Table
namespace Cli
open Act

def planName (w : Workspace) (t : Text) : Text := (w.here.resolve (w.here.join (w.written t))).toText

/-- The workspace differs from another one at most in the plan. -/
structure Agrees (plan : Option Text) (w v : Workspace) : Prop where
  here : v.here = w.here
  home : v.home = w.home
  environment : v.environment = w.environment
  files (name : Text) : v.files.get? name = w.files.get? name
    ∨ ∃ t ∈ plan, name = planName w t ∧ ∃ es, v.files.get? name = some (planDocument es).fileText

def Keeps {α : Type} (plan : Option Text) (w : Workspace) (x : Act α) : Prop :=
  ∀ s, Agrees plan w s.space → Agrees plan w (x s).2.space

variable {α β : Type} {plan : Option Text} {w : Workspace} {x : Act α} {f : α → Act β}

lemma keeps_of_space (h : ∀ s, (x s).2.space = s.space) : Keeps plan w x :=
  fun s hs => (h s).symm ▸ hs

lemma Keeps.bind (hx : Keeps plan w x) (hf : ∀ a, Keeps plan w (f a)) : Keeps plan w (x >>= f) := by
  intro s hs
  have hrun : (x >>= f) s = match x s with
      | (.ok a, s') => f a s'
      | (.error e, s') => (.error e, s') := by
    simp only [Bind.bind, ExceptT.bind, ExceptT.mk, StateT.bind]
    rcases x s with ⟨_ | _, _⟩ <;> rfl
  have hs' := hx s hs
  rw [hrun]
  generalize x s = out at hs' ⊢
  rcases out with ⟨_ | a, s'⟩
  · exact hs'
  · exact hf a s' hs'

lemma keeps_space {f : Workspace → Act β} (hf : ∀ v, Agrees plan w v → Keeps plan w (f v)) :
    Keeps plan w (space >>= f) :=
  fun s hs => hf s.space hs s hs

lemma keeps_read (p : Path) : Keeps plan w (Act.read p) := by
  refine keeps_space fun v _ => ?_
  cases v.file? p <;> exact keeps_of_space fun _ => rfl

lemma keeps_makeFolder (p : Path) : Keeps plan w (makeFolder p) := by
  refine keeps_space fun v _ => ?_
  dsimp only
  split
  · exact keeps_of_space fun _ => rfl
  · split <;> exact keeps_of_space fun _ => rfl

lemma keeps_write {t : Text} (ht : t ∈ plan) {p : Path} (hp : (w.here.resolve p).toText = planName w t)
    (es : List Entry) :
    Keeps plan w (write p (planDocument es).fileText) := by
  refine keeps_space fun v _ => ?_
  split
  · exact keeps_of_space fun _ => rfl
  intro s hs
  rw [← hs.here] at hp
  refine ⟨hs.here, hs.home, hs.environment, fun name => ?_⟩
  by_cases hnm : name = planName w t
  · subst hnm
    exact .inr ⟨t, ht, rfl, es, hp ▸ get?_set_self ..⟩
  have hfile := get?_set_of_ne (t := s.space.files) (w := (planDocument es).fileText) (hp ▸ hnm)
  refine (hs.files name).imp hfile.trans ?_
  rintro ⟨t', ht', h, es', hes'⟩
  exact ⟨t', ht', h, es', hfile.trans hes'⟩

lemma keeps_warnTier (source : Text) : Keeps plan w (warnTier source) := by
  refine keeps_space fun v _ => .bind (keeps_of_space ?_) fun _ => keeps_of_space fun _ => rfl
  cases Tier.required _ v.data.api v.data.catalog source <;> exact fun _ => rfl

lemma keeps_printCommands (script : Path) (shown : Text) : Keeps plan w (printCommands script shown) := by
  refine keeps_space fun v _ => .bind (keeps_of_space fun _ => rfl) fun lines => ?_
  induction lines with
  | nil => exact keeps_of_space fun _ => rfl
  | cons l ls ih => exact .bind (keeps_of_space fun _ => rfl) fun _ => ih

lemma keeps_compileRead (o : CompileOptions) (script : Path) (source : Text) :
    Keeps o.plan w (compileRead o script source) := by
  refine keeps_space fun v hv => ?_
  cases ho : o.plan with
  | none => exact (keeps_printCommands script _).bind fun _ => keeps_warnTier source
  | some t =>
    refine (keeps_makeFolder _).bind fun _ => .bind (keeps_of_space fun _ => rfl) fun es => ?_
    refine (keeps_write rfl ?_ es).bind fun _ => (keeps_warnTier source).bind fun _ => keeps_of_space fun _ => rfl
    rw [planName, Workspace.written, Workspace.written, hv.here, hv.home]

lemma keeps_withVariable (hx : ∀ w, Keeps plan w x) (name value : Text) : Keeps plan w (withVariable name value x) := by
  intro s hs
  have hbd := hx { w with environment := w.environment.set name value }
    { s with space := { s.space with environment := s.space.environment.set name value } }
    ⟨hs.here, hs.home, congrArg (Table.set name value) hs.environment, hs.files⟩
  have hrun : (withVariable name value x s).2 = (setVariable name (s.space.environment.get? name) (x _).2).2 := rfl
  rw [hrun, hs.environment]
  refine ⟨hbd.here, hbd.home, ?_, hbd.files⟩
  cases hold : w.environment.get? name with
  | none => exact (congrArg (Table.remove name) hbd.environment).trans (remove_set_of_get? hold)
  | some v => exact (congrArg (Table.set name v) hbd.environment).trans (set_set_of_get? hold value)

/-- The compile command leaves all variables as they were, and each file but the plan; that holds its old text or a
plan. -/
theorem compile_spares (w : Workspace) (o : CompileOptions) : Agrees o.plan w ((compile o).run w).2.space := by
  have hkp : Keeps o.plan w (compile o) := by
    refine keeps_space fun v _ => (keeps_read _).bind fun source => ?_
    split
    · exact keeps_withVariable (fun _ => keeps_compileRead o _ source) _ _
    · exact keeps_compileRead o _ source
  rw [Act.run]
  exact hkp _ ⟨rfl, rfl, rfl, fun _ => .inl rfl⟩

def sampleWorkspace : Workspace where
  install := .ofText "/i"
  bin := .ofText "/b"
  home := .ofText "/h"
  here := .ofText "/w"
  packaged := false
  marker := "m"
  environment := [("MLDSL_DATA_DIR", "/d")]
  files := [("/w/a.mldsl", []), ("/w/plan.json", "old"), ("/i/allactions.txt", "[(select) s]"),
    ("/i/donaterequire.txt", "king can\n0"), ("/d/out/actions_catalog.json", "\x7b"),
    ("/d/out/api_aliases.json", "\x7b\"select\":\x7b\"vybrat_igroka_po_umolchaniyu\":\x7b\"sign1\":\"s\"\x7d,"
      ++ "\"vybrat_suschnost_po_umolchaniyu\":\x7b\"sign1\":\"s\"\x7d\x7d\x7d")]

/-- The compiler passes over a catalog that cannot be read, but the tier cannot be found without it. -/
theorem exists_plan_replaced : ∃ w o, w.files.get? "/w/plan.json" = some ("old" : Text)
    ∧ (((compile o).run w).1.toBool, ((compile o).run w).2.space.files.get? "/w/plan.json")
      = (false, some (planDocument []).fileText) := by
  refine ⟨sampleWorkspace, ⟨"a.mldsl", some "plan.json", false, false⟩, rfl, ?_⟩
  decide +kernel

end Cli
end BlockScript
