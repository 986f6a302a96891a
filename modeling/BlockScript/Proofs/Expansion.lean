import Mathlib.Data.List.Perm.Subperm
import BlockScript.Proofs.Bodies

/-!
# Templates written out

`Expands` says what it means that all calls of templates in some lines are replaced, without a bound and without a
stack. Calls nested in each other (`Nested`) decide whether this is done: it fails if a template would be called among
the lines in its own place (`Reenters`), if more than `maxDepth` calls are nested, or if arguments cannot be bound, and
only then (`expandLines_isOk_iff`). The stack of templates alone ends the nesting (`expandLines_eq_of_length_lt`).
-/

open List Except
namespace BlockScript.Template
open Layout
open Script (Error)
open Arguments (ofText)
variable {T : Table Template} {l name : Text} {ls body names inner stack out : List Text} {depth : Nat}

/-! ### Calls in each other's place -/

/-- A line calls a template with arguments that can be bound, and `body` takes its place. -/
def Enters (T : Table Template) (l name : Text) (body : List Text) : Prop :=
  ∃ t args values, call? T l = some (name, t, args) ∧ bind name t (ofText args) = .ok values
    ∧ body = instantiate t values (Layout.indent l)

/-- Calls nested in each other: one of the lines calls the first template, one of the lines in the place of this
call the second, and so on. The lines `inner` take the place of the last call. -/
inductive Nested (T : Table Template) : List Text → List Text → List Text → Prop
  | nil (ls : List Text) : Nested T ls [] ls
  | cons {l name : Text} {ls body names inner : List Text} (mem : l ∈ ls) (enters : Enters T l name body)
      (rest : Nested T body names inner) : Nested T ls (name :: names) inner

/-- A template would be called among the lines that take the place of a call of the same template. -/
def Reenters (T : Table Template) (ls : List Text) : Prop :=
  ∃ names inner, Nested T ls names inner ∧ ∃ l ∈ inner, ∃ c, call? T l = some c ∧ c.1 ∈ names

/-- All calls are replaced, and the calls in their places, as deep as they are nested. -/
inductive Expands (T : Table Template) : List Text → List Text → Prop
  | nil : Expands T [] []
  | keep {l : Text} {ls out : List Text} (h : call? T l = none) (rest : Expands T ls out) :
    Expands T (l :: ls) (l :: out)
  | call {l name : Text} {ls body out out' : List Text} (enters : Enters T l name body) (inner : Expands T body out)
      (rest : Expands T ls out') : Expands T (l :: ls) (out ++ out')

lemma Expands.call?_none (h : Expands T ls out) : ∀ l ∈ out, call? T l = none := by
  induction h with
  | nil => simp
  | keep hl _ ih => exact forall_mem_cons.mpr ⟨hl, ih⟩
  | call _ _ _ ihInner ihRest => exact forall_mem_append.mpr ⟨ihInner, ihRest⟩

lemma call?_none_iff : call? T l = none ↔
    (isIdle l = false → ∀ c, bareCall? (Text.trim l) = some c → T.get? c.1 = none) := by
  unfold call?
  cases isIdle l with
  | true => simp
  | false =>
    cases bareCall? (Text.trim l) with
    | none => simp
    | some c => simp

lemma call?_some {t : Template} {args : Text} (hidle : isIdle l = false)
    (hcall : bareCall? (Text.trim l) = some (name, args)) (ht : T.get? name = some t) :
    call? T l = some (name, t, args) := by
  simp [call?, hidle, hcall, ht]

lemma mem_names_of_call? {c : Text × Template × Text} (h : call? T l = some c) : c.1 ∈ T.names := by
  unfold call? at h
  split at h
  · contradiction
  split at h
  next name args _ =>
    obtain ⟨t, ht, rfl⟩ := Option.map_eq_some_iff.mp h
    obtain ⟨before, behind, heq, -⟩ := lookup_eq_some_iff.mp ht
    exact mem_map.mpr ⟨(name, t), by simp [heq], rfl⟩
  · contradiction

/-! ### What decides whether lines are written out -/

/-- Calls nested in the lines, where the templates of a stack are being written out: fewer than `depth` are
nested, none is of a template that is being written out, and the arguments of all can be bound. -/
def Admits (T : Table Template) (depth : Nat) (stack ls : List Text) : Prop :=
  ∀ names inner, Nested T ls names inner → names.length < depth ∧ ∀ l ∈ inner, ∀ c, call? T l = some c →
    c.1 ∉ stack ++ names ∧ ∃ values, bind c.1 c.2.1 (ofText c.2.2) = .ok values

lemma admits_succ : Admits T (depth + 1) stack ls ↔ ∀ l ∈ ls, ∀ c, call? T l = some c → c.1 ∉ stack
    ∧ ∃ values, bind c.1 c.2.1 (ofText c.2.2) = .ok values
      ∧ Admits T depth (stack ++ [c.1]) (instantiate c.2.1 values (indent l)) := by
  constructor
  · intro h l hl c hc
    obtain ⟨-, hcs⟩ := h [] ls (.nil ls)
    obtain ⟨hstk, values, hvals⟩ := hcs l hl c hc
    refine ⟨by simpa using hstk, values, hvals, fun names inner hnest => ?_⟩
    obtain ⟨hlen, hin⟩ := h (c.1 :: names) inner (.cons hl ⟨c.2.1, c.2.2, values, hc, hvals, rfl⟩ hnest)
    refine ⟨by simpa using hlen, fun l' hl' c' hc' => ?_⟩
    simpa using hin l' hl' c' hc'
  intro h names inner hnest
  cases hnest with
  | nil =>
    refine ⟨Nat.succ_pos depth, fun l hl c hc => ?_⟩
    obtain ⟨hstk, values, hvals, -⟩ := h l hl c hc
    exact ⟨by simpa using hstk, values, hvals⟩
  | cons hl henters hrest =>
    obtain ⟨t, args, values, hc, hvals, rfl⟩ := henters
    obtain ⟨-, values', hvals', hadm⟩ := h _ hl _ hc
    obtain rfl := ok.inj (hvals.symm.trans hvals')
    obtain ⟨hlen, hin⟩ := hadm _ _ hrest
    refine ⟨by simpa using hlen, fun l' hl' c' hc' => ?_⟩
    simpa using hin l' hl' c' hc'

/-- One line is written out if it calls nothing, or a template that is not being written out. -/
lemma exists_expandLine_ok_iff : (∃ out, expandLine T depth stack l = .ok out) ↔
    ∀ c, call? T l = some c → c.1 ∉ stack ∧ ∃ values, bind c.1 c.2.1 (ofText c.2.2) = .ok values
      ∧ ∃ out, expandLines T depth (stack ++ [c.1]) (instantiate c.2.1 values (indent l)) = .ok out := by
  unfold expandLine
  cases call? T l with
  | none => simp
  | some c =>
    simp only [Option.elim, Option.some.injEq, forall_eq']
    by_cases hstk : c.1 ∈ stack
    · simp [hstk]
    · cases Template.bind c.1 c.2.1 (ofText c.2.2) <;> simp [hstk, Except.bind]

/-- Lines are written out iff the calls nested in them admit it. -/
theorem expandLines_isOk_iff : (∃ out, expandLines T depth stack ls = .ok out) ↔ Admits T depth stack ls := by
  induction depth generalizing stack ls with
  | zero =>
    constructor
    · rintro ⟨out, h⟩
      contradiction
    intro h
    exact absurd (h [] ls (.nil ls)).1 (Nat.not_lt_zero _)
  | succ depth ih =>
    have hmap : (∃ out, expandLines T (depth + 1) stack ls = .ok out)
        ↔ ∃ parts, ls.mapM (expandLine T depth stack) = .ok parts := by
      rw [expandLines_succ]
      cases ls.mapM (expandLine T depth stack) <;> simp [Except.map]
    rw [hmap, exists_mapM_ok_iff, admits_succ]
    simp only [exists_expandLine_ok_iff, ih]

theorem expands_of_expandLines (h : expandLines T depth stack ls = .ok out) : Expands T ls out := by
  induction depth generalizing stack ls out with
  | zero => contradiction
  | succ depth ih =>
    rw [expandLines_succ] at h
    cases hpts : ls.mapM (expandLine T depth stack) with
    | error e => simp [hpts, Except.map] at h
    | ok parts =>
      rw [hpts] at h
      obtain rfl := ok.inj h
      clear h
      induction ls generalizing parts with
      | nil =>
        cases hpts
        exact .nil
      | cons l ls ihRest =>
        obtain ⟨part, parts, hl, hrest, rfl⟩ := mapM_cons_ok_iff.mp hpts
        cases hcall : call? T l with
        | none =>
          obtain rfl : [l] = part := by simpa [expandLine, hcall] using hl
          exact .keep hcall (ihRest parts hrest)
        | some c =>
          obtain ⟨-, values, hvals, -⟩ := exists_expandLine_ok_iff.mp ⟨part, hl⟩ c hcall
          simp only [expandLine, hcall, Option.elim, hvals] at hl
          split at hl
          · contradiction
          · exact .call ⟨c.2.1, c.2.2, values, hcall, hvals, rfl⟩ (ih hl) (ihRest parts hrest)

lemma expandLines_self (h : ∀ l ∈ ls, call? T l = none) : expandLines T (depth + 1) stack ls = .ok ls := by
  have hmap : ls.mapM (expandLine T depth stack) = .ok (ls.map fun l => [l]) := by
    induction ls with
    | nil => rfl
    | cons l ls ih =>
      obtain ⟨hl, hls⟩ := forall_mem_cons.mp h
      rw [mapM_cons, ih hls, expandLine, hl]
      rfl
  rw [expandLines_succ, hmap]
  exact congrArg ok (by rw [← flatMap_def, flatMap_singleton'])

/-! ### The nesting ends -/

/-- No template is on the stack twice, so that no more than all templates can be: any bound above that is the same. -/
theorem expandLines_eq_of_length_lt {depth' : Nat} (hnd : stack.Nodup) (hsub : stack ⊆ T.names)
    (h : T.length < stack.length + depth) (h' : T.length < stack.length + depth') :
    expandLines T depth stack ls = expandLines T depth' stack ls := by
  have hlen : stack.length ≤ T.length := by
    simpa [Table.names] using (hnd.subperm hsub).length_le
  induction depth generalizing stack ls depth' with
  | zero => omega
  | succ depth ih =>
    obtain ⟨depth', rfl⟩ : ∃ n, depth' = n + 1 := ⟨depth' - 1, by omega⟩
    rw [expandLines_succ, expandLines_succ]
    refine congrArg (fun f : Text → Except Error (List Text) => (ls.mapM f).map List.flatten) (funext fun l => ?_)
    rw [expandLine, expandLine]
    cases hcall : call? T l with
    | none => rfl
    | some c =>
      by_cases hstk : c.1 ∈ stack
      · simp [hstk]
      have hmem := mem_names_of_call? hcall
      have hnd' : (stack ++ [c.1]).Nodup := by
        refine nodup_append.mpr ⟨hnd, by simp, fun a ha b hb => ?_⟩
        rintro rfl
        exact hstk (mem_singleton.mp hb ▸ ha)
      have hsub' : stack ++ [c.1] ⊆ T.names := append_subset.mpr ⟨hsub, by simpa using hmem⟩
      have hlen' : (stack ++ [c.1]).length ≤ T.length := by
        simpa [Table.names] using (hnd'.subperm hsub').length_le
      have hnext : ∀ body, expandLines T depth (stack ++ [c.1]) body = expandLines T depth' (stack ++ [c.1]) body :=
        fun body => ih hnd' hsub' (by simp; omega) (by simp; omega) hlen'
      simp [Option.elim, hnext]

/-! ### Scripts -/

lemma expand_isOk_iff : (∃ out, expand T ls = .ok out) ↔ Admits T (maxDepth + 1) [] ls := by
  rw [← expandLines_isOk_iff, expand]
  split
  next hT =>
    obtain rfl := List.isEmpty_iff.mp hT
    exact iff_of_true ⟨ls, rfl⟩ ⟨ls, expandLines_self fun l _ => call?_none_iff.mpr fun _ _ _ => rfl⟩
  · exact Iff.rfl

lemma expands_of_expand (h : expand T ls = .ok out) : Expands T ls out := by
  rw [expand] at h
  split at h
  next hT =>
    obtain rfl := List.isEmpty_iff.mp hT
    cases h
    have hself : expandLines [] 1 [] ls = .ok ls := expandLines_self fun l _ => call?_none_iff.mpr fun _ _ _ => rfl
    exact expands_of_expandLines hself
  · exact expands_of_expandLines h

lemma expand_self (h : ∀ l ∈ ls, call? T l = none) : expand T ls = .ok ls := by
  rw [expand]
  split
  · rfl
  · exact expandLines_self h

lemma not_reenters_of_admits (h : Admits T depth [] ls) : ¬ Reenters T ls := by
  rintro ⟨names, inner, hnest, l, hl, c, hc, hmem⟩
  exact ((h names inner hnest).2 l hl c hc).1 hmem

/-- Writing templates out ends, and where it has a result, no line is left that calls a template, so that writing out
the result changes nothing. It fails if a template would be called in its own place, and it has a result unless that
happens, calls are nested too deep or arguments cannot be bound. -/
theorem expand_fixpoint (T : Table Template) (ls : List Text) :
    (∀ n, T.length < n → expandLines T n [] ls = expandLines T (T.length + 1) [] ls)
      ∧ (∀ out, expand T ls = .ok out → Expands T ls out
        ∧ (∀ l ∈ out, Layout.isIdle l = false → ∀ c, bareCall? (Text.trim l) = some c → T.get? c.1 = none)
        ∧ expand T out = .ok out)
      ∧ (Reenters T ls → ∃ e, expand T ls = .error e)
      ∧ ((∃ out, expand T ls = .ok out) ↔ ¬ Reenters T ls ∧ ∀ names inner, Nested T ls names inner →
        names.length ≤ maxDepth ∧ ∀ l ∈ inner, ∀ c, call? T l = some c →
          ∃ values, bind c.1 c.2.1 (ofText c.2.2) = .ok values) := by
  refine ⟨fun n hn => ?_, fun out h => ?_, fun h => ?_, fun h => ?_, fun h => ?_⟩
  · exact expandLines_eq_of_length_lt (by simp) (by simp) (by simpa using hn) (by simp)
  · have hexpands := expands_of_expand h
    have hnone := hexpands.call?_none
    exact ⟨hexpands, fun l hl => call?_none_iff.mp (hnone l hl), expand_self hnone⟩
  · cases hexpand : expand T ls with
    | error e => exact ⟨e, rfl⟩
    | ok out => exact absurd h (not_reenters_of_admits (expand_isOk_iff.mp ⟨out, hexpand⟩))
  · have hadm := expand_isOk_iff.mp h
    refine ⟨not_reenters_of_admits hadm, fun names inner hnest => ?_⟩
    obtain ⟨hlen, hin⟩ := hadm names inner hnest
    exact ⟨Nat.le_of_lt_succ hlen, fun l hl c hc => (hin l hl c hc).2⟩
  · obtain ⟨hreen, h⟩ := h
    refine expand_isOk_iff.mpr fun names inner hnest => ?_
    obtain ⟨hlen, hin⟩ := h names inner hnest
    refine ⟨Nat.lt_succ_of_le hlen, fun l hl c hc => ⟨fun hmem => ?_, hin l hl c hc⟩⟩
    exact hreen ⟨names, inner, hnest, l, hl, c, hc, by simpa using hmem⟩

def sampleTemplates : Table Template :=
    [("call", ⟨["f"], [], ["f(f)"]⟩), ("say", ⟨["x"], [], ["# x", "player.message(x)"]⟩)]

/-- A template given to another one is called, and may not be the other one. -/
theorem expand_fixpoint_sample : expand sampleTemplates ["call(say)"] = .ok ["# say", "player.message(say)"]
    ∧ expand sampleTemplates ["# say", "player.message(say)"] = .ok ["# say", "player.message(say)"]
    ∧ Reenters sampleTemplates ["call(call)"] ∧ ∃ e, expand sampleTemplates ["call(call)"] = .error e := by
  have hsay : expand sampleTemplates ["call(say)"] = .ok ["# say", "player.message(say)"] :=
    ok_of_toOption (by decide)
  have hcall : call? sampleTemplates "call(call)" = some (("call" : Text), ⟨["f"], [], ["f(f)"]⟩, ("call" : Text)) :=
    call?_some (by decide) (by decide) rfl
  have hreen : Reenters sampleTemplates ["call(call)"] := by
    refine ⟨["call"], ["call(call)"], .cons mem_cons_self ?_ (.nil _), _, mem_cons_self, _, hcall, mem_cons_self⟩
    exact ⟨_, "call", [("f", "call")], hcall, ok_of_toOption (by decide), by decide⟩
  exact ⟨hsay, ((expand_fixpoint _ _).2.1 _ hsay).2.2, hreen, (expand_fixpoint _ _).2.2.1 hreen⟩

end BlockScript.Template
