import BlockScript.Assistant.Check
import BlockScript.Proofs.ActionNames
import BlockScript.Proofs.Searching

/-!
# What the assistant finds

The assistant looks an action up by its loose name, and may take an earlier action than the one that a call is compiled
to: `resolve_find_iff`. Its check looks for calls with backslashes in them, so that any other program passes:
`verdict_of_no_backslash`.
-/

namespace BlockScript.Assistant
open Table Json Pattern
variable {api : Api} {key m f name : Text} {spec : Spec} {pre post es : Json.Fields}

/-! ### Looking up -/

lemma fitsAction_of_hasAlias (h : spec.hasAlias name = .ok true) : fitsAction name f spec = .ok true := by
  simp only [Spec.hasAlias, bind_eq_ok] at h
  obtain ⟨v, hv, h⟩ := h
  split at h
  next htrue =>
    rw [fitsAction, hv]
    simp [htrue, h, bind, Except.bind, pure, Except.pure]
  · cases h

lemma module_of_resolve {x : Found} (h : resolve api m name = .ok (some x)) : x.module = moduleOf m := by
  rw [resolve, bind_eq_ok] at h
  obtain ⟨_, -, h⟩ := h
  split at h
  · cases h
  obtain ⟨_ | _, -, h⟩ := bind_eq_ok.mp h <;> obtain ⟨v, -, h⟩ := bind_eq_ok.mp h
  · obtain ⟨e, rfl, -⟩ := exists_of_first (g := fun e => ⟨moduleOf m, e.1, e.2⟩) (fun _ _ => rfl) rfl h
    rfl
  cases h
  rfl

lemma resolve_eq (hget : api.get (moduleOf m) = .ok (.obj es)) (hes : es ≠ []) :
    resolve api m name = match get? name es with
      | some spec => .ok (some ⟨moduleOf m, name, spec⟩)
      | none => firstFitting (moduleOf m) name es := by
  have htrue : (obj es).isTruthy = true := by simpa [isTruthy] using hes
  have hment : (obj es).mentions name = .ok (get? name es).isSome := by
    rw [isSome_get?]
    rfl
  rw [resolve, hget]
  simp only [bind, Except.bind, htrue, hment, need]
  cases get? name es <;> rfl

/-- The assistant finds the action that a call is compiled to if it takes the module for the same one, and the action
has the name in the library or no earlier action fits it loosely. -/
theorem resolve_find_iff (hm : Api.moduleAliases.getD m m = key) (hkey : key ≠ "select" ∧ key ≠ "misc")
    (hget : api.get key = .ok (.obj (pre ++ (f, spec) :: post))) (hf : f ∉ Table.names pre)
    (hfind : api.find m name = .ok (some (f, spec))) :
    resolve api m name = .ok (some ⟨key, f, spec⟩)
      ↔ moduleOf m = key ∧ (name = f ∨ ∀ e ∈ pre, fitsAction name e.1 e.2 = .ok false) := by
  by_cases hmod : moduleOf m = key
  · rw [Api.find_eq_findIn hm hkey hget, Api.findIn] at hfind
    subst hmod
    rw [resolve_eq hget (by simp), and_iff_right rfl]
    cases hspec : Table.get? name (pre ++ (f, spec) :: post) with
    | some _ =>
      rw [hspec] at hfind
      cases hfind
      simp
    | none =>
      rw [hspec] at hfind
      have hne : name ≠ f := by
        rintro rfl
        simp [get?_append_cons hf] at hspec
      obtain ⟨e, rfl, halias⟩ := exists_of_first (g := id) (fun _ _ => rfl) rfl hfind
      rw [or_iff_right hne]
      refine first_iff (F := firstFitting (moduleOf m) name) (g := fun e => ⟨moduleOf m, e.1, e.2⟩) (fun _ _ => rfl)
        (fun d hd heq => hf ?_) (fitsAction_of_hasAlias halias)
      cases heq
      exact List.mem_map_of_mem hd
  · exact iff_of_false (fun h => hmod (module_of_resolve h).symm) fun h => hmod h.1

open Api (aliased placing)

theorem resolve_find_iff_second : resolve (.obj [("player", .obj placing)]) "игрок" "set"
    = .ok (some ⟨"player", "set_item", aliased ["установить_предметы", "set"]⟩) :=
  (@resolve_find_iff _ _ _ _ _ _ (placing.take 1) _ (by decide) (by decide) rfl (by decide) rfl).mpr
    ⟨by decide +kernel, .inr (by decide +kernel)⟩

/-- The first action has the name up to an underscore, the second one exactly. -/
theorem resolve_ne_find :
    let api := .obj [("player", .obj [("give_item", aliased []), ("give", aliased ["giveitem"])])]
    ((Api.find api "player" "giveitem").toOption.bind id).map Prod.fst = some "give".toList
      ∧ ((resolve api "player" "giveitem").toOption.bind id).map Found.name = some "give_item".toList := by
  decide +kernel

/-! ### Checking -/

lemma backslash_of_takes {s s' : Pattern.Place} {g g' : Pattern.Groups} (h : callPattern.Takes s g s' g') :
    '\\' ∈ s.rest := by
  -- the arguments end with a backslash
  obtain ⟨s₁, _, hcall, _, ⟨s₂, _, harguments, c, t, hrest, hc, -⟩, -⟩ := h
  obtain ⟨u, hu⟩ := hcall.reads
  obtain ⟨v, hv⟩ := harguments.reads
  rw [hu.rest, hv.rest, hrest, eq_of_beq hc]
  simp

lemma calls_eq_nil {source : Text} (h : '\\' ∉ codeOnly source) : calls source = [] := by
  rw [calls, findAll, findAllFrom]
  split
  · rfl
  next m hm =>
    obtain ⟨u, hu⟩ : ∃ u, codeOnly source = u ++ m.start.rest := exists_start_of_searchFrom hm
    rw [hu] at h
    exact absurd (List.mem_append_right u (backslash_of_takes (takes_of_searchFrom hm))) h

/-- A program without backslashes outside its strings and comments passes the check, whatever actions it calls. -/
theorem verdict_of_no_backslash (api : Json) {source : Text} (h : '\\' ∉ codeOnly source) :
    verdict api source = .ok (.obj [("ok", .bool true), ("errors", .texts []), ("warnings", .arr [])]) := by
  rw [verdict, sourceErrors, calls_eq_nil h]
  rfl

theorem verdict_of_unknown_call : resolve (.obj []) "player" "dance" = .ok none
    ∧ verdict (.obj []) "player.dance()" = .ok
      (.obj [("ok", .bool true), ("errors", .texts []), ("warnings", .arr [])]) :=
  ⟨rfl, verdict_of_no_backslash _ (by decide +kernel)⟩

end BlockScript.Assistant
