import BlockScript.Proofs.Plans
import BlockScript.World.Index

/-!
# Names of actions read back

An action is written under one of its other names, chosen among its own names only. The name is read back as that action
if it is the action's name in the library, or if no action has it as its name there and no earlier one as another name:
`Api.find_preferred_iff`.
-/

open List Except Option
namespace BlockScript
section First
variable {α β : Type} {test : α → Except Fault Bool} {g : α → β} {F : List α → Except Fault (Option β)}
  (hF : ∀ e es, F (e :: es) = (do if ← test e then return some (g e) else F es))
include hF

lemma first_iff {x : α} {pre post : List α} (hpre : ∀ e ∈ pre, g e ≠ g x) (hx : test x = .ok true) :
    F (pre ++ x :: post) = .ok (some (g x)) ↔ ∀ e ∈ pre, test e = .ok false := by
  induction pre with
  | nil => simp [hF, hx, bind, Except.bind, pure, Except.pure]
  | cons e pre ih =>
    rw [forall_mem_cons] at hpre
    rw [cons_append, hF, bind_eq_ok, forall_mem_cons, ← ih hpre.2]
    constructor
    · rintro ⟨b, hb, h⟩
      cases b with
      | true => exact absurd (some.inj (ok.inj h)) hpre.1
      | false => exact ⟨hb, h⟩
    rintro ⟨hb, h⟩
    exact ⟨false, hb, h⟩

lemma exists_of_first (hnil : F [] = .ok none) {y : β} {es : List α} (h : F es = .ok (some y)) :
    ∃ e, g e = y ∧ test e = .ok true := by
  induction es with
  | nil => cases hnil.symm.trans h
  | cons e es ih =>
    rw [hF, bind_eq_ok] at h
    obtain ⟨b, hb, h⟩ := h
    cases b with
    | true => exact ⟨e, some.inj (ok.inj h), hb⟩
    | false => exact ih h

end First

variable {name f m : Text} {spec : Spec} {pre post : Json.Fields}

lemma Json.mentions_of_mem_asItems {v : Json} {items : List Json} (h : v.asItems = .ok items)
    (hname : .str name ∈ items) :
    v.isTruthy ∧ v.mentions name = .ok true := by
  unfold asItems at h
  split at h
  next htrue =>
    refine ⟨htrue, ?_⟩
    split at h
    next xs =>
      cases h
      rw [mentions, List.any_eq_true.mpr ⟨_, hname, by simp [same]⟩]
    next fs =>
      cases h
      simpa [mentions] using hname
    next t =>
      cases h
      obtain ⟨c, hc, heq⟩ := List.mem_map.mp hname
      cases heq
      obtain ⟨l, r, rfl⟩ := append_of_mem hc
      rw [mentions, Plan.hasInfix_iff.mpr ⟨l, r, by simp⟩]
    · contradiction
  next =>
    cases h
    contradiction

namespace World

lemma mem_of_shortest? {names : List Text} (h : shortest? names = some name) : name ∈ names :=
  mem_mergeSort.mp (mem_of_head? h)

lemma mem_of_preferredOf? {names : List Text} (h : preferredOf? names = some name) : name ∈ names := by
  unfold preferredOf? at h
  extract_lets filled telling known idents at h
  have hkn : known ⊆ names := by
    intro n hn
    have hfill : n ∈ filled := by
      dsimp only [known] at hn
      split at hn
      · exact hn
      · exact mem_of_mem_filter hn
    exact mem_of_mem_filter hfill
  simp only [orElse_eq_orElse, orElse_eq_or, or_eq_some_iff] at h
  rcases h with h | ⟨-, h | ⟨-, h | ⟨-, h⟩⟩⟩
  · exact hkn (mem_of_mem_filter (mem_of_mem_filter (mem_of_shortest? h)))
  · exact hkn (mem_of_mem_filter (mem_of_mem_filter (mem_of_shortest? h)))
  · exact hkn (mem_of_mem_filter (mem_of_shortest? h))
  · exact hkn (mem_of_shortest? h)

lemma hasAlias_preferred (h : preferred? spec = .ok (some name)) : spec.hasAlias name = .ok true := by
  simp only [preferred?, bind_eq_ok] at h
  obtain ⟨v, hv, items, hit, h⟩ := h
  obtain ⟨k, hk, htext⟩ := mem_filterMap.mp (mem_of_preferredOf? (ok.inj h))
  cases k <;> simp [Json.text?] at htext
  subst htext
  obtain ⟨htrue, hment⟩ := Json.mentions_of_mem_asItems hit hk
  rw [Spec.hasAlias, hv]
  simp [htrue, hment, bind, Except.bind]

end World
namespace Api

lemma find_eq_findIn {api : Api} {key : Text} (hm : moduleAliases.getD m m = key) (hkey : key ≠ "select" ∧ key ≠ "misc")
    (hget : api.get key = .ok (.obj (pre ++ (f, spec) :: post))) (func : Text) :
    api.find m func = findIn func (.obj (pre ++ (f, spec) :: post)) := by
  have hmodule : (m == "select".toList || m == "выборка".toList) = false := by
    rw [Bool.or_eq_false_iff, beq_eq_false_iff_ne, beq_eq_false_iff_ne]
    constructor <;>
    · rintro rfl
      exact hkey.1 hm.symm
  have hsel : (key == "select".toList) = false := by simpa using hkey.1
  have hmisc : (key == "misc".toList) = false := by simpa using hkey.2
  rw [find, resolveModule, hm, hsel]
  simp only [Bool.false_eq_true, if_false, pure_bind, hmisc, Bool.false_and, hmodule, hget]
  simp [Json.isTruthy, bind, Except.bind]

/-- The name that an action is written under is read back as the action if it is its name in the library or, where no
action has that name, no earlier action has it among its other names. -/
theorem find_preferred_iff {api : Api} {alias? : Option Text} (hm : moduleAliases.getD m m = m)
    (hmod : m ≠ "select" ∧ m ≠ "misc")
    (hget : api.get m = .ok (.obj (pre ++ (f, spec) :: post))) (hf : f ∉ Table.names pre)
    (hname : World.preferred? spec = .ok alias?) :
    api.find m (alias?.getD f) = .ok (some (f, spec)) ↔ alias?.getD f = f ∨
      alias?.getD f ∉ Table.names (pre ++ (f, spec) :: post) ∧ ∀ e ∈ pre, Spec.hasAlias (alias?.getD f) e.2
        = .ok false := by
  rw [find_eq_findIn hm hmod hget, findIn]
  by_cases hf' : alias?.getD f = f
  · rw [hf', Table.get?_append_cons hf]
    simp
  · obtain ⟨name, rfl⟩ : ∃ name, alias? = some name := by
      cases alias? with
      | none => contradiction
      | some name => exact ⟨name, rfl⟩
    rw [or_iff_right hf', getD_some, ← Table.get?_none_iff]
    cases Table.get? name (pre ++ (f, spec) :: post) with
    | some spec' => simpa using fun h _ => hf' h
    | none =>
      simpa using first_iff (F := findAlias name) (g := id) (fun _ _ => rfl)
        (fun e he heq => hf (by cases heq; exact List.mem_map_of_mem he)) (World.hasAlias_preferred hname)

def aliased (names : List String) : Spec := .obj [("aliases", .arr ((texts names).map .str))]

def placing : Json.Fields :=
  [("place_item", aliased ["place", "установить_предметы"]), ("set_item", aliased ["установить_предметы", "set"])]

/-- The theorem at work on the first of the actions. -/
theorem find_preferred_iff_first : find (.obj [("player", .obj placing)]) "player" "установить_предметы"
    = .ok (some ("place_item", aliased ["place", "установить_предметы"])) :=
  (@find_preferred_iff _ _ _ [] _ _ (some "установить_предметы") (by decide) (by decide) rfl (by simp [Table.names])
    (by decide +kernel)).mpr (.inr ⟨by decide, by simp⟩)

/-- The name of the second action is read back as the first. -/
theorem find_preferred_ne :
    World.preferred? (aliased ["установить_предметы", "set"]) = .ok (some "установить_предметы".toList) ∧
      find (.obj [("player", .obj placing)]) "player" "установить_предметы"
        ≠ .ok (some ("set_item", aliased ["установить_предметы", "set"])) := by
  refine ⟨by decide +kernel, fun h => ?_⟩
  have hnms : ((find (.obj [("player", .obj placing)]) "player" "установить_предметы").toOption.bind id).map Prod.fst
      = some "place_item".toList := by decide +kernel
  rw [h] at hnms
  exact absurd hnms (by decide)

end Api
end BlockScript
