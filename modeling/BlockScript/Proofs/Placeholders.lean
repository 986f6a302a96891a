import BlockScript.Formula.Placeholder
import BlockScript.Proofs.Tables
import BlockScript.Proofs.Spelling

/-!
# Placeholder variables

In a formula, placeholder variables are hidden behind names. Every one that is found gets a name of its own, and the
names stand for exactly the variables found (`Formula.resolve_hidePlaceholders`). What is replaced may be more than what
was found: a variable may stand in a longer one.
-/

open List
namespace BlockScript.Formula

lemma map_hideAll (n : Nat) (t : Text) (vs : List Text) : (hideAll n t vs).2.map Prod.snd = vs
    ∧ (hideAll n t vs).2.map Prod.fst = (range' (n + 1) vs.length).map fun k => "__mlccv" ++ Text.ofNat k := by
  induction vs generalizing n t with
  | nil => exact ⟨rfl, rfl⟩
  | cons v vs ih =>
    obtain ⟨hsnd, hfst⟩ := ih (n + 1) (Text.replace v ("__mlccv" ++ Text.ofNat (n + 1)) t)
    exact ⟨congrArg (v :: ·) hsnd, congrArg (_ :: ·) hfst⟩

/-- Every placeholder variable that is found has a name of its own, which stands for it. -/
theorem resolve_hidePlaceholders (t : Text) : let names := (hidePlaceholders t).2
    names.map Prod.snd = (placeholderPattern.findAll t).map Pattern.Match.text ∧ (names.map Prod.fst).Nodup
      ∧ ∀ e ∈ names, names.resolve e.1 = e.2 := by
  obtain ⟨hsnd, hfst⟩ := map_hideAll 0 t ((placeholderPattern.findAll t).map Pattern.Match.text)
  have hnodup : ((hidePlaceholders t).2.map Prod.fst).Nodup := by
    rw [hidePlaceholders, hfst]
    exact Nodup.map (fun k m h => Text.ofNat_injective (append_cancel_left h)) nodup_range'
  refine ⟨hsnd, hnodup, fun e he => ?_⟩
  exact congrArg (Option.getD · e.1) (Table.get?_of_nodup hnodup he)

/-- The name of the second variable begins with the name of the first, so its front is hidden behind the wrong name and
nothing is left for its own. -/
theorem hidePlaceholders_mangled : hidePlaceholders "%a%x + %a%xy"
    = ⟨"__mlccv1 + __mlccv1y", [⟨"__mlccv1", "%a%x"⟩, ⟨"__mlccv2", "%a%xy"⟩]⟩ := by
  rfl

end BlockScript.Formula
