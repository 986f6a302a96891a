import BlockScript.Action.Placed
import BlockScript.Proofs.Tables

/-!
# Choices by label

A choice is resolved to the option whose label is the same up to what `Choice.key` leaves out, if no two labels are:
`Choice.clicksFor_eq_of_key`. Most marks are not left out.
-/

open Option
namespace BlockScript.Choice
open Table
open Script.Compile (result_bind result_liftM result_pure)
variable {name value label : Text} {opts : Options} {c : Json}

lemma clicksFor_of_key (hkeys : (opts.map fun o => key o.1).Nodup) (hmem : (label, c) ∈ opts) (hc : c ≠ .null)
    (hkey : key value = key label) (hseparator : separator? opts value = none) :
    clicksFor name value (.obj opts) = pure c := by
  have hclicks : clicks? c = some c := by
    cases c <;> first | rfl | contradiction
  have hne : opts.isEmpty = false := by
    simpa using List.ne_nil_of_mem hmem
  cases hget : opts.get? value with
  | some c' =>
    cases List.inj_on_of_nodup_map hkeys (mem_of_get? hget) hmem hkey
    simp only [clicksFor, Json.fields?, getD_some, hne, hget, hclicks]
    rfl
  | none =>
    have hnms : (Table.names (opts.map fun o => (key o.1, o))).Nodup := by
      simpa [Table.names, Function.comp_def] using hkeys
    have hkeyed : (byKey opts).get? (key label) = some (label, c) := by
      rw [byKey, ofList_of_nodup hnms]
      exact get?_of_nodup hnms (List.mem_map_of_mem hmem)
    simp only [clicksFor, Json.fields?, getD_some, hne, hget, inexact?, hseparator, hkey, hkeyed, bind_some, hclicks]
    rfl

/-- The record of a choice: its name, its slot and its options. -/
structure Describes (e : Json) (name : Text) (slot : Json) (opts : Options) : Prop where
  name : e.get "name" = .ok (.str name)
  slot : e.need "slot" = .ok slot
  options : e.get "options" = .ok (.obj opts)

/-- A value means the option whose label has the same key, if labels have different keys and the value is no word for
a separator. Where the choice is given such a value, the clicks of the option are placed, if there are any. -/
theorem clicksFor_eq_of_key (hkeys : (opts.map fun o => key o.1).Nodup) (hmem : (label, c) ∈ opts) (hc : c ≠ .null)
    (hkey : key value = key label) (hseparator : separator? opts value = none) :
    clicksFor name value (.obj opts) = pure c ∧ ∀ n e slot es b raw, c = .int n → Describes e name slot opts
      → name ≠ [] →
      b.named.get? name = some raw → Text.unquote (Text.trim raw) = value → (Placed.choicePieces (e :: es) b).result
        = (Placed.choicePieces es (b.take name)).result.map fun r =>
          ((if 0 < n then ["clicks(" ++ slot.spell ++ "," ++ Text.ofInt n ++ ")=0"] else []) ++ r.1, r.2) := by
  have hclicks : clicksFor name value (.obj opts) = pure c := clicksFor_of_key hkeys hmem hc hkey hseparator
  refine ⟨hclicks, ?_⟩
  rintro n e slot es b raw rfl he hne hraw rfl
  have hnamed : (if name.isEmpty then none else b.named.get? name) = some raw := by simpa [hne] using hraw
  simp only [Placed.choicePieces, result_bind, result_liftM, he.name, Except.mapError,
    Except.bind, hnamed, he.options, hclicks, result_pure, clickCount]
  split <;> simp only [result_bind, result_liftM, he.slot, Except.mapError, Except.bind, result_pure]
  all_goals cases (Placed.choicePieces es (b.take name)).result <;> rfl

def switch : Options := [("вкл.", .int 1), ("выкл.", .int 2)]

def switchRecord : Json := .obj [("name", .str "режим"), ("slot", .int 13), ("options", .obj switch)]

/-- The theorem at work on another case and spacing. -/
theorem clicksFor_eq_of_key_upper : clicksFor "режим" "ВЫ КЛ." (.obj switch) = pure (.int 2)
    ∧ (Placed.choicePieces [switchRecord] ⟨[("режим", "ВЫ КЛ.")], []⟩).result
      = .ok (["clicks(13,2)=0"], ⟨[("режим", "ВЫ КЛ.")], ["режим"]⟩) := by
  have h := @clicksFor_eq_of_key "режим" "ВЫ КЛ." "выкл." switch (.int 2)
    (by decide) (by simp [switch]) (by simp) (by decide) (by decide)
  exact ⟨h.1, h.2 2 switchRecord (.int 13) [] _ "ВЫ КЛ." rfl ⟨rfl, rfl, rfl⟩ (by decide) rfl (by decide)⟩

/-- A label without its full stop is no label. -/
theorem exists_mark_compared : ∃ options, (clicksFor "режим" "вкл" (.obj switch)).result
    = .error (.unknownChoice "режим" "вкл" options) :=
  ⟨_, rfl⟩

end BlockScript.Choice
