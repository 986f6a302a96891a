import BlockScript.Proofs.Lowering
import BlockScript.Proofs.OneLine

/-!
# Weights of conditions

A condition of a multiple selection may have a weight behind it. The weight is split off where the last parenthesis is
closed, so a weight must not have parentheses of its own: `Multiselect.weighted_eq_ok`.
-/

open List
namespace BlockScript.Multiselect
open Text Layout
variable {s : Nesting} {n : Nat} {d : Int} {found : Option Nat} {t u c r : Text} {o : Char} {op : WeightOp}

/-- A call whose quotes and brackets are closed; there may be others before its arguments. -/
structure IsCall (c : Text) : Prop where
  parts : ∃ name args, Sealed false name ∧ Sealed false args ∧ c = name ++ '(' :: (args ++ [')'])
  trim : Text.trim c = c

lemma callEndFrom_append : callEndFrom s n d found (t ++ u) = callEndFrom (t.foldl countParen (s, d)).1 (n + t.length)
    (t.foldl countParen (s, d)).2 (callEndFrom s n d found t) u := by
  induction t generalizing s n d found with
  | nil => rfl
  | cons x t ih =>
    rw [cons_append, callEndFrom, ih, Nat.add_assoc, Nat.add_comm 1]
    rfl

lemma callEndFrom_of_notMem (h : ')' ∉ t) : callEndFrom s n d found t = found := by
  induction t generalizing s n d with
  | nil => rfl
  | cons x t ih =>
    obtain ⟨hx, ht⟩ := not_or.mp (mem_cons.not.mp h)
    rw [callEndFrom, beq_eq_false_iff_ne.mpr (Ne.symm hx)]
    simpa using ih ht

lemma callEndFrom_call (hc : IsCall c) (hr : ')' ∉ r) : callEndFrom .top 0 0 none (c ++ r) = some c.length := by
  obtain ⟨name, args, hnm, hargs, rfl⟩ := hc.parts
  have hins : (name ++ '(' :: args).foldl countParen (.top, 0) = (⟨none, false, 1, 0, 0⟩, 1) := by
    rw [foldl_append, Nesting.top, countParen_sealed hnm]
    exact countParen_sealed hargs 1 0 0 1
  have hspl : name ++ '(' :: (args ++ [')']) = (name ++ '(' :: args) ++ [')'] := by simp
  rw [callEndFrom_append, callEndFrom_of_notMem hr, hspl, callEndFrom_append, hins]
  simp [callEndFrom, Nat.add_assoc]

lemma weighted_append (hc : IsCall c) (hr : ∀ x ∈ r, x ≠ ')' ∧ isBlank x = false) {w : WeightOp × Text}
    (hw : weight? r = some w) : weighted (c ++ r) = .ok ⟨c, w.1, w.2⟩ := by
  have hne : c ≠ [] := by
    obtain ⟨name, args, -, -, rfl⟩ := hc.parts
    simp
  have hends := trim_self_iff.mp hc.trim
  have hlast : ∀ x, r.getLast? = some x → isBlank x = false := fun x hx => (hr x (mem_of_getLast? hx)).2
  have htrim : trim (c ++ r) = c ++ r := by
    refine trim_self_iff.mpr ⟨fun x hx => hends.1 x ?_, fun x hx => ?_⟩
    · rwa [head?_append_of_ne_nil _ hne] at hx
    rw [getLast?_append, Option.or_eq_some_iff] at hx
    rcases hx with hx | ⟨-, hx⟩
    · exact hlast x hx
    · exact hends.2 x hx
  have htail : trim r = r := trim_self_iff.mpr ⟨fun x hx => (hr x (mem_of_head? hx)).2, hlast⟩
  simp [weighted, htrim, hne, callEndFrom_call hc fun h => (hr _ h).1 rfl, hc.trim, htail, hw]

lemma weight?_append (ho : WeightOp.ofChar? o = some op) (hr : ∀ x ∈ r, x ≠ ')' ∧ x ≠ '=' ∧ isBlank x = false) :
    ∀ sign ∈ [[o], [o, '=']], weight? (sign ++ r) = some (op, if r.isEmpty then ("1" : Text) else r) := by
  have htrim : trim r = r := trim_self_iff.mpr
    ⟨fun x hx => (hr x (mem_of_head? hx)).2.2, fun x hx => (hr x (mem_of_getLast? hx)).2.2⟩
  simp only [forall_mem_cons, not_mem_nil, false_imp_iff, implies_true, and_true, cons_append,
    nil_append, weight?, ho, Option.map_some, htrim]
  split
  · exact absurd rfl (hr '=' (by simp)).2.1
  · rw [htrim]

/-- A weight is split off from its condition if no parenthesis is closed in it. A call behind a condition, such as a
weight that is wrapped, is taken as its end. -/
theorem weighted_eq_ok (hc : IsCall c) (ho : WeightOp.ofChar? o = some op)
    (hr : ∀ x ∈ r, x ≠ ')' ∧ x ≠ '=' ∧ isBlank x = false) : weighted c = .ok ⟨c, .add, "1"⟩ ∧
      ∀ sign ∈ [[o], [o, '=']], weighted (c ++ (sign ++ r)) = .ok ⟨c, op, if r.isEmpty then "1" else r⟩ := by
  have ho' : o ≠ ')' ∧ isBlank o = false := by
    unfold WeightOp.ofChar? at ho
    split at ho <;> first | decide | contradiction
  refine ⟨by simpa using weighted_append (r := []) hc (by simp) rfl, fun sign hsign => ?_⟩
  refine weighted_append hc (fun x hx => ?_) (weight?_append ho hr sign hsign)
  rcases mem_append.mp hx with hx | hx
  · have hx' : x = o ∨ x = '=' := by
      simp only [mem_cons, not_mem_nil, or_false] at hsign
      rcases hsign with rfl | rfl <;> simp_all
    rcases hx' with rfl | rfl
    · exact ho'
    · decide
  · exact ⟨(hr x hx).1, (hr x hx).2.2⟩

/-- The theorem at work on a condition with an argument. -/
theorem weighted_eq_ok_quoted :
    weighted "select.ifplayer.a(\"+ 3)\")*=k" = .ok ⟨"select.ifplayer.a(\"+ 3)\")", .mul, "k"⟩ :=
  (weighted_eq_ok (c := "select.ifplayer.a(\"+ 3)\")") (o := '*')
    ⟨⟨"select.ifplayer.a", "\"+ 3)\"", sealed_of_plain (by decide),
      .quoted (u := "+ 3)") (by decide) (quoted_of_ne (by decide)) (.nil _), rfl⟩, by decide⟩
    rfl (fun x hx => by rw [mem_singleton.mp hx]; decide)).2 ['*', '='] (by simp)

/-- A weight that is wrapped is no weight. -/
theorem weighted_wrapped : weighted "select.ifplayer.a() + var(y)" = .ok ⟨"select.ifplayer.a() + var(y)", .add, "1"⟩ :=
  ok_of_toOption (by decide)

/-- What the counter holds after the actions that lines are placed as, if it was zero before. -/
def counterAfter (lines : List Text) : Option ℚ := do
  let ps ← (lines.mapM fun line => (placeLine Arithmetic.shippedLibrary (Text.trim line)).result).toOption
  let σ ← Arithmetic.run Arithmetic.commandOf (fun _ => 0) (ps.filterMap id) fun _ => 0
  return σ "c"

/-- Weights of one and two do not add up to three. -/
theorem counterAfter_ne_sum : ((expand ["multiselect ifplayer c 3", "  select.ifplayer.a() + 1",
    "  select.ifplayer.b() + 2"]).toOption.bind counterAfter) = some 2 := by
  decide +kernel

end BlockScript.Multiselect
