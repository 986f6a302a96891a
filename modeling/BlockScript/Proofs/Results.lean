import BlockScript.Proofs.Format
import BlockScript.Proofs.Nested
import BlockScript.Proofs.StackActions
import BlockScript.Proofs.Traces

/-!
# Results of functions

A function leaves its results on a stack: a `return` puts a value there, and `x = f(…)` calls a function and takes off
the value that it left. A function without any `return` puts a value there at its end. So on every way through a
function, whatever conditions hold on it, the calls are settled, and what is left is what the function itself returned
(`Data.total_of_way`). A way that comes to two returns leaves two values.
-/

open Option List Except
namespace BlockScript
open Assignment Placed BlockScript.Action
open Script (Compile Settings)
open Script.Compile (bind_ok result_pure)
open Plan (Owner)
namespace Results

/-! ### Actions on the stack of results -/

/-- What an action does to arrays and functions. -/
inductive Kind where
  /-- Put a value into an array. -/
  | insert
  /-- Read a value of an array. -/
  | get
  /-- Take a value out of an array. -/
  | remove
  /-- Call a function. -/
  | call
deriving DecidableEq

/-- How the game reads actions, by their block and their name. -/
abbrev Kinds := Text → Text → Option Kind

section
variable (kinds : Kinds)

def returns (a : Action) : Bool := kinds a.block a.name == some .insert && a.array? == some resultStack

/-- By how much an action changes the height of the stack of results. A function called leaves one result. -/
def change (a : Action) : Int :=
  match kinds a.block a.name with
  | some .insert => if a.array? = some resultStack then 1 else 0
  | some .remove => if a.array? = some resultStack then -1 else 0
  | some .call => 1
  | some .get | none => 0

/-- By how much actions change the height of the stack of results. -/
def total (as : List Action) : Int := (as.map (change kinds)).sum

/-- How far an action is ahead of what is returned: a call by one, and one that takes a result is behind by one. -/
def surplus (a : Action) : Int := change kinds a - if returns kinds a then 1 else 0

end

/-! ### Ways -/

/-- What is come to on a way, on which the conditions that are come to hold or not as `holds` tells. One that does not
hold steps over all actions up to the skip that closes its scope; `depth` counts the scopes that are open meanwhile.
None if there is no such skip, or if there are more conditions. -/
def follow {α : Type} (act : α → Action) : List Bool → Nat → List α → Option (List α)
  | _, 0, [] => some []
  | _, _ + 1, [] => none
  | holds, 0, x :: xs =>
    if (act x).opens then holds.head?.bind fun h => (follow act holds.tail (if h then 0 else 1) xs).map (x :: ·)
    else (follow act holds 0 xs).map (x :: ·)
  | holds, depth + 1, x :: xs =>
    if (act x).opens then follow act holds (depth + 2) xs
    else if (act x).closes then
      if depth = 0 then (follow act holds 0 xs).map (x :: ·) else follow act holds depth xs
    else follow act holds (depth + 1) xs

variable {kinds : Kinds} {a : Action} {as bs : List Action} {holds : List Bool} {depth : Nat} {k : Int}

section
variable {α : Type} {act : α → Action} {x : α} {xs way : List α}

lemma follow_zero_cons (h : follow act holds 0 (x :: xs) = some way) :
    ∃ holds' depth' way', follow act holds' depth' xs = some way' ∧ way = x :: way' ∧ (depth' ≠ 0 → (act x).opens) := by
  rw [follow] at h
  split at h
  next hop =>
    obtain ⟨hold, -, h⟩ := bind_eq_some_iff.mp h
    obtain ⟨way', hway', rfl⟩ := map_eq_some_iff.mp h
    exact ⟨_, _, way', hway', rfl, fun _ => hop⟩
  next =>
    obtain ⟨way', hway', rfl⟩ := map_eq_some_iff.mp h
    exact ⟨holds, 0, way', hway', rfl, by simp⟩

lemma follow_succ_cons (h : follow act holds (depth + 1) (x :: xs) = some way) :
    (∃ depth', follow act holds (depth' + 1) xs = some way) ∨
      ∃ way', follow act holds 0 xs = some way' ∧ way = x :: way' ∧ (act x).closes := by
  rw [follow] at h
  split at h
  · exact .inl ⟨depth + 1, h⟩
  split at h
  next hcls =>
    split at h
    next =>
      obtain ⟨way', hway', rfl⟩ := map_eq_some_iff.mp h
      exact .inr ⟨way', hway', rfl, hcls⟩
    next hdep =>
      obtain ⟨depth', rfl⟩ := Nat.exists_eq_succ_of_ne_zero hdep
      exact .inl ⟨depth', h⟩
  · exact .inl ⟨depth, h⟩

lemma sublist_of_follow (h : follow act holds depth xs = some way) : way.Sublist xs := by
  induction xs generalizing holds depth way with
  | nil =>
    cases depth with
    | zero =>
      cases h
      exact .slnil
    | succ depth => contradiction
  | cons x xs ih =>
    cases depth with
    | zero =>
      obtain ⟨holds', depth', way', hway', rfl, -⟩ := follow_zero_cons h
      exact (ih hway').cons_cons x
    | succ depth =>
      rcases follow_succ_cons h with ⟨depth', hway'⟩ | ⟨way', hway', rfl, -⟩
      · exact (ih hway').cons x
      · exact (ih hway').cons_cons x

lemma follow_append_last (hop : (act x).opens = false) (hcls : (act x).closes = false)
    (h : follow act holds depth (xs ++ [x]) = some way) :
    ∃ way', follow act holds depth xs = some way' ∧ way = way' ++ [x] := by
  induction xs generalizing holds depth way with
  | nil =>
    cases depth with
    | zero =>
      rw [nil_append, follow, if_neg (by simp [hop])] at h
      exact ⟨[], rfl, (some.inj h).symm⟩
    | succ depth => simp [follow, hcls] at h
  | cons y xs ih =>
    rw [cons_append] at h
    have hmap {holds depth} : (follow act holds depth (xs ++ [x])).map (y :: ·) = some way →
        ∃ way', (follow act holds depth xs).map (y :: ·) = some way' ∧ way = way' ++ [x] := by
      intro h
      obtain ⟨way', hway', rfl⟩ := map_eq_some_iff.mp h
      obtain ⟨way'', hway'', rfl⟩ := ih hway'
      exact ⟨y :: way'', by rw [hway'']; rfl, rfl⟩
    cases depth with
    | zero =>
      rw [follow] at h ⊢
      split at h
      next hb =>
        obtain ⟨hold, hholds, h⟩ := bind_eq_some_iff.mp h
        rw [if_pos hb, hholds]
        exact hmap h
      next hb =>
        rw [if_neg hb]
        exact hmap h
    | succ depth =>
      rw [follow] at h ⊢
      split at h
      next hb =>
        rw [if_pos hb]
        exact ih h
      next hb =>
        rw [if_neg hb]
        split at h
        next hb' =>
          rw [if_pos hb']
          split at h
          next hdep =>
            rw [if_pos hdep]
            exact hmap h
          next hdep =>
            rw [if_neg hdep]
            exact ih h
        next hb' =>
          rw [if_neg hb']
          exact ih h

end

/-! ### Settled calls -/

/-- The actions are even with what is returned at their end, and wherever a scope begins or ends; `k` is the surplus
so far. -/
def Settles (kinds : Kinds) : Int → List Action → Prop
  | k, [] => k = 0
  | k, a :: as => (a.opens ∨ a.closes → k = 0 ∧ surplus kinds a = 0) ∧ Settles kinds (k + surplus kinds a) as

lemma Settles.append (h : Settles kinds k as) (h' : Settles kinds 0 bs) : Settles kinds k (as ++ bs) := by
  induction as generalizing k with
  | nil =>
    obtain rfl : k = 0 := h
    exact h'
  | cons a as ih => exact ⟨h.1, ih h.2⟩

lemma settles_of_forall (h : ∀ a ∈ as, surplus kinds a = 0) : Settles kinds 0 as := by
  induction as with
  | nil => rfl
  | cons a as ih =>
    have ha := h a (by simp)
    refine ⟨fun _ => ⟨rfl, ha⟩, ?_⟩
    rw [ha]
    exact ih fun b hb => h b (by simp [hb])

/-- Actions that neither open nor close a scope only have to be even at their end. -/
lemma settles_of_neutral (h : ∀ a ∈ as, Plan.Neutral a)
    (hsum : k + (as.map (surplus kinds)).sum = 0) : Settles kinds k as := by
  induction as generalizing k with
  | nil => simpa [Settles] using hsum
  | cons a as ih =>
    obtain ⟨ho, hc⟩ := h a (by simp)
    refine ⟨fun hsc => by simp [ho, hc] at hsc, ih (fun b hb => h b (by simp [hb])) ?_⟩
    rw [map_cons, sum_cons] at hsum
    omega

/-- On a way through settled actions nothing is left over. While a scope is stepped over, the surplus does not count. -/
lemma Settles.sum_of_follow {α : Type} {act : α → Action} {xs way : List α} (hs : Settles kinds k (xs.map act))
    (h : follow act holds depth xs = some way) :
    (if depth = 0 then k else 0) + (way.map fun x => surplus kinds (act x)).sum = 0 := by
  induction xs generalizing k holds depth way with
  | nil =>
    cases depth with
    | zero =>
      cases h
      obtain rfl : k = 0 := hs
      simp
    | succ depth => contradiction
  | cons a as ih =>
    obtain ⟨hsc, hs⟩ := hs
    cases depth with
    | zero =>
      obtain ⟨holds', depth', way', hway', rfl, hdep⟩ := follow_zero_cons h
      have hrest := ih hs hway'
      rw [map_cons, sum_cons]
      by_cases hzero : depth' = 0
      · simp only [hzero, if_true] at hrest ⊢
        omega
      obtain ⟨hk, ha⟩ := hsc (.inl (hdep hzero))
      simp only [hzero, if_false, if_true] at hrest ⊢
      omega
    | succ depth =>
      rcases follow_succ_cons h with ⟨depth', hway'⟩ | ⟨way', hway', rfl, hcls⟩
      · simpa using ih hs hway'
      obtain ⟨hk, ha⟩ := hsc (.inr hcls)
      have hrest := ih hs hway'
      rw [map_cons, sum_cons]
      simp only [if_true, Nat.add_one_ne_zero, if_false] at hrest ⊢
      omega

lemma sum_surplus (h : ∀ a ∈ as, surplus kinds a = 0) : (as.map (surplus kinds)).sum = 0 := by
  induction as with
  | nil => rfl
  | cons a as ih => simp [h a (by simp), ih fun b hb => h b (by simp [hb])]

lemma total_eq (kinds : Kinds) (as : List Action) :
    total kinds as = (as.map (surplus kinds)).sum + as.countP (returns kinds) := by
  induction as with
  | nil => rfl
  | cons a as ih =>
    rw [total, map_cons, sum_cons, ← total, map_cons, sum_cons, countP_cons, surplus]
    split <;> push_cast <;> omega

/-- On a way through settled actions, what is left is what was returned. -/
lemma Settles.total_of_follow {α : Type} {act : α → Action} {xs way : List α} (hs : Settles kinds 0 (xs.map act))
    (h : follow act holds 0 xs = some way) : total kinds (way.map act) = way.countP fun x => returns kinds (act x) := by
  have hsum := hs.sum_of_follow h
  rw [total_eq, List.map_map, countP_map]
  simp only [if_true, Int.zero_add, Function.comp_def] at hsum ⊢
  omega

lemma change_of_returns (h : returns kinds a) : change kinds a = 1 := by
  rw [returns, Bool.and_eq_true, beq_iff_eq, beq_iff_eq] at h
  simp [change, h.1, h.2]

lemma returns_of_change (h : change kinds a = 0) : returns kinds a = false := by
  by_contra hrets
  rw [change_of_returns (by simpa using hrets)] at h
  contradiction

lemma surplus_of_change (h : change kinds a = 0) : surplus kinds a = 0 := by simp [surplus, h, returns_of_change h]

end Results

lemma mapM_append_ok {α β : Type} {f : α → Compile β} {xs xs' : List α} {ys : List β}
    (h : ((xs ++ xs').mapM f).result = .ok ys) :
    ∃ zs zs', (xs.mapM f).result = .ok zs ∧ (xs'.mapM f).result = .ok zs' ∧ ys = zs ++ zs' := by
  simp only [result_mapM] at h ⊢
  induction xs generalizing ys with
  | nil => exact ⟨[], ys, rfl, h, rfl⟩
  | cons x xs ih =>
    obtain ⟨y, rest, hy, hrest, rfl⟩ := mapM_cons_ok_iff.mp h
    obtain ⟨zs, zs', hzs, hzs', rfl⟩ := ih hrest
    exact ⟨y :: zs, zs', mapM_cons_ok_iff.mpr ⟨y, zs, hy, hzs, rfl⟩, hzs', rfl⟩

/-! ### Lines -/

namespace Assignment

/-- The function and the arguments of an assignment of a result. -/
def call? (a : Assignment) : Option (Text × List Text) :=
  if a.rhs.head? == some '[' && a.rhs.getLast? == some ']' then none
  else if (slicePattern.match? a.rhs).isSome || (indexPattern.match? a.rhs).isSome then none
  else functionCall? a.rhs

variable {lib : Library} {sigs : Signatures} {a : Assignment} {args : List Text}

lemma compile_of_call? {trace : Bool} {fn : Text}
    (h : a.call? = some (fn, args)) : a.compile lib sigs trace = resultActions lib sigs trace a fn args := by
  rw [call?] at h
  split at h
  · contradiction
  next hlist =>
    split at h
    · contradiction
    next hpart =>
      simp only [Bool.or_eq_true, isSome_iff_ne_none, not_or, not_not] at hpart
      simp [compile, hlist, hpart.1, hpart.2, h]

/-- The arguments are put on their stack, the function is called, and its result is read and taken off. -/
lemma resultActions_ok {fn : Text} {ps : List Placed} (h : (resultActions lib sigs false a fn args).result = .ok ps) :
    ∃ pushed spec taken removed, (∀ p ∈ pushed, ∃ raw ∈ args, ∃ token, (itemToken lib.values raw).result = .ok token
        ∧ (lib.call "array" "vstavit_v_massiv" (Passing.stackCall argsStack (some token))).result = .ok p)
      ∧ (callSpec lib.api).result = .ok spec ∧ (readResult lib a.target).result = .ok taken
      ∧ (removeResult lib).result = .ok removed
      ∧ ps = pushed ++ ⟨["slot(13)=" ++ Value.wrap "text" fn], spec⟩ :: [taken, removed] := by
  simp only [resultActions, Bool.false_eq_true, if_false] at h
  split at h
  next =>
    simp only [bind_ok, result_pure, ok.injEq] at h
    obtain ⟨_, rfl, spec, hspec, _, rfl, taken, htk, removed, hrem, _, rfl, rfl⟩ := h
    exact ⟨[], spec, taken, removed, by simp, hspec, htk, hrem, rfl⟩
  next =>
    simp only [bind_ok, result_pure, ok.injEq] at h
    obtain ⟨-, -, pushed, hpsh, spec, hspec, _, rfl, taken, htk, removed, hrem, _, rfl, rfl⟩ := h
    refine ⟨pushed, spec, taken, removed, ?_, hspec, htk, hrem, by simp⟩
    simp only [pushActions, bind_ok, Bool.false_eq_true, if_false, result_pure, ok.injEq] at hpsh
    obtain ⟨items, hit, _, rfl, rfl⟩ := hpsh
    intro p hp
    rw [append_nil] at hp
    obtain ⟨raw, hraw, hp⟩ := mapM_ok hit p hp
    obtain ⟨token, htok, hp⟩ := Compile.bind_ok.mp hp
    exact ⟨raw, mem_reverse.mp hraw, token, htok, hp⟩

end Assignment
namespace Line

/-- What a line has to do with the stack of results. -/
inductive Dealing where
  /-- `x = f(…)` -/
  | takes (a : Assignment) (fn : Text) (args : List Text)
  /-- `return value` -/
  | puts (value : Text)
  /-- Anything else. -/
  | other

/-- What a line that opens and closes nothing has to do with the stack of results. -/
def flatDealing (t : Text) : Dealing :=
  match return? t with
  | some value => .puts value
  | none =>
    if (Call.ofLine? t).isSome || (bareCall? t).isSome then .other
    else match (Assignment.ofLine? t).bind fun a => a.call?.map (a, ·) with
      | some (a, fn, args) => .takes a fn args
      | none => .other

def dealing (t : Text) : Dealing :=
  if t == "\x7d" || (If.ofLine? t).isSome || (Start.ofLine? t).isSome || (select? t).isSome || (message? t).isSome then
    .other
  else flatDealing t

end Line
namespace Program
open Results Passing
open Nesting (skips)
variable {ctx : Context} {kinds : Kinds} {s s' : State} {i : Instruction} {owner : Owner} {temps n : Nat}
  {negated : Bool} {t : Text}
  {f : Finished}

namespace Instruction

lemma returns_ofCall (h : (ofCall ctx temps n negated t).result = .ok i) : i.returns = false := by
  rcases ofCall_cases h with ⟨_, _, _, _, -, -, rfl⟩ | ⟨_, -, rfl⟩ | ⟨-, rfl⟩ <;> rfl

lemma returns_ofInner (h : (ofInner ctx owner temps n negated t).result = .ok i)
    (hln : (Line.select? t).isSome ∨ (Line.message? t).isSome) : i.returns = false := by
  rcases ofInner_cases h with ⟨sel, -, h⟩ | ⟨hselect, ⟨call, -, h⟩ | ⟨hmsg, -⟩⟩
  · obtain ⟨a, scope, -, rfl, -⟩ := ofSelect_ok h
    rfl
  · obtain ⟨as, a, rfl, -⟩ := ofMessage_ok h
    rfl
  · simp [hselect, hmsg] at hln

def Deals (ctx : Context) (i : Instruction) : Line.Dealing → Prop
  | .takes a fn args => ∃ ps as temps, (Assignment.resultActions ctx.lib ctx.signatures false a fn args).result = .ok ps
      ∧ (ps.mapM (place ctx)).result = .ok as ∧ i = .actions as temps
  | .puts value => ∃ a, (returnAction ctx (returnToken value)).result = .ok a ∧ i = .result a
  | .other => i.returns = false

lemma deals_ofInner (h : (ofInner ctx owner temps n negated t).result = .ok i) (hselect : Line.select? t = none)
    (hmsg : Line.message? t = none) : i.Deals ctx (Line.flatDealing t) := by
  rcases ofInner_cases h with ⟨sel, hsel, -⟩ | ⟨-, ⟨call, hcall, -⟩ | ⟨-, h⟩⟩
  · simp [hsel] at hselect
  · simp [hcall] at hmsg
  rw [Line.flatDealing]
  rcases h with ⟨value, hreturn, h⟩ | ⟨hreturn, placed, hplc, h⟩
  · rw [hreturn]
    exact ofReturn_ok h
  have hoth : i.returns = false := by
    rcases h with ⟨p, ps, as, -, -, -, rfl⟩ | ⟨-, h⟩
    · rfl
    · exact returns_ofCall h
  rw [hreturn]
  dsimp only
  split
  · exact hoth
  next hcall =>
    split
    next a fn args hassign =>
      obtain ⟨a', ha', hfn⟩ := bind_eq_some_iff.mp hassign
      obtain ⟨call, hcall?, heq⟩ := map_eq_some_iff.mp hfn
      cases heq
      simp only [Bool.or_eq_true, isSome_iff_ne_none, not_or, not_not] at hcall
      simp only [Statement.compile, hcall.1, hcall.2, ha', isSome_none, Bool.false_eq_true, if_false,
        compile_of_call? hcall?, bind_ok] at hplc
      obtain ⟨ps, hps, hplc⟩ := hplc
      cases hplc
      have hne : ps ≠ [] := by
        obtain ⟨pushed, spec, taken, removed, -, -, -, -, rfl⟩ := resultActions_ok hps
        simp
      obtain ⟨p, rest, rfl⟩ := exists_cons_of_ne_nil hne
      rcases h with ⟨p', ps', as, heq, -, has, rfl⟩ | ⟨hnone, -⟩
      · cases heq
        exact ⟨_, as, temps, hps, has, rfl⟩
      · exact absurd rfl (hnone p rest)
    · exact hoth

/-- What a line does follows from what it has to do with the stack of results. -/
theorem deals_ofLine (h : (ofLine ctx (some owner) temps n negated t).result = .ok i) :
    i.Deals ctx (Line.dealing t) := by
  rw [Line.dealing]
  split
  next hoth =>
    rcases ofLine_cases h
      with ⟨-, rfl⟩ | ⟨hcl, ⟨_, _, a, -, -, -, rfl⟩ | ⟨hif, ⟨head, -, -, rfl⟩ | ⟨hst, ⟨hnone, -⟩ | ⟨o, ho, h⟩⟩⟩⟩
    · rfl
    · rfl
    · rfl
    · cases hnone
    · cases ho
      rw [hcl, hif, hst] at hoth
      exact returns_ofInner h (by simpa using hoth)
  next hflat =>
    simp only [Bool.or_eq_true, isSome_iff_ne_none, not_or, not_not] at hflat
    obtain ⟨⟨⟨⟨hcl, hif⟩, hst⟩, hselect⟩, hmsg⟩ := hflat
    simp only [ofLine, hcl, hif, hst, Bool.false_eq_true, if_false] at h
    exact deals_ofInner h hselect hmsg

end Instruction

/-! ### What the actions of functions do to the stack -/

/-- The game reads whatever is placed from an entry of the library as of a kind. -/
def ReadsAs (ctx : Context) (kinds : Kinds) (spec : Spec) (kind : Kind) : Prop :=
  ∀ pieces a, (Instruction.place ctx ⟨pieces, spec⟩).result = .ok a → kinds a.block a.name = some kind

/-- The game reads the actions on stacks and the calls of functions as what they are meant to be. -/
structure Knows (ctx : Context) (kinds : Kinds) : Prop where
  insert : ∀ canon spec, ctx.lib.api.find "array" "vstavit_v_massiv" = .ok (some (canon, spec)) →
    spec.LeadsWithArray ∧ ReadsAs ctx kinds spec .insert
  get : ∀ canon spec, ctx.lib.api.find "array" "get_array" = .ok (some (canon, spec)) → ReadsAs ctx kinds spec .get
  remove : ∀ canon spec, ctx.lib.api.find "array" "remove_array" = .ok (some (canon, spec)) →
    spec.LeadsWithArray ∧ ReadsAs ctx kinds spec .remove
  call : ∀ spec, (Assignment.callSpec ctx.lib.api).result = .ok spec → ReadsAs ctx kinds spec .call

namespace Knows
variable {stack value : Text} {args : List Text} {p : Placed} {a : Action}
  {as : List Action}

lemma of_insert (hk : Knows ctx kinds) (hstk : Text.isPlain stack) (hval : skips ',' .top value)
    (h : (ctx.lib.call "array" "vstavit_v_massiv" (stackCall stack (some value))).result = .ok p)
    (ha : (Instruction.place ctx p).result = .ok a) : kinds a.block a.name = some .insert ∧ a.array? = some stack := by
  obtain ⟨canon, hfind, -⟩ := call_array_ok (by decide) h
  refine ⟨(hk.insert canon p.spec hfind).2 p.pieces a ha, ?_⟩
  exact array?_of_stackCall hstk (by decide) (fun c spec hc => (hk.insert c spec hc).1) (by simpa using hval) h ha

lemma of_remove (hk : Knows ctx kinds) (hstk : Text.isPlain stack)
    (h : (ctx.lib.call "array" "remove_array" (stackCall stack none)).result = .ok p)
    (ha : (Instruction.place ctx p).result = .ok a) : kinds a.block a.name = some .remove ∧ a.array? = some stack := by
  obtain ⟨canon, hfind, -⟩ := call_array_ok (by decide) h
  refine ⟨(hk.remove canon p.spec hfind).2 p.pieces a ha, ?_⟩
  exact array?_of_stackCall hstk (by decide) (fun c spec hc => (hk.remove c spec hc).1) (by simp) h ha

lemma change_of_get (hk : Knows ctx kinds) (h : (ctx.lib.call "array" "get_array" args).result = .ok p)
    (ha : (Instruction.place ctx p).result = .ok a) : change kinds a = 0 := by
  obtain ⟨canon, hfind, -⟩ := call_array_ok (by decide) h
  simp [change, hk.get canon p.spec hfind p.pieces a ha]

lemma change_of_args (h : kinds a.block a.name = some .insert ∨ kinds a.block a.name = some .remove)
    (ha : a.array? = some argsStack) : change kinds a = 0 := by
  have hne : argsStack ≠ resultStack := by decide
  rcases h with h | h <;> simp [change, h, ha, hne]

/-- For every parameter two actions take an argument, and they do not change the stack of results. -/
lemma change_of_prologue {params : List Text} (hk : Knows ctx kinds)
    (h : (prologue ctx params).result = .ok as) : as.length = 2 * params.length ∧ ∀ a ∈ as, change kinds a = 0 := by
  rw [prologue, bind_ok] at h
  obtain ⟨taken, htk, h⟩ := h
  cases h
  have hpairs : ∀ pair ∈ taken, pair.length = 2 ∧ ∀ a ∈ pair, change kinds a = 0 := by
    intro pair hpair
    obtain ⟨param, -, hpar⟩ := mapM_ok htk pair hpair
    simp only [bind_ok] at hpar
    obtain ⟨read, hrd, a₁, ha₁, removed, hrem, a₂, ha₂, hpar⟩ := hpar
    cases hpar
    obtain ⟨hkind, harr⟩ := hk.of_remove isPlain_argsStack hrem ha₂
    simpa using ⟨hk.change_of_get hrd ha₁, change_of_args (.inr hkind) harr⟩
  rw [result_mapM] at htk
  constructor
  · simp [length_flatten, map_congr_left fun pair h => (hpairs pair h).1, (mapM_ok_iff.mp htk).length_eq, Nat.mul_comm]
  · exact forall_mem_flatten.mpr fun pair hpair => (hpairs pair hpair).2

lemma returns_of_returnAction (hk : Knows ctx kinds) (hval : skips ',' .top value)
    (h : (returnAction ctx value).result = .ok a) : returns kinds a ∧ surplus kinds a = 0 := by
  rw [returnAction, bind_ok] at h
  obtain ⟨p, hp, ha⟩ := h
  obtain ⟨hkind, harr⟩ := hk.of_insert isPlain_resultStack hval hp ha
  have hrets : returns kinds a := by simp [returns, hkind, harr]
  exact ⟨hrets, by simp [surplus, change_of_returns hrets, hrets]⟩

lemma sum_resultActions {x : Assignment} {fn : Text} {ps : List Placed} (hk : Knows ctx kinds)
    (hargs : ∀ raw ∈ args, ∀ token ∈ (Assignment.itemToken ctx.lib.values raw).result.toOption, skips ',' .top token)
    (h : (Assignment.resultActions ctx.lib ctx.signatures false x fn args).result = .ok ps)
    (hps : (ps.mapM (Instruction.place ctx)).result = .ok as) :
    (as.map (surplus kinds)).sum = 0 ∧ ∀ a ∈ as, returns kinds a = false := by
  obtain ⟨pushed, spec, taken, removed, hpsh, hspec, htk, hrem, rfl⟩ := resultActions_ok h
  obtain ⟨front, back, hfr, hback, rfl⟩ := mapM_append_ok hps
  simp only [result_mapM, mapM_cons_ok_iff] at hback
  obtain ⟨call, _, hcall, ⟨got, _, hgot, ⟨gone, _, hgone, hnil, rfl⟩, rfl⟩, rfl⟩ := hback
  cases hnil
  have hpush : ∀ a ∈ front, change kinds a = 0 := by
    intro a ha
    obtain ⟨p, hp, hplace⟩ := mapM_ok hfr a ha
    obtain ⟨raw, hraw, token, htok, hp⟩ := hpsh p hp
    obtain ⟨hkind, harr⟩ := hk.of_insert isPlain_argsStack (hargs raw hraw token (by rw [htok]; rfl)) hp hplace
    exact change_of_args (.inl hkind) harr
  have hcallkind := hk.call spec hspec _ _ hcall
  have hget := hk.change_of_get htk hgot
  obtain ⟨hkind, harr⟩ := hk.of_remove isPlain_resultStack hrem hgone
  have hcall' : returns kinds call = false := by simp [returns, hcallkind]
  have hgone' : returns kinds gone = false := by simp [returns, hkind]
  constructor
  · have hzero : (front.map (surplus kinds)).sum = 0 := sum_surplus fun a ha => surplus_of_change (hpush a ha)
    have hcld : surplus kinds call = 1 := by simp [surplus, hcall', change, hcallkind]
    have htook : surplus kinds gone = -1 := by simp [surplus, hgone', change, hkind, harr]
    rw [map_append, sum_append, hzero]
    simp [hcld, surplus_of_change hget, htook]
  intro a ha
  simp only [mem_append, mem_cons, reverse_nil, not_mem_nil, or_false] at ha
  rcases ha with ha | rfl | rfl | rfl
  · exact returns_of_change (hpush a ha)
  · exact hcall'
  · exact returns_of_change hget
  · exact hgone'

end Knows

/-! ### Blocks -/

/-- The line calls functions for their results only and deals with the stack of results in no other way but to return
a value, and no value that it puts on a stack has a comma outside quotes and brackets. -/
def Reading.Tame (kinds : Kinds) (values : GameValues) (r : Reading) : Prop :=
  match Line.dealing r.text with
  | .takes _ _ args => ∀ raw ∈ args, ∀ token ∈ (Assignment.itemToken values raw).result.toOption, skips ',' .top token
  | .puts value => skips ',' .top (Instruction.returnToken value)
  | .other => ∀ a ∈ r.part, change kinds a = 0

instance (kinds : Kinds) (values : GameValues) (r : Reading) : Decidable (r.Tame kinds values) := by
  unfold Reading.Tame
  split <;> infer_instance

/-- The line is a `return`. -/
def Reading.returns (r : Reading) : Bool :=
  match Line.dealing r.text with
  | .puts _ => true
  | .takes .. | .other => false

/-- The line stands in the block with the number `k`. -/
def Reading.isOf (k : Nat) (r : Reading) : Bool := r.inBlock && r.index == k

/-- The lines of the block with the number `k`. -/
def blockLines (ctx : Context) (p : Prepared) (k : Nat) : List Reading :=
  (readings ctx p.namespaces 1 .start p.lines).filter (·.isOf k)

/-- The block consists of what its lines came to. -/
structure OpenBlock.Told (ctx : Context) (rs : List Reading) (b : OpenBlock) : Prop where
  actions : b.actions = rs.flatMap Reading.part
  returns : b.returns = rs.any Reading.returns
  deals : ∀ r ∈ rs, ∃ i s, Instruction.Deals ctx i (Line.dealing r.text) ∧ r.part = i.added s

lemma returns_of_deals {r : Reading} (h : i.Deals ctx (Line.dealing r.text)) : i.returns = r.returns := by
  rw [Reading.returns]
  cases hdeal : Line.dealing r.text <;> rw [hdeal] at h
  · obtain ⟨_, _, _, -, -, rfl⟩ := h
    rfl
  · obtain ⟨_, -, rfl⟩ := h
    rfl
  · exact h

theorem told_of_run {p : Prepared} {k : Nat} (hrun : (run ctx p).result = .ok s) (hf : s.done[k]? = some f) :
    f.block.Told ctx (blockLines ctx p k) := by
  obtain ⟨s₁, hls, hfl⟩ := run_ok hrun
  suffices hblks : ∀ k (b : OpenBlock), s₁.blocks[k]? = some b → b.Told ctx (blockLines ctx p k) by
    refine hblks k f.block ?_
    rw [← blocks_flush hfl, State.blocks, block_flush hfl]
    simp [hf]
  refine (readings_rec (P := fun rs s => (∀ r ∈ rs, r.inBlock → r.index < s.blocks.length)
    ∧ ∀ k (b : OpenBlock), s.blocks[k]? = some b → b.Told ctx (rs.filter (·.isOf k))) hls
    (by simp [State.blocks, State.start]) fun rs n s s' negated t i hs hi hexec => ?_).2
  obtain ⟨hidx, htold⟩ := hs
  have hopen : s.block.isSome → s.done.length < s.blocks.length := by
    cases hb : s.block <;> simp [State.blocks, hb]
  refine ⟨forall_mem_append.mpr ⟨fun r hr hin => (hidx r hr hin).trans_le (length_blocks_exec hexec),
    forall_mem_singleton.mpr fun hin => (hopen hin).trans_le (length_blocks_exec hexec)⟩, fun k b' hb' => ?_⟩
  rw [filter_append]
  rcases block_exec hexec hb' with ⟨hk, hacts, hrets⟩ | ⟨b, hb, hch⟩
  -- no line stands in a block that was not there
  · have hnone : ∀ r : Reading, (r.inBlock → r.index < s.blocks.length) → r.isOf k = false := by
      intro r hr
      rw [Reading.isOf, Bool.and_eq_false_imp]
      exact fun hin => beq_false_of_ne (by have := hr hin; omega)
    have hnil : rs.filter (·.isOf k) = [] := filter_eq_nil_iff.mpr fun r hr => by simp [hnone r (hidx r hr)]
    have hlast := hnone ⟨t, s.done.length, s.block.isSome, i.added s⟩ hopen
    rw [hnil, filter_cons_of_neg (Bool.eq_false_iff.mp hlast)]
    exact ⟨hacts, hrets, by simp⟩
  have hbt := htold k b hb
  by_cases hhere : s.block.isSome ∧ k = s.done.length
  · rw [if_pos hhere] at hch
    obtain ⟨owner, howner⟩ : ∃ owner, (s.block.map fun b => b.owner) = some owner :=
      isSome_iff_exists.mp (by simpa using hhere.1)
    rw [howner] at hi
    have hdeal := Instruction.deals_ofLine hi
    rw [filter_cons_of_pos (by simp [Reading.isOf, hhere])]
    refine ⟨by simp [hch.2, hbt.actions], ?_, forall_mem_append.mpr ⟨hbt.deals, by simpa using ⟨i, hdeal, s, rfl⟩⟩⟩
    rw [hch.1, hbt.returns, any_append, returns_of_deals (r := ⟨t, s.done.length, s.block.isSome, i.added s⟩) hdeal]
    simp
  · rw [if_neg hhere] at hch
    rw [filter_cons_of_neg (by simpa [Reading.isOf, eq_comm (a := s.done.length)] using hhere), filter_nil,
      append_nil, hch]
    exact hbt

/-- What a line adds is settled, and what it returns are the values of a `return`. -/
lemma settles_part {r : Reading} (hctx : ctx.Quiet) (hk : Knows ctx kinds) (htame : r.Tame kinds ctx.lib.values)
    (hi : ∃ i s, Instruction.Deals ctx i (Line.dealing r.text) ∧ r.part = i.added s) :
    Settles kinds 0 r.part ∧ (∀ a ∈ r.part, returns kinds a = r.returns) ∧ (r.returns → r.part.length = 1) := by
  obtain ⟨i, s, hi, hpart⟩ := hi
  rw [Reading.Tame] at htame
  rw [Reading.returns]
  cases hdeal : Line.dealing r.text with
  | takes x fn args =>
    rw [hdeal] at hi htame
    obtain ⟨ps, as, temps, hps, has, rfl⟩ := hi
    obtain ⟨hsum, hsil⟩ := hk.sum_resultActions htame hps has
    have hneut : ∀ a ∈ as, Plan.Neutral a := fun a ha => hctx.library a (Instruction.ofLibrary_mapM has a ha)
    rw [hpart]
    exact ⟨settles_of_neutral hneut ((Int.zero_add _).trans hsum), hsil, by simp⟩
  | puts value =>
    rw [hdeal] at hi htame
    obtain ⟨a, ha, rfl⟩ := hi
    obtain ⟨hput, hsur⟩ := hk.returns_of_returnAction htame ha
    rw [hpart]
    exact ⟨settles_of_forall (by simpa [Instruction.added] using hsur), by simpa [Instruction.added] using hput,
      fun _ => rfl⟩
  | other =>
    rw [hdeal] at htame
    exact ⟨settles_of_forall fun a ha => surplus_of_change (htame a ha), fun a ha => returns_of_change (htame a ha),
      by simp⟩

lemma settles_flatMap {rs : List Reading} (h : ∀ r ∈ rs, Settles kinds 0 r.part) :
    Settles kinds 0 (rs.flatMap Reading.part) := by
  induction rs with
  | nil => rfl
  | cons r rs ih => exact (h r (by simp)).append (ih fun r hr => h r (by simp [hr]))

/-- The actions of a function, each with the line it comes from: those that take the arguments and the implicit return
come from none. -/
def Finished.steps (f : Finished) (rs : List Reading) : List (Action × Option Reading) :=
  f.left.actions.zip (replicate (2 * f.block.params.length) none
    ++ rs.flatMap (fun r => replicate r.part.length (some r)) ++ [none])

/-- The action comes from a `return`. -/
def fromReturn (step : Action × Option Reading) : Bool := step.2.any Reading.returns

lemma zip_replicate {α β : Type} (as : List α) (b : β) : as.zip (replicate as.length b) = as.map (·, b) := by
  rw [← map_const', ← map_prod_left_eq_zip]

lemma Finished.steps_eq {rs : List Reading} {pre post : List Action} (hpre : pre.length = 2 * f.block.params.length)
    (hpost : post.length ≤ 1) (hacts : f.left.actions = pre ++ rs.flatMap Reading.part ++ post) :
    f.steps rs = pre.map (·, none) ++ rs.flatMap (fun r => r.part.map (·, some r)) ++ post.map (·, none) := by
  have hbody : (rs.flatMap Reading.part).zip (rs.flatMap fun r => replicate r.part.length (some r))
      = rs.flatMap fun r => r.part.map (·, some r) := by
    clear hacts
    induction rs with
    | nil => rfl
    | cons r rs ih => rw [flatMap_cons, flatMap_cons, zip_append (by simp), ih, zip_replicate, flatMap_cons]
  rw [Finished.steps, hacts, zip_append (by simp [hpre]), zip_append (by simp [hpre]), hbody, ← hpre, zip_replicate]
  congr 1
  rcases post with _ | ⟨a, _ | ⟨b, post⟩⟩
  · rfl
  · rfl
  · simp at hpost

/-- The steps of a function are the actions that take the arguments, what its lines came to, and the implicit return
of a function without a `return`. -/
lemma Finished.exists_steps {rs : List Reading} {name : Text} {m m' : Nat} (hk : Knows ctx kinds)
    (hmade : f.Made ctx m m') (howner : f.block.owner = .func name) (htold : f.block.Told ctx rs) : ∃ pre post,
      (∀ a ∈ pre, change kinds a = 0) ∧ (∀ a ∈ post, (returnAction ctx "text()").result = .ok a)
      ∧ post.length = (if rs.any Reading.returns then 0 else 1)
      ∧ f.steps rs = pre.map (·, none) ++ rs.flatMap (fun r => r.part.map (·, some r)) ++ post.map (·, none)
      ∧ f.left.actions = pre ++ rs.flatMap Reading.part ++ post := by
  have hfull := hmade.full
  simp only [fullActions, howner, bind_ok] at hfull
  obtain ⟨pre, hpre, hfull⟩ := hfull
  obtain ⟨hlen, hpre⟩ := hk.change_of_prologue hpre
  rw [htold.returns, htold.actions] at hfull
  split at hfull
  next hrets =>
    have heq : f.left.actions = pre ++ rs.flatMap Reading.part ++ [] := by simpa using (ok.inj hfull).symm
    exact ⟨pre, [], hpre, by simp, by simp [hrets], steps_eq hlen (by simp) heq, heq⟩
  next hrets =>
    rw [bind_ok] at hfull
    obtain ⟨ret, hret, hfull⟩ := hfull
    have heq := (ok.inj hfull).symm
    exact ⟨pre, [ret], hpre, by simpa using hret, by simp [hrets], steps_eq hlen (by simp) heq, heq⟩

variable {rs : List Reading} {name : Text} {holds : List Bool} {way : List (Action × Option Reading)} {m m' : Nat}

/-- On every way through a function whose lines are tame, what is left on the stack of results is what the `return`
lines on it put there, and one more value if the function has none. -/
lemma Finished.total_of_follow (hctx : ctx.Quiet) (hk : Knows ctx kinds) (hmade : f.Made ctx m m')
    (howner : f.block.owner = .func name) (htold : f.block.Told ctx rs) (htame : ∀ r ∈ rs, r.Tame kinds ctx.lib.values)
    (hway : follow Prod.fst holds 0 (f.steps rs) = some way) : (f.steps rs).map Prod.fst = f.left.actions
      ∧ total kinds (way.map Prod.fst) = way.countP fromReturn + (if rs.any Reading.returns then 0 else 1 : Nat) := by
  obtain ⟨pre, post, hpro, hpost, hlen, hsteps, hacts⟩ := exists_steps hk hmade howner htold
  have hparts := fun r hr => settles_part hctx hk (htame r hr) (htold.deals r hr)
  have hfst : (f.steps rs).map Prod.fst = f.left.actions := by
    simp [hsteps, hacts, map_flatMap, Function.comp_def]
  refine ⟨hfst, ?_⟩
  have hplain : skips ',' .top "text()" := rfl
  have hret := fun a ha => hk.returns_of_returnAction hplain (hpost a ha)
  have hall : Settles kinds 0 ((f.steps rs).map Prod.fst) := by
    rw [hfst, hacts]
    exact ((settles_of_forall fun a ha => surplus_of_change (hpro a ha)).append
      (settles_flatMap fun r hr => (hparts r hr).1)).append
      (settles_of_forall fun a ha => (hret a ha).2)
  rw [hall.total_of_follow hway]
  -- the actions that take arguments return nothing, and those of a line return something if it is a `return`
  have hsame : ∀ st ∈ pre.map (·, none) ++ rs.flatMap (fun r => r.part.map (·, some r)),
      returns kinds st.1 = fromReturn st := by
    intro st hst
    rcases mem_append.mp hst with hst | hst
    · obtain ⟨a, ha, rfl⟩ := mem_map.mp hst
      exact returns_of_change (hpro a ha)
    · obtain ⟨r, hr, hst⟩ := mem_flatMap.mp hst
      obtain ⟨a, ha, rfl⟩ := mem_map.mp hst
      exact (hparts r hr).2.1 a ha
  have hcount : ∀ {way'}, follow Prod.fst holds 0 (pre.map (·, none) ++ rs.flatMap (fun r => r.part.map (·, some r)))
      = some way' → way'.countP (fun st => returns kinds st.1) = way'.countP fromReturn := fun h =>
    countP_congr fun st hst => by rw [hsame st ((sublist_of_follow h).mem hst)]
  rw [hsteps] at hway
  rcases post with _ | ⟨ret, _ | _⟩
  · rw [map_nil, append_nil] at hway
    rw [hcount hway, ← hlen]
    simp
  · have hneut := hctx.library ret (Instruction.ofLibrary_returnAction (hpost ret (by simp)))
    obtain ⟨way', hway', rfl⟩ := follow_append_last (x := (ret, none)) hneut.opens hneut.closes hway
    rw [countP_append, countP_append, hcount hway', ← hlen]
    simp [(hret ret (by simp)).1, fromReturn]
  · split at hlen <;> simp at hlen

end Program
namespace Data
open Results Program
variable {cfg : Settings} {d : Data} {files : Files} {entry : Path} {shown : Text} {ctx : Context} {p : Prepared}
  {s : State} {kinds : Kinds}

/-- On every way through a function that has no `return`, one value is left on the stack of results, and on a way that
comes to a `return` as many values as it comes to `return` lines. The lines of the function must call functions for
their results only and deal with the stack in no other way but to return values. -/
theorem total_of_way {f : Finished} {k : Nat} {name : Text} {holds : List Bool} {way : List (Action × Option Reading)}
    (hsetup : (d.setup cfg files entry shown).result = .ok (ctx, p)) (hrun : (run ctx p).result = .ok s)
    (hskip : ∀ e ∈ d.loadBlocks, Palette.plainBlock e.2 ≠ "skip") (hk : Knows ctx kinds) (hf : s.done[k]? = some f)
    (howner : f.block.owner = .func name) (hbody : ∀ r ∈ blockLines ctx p k, r.Tame kinds ctx.lib.values)
    (hway : follow Prod.fst holds 0 (f.steps (blockLines ctx p k)) = some way) :
    (f.steps (blockLines ctx p k)).map Prod.fst = f.left.actions
      ∧ (∀ r ∈ blockLines ctx p k, r.returns → r.part.length = 1)
      ∧ ((∀ r ∈ blockLines ctx p k, r.returns = false) → total kinds (way.map Prod.fst) = 1)
      ∧ (way.any fromReturn → total kinds (way.map Prod.fst) = way.countP fromReturn) := by
  have hctx := quiet_of_setup hsetup hskip
  obtain ⟨m, m', hmade⟩ := (flushed_of_run hrun).made (mem_of_getElem? hf)
  have htold := told_of_run hrun hf
  obtain ⟨hfst, htot⟩ := Finished.total_of_follow hctx hk hmade howner htold hbody hway
  have hlines : way.any fromReturn → (blockLines ctx p k).any Reading.returns := by
    intro hany
    obtain ⟨st, hst, hret⟩ := any_eq_true.mp hany
    obtain ⟨r, hr, hret⟩ := (Option.any_eq_true _ _).mp hret
    have hmem := (of_mem_zip ((sublist_of_follow hway).mem hst)).2
    simp only [hr, mem_append, mem_replicate, mem_flatMap, mem_singleton, reduceCtorEq, and_false, false_or, or_false,
      some.injEq] at hmem
    obtain ⟨r', hr', -, rfl⟩ := hmem
    exact any_eq_true.mpr ⟨r, hr', hret⟩
  refine ⟨hfst, fun r hr => (settles_part hctx hk (hbody r hr) (htold.deals r hr)).2.2, fun hnone => ?_, fun hany => ?_⟩
  · have hsil : (blockLines ctx p k).any Reading.returns = false := any_eq_false.mpr (by simpa using hnone)
    have hzero : way.countP fromReturn = 0 := by
      rw [countP_eq_zero]
      intro st hst hret
      simp [hlines (any_eq_true.mpr ⟨st, hst, hret⟩)] at hsil
    simp [htot, hzero, hsil]
  · simp [htot, hlines hany]

/-! ### Functions of the small library -/

lemma lib_of_setup (h : (d.setup cfg files entry shown).result = .ok (ctx, p)) :
    d.loadApi.result = .ok ctx.lib.api ∧ ctx.palette.blocks = d.loadBlocks ∧ d.loadAliases
      = .ok ctx.palette.aliases := by
  simp only [setup, bind_ok, liftM_ok] at h
  obtain ⟨-, -, api, hapi, aliases, hali, events, -, n, -, -, -, h⟩ := h
  simp only [Program.setup, bind_ok] at h
  obtain ⟨player, -, entity, -, p', -, h⟩ := h
  cases h
  exact ⟨hapi, rfl, hali⟩

lemma readsAs_of_place {spec : Spec} {kind : Kind}
    (h : (Instruction.place ctx ⟨[], spec⟩).result.toOption.all fun a => kinds a.block a.name == some kind) :
    ReadsAs ctx kinds spec kind := by
  intro pieces a ha
  rw [Instruction.place, result_ofPlaced] at ha
  rw [Instruction.place] at h
  rcases hpl : (Action.ofPlaced ctx.palette ⟨[], spec⟩).result with e | a'
  · simp [hpl, Except.map] at ha
  rw [hpl] at ha h
  cases ha
  exact eq_of_beq h

/-- How the actions of the small library are read, by their names. -/
def sampleKinds : Kinds := fun _ name =>
  ([("вставить||вставить", .insert), ("получить||получить", .get), ("удалить||удалить", .remove),
    ("Вызвать функцию||Вызвать функцию", .call)] : List (Text × Kind)).lookup name

def sampleStack (sign2 : Text) (more : List Json) : Spec :=
  sampleSpec "Массив" sign2 (sampleParam "arr" "ARRAY" 10 :: sampleParam "num" "NUMBER" 13 :: more)

lemma leads_sampleStack (sign2 : Text) (more : List Json) : (sampleStack sign2 more).LeadsWithArray :=
  ⟨⟨"arr", "ARRAY", 10⟩, _, _, rfl, Param.describes_record _, rfl, rfl⟩

lemma knows_stackSample (h : (stackSample.setup cfg files entry shown).result = .ok (ctx, p)) :
    Knows ctx sampleKinds := by
  obtain ⟨hapi, hblks, hali⟩ := lib_of_setup h
  have hpal : ctx.palette = ⟨stackSample.loadBlocks, []⟩ := by
    rw [← hblks, ok.inj hali]
  obtain ⟨api, hval, hinsert, hget, hremove, hcall⟩ : ∃ api, stackSample.loadApi.result = .ok api
      ∧ api.find "array" "vstavit_v_massiv"
        = .ok (some ("vstavit_v_massiv", sampleStack "вставить" [sampleParam "value" "ANY" 16]))
      ∧ api.find "array" "get_array"
        = .ok (some ("get_array", sampleStack "получить" [sampleParam "var" "VARIABLE" 16]))
      ∧ api.find "array" "remove_array" = .ok (some ("remove_array", sampleStack "удалить" []))
      ∧ (Assignment.callSpec api).result = .ok (sampleSpec "Игра" "Вызвать функцию" []) :=
    ⟨_, rfl, rfl, rfl, rfl, rfl⟩
  obtain rfl : api = ctx.lib.api := ok.inj (hval.symm.trans hapi)
  constructor
  · intro canon spec hfind
    obtain ⟨-, rfl⟩ := Prod.mk.inj (some.inj (ok.inj (hinsert.symm.trans hfind)))
    exact ⟨leads_sampleStack _ _, readsAs_of_place (by rw [Instruction.place, hpal]; decide)⟩
  · intro canon spec hfind
    obtain ⟨-, rfl⟩ := Prod.mk.inj (some.inj (ok.inj (hget.symm.trans hfind)))
    exact readsAs_of_place (by rw [Instruction.place, hpal]; decide)
  · intro canon spec hfind
    obtain ⟨-, rfl⟩ := Prod.mk.inj (some.inj (ok.inj (hremove.symm.trans hfind)))
    exact ⟨leads_sampleStack _ _, readsAs_of_place (by rw [Instruction.place, hpal]; decide)⟩
  intro spec hspec
  obtain rfl := ok.inj (hcall.symm.trans hspec)
  exact readsAs_of_place (by rw [Instruction.place, hpal]; decide)

/-- A function with a `return` under a condition and one behind it, and a function without any. -/
def returnUnderCondition : Files :=
  script "func f \x7b\nif_player.c() \x7b\nx = g(1)\nreturn x\n\x7d\na.b()\nreturn 2\n\x7d\nfunc g(n) \x7b\na.b()\n\x7d"

lemma returnUnderCondition_any :
    (stackSample.ready returnUnderCondition).result.toOption.any
      fun (ready : Context × Prepared) => (run ready.1 ready.2).result.toOption.any fun s =>
        let rs := blockLines ready.1 ready.2
        (s.done[0]?.any fun f => decide ((∀ r ∈ rs 0, r.Tame sampleKinds ready.1.lib.values) ∧ f.block.owner = .func "f"
          ∧ (follow Prod.fst [true] 0 (f.steps (rs 0))).map (·.countP fromReturn) = some 2
          ∧ (follow Prod.fst [false] 0 (f.steps (rs 0))).map (·.countP fromReturn) = some 1))
        && s.done[1]?.any fun g =>
          decide ((∀ r ∈ rs 1, r.Tame sampleKinds ready.1.lib.values) ∧ g.block.owner = .func "g"
          ∧ (∀ r ∈ rs 1, r.returns = false) ∧ (follow Prod.fst [] 0 (g.steps (rs 1))).isSome) := by
  decide +kernel

theorem total_of_way_returnUnderCondition : ∃ ctx p s f g way way' way'',
    (stackSample.ready returnUnderCondition).result = .ok (ctx, p)
      ∧ (run ctx p).result = .ok s ∧ Knows ctx sampleKinds ∧ s.done[0]? = some f ∧ s.done[1]? = some g
      ∧ follow Prod.fst [true] 0 (f.steps (blockLines ctx p 0)) = some way
      ∧ follow Prod.fst [false] 0 (f.steps (blockLines ctx p 0)) = some way'
      ∧ follow Prod.fst [] 0 (g.steps (blockLines ctx p 1)) = some way''
      ∧ way.countP fromReturn = 2 ∧ total sampleKinds (way.map Prod.fst) = 2
      ∧ way'.countP fromReturn = 1 ∧ total sampleKinds (way'.map Prod.fst) = 1
      ∧ (∀ r ∈ blockLines ctx p 1, r.returns = false) ∧ total sampleKinds (way''.map Prod.fst) = 1 := by
  obtain ⟨⟨ctx, p⟩, hsetup, hany⟩ := exists_of_any returnUnderCondition_any
  obtain ⟨s, hrun, htest⟩ := exists_of_any hany
  obtain ⟨htest, htest'⟩ := Bool.and_eq_true_iff.mp htest
  obtain ⟨f, hf, hfacts⟩ := (Option.any_eq_true _ _).mp htest
  obtain ⟨g, hg, hfacts'⟩ := (Option.any_eq_true _ _).mp htest'
  obtain ⟨htame, howner, htrue, hfalse⟩ := of_decide_eq_true hfacts
  obtain ⟨htame', howner', hnone, hsome⟩ := of_decide_eq_true hfacts'
  obtain ⟨way, hway, htwo⟩ := map_eq_some_iff.mp htrue
  obtain ⟨way', hway', hone⟩ := map_eq_some_iff.mp hfalse
  obtain ⟨way'', hway''⟩ := isSome_iff_exists.mp hsome
  have hk := knows_stackSample hsetup
  have hskip : ∀ e ∈ stackSample.loadBlocks, Palette.plainBlock e.2 ≠ "skip" := by decide
  have htot := (total_of_way hsetup hrun hskip hk hf howner htame hway).2.2.2
  have htot' := (total_of_way hsetup hrun hskip hk hf howner htame hway').2.2.2
  have htot'' := (total_of_way hsetup hrun hskip hk hg howner' htame' hway'').2.2.1 hnone
  have hpos := any_eq_true.mpr (countP_pos_iff.mp (htwo ▸ Nat.two_pos))
  have hpos' := any_eq_true.mpr (countP_pos_iff.mp (hone ▸ Nat.one_pos))
  exact ⟨ctx, p, s, f, g, way, way', way'', hsetup, hrun, hk, hf, hg, hway, hway', hway'', htwo, (htot hpos).trans
    (congrArg _ htwo), hone, (htot' hpos').trans (congrArg _ hone), hnone, htot''⟩

def twoReturns : Files := script "func f \x7b\nreturn 1\nreturn 2\n\x7d\n"

/-- A `return` does not end a function: two of them on one way leave two values. -/
theorem exists_two_results : ∃ ctx p s f,
    (stackSample.ready twoReturns).result = .ok (ctx, p)
      ∧ (run ctx p).result = .ok s ∧ Knows ctx sampleKinds ∧ s.done[0]? = some f ∧ f.block.owner = .func "f"
      ∧ follow id [] 0 f.left.actions = some f.left.actions ∧ total sampleKinds f.left.actions = 2 := by
  have hpass : passes (stackSample.ready twoReturns).result fun _ s =>
      s.done[0]?.any fun f => decide (f.block.owner = .func "f" ∧ follow id [] 0 f.left.actions = some f.left.actions
        ∧ total sampleKinds f.left.actions = 2) := by
    decide +kernel
  obtain ⟨ctx, p, s, hsetup, hrun, htest⟩ := exists_of_passes hpass
  obtain ⟨f, hf, hfacts⟩ := Option.any_eq_true _ _ |>.mp htest
  obtain ⟨howner, hway, htot⟩ := of_decide_eq_true hfacts
  exact ⟨ctx, p, s, f, hsetup, hrun, knows_stackSample hsetup, hf, howner, hway, htot⟩

end Data
end BlockScript
