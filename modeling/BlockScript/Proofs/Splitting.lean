import Mathlib.Logic.Relation
import BlockScript.Plan.Split
import BlockScript.Proofs.Spelling

/-!
# The steps of splitting

What splitting does to a block is said once, as a relation between states: a `Step` cuts off a row or moves the body
of a scope into a helper. A block split goes through such steps (`steps_of_split`), so what every step keeps
holds in the end.
-/

open Except Option List
namespace BlockScript
open Text
open Script (Compile Error Settings)
open Script.Compile (bind_ok result_bind)

namespace Script

@[simp] lemma result_warn (line : Text) : (warn line).result = .ok () := rfl

@[simp] lemma Settings.result_traceSplit (cfg : Settings) (line : Text) : (cfg.traceSplit line).result = .ok () := by
  rw [traceSplit]
  split <;> rfl

@[simp] lemma Settings.result_traceStage (cfg : Settings) (line : Text) : (cfg.traceStage line).result = .ok () := by
  rw [traceStage]
  split <;> rfl

end Script

/-! ### Actions of the library -/

namespace Action
variable {palette : Palette} {p : Placed} {a : Action}

lemma ofPlaced_ok (h : (ofPlaced palette p).result = .ok a) :
    a.args = argsOf p.pieces ∧ a.opens = false ∧ a.negated = false ∧
      ∃ key block, palette.blocks.get? key = some block ∧ a.block = Palette.plainBlock block := by
  unfold ofPlaced at h
  simp only [bind_ok] at h
  obtain ⟨sign, -, menu, -, key, -, h⟩ := h
  split at h
  · simp at h
  next block hblk =>
    simp only [bind_ok, Compile.result_pure, ok.injEq] at h
    obtain ⟨name, -, rfl⟩ := h
    exact ⟨rfl, rfl, rfl, key, block, (filter_eq_some_iff.mp hblk).1, rfl⟩

lemma result_ofPlaced (palette : Palette) (pieces : List Text) (spec : Spec) : (ofPlaced palette ⟨pieces, spec⟩).result
      = (ofPlaced palette ⟨[], spec⟩).result.map fun a => { a with args := argsOf pieces } := by
  have hmap : ∀ {α β : Type} (g : α → β) {γ : Type} (x : Except Error γ) f,
      (x.bind f).map g = x.bind fun c => (f c).map g := by
    intro α β g γ x f
    cases x <;> rfl
  unfold ofPlaced
  simp only [result_bind, hmap]
  refine congrArg _ (funext fun sign => congrArg _ (funext fun _ => congrArg _ (funext fun key => ?_)))
  split
  · rfl
  next block _ =>
    simp only [result_bind, hmap]
    rfl

end Action
namespace Plan

/-! ### Calls of helpers -/

lemma helperName_eq (n : Nat) : helperName n = "__autosplit_row_" ++ ofNat n := rfl

lemma helperName_injective : Function.Injective helperName := fun _ _ h =>
  ofNat_injective (append_cancel_left h)

variable {n : Nat}

lemma isLatinWord_helperName {c : Char} (h : c ∈ helperName n) : Formula.isLatinWord c := by
  have hstem : "__autosplit_row_".toList.all Formula.isLatinWord := rfl
  rcases mem_append.mp h with h | h
  · exact List.all_eq_true.mp hstem c h
  · simp [Formula.isLatinWord, Char.isAlphanum, isDigit_ofNat h]

lemma notMem_helperName {c : Char} (h : Formula.isLatinWord c = false) : c ∉ helperName n := by
  intro hmem
  rw [isLatinWord_helperName hmem] at h
  contradiction

lemma trim_helperName (n : Nat) : trim (helperName n) = helperName n :=
  trim_of_not_blank fun _ hc => isBlank_of_latinWord (isLatinWord_helperName hc)

lemma ofText_helperName (n : Nat) : Arguments.ofText (helperName n) = ⟨[], [helperName n]⟩ := by
  have hpl : isPlain (helperName n) := by
    rw [isPlain, List.all_eq_true]
    exact fun c hc => isPlainChar_of_latinWord (isLatinWord_helperName hc)
  have hspl : splitTop ',' (joinWith ", " [helperName n]) = [helperName n] := by
    apply splitTop_joinWith
    · simpa using (Nesting.Closed.of_isPlain hpl (notMem_helperName rfl)).skips
    · simp
    · simpa using trim_helperName n
    · simp [helperName_eq]
  have hquot : isQuoted (helperName n) = false := by
    rw [isQuoted, helperName_eq]
    simp
  have hcut : cutTop? '=' (helperName n) = none := by
    have h : cutTopFrom? '=' .top [] (helperName n ++ []) = _ :=
      cutTopFrom?_append (Nesting.Closed.of_isPlain hpl (notMem_helperName rfl)).skips
    rw [append_nil] at h
    exact h
  rw [joinWith] at hspl
  simp [Arguments.ofText, hspl, Arguments.add, hquot, hcut]

def callArgs (name : Text) : Text := "slot(13)=" ++ Value.wrap "text" name

lemma callTarget_helperName (n : Nat) : Statement.callTarget (helperName n) = Value.wrap "text" (helperName n) := by
  have hhead : Assignment.callHead? (helperName n) = none := by
    rw [Assignment.callHead?, if_neg]
    intro h
    exact notMem_helperName rfl (mem_of_getLast? (beq_iff_eq.mp h))
  rw [Statement.callTarget, trim_helperName, hhead]
  rfl

def Setting.caller (s : Setting) : Except Error Action :=
  (do Action.ofPlaced s.palette ⟨[], ← Statement.callSpec s.lib.api⟩ : Compile Action).result

lemma result_callHelper (s : Setting) (n : Nat) :
    (s.callHelper (helperName n)).result = s.caller.map fun a => { a with args := callArgs (helperName n) } := by
  unfold Setting.callHelper Statement.callAction Setting.caller
  rw [ofText_helperName]
  simp only [callTarget_helperName, result_bind]
  cases (Statement.callSpec s.lib.api).result with
  | error e => rfl
  | ok spec => exact Action.result_ofPlaced s.palette [callArgs (helperName n)] spec

lemma callHelper_ok {s : Setting} {a : Action} (h : (s.callHelper (helperName n)).result = .ok a) :
    a.args = callArgs (helperName n) ∧ a.opens = false := by
  rw [result_callHelper] at h
  cases hc : s.caller with
  | error e => simp [hc, Except.map] at h
  | ok c =>
    obtain rfl : { c with args := callArgs (helperName n) } = a := by simpa [hc, Except.map] using h
    simp only [Setting.caller, bind_ok] at hc
    obtain ⟨spec, -, hc⟩ := hc
    exact ⟨rfl, (Action.ofPlaced_ok hc).2.1⟩

/-! ### Scopes -/

section Scopes
variable {a call : Action} {as bs : List Action} {n d e : Nat} {stack stack' : List Nat} {sc : Scope}
  {limit : Nat} {x : Extraction}

/-- The scopes that are open behind some actions if `d` were open before; none if a scope is closed that is not
open. -/
def depthAfter : Nat → List Action → Option Nat
  | d, [] => some d
  | d, a :: as =>
    if a.opens then depthAfter (d + 1) as
    else if a.closes then if d = 0 then none else depthAfter (d - 1) as
    else depthAfter d as

/-- The actions close the scopes they open, and no others. -/
def Matched (as : List Action) : Prop := depthAfter 0 as = some 0

lemma depthAfter_append : depthAfter d (as ++ bs) = (depthAfter d as).bind fun e => depthAfter e bs := by
  induction as generalizing d with
  | nil => rfl
  | cons a as ih =>
    simp only [cons_append, depthAfter]
    split
    · exact ih
    split
    next =>
      split
      · rfl
      · exact ih
    · exact ih

lemma depthAfter_add (h : depthAfter d as = some e) (m : Nat) : depthAfter (d + m) as = some (e + m) := by
  induction as generalizing d with
  | nil => simpa [depthAfter] using h
  | cons a as ih =>
    simp only [depthAfter] at h ⊢
    split at h
    next ho => rw [if_pos ho, Nat.add_right_comm, ih h]
    next ho =>
      rw [if_neg ho]
      split at h
      next hc =>
        split at h
        · simp at h
        next hd => rw [if_pos hc, if_neg (by omega), show d + m - 1 = d - 1 + m by omega, ih h]
      next hc => rw [if_neg hc, ih h]

/-- What it means that a scope is found among some actions, where `n` actions stand before them and `stack` holds the
places of the open scopes. -/
inductive Finds (n : Nat) (stack : List Nat) (as : List Action) (sc : Scope) : Prop
  /-- The scope is opened and closed among the actions. -/
  | within (pre : List Action) (o : Action) (body : List Action) (k : Action) (post : List Action)
      (split : as = pre ++ o :: (body ++ k :: post)) (first : sc.first = n + pre.length)
      (last : sc.last = sc.first + 1 + body.length) (opens : o.opens) (closes : k.opens = false ∧ k.closes)
      (matched : Matched body) (size : 2 ≤ body.length)
  /-- The scope was opened before. -/
  | before (i : Nat) (body : List Action) (k : Action) (post : List Action) (first : stack[i]? = some sc.first)
      (split : as = body ++ k :: post) (last : sc.last = n + body.length) (closes : k.opens = false ∧ k.closes)
      (matched : depthAfter i body = some 0) (size : 3 ≤ sc.last - sc.first)

-- behind one more action the stack may be another one; an action that opens a scope stands on top of it
lemma Finds.cons (h : Finds (n + 1) stack' as sc)
    (hstk : ∀ i body, stack'[i]? = some sc.first → depthAfter i body = some 0 →
      (∃ j, stack[j]? = some sc.first ∧ depthAfter j (a :: body) = some 0) ∨ (a.opens ∧ i = 0 ∧ sc.first = n)) :
    Finds n stack (a :: as) sc := by
  cases h with
  | within pre o body k post split first last opens closes matched size =>
    exact .within (a :: pre) o body k post (by rw [split, cons_append])
      (by rw [length_cons]; omega) last opens closes matched size
  | before i body k post first split last closes matched size =>
    rcases hstk i body first matched with ⟨j, hj, hd⟩ | ⟨ho, rfl, hfst⟩
    · exact .before j (a :: body) k post hj (by rw [split, cons_append])
        (by rw [length_cons]; omega) closes hd size
    · exact .within [] a body k post (by rw [split, nil_append]) hfst (by omega) ho closes matched (by omega)

lemma finds_of_mem_allFrom (h : sc ∈ Scope.allFrom n stack as) : Finds n stack as sc := by
  induction as generalizing n stack with
  | nil => simp [Scope.allFrom] at h
  | cons a as ih =>
    unfold Scope.allFrom at h
    split at h
    next ho =>
      refine (ih h).cons fun i body hi hd => ?_
      cases i with
      | zero => exact .inr ⟨ho, rfl, by simpa using hi.symm⟩
      | succ i => exact .inl ⟨i, hi, by rw [depthAfter, if_pos ho, hd]⟩
    next ho =>
      split at h
      next hc =>
        cases stack with
        | nil => exact (ih h).cons fun i body hi _ => by simp at hi
        | cons first outer =>
          have hmore (h : sc ∈ Scope.allFrom (n + 1) outer as) : Finds n (first :: outer) (a :: as) sc :=
            (ih h).cons fun i body hi hd =>
              .inl ⟨i + 1, hi, by rw [depthAfter, if_pos hc, if_neg (by omega)]; exact hd⟩
          simp only at h
          split at h
          next hsize =>
            rcases mem_cons.mp h with rfl | h
            · exact .before 0 [] a as rfl rfl rfl ⟨by simpa using ho, hc⟩ rfl hsize
            · exact hmore h
          · exact hmore h
      next hc => exact (ih h).cons fun i body hi hd => .inl ⟨i, hi, by rw [depthAfter, if_neg ho, if_neg hc, hd]⟩

lemma foldl_choice_mem {α : Type} {f : α → α → α} (hf : ∀ x y, f x y = x ∨ f x y = y) (xs : List α) (x : α) :
    xs.foldl f x ∈ x :: xs := by
  induction xs generalizing x with
  | nil => simp
  | cons y xs ih =>
    rw [foldl_cons]
    rcases hf x y with h | h
    · rw [h]
      rcases mem_cons.mp (ih x) with hm | hm <;> simp [hm]
    rw [h]
    exact mem_cons_of_mem _ (ih y)

lemma best?_mem {ss : List Scope} (h : Scope.best? limit ss = some sc) : sc ∈ ss := by
  cases ss with
  | nil => simp [Scope.best?] at h
  | cons s ss =>
    cases h
    exact foldl_choice_mem (fun x y => by split <;> simp) ss s

lemma extract?_some (h : extract? limit call as = some x) :
    ∃ pre o k post, as = pre ++ o :: (x.body ++ k :: post) ∧ x.rest = pre ++ o :: call :: k :: post
      ∧ o.opens ∧ k.opens = false ∧ k.closes ∧ Matched x.body ∧ 2 ≤ x.body.length := by
  obtain ⟨sc, hbest, rfl⟩ := map_eq_some_iff.mp h
  cases finds_of_mem_allFrom (best?_mem hbest) with
  | before i body k post first => simp at first
  | within pre o body k post split first last opens closes matched size =>
    have hfr : as.take (sc.first + 1) = pre ++ [o] := by
      rw [split, append_cons, take_left' (by simp [first])]
    have hspl : as = (pre ++ o :: body) ++ k :: post := by simp [split]
    have hlast : (pre ++ o :: body).length = sc.last := by rw [length_append, length_cons]; omega
    have hback : as.drop sc.last = k :: post := by rw [hspl, drop_left' hlast]
    have hbd : (as.take sc.last).drop (sc.first + 1) = body := by
      rw [hspl, take_left' hlast, append_cons, drop_left' (by simp [first])]
    refine ⟨pre, o, k, post, ?_, ?_, opens, closes.1, closes.2, ?_⟩
    · rw [hbd, split]
    · simp [hfr, hback]
    rw [hbd]
    exact ⟨matched, size⟩

lemma length_extract? (h : extract? limit call as = some x) :
    x.rest.length + x.body.length = as.length + 1 ∧ 3 ≤ x.rest.length ∧ 2 ≤ x.body.length := by
  obtain ⟨pre, o, k, post, rfl, hrest, -, -, -, -, hlen⟩ := extract?_some h
  simp only [hrest, length_append, length_cons]
  omega

/-- A boundary stands behind the first action, or is one of the others; the scopes that are open there are told by what
the first action opens and closes. -/
lemma mem_boundariesFrom_cons {b : Boundary} (h : b ∈ boundariesFrom n d (a :: as)) :
    (b = ⟨n + 1, none⟩ ∧ d = 0 ∧ a.opens = false) ∨ ∃ d', b ∈ boundariesFrom (n + 1) d' as
      ∧ d + (if a.opens then 1 else 0) ≤ d' + if a.closes then 1 else 0 := by
  rw [boundariesFrom] at h
  split at h
  next ho =>
    rw [if_neg (by omega)] at h
    exact .inr ⟨_, h, by rw [if_pos ho]; split <;> omega⟩
  next ho =>
    have hlat (h : b ∈ boundariesFrom (n + 1) (if a.closes then d - 1 else d) as) :
        ∃ d', b ∈ boundariesFrom (n + 1) d' as ∧ d + (if a.opens then 1 else 0) ≤ d' + if a.closes then 1 else 0 :=
      ⟨_, h, by rw [if_neg ho]; split <;> omega⟩
    split at h
    next hd => exact (mem_cons.mp h).imp (⟨·, hd, by simpa using ho⟩) hlat
    · exact .inr (hlat h)

lemma mem_boundariesFrom {b : Boundary} (h : b ∈ boundariesFrom n d as) :
    ∃ pre a post, as = pre ++ a :: post ∧ b = ⟨n + pre.length + 1, none⟩ ∧ a.opens = false := by
  induction as generalizing n d with
  | nil => simp [boundariesFrom] at h
  | cons a as ih =>
    rcases mem_boundariesFrom_cons h with ⟨rfl, -, ho⟩ | ⟨d', h, -⟩
    · exact ⟨[], a, as, rfl, rfl, ho⟩
    obtain ⟨pre, c, post, rfl, rfl, hc⟩ := ih h
    exact ⟨a :: pre, c, post, rfl, by rw [length_cons, Nat.add_right_comm n 1, Nat.add_assoc n], hc⟩

end Scopes

/-! ### Cuts -/

section Cuts
variable {default : Option Action} {r : Remaining} {c : Cut} {cs : List Cut}

lemma lastCut?_mem (h : lastCut? cs = some c) : c ∈ cs := by
  cases cs with
  | nil => simp [lastCut?] at h
  | cons c' cs =>
    cases h
    exact foldl_choice_mem (fun x y => by split <;> simp) cs c'

lemma pos_le_lastCut? (h : lastCut? cs = some c) {c' : Cut} (hc' : c' ∈ cs) : c'.pos ≤ c.pos := by
  have hfold : ∀ cs (a : Cut), ∀ c' ∈ a :: cs,
      c'.pos ≤ (cs.foldl (fun a b => if a.pos < b.pos then b else a) a).pos := by
    intro cs
    induction cs with
    | nil => simp
    | cons b cs ih =>
      intro a c' hc'
      have ih := ih (if a.pos < b.pos then b else a)
      have hhead := ih _ mem_cons_self
      rcases mem_cons.mp hc' with rfl | hc'
      · exact Nat.le_trans (by split <;> omega) hhead
      rcases mem_cons.mp hc' with rfl | hc'
      · exact Nat.le_trans (by split <;> omega) hhead
      · exact ih c' (mem_cons_of_mem _ hc')
  cases cs with
  | nil => simp at hc'
  | cons a cs =>
    cases h
    exact hfold cs a c' hc'

lemma lastCut?_none (h : lastCut? cs = none) : cs = [] := by
  cases cs with
  | nil => rfl
  | cons => contradiction

lemma mem_cuts : c ∈ cuts default r ↔ (∃ b ∈ r.boundaries, c = ⟨b.pos, default.bind fun d => restoreOf d b⟩)
      ∧ 0 < c.pos ∧ c.pos < r.actions.length ∧ c.pos + c.extra ≤ maxPayload := by
  simp [cuts, Bool.and_eq_true, and_assoc, eq_comm (b := c)]

lemma isSome_default_of_restore (h : c ∈ cuts default r) (hr : c.restore.isSome) : default.isSome := by
  obtain ⟨⟨b, -, rfl⟩, -⟩ := mem_cuts.mp h
  cases default <;> simp_all

lemma length_row_le (h : c ∈ cuts default r) (call : Action) : (c.row default r ++ [call]).length ≤ maxPayload := by
  obtain ⟨-, -, hlt, hle⟩ := mem_cuts.mp h
  have hdef := isSome_default_of_restore h
  rw [Cut.extra] at hle
  rw [Cut.row, length_append, length_append, length_take, length_singleton]
  split
  next hr =>
    obtain ⟨d, hd⟩ := isSome_iff_exists.mp (hdef hr)
    rw [if_pos hr] at hle
    rw [hd, toList_some, length_singleton]
    omega
  next hr =>
    rw [if_neg hr] at hle
    simp only [length_nil]
    omega

end Cuts

/-! ### Rows -/

lemma result_rowEntriesFrom (owner : Owner) (header : Entry) {used : Nat} {last : Text} {as : List Action}
    (h : used + as.length ≤ rowSize) :
    (rowEntriesFrom owner header used n last as).result = .ok (as.map Entry.ofAction) := by
  induction as generalizing used n last with
  | nil => rfl
  | cons a as ih =>
    rw [length_cons] at h
    rw [rowEntriesFrom, if_neg (by omega), result_bind, ih (by omega)]
    rfl

section Row
variable {events : Table KnownEvent} {owner : Owner} {as : List Action} {row : Row}

lemma Row.exists_entries (h : (Row.of events owner as).result = .ok row) : ∃ header es, owner.header events = .ok header
      ∧ (rowEntriesFrom owner header 1 0 header.block as).result = .ok es ∧ row = ⟨owner, as, header :: es⟩ := by
  rw [Row.of, bind_ok] at h
  obtain ⟨es, hes, hrow⟩ := h
  rw [rowEntries] at hes
  split at hes
  · simp at hes
  next header hhdr =>
    rw [bind_ok] at hes
    obtain ⟨es', hes', hes⟩ := hes
    cases hes
    exact ⟨header, es', hhdr, hes', (ok.inj hrow).symm⟩

lemma Row.of_ok (hlen : as.length ≤ maxPayload) (h : (Row.of events owner as).result = .ok row) :
    ∃ header, owner.header events = .ok header ∧ row = ⟨owner, as, header :: as.map Entry.ofAction⟩ := by
  obtain ⟨header, es, hhdr, hes, rfl⟩ := Row.exists_entries h
  rw [maxPayload, rowSize] at hlen
  rw [result_rowEntriesFrom owner header (by rw [rowSize]; omega)] at hes
  cases hes
  exact ⟨header, hhdr, rfl⟩

end Row

/-! ### Steps -/

namespace Setting
variable {s : Setting} {subject : Subject} {st st' : SplitState}

/-- The default selection, where selections are made again behind cuts. -/
def restored (s : Setting) (subject : Subject) : Option Action :=
  if subject.keepsSelection then some s.defaultPlayer else none

def helperNumber (s : Setting) (st : SplitState) : Nat := fresh s.taken st.rows.next

/-- One step of splitting a block that is too long. -/
inductive Step (s : Setting) (subject : Subject) (st : SplitState) : SplitState → Prop
  /-- A row is cut off. -/
  | cut (c : Cut) (call : Action) (row : Row) (long : maxPayload < st.left.actions.length)
      (last : lastCut? (cuts (s.restored subject) st.left) = some c)
      (calls : (s.callHelper (helperName (s.helperNumber st))).result = .ok call)
      (row_eq : (Row.of s.events st.owner (c.row (s.restored subject) st.left ++ [call])).result = .ok row) :
      Step s subject st ⟨.func (helperName (s.helperNumber st)), c.rest st.left, st.count + 1,
        ⟨st.rows.chain ++ [row], st.rows.helpers, s.helperNumber st + 1⟩⟩
  /-- The body of a scope is moved into a helper. -/
  | extract (call : Action) (x : Extraction) (long : maxPayload < st.left.actions.length)
      (stuck : lastCut? (cuts (s.restored subject) st.left) = none)
      (calls : (s.callHelper (helperName (s.helperNumber st))).result = .ok call)
      (body : extract? rowSize call st.left.actions = some x) :
      Step s subject st ⟨st.owner, .ofActions x.rest, st.count,
        ⟨st.rows.chain, ⟨helperName (s.helperNumber st), x.body⟩ :: st.rows.helpers, s.helperNumber st + 1⟩⟩

abbrev Steps (s : Setting) (subject : Subject) : SplitState → SplitState → Prop :=
  Relation.ReflTransGen (Step s subject)

@[simp] lemma result_nextHelper (s : Setting) (n : Nat) :
    (s.nextHelper n).result = .ok (helperName (fresh s.taken n), fresh s.taken n + 1) := by
  unfold nextHelper
  simp only
  split
  · rw [result_bind, Settings.result_traceSplit]; rfl
  · rfl

lemma cutOff_ok {c : Cut} {helper : Text} {row : Row} (h : (s.cutOff subject c helper st).result = .ok row) :
    ∃ call, (s.callHelper helper).result = .ok call
      ∧ (Row.of s.events st.owner (c.row (s.restored subject) st.left ++ [call])).result = .ok row := by
  unfold cutOff at h
  simp only at h
  split at h
  next =>
    simp only [bind_ok] at h
    obtain ⟨-, -, call, hcall, -, -, hrow⟩ := h
    exact ⟨call, hcall, hrow⟩
  next =>
    simp only [bind_ok] at h
    obtain ⟨call, hcall, -, -, hrow⟩ := h
    exact ⟨call, hcall, hrow⟩

lemma split_ok (h : (s.split subject st).result = .ok st') : (st.left.actions.length ≤ maxPayload ∧ st' = st) ∨
      ∃ st₁, Step s subject st st₁ ∧ (s.split subject st₁).result = .ok st' := by
  rw [split] at h
  split at h
  next hlen => exact .inl ⟨hlen, (ok.inj h).symm⟩
  next hlen =>
    split at h
    · simp at h
    simp only [bind_ok, result_nextHelper] at h
    obtain ⟨⟨helper, next⟩, hnext, -, -, h⟩ := h
    cases hnext
    split at h
    next cut hcut =>
      simp only [bind_ok] at h
      obtain ⟨-, -, row, hcutOff, h⟩ := h
      obtain ⟨call, hcall, hrow⟩ := cutOff_ok hcutOff
      exact .inr ⟨_, .cut cut call row (by omega) hcut hcall hrow, h⟩
    next hnone =>
      simp only [bind_ok] at h
      obtain ⟨-, -, call, hcall, h⟩ := h
      split at h
      · simp at h
      next x hx =>
        split at h
        next =>
          simp only [bind_ok] at h
          obtain ⟨-, -, -, -, h⟩ := h
          exact .inr ⟨_, .extract call x (by omega) hnone hcall hx, h⟩
        · simp at h

/-- A split that succeeds is a run of steps, behind which what is left fits into a row. -/
theorem steps_of_split (h : (s.split subject st).result = .ok st') :
    Steps s subject st st' ∧ st'.left.actions.length ≤ maxPayload := by
  induction st using split.induct s with
  | case1 st hlen =>
    rcases split_ok h with ⟨-, rfl⟩ | ⟨st₁, hstep, -⟩
    · exact ⟨.refl, hlen⟩
    · cases hstep <;> omega
  | case2 st hlen hmax =>
    rw [split, if_neg hlen, dif_pos hmax] at h
    simp at h
  | case3 st hlen hmax ihCut ihExtract =>
    rcases split_ok h with ⟨hle, -⟩ | ⟨st₁, hstep, h⟩
    · exact absurd hle hlen
    have hrest : Steps s subject st₁ st' ∧ st'.left.actions.length ≤ maxPayload := by
      cases hstep with
      | cut c call row => exact ihCut _ _ c row h
      | extract call x _ _ _ hx => exact ihExtract _ _ x (by have := length_extract? hx; omega) h
    exact ⟨hrest.1.head hstep, hrest.2⟩

end Setting
end Plan
end BlockScript
