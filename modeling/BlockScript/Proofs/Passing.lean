import BlockScript.Proofs.CallLines
import BlockScript.Proofs.Lowering

/-!
# Arguments reach their parameters

A caller puts arguments on a stack, the first on top, and a function takes them from there into its parameters. Both run
on a memory of variables and arrays, which reads actions as the game does. Whatever the stack holds, every parameter
ends with the value that its argument had at the call, and the stack is as it was
(`Program.arguments_reach_parameters`).
-/

open List Option Function Except
namespace BlockScript
open Table
open Text Value
open Script (Compile)
open Script.Compile (result_bind)
open Plan (Owner)
namespace Passing
open Arithmetic (item? target? FitsLast Fits isKey)

/-! ### Memory -/

inductive Datum where
  | num (k : Int)
  | text (t : Text)
deriving DecidableEq

structure Memory where
  vars : Text → Datum
  arrays : Text → List Datum

/-- What an action does to an array: put a value in, read one into a variable, or take one out. -/
inductive Command where
  | insert
  | get
  | remove
deriving DecidableEq

def array? (token : Text) : Option Text := between? "arr(" ")" token

/-- The place that a token names, counted from zero. Tokens count from one. -/
def place? (token : Text) : Option Nat := do
  let k ← (between? "num(" ")" token).bind Text.toInt?
  if 1 ≤ k then some (k.toNat - 1) else none

def datum? (vars : Text → Datum) (token : Text) : Option Datum :=
  match between? "num(" ")" token with
  | some k => (Text.toInt? k).map .num
  | none =>
    match between? "text(" ")" token with
    | some t => some (.text t)
    | none => (target? token).map vars

/-- Run one action; none if it is no action on arrays, an item is not readable or there is no such place. -/
def step (commands : Spec → Option Command) (m : Memory) (p : Placed) : Option Memory := do
  let command ← commands p.spec
  let array ← (item? p "arr").bind array?
  let place ← (item? p "num").bind place?
  let items := m.arrays array
  match command with
  | .insert =>
    let v ← (item? p "value").bind (datum? m.vars)
    if place ≤ items.length then
      return { m with arrays := Function.update m.arrays array (items.insertIdx place v) }
    else none
  | .get =>
    let target ← (item? p "var").bind target?
    let v ← items[place]?
    return { m with vars := Function.update m.vars target v }
  | .remove =>
    if place < items.length then
      return { m with arrays := Function.update m.arrays array (items.eraseIdx place) }
    else none

def run (commands : Spec → Option Command) (ps : List Placed) (m : Memory) : Option Memory :=
  ps.foldlM (step commands) m

variable {commands : Spec → Option Command} {m m' : Memory} {ps qs : List Placed} {p : Placed}

@[simp] lemma run_nil : run commands [] m = some m := rfl

lemma run_cons (h : step commands m p = some m') : run commands (p :: ps) m = run commands ps m' := by
  rw [run, foldlM_cons, h]
  rfl

lemma run_append (h : run commands ps m = some m') : run commands (ps ++ qs) m = run commands qs m' := by
  rw [run, foldlM_append]
  exact congrArg (Option.bind · _) h

/-! ### The actions of a library -/

/-- The library has an action on arrays, with parameters that have these names and modes and slots of their own. -/
structure Offers (lib : Library) (func : Text) (modes : List (Text × Mode)) (spec : Spec) : Prop where
  found : ∃ canon, lib.api.find "array" func = .ok (some (canon, spec))
  params : ∃ fs, spec.HasParams fs ∧ (fs.map Param.slot).Nodup ∧ ∀ m ∈ modes, ∃ f ∈ fs, f.name = m.1 ∧ f.kind = m.2

/-- The library has the actions that put values into arrays, read them and take them out, and the memory knows them. -/
structure Passes (lib : Library) (commands : Spec → Option Command) : Prop where
  insert : ∃ spec, Offers lib "vstavit_v_massiv" [("arr", .array), ("num", .number), ("value", .any)] spec ∧
    commands spec = some .insert
  get : ∃ spec, Offers lib "get_array" [("arr", .array), ("num", .number), ("var", .variable)] spec ∧
    commands spec = some .get
  remove : ∃ spec, Offers lib "remove_array" [("arr", .array), ("num", .number)] spec ∧ commands spec = some .remove

variable {lib : Library} {stack token t : Text} {v : (Text → Datum) → Datum}

/-- The array and the place that name the top of a stack. -/
def top (stack : Text) : List (Text × Text) := [("arr", wrap "arr" stack), ("num", wrap "num" stackTop)]

lemma fits_arr (h : isPlain stack) : Fits .array (wrap "arr" stack) :=
  .of_isPlain isHead_arr rfl h

lemma fits_top : Fits .number (wrap "num" stackTop) := .of_isPlain isHead_num (by decide) (by decide)

lemma back_top (h : isPlain stack) : ∀ a ∈ top stack, Nesting.top.readAll a.2 = .top := by
  simp only [top, mem_cons, not_mem_nil, or_false, forall_eq_or_imp, forall_eq]
  exact ⟨(fits_arr h).back, fits_top.back⟩

lemma between?_wrap {head front : Text} (t : Text) (h : front = head ++ "(") :
    between? front ")" (wrap head t) = some t := by
  rw [h, wrap, append_assoc, between?_append]

lemma array?_wrap (stack : Text) : array? (wrap "arr" stack) = some stack := between?_wrap stack (by decide)

lemma place?_top : place? (wrap "num" stackTop) = some 0 := by decide

lemma Offers.call {func : Text} {modes : List (Text × Mode)} {spec : Spec} {e : Option (Text × Text)}
    (h : Offers lib func (("arr", .array) :: ("num", .number) :: modes) spec)
    (hfn : lower (trim func) ≠ "noaction") (hstk : isPlain stack)
    (hmore : ∀ a ∈ e, isKey a.1 ∧ a.1 ≠ "arr" ∧ a.1 ≠ "num" ∧
      ∃ mode, (a.1, mode) ∈ modes ∧ FitsLast mode a.2) :
    ∃ p, (lib.call "array" func ((top stack ++ e.toList).map Arguments.written)).result = .ok p ∧ p.spec = spec ∧
      item? p "arr" = some (wrap "arr" stack) ∧ item? p "num" = some (wrap "num" stackTop) ∧
      ∀ m ∈ modes, item? p m.1 = get? m.1 (top stack ++ e.toList) := by
  obtain ⟨canon, hfind⟩ := h.found
  obtain ⟨fs, hspec, hsl, hfs⟩ := h.params
  have hargs : ∀ a ∈ top stack ++ e.toList, isKey a.1 ∧
      ∃ mode, (a.1, mode) ∈ ("arr".toList, Mode.array) :: ("num".toList, Mode.number) :: modes ∧ FitsLast mode a.2 := by
    intro a ha
    simp only [top, cons_append, nil_append, mem_cons, mem_toList] at ha
    rcases ha with rfl | rfl | ha
    · exact ⟨(by decide : isKey "arr"), .array, by simp, (fits_arr hstk).last⟩
    · exact ⟨by decide, .number, by simp, fits_top.last⟩
    obtain ⟨hnm, -, -, mode, hmode, hfits⟩ := hmore a ha
    exact ⟨hnm, mode, by simp [hmode], hfits⟩
  have hback : ∀ a ∈ (top stack ++ e.toList).dropLast, Nesting.top.readAll a.2 = .top := by
    intro a ha
    refine back_top hstk a ?_
    cases e with
    | none => exact dropLast_subset _ (by simpa using ha)
    | some b => simpa using ha
  have hnodup : ((top stack ++ e.toList).map (·.1)).Nodup := by
    cases e with
    | none => simp [top]
    | some b =>
      obtain ⟨-, h₁, h₂, -⟩ := hmore b rfl
      simpa [top] using ⟨h₁.symm, h₂.symm⟩
  obtain ⟨p, hp, hpspec, hit⟩ := Arithmetic.call_items Placed.isPlainModule_array hfn hfind hspec hsl hfs hargs
    hback (by simp [top]) hnodup
  exact ⟨p, hp, hpspec, hit ("arr", .array) (by simp), hit ("num", .number) (by simp),
    fun m hm => hit m (by simp [hm])⟩

lemma push_step (hl : Passes lib commands) (hstk : isPlain stack) (hfits : FitsLast .any token)
    (hval : ∀ vars, datum? vars token = some (v vars)) : ∃ p, (lib.call "array" "vstavit_v_massiv"
        ["arr=" ++ wrap "arr" stack, "num=" ++ wrap "num" stackTop, "value=" ++ token]).result = .ok p ∧
      ∀ m, step commands m p = some ⟨m.vars, Function.update m.arrays stack (v m.vars :: m.arrays stack)⟩ := by
  obtain ⟨spec, hspec, hcmd⟩ := hl.insert
  have hnm : isKey "value" ∧ "value".toList ≠ "arr".toList ∧ "value".toList ≠ "num".toList := by decide
  obtain ⟨p, hp, rfl, harr, hnum, hit⟩ := hspec.call (e := some ("value", token)) (by decide) hstk (by
    simpa only [mem_def, Option.some.injEq, forall_eq'] using
      ⟨hnm.1, hnm.2.1, hnm.2.2, .any, mem_singleton_self _, hfits⟩)
  refine ⟨p, hp, fun m => ?_⟩
  have hitem : item? p "value" = some token := hit ("value", .any) (by simp)
  simp only [step, hcmd, harr, hnum, hitem, array?_wrap, hval, bind_some]
  rfl

lemma get_step (hl : Passes lib commands) (hstk : isPlain stack) (htgt : Arithmetic.IsTarget token t) :
    ∃ p, (lib.call "array" "get_array"
        ["arr=" ++ wrap "arr" stack, "num=" ++ wrap "num" stackTop, "var=" ++ token]).result = .ok p ∧
      ∀ m d rest, m.arrays stack = d :: rest → step commands m p = some ⟨Function.update m.vars t d, m.arrays⟩ := by
  obtain ⟨spec, hspec, hcmd⟩ := hl.get
  have hnm : isKey "var" ∧ "var".toList ≠ "arr".toList ∧ "var".toList ≠ "num".toList := by decide
  obtain ⟨p, hp, rfl, harr, hnum, hit⟩ := hspec.call (e := some ("var", token)) (by decide) hstk (by
    simpa only [mem_def, Option.some.injEq, forall_eq'] using
      ⟨hnm.1, hnm.2.1, hnm.2.2, .variable, mem_singleton_self _, htgt.fits.last⟩)
  refine ⟨p, hp, fun m d rest hrest => ?_⟩
  have hitem : item? p "var" = some token := hit ("var", .variable) (by simp)
  simp only [step, hcmd, harr, hnum, hitem, array?_wrap, place?_top, htgt.target?_eq, hrest, bind_eq_bind, bind_some]
  rfl

lemma remove_step (hl : Passes lib commands) (hstk : isPlain stack) : ∃ p, (lib.call "array" "remove_array"
        ["arr=" ++ wrap "arr" stack, "num=" ++ wrap "num" stackTop]).result = .ok p ∧
      ∀ m d rest, m.arrays stack = d :: rest →
        step commands m p = some ⟨m.vars, Function.update m.arrays stack rest⟩ := by
  obtain ⟨spec, hspec, hcmd⟩ := hl.remove
  obtain ⟨p, hp, rfl, harr, hnum, -⟩ := hspec.call (e := none) (by decide) hstk (by simp)
  refine ⟨p, hp, fun m d rest hrest => ?_⟩
  simp only [step, hcmd, harr, hnum, array?_wrap, place?_top, hrest, bind_eq_bind, bind_some]
  rfl

end Passing

/-! ### The caller -/

namespace Literal
open Passing
open Arithmetic (Fits FitsLast)
variable {a : Literal}

/-- What an argument stands for. -/
def value (vars : Text → Datum) : Literal → Datum
  | .number k => .num k
  | .name t => vars t
  | .quoted _ t => .text t

lemma Simple.fits_token (h : a.Simple) : FitsLast .any a.token := by
  cases a with
  | number k => exact (Fits.of_isPlain isHead_num rfl (isPlain_ofInt k)).last
  | name t =>
    have hpl : isPlain t := all_eq_true.mpr fun c hc =>
      isPlainChar_of_varChar (isVarChar_of_nameChar (h.2.1 c hc))
    exact (Fits.of_isPlain isHead_var rfl hpl).last
  | quoted mark t =>
    have hspc : ∀ c ∈ specialChars, c ∉ t := fun c hc hmem => h.2 c hmem hc
    exact ⟨_, t, rfl, isHead_text, rfl, Nesting.skips_of_notMem (hspc ',' (by decide)),
      hspc '\n' (by decide)⟩

lemma Simple.datum?_token (h : a.Simple) (vars : Text → Datum) : datum? vars a.token = some (a.value vars) := by
  cases a with
  | number k =>
    have hnum : between? "num(" ")" (wrap "num" (ofInt k)) = some (ofInt k) :=
      between?_wrap _ rfl
    rw [datum?, token, hnum]
    simp only [toInt?_ofInt (length_ofNat h)]
    rfl
  | name t =>
    have h₁ : between? "num(" ")" (wrap "var" t) = none := between?_none (by simp [wrap])
    have h₂ : between? "text(" ")" (wrap "var" t) = none := between?_none (by simp [wrap])
    rw [datum?, token, Arithmetic.target?_var]
    rfl
  | quoted mark t =>
    have h₁ : between? "num(" ")" (wrap "text" t) = none := between?_none (by simp [wrap])
    have h₂ : between? "text(" ")" (wrap "text" t) = some t := between?_wrap _ rfl
    rw [datum?, token, h₂]
    rfl

lemma isArguments_text {args : List Literal} (h : ∀ a ∈ args, a.Simple) : Assignment.IsArguments (args.map text) := by
  refine ⟨?_, ?_, ?_, ?_⟩ <;> rw [List.forall_mem_map]
  · exact fun a ha => (h a ha).isPart.closed_text
  · exact fun a ha => (h a ha).isPart.trim_text
  · exact fun a ha => (h a ha).isPart.text_ne
  intro a ha hmem
  have := (h a ha)
  cases a with
  | number k => exact absurd (mem_ofInt hmem) (by decide)
  | name t => exact absurd (this.2.1 _ hmem) (by decide)
  | quoted mark t =>
    simp only [text, mem_cons, mem_append, not_mem_nil, or_false] at hmem
    rcases hmem with rfl | hmem | rfl
    · exact absurd this.1 (by decide)
    · exact this.2 _ hmem (by decide)
    · exact absurd this.1 (by decide)

end Literal
namespace Passing
open Assignment (pushActions)
variable {commands : Spec → Option Command} {lib : Library} {args : List Literal}

lemma isPlain_argsStack : isPlain argsStack := by decide

lemma pushActions_run (hl : Passes lib commands) (hargs : ∀ a ∈ args, a.Simple) :
    ∃ pushed, (pushActions lib false (args.map Literal.text)).result = .ok pushed ∧
      ∀ m, run commands pushed m = some ⟨m.vars,
        Function.update m.arrays argsStack (args.map (Literal.value m.vars) ++ m.arrays argsStack)⟩ := by
  -- the last argument is pushed first
  have hpush : ∀ bs : List Literal, (∀ a ∈ bs, a.Simple) → ∃ pushed, (bs.map Literal.text).mapM (fun raw => (do
        lib.call "array" "vstavit_v_massiv"
          ["arr=" ++ wrap "arr" argsStack, "num=" ++ wrap "num" stackTop,
            "value=" ++ (← Assignment.itemToken lib.values raw)] : Compile Placed).result) = .ok pushed ∧
      ∀ m, run commands pushed m = some ⟨m.vars,
        Function.update m.arrays argsStack (bs.reverse.map (Literal.value m.vars) ++ m.arrays argsStack)⟩ := by
    intro bs hbs
    induction bs with
    | nil => exact ⟨[], rfl, fun m => by simp⟩
    | cons b bs ih =>
      obtain ⟨p, hp, hstep⟩ :=
        push_step hl isPlain_argsStack (hbs b (by simp)).fits_token (hbs b (by simp)).datum?_token
      obtain ⟨ps, hps, hrun⟩ := ih fun a ha => hbs a (by simp [ha])
      refine ⟨p :: ps, mapM_cons_ok_iff.mpr ⟨p, ps, ?_, hps, rfl⟩, fun m => ?_⟩
      · simp only [result_bind, Literal.result_itemToken (hbs b (by simp))]
        exact hp
      rw [run_cons (hstep m), hrun]
      simp
  obtain ⟨pushed, hpsh, hrun⟩ := hpush args.reverse (by simpa using hargs)
  refine ⟨pushed, ?_, fun m => by simpa using hrun m⟩
  rw [pushActions, result_bind, result_mapM, ← map_reverse, hpsh]
  simp [result_bind, Except.bind]

/-! ### The function -/

open Program (prologue Context Instruction.place)

def assign : List Text → List Datum → (Text → Datum) → Text → Datum
  | p :: ps, v :: vs, vars => assign ps vs (Function.update vars p v)
  | _, _, vars => vars

variable {params : List Text} {vs : List Datum} {vars : Text → Datum} {x : Text}

lemma assign_of_notMem (h : x ∉ params) : assign params vs vars x = vars x := by
  fun_induction assign params vs vars with
  | case1 p ps v vs vars ih =>
    rw [mem_cons, not_or] at h
    rw [ih h.2, update_of_ne h.1]
  | case2 => rfl

lemma map_assign (hnodup : params.Nodup) (hlen : vs.length = params.length) :
    params.map (assign params vs vars) = vs := by
  induction params generalizing vs vars with
  | nil => exact (length_eq_zero_iff.mp hlen).symm
  | cons p ps ih =>
    obtain ⟨v, vs, rfl⟩ := exists_cons_of_length_eq_add_one hlen
    obtain ⟨hp, hps⟩ := nodup_cons.mp hnodup
    rw [map_cons, assign, ih hps (by simpa using hlen), assign_of_notMem hp, update_self]

lemma result_mapM_flatten_cons {α β : Type} (f : α → Compile (List β)) (x : α) (xs : List α) :
    (do return (← (x :: xs).mapM f).flatten : Compile (List β)).result =
      (f x).result.bind fun front => (do return (← xs.mapM f).flatten : Compile (List β)).result.map (front ++ ·) := by
  simp only [result_bind, result_mapM, mapM_cons]
  cases (f x).result with
  | error e => rfl
  | ok front => cases xs.mapM fun x => (f x).result <;> rfl

lemma prologue_run {ctx : Context} (hl : Passes ctx.lib commands) (hparams : ∀ p ∈ params, isPlain p) :
    ∃ taken : List Placed, (prologue ctx params).result = (taken.mapM (Instruction.place ctx)).result ∧
      ∀ m vs rest, vs.length = params.length → m.arrays argsStack = vs ++ rest →
        run commands taken m = some ⟨assign params vs m.vars, Function.update m.arrays argsStack rest⟩ := by
  obtain ⟨r, hr, hremove⟩ := remove_step hl isPlain_argsStack
  induction params with
  | nil =>
    refine ⟨[], rfl, fun m vs rest hlen hstk => ?_⟩
    obtain rfl := length_eq_zero_iff.mp hlen
    rw [← nil_append rest, ← hstk, update_eq_self]
    rfl
  | cons p ps ih =>
    obtain ⟨g, hg, hget⟩ := get_step hl isPlain_argsStack (.var (hparams p (by simp)))
    obtain ⟨taken, htk, hrun⟩ := ih fun q hq => hparams q (by simp [hq])
    refine ⟨g :: r :: taken, ?_, fun m vs rest hlen hstk => ?_⟩
    · rw [prologue] at htk ⊢
      rw [result_mapM_flatten_cons, htk, result_mapM, result_mapM, mapM_cons, mapM_cons]
      simp only [result_bind, cons_append, nil_append, hg, hr, Except.bind, Instruction.place]
      cases (Action.ofPlaced ctx.palette g).result with
      | error e => rfl
      | ok a =>
        cases (Action.ofPlaced ctx.palette r).result with
        | error e => rfl
        | ok b => cases taken.mapM fun q => (Action.ofPlaced ctx.palette q).result <;> rfl
    obtain ⟨v, vs, rfl⟩ := exists_cons_of_length_eq_add_one hlen
    rw [run_cons (hget m v _ hstk), run_cons (hremove ⟨Function.update m.vars p v, m.arrays⟩ v (vs ++ rest) hstk),
      hrun _ vs rest (by simpa using hlen) rfl]
    simp [assign]

end Passing
namespace Program
open Passing Assignment
variable {ctx : Context} {s s' : State} {i : Instruction}

/-! ### Declared parameters -/

lemma isPlain_of_mem_paramsOf {name raw p : Text} {params : List Text} (h : paramsOf name raw = .ok params)
    (hp : p ∈ params) : isPlain p := by
  obtain ⟨q, hq, hnm⟩ := exists_of_mapM_ok h p hp
  split at hnm
  next hvar =>
    obtain rfl := ok.inj hnm
    have htrim : trim q = q := by
      obtain ⟨u, -, rfl⟩ := mem_map.mp (mem_of_mem_filter hq)
      exact trim_trim u
    have hfeed : dropFeed q = q := by
      rw [dropFeed, if_neg]
      intro hlast
      have := (trim_self_iff.mp htrim).2 '\n' (by simpa using hlast)
      exact absurd this (by decide)
    simp only [isVarName, hfeed, Bool.and_eq_true] at hvar
    exact all_eq_true.mpr fun c hc => isPlainChar_of_varChar (all_eq_true.mp hvar.2 c hc)
  · contradiction

lemma isPlain_of_signaturesOf {ls : List Text} {sigs : Signatures} (h : signaturesOf ls = .ok sigs) :
    ∀ name params, sigs.get? name = some params → ∀ p ∈ params, isPlain p := by
  refine foldlM_keeps (P := fun sigs => ∀ name params, sigs.get? name = some params →
    ∀ p ∈ params, isPlain p) ?_ (by simp [get?]) h
  intro sigs line sigs' hsigs hstep
  split at hstep
  next name raw _ =>
    obtain ⟨params, hparams, hset⟩ := bind_eq_ok.mp hstep
    cases hset
    intro name' params' hget p hp
    rcases get?_set hget with rfl | hget
    · exact isPlain_of_mem_paramsOf hparams hp
    · exact hsigs name' params' hget p hp
  next =>
    cases hstep
    exact hsigs

def State.heads (s : State) : List (Owner × List Text) :=
  s.done.map (fun f => (f.block.owner, f.block.params)) ++ (s.block.map fun b => (b.owner, b.params)).toList

lemma heads_flush (h : (flush ctx s).result = .ok s') : s'.heads = s.heads := by
  rcases flush_ok h with ⟨-, rfl⟩ | ⟨f, next, hblk, -, -, rfl⟩
  · rfl
  · simp [State.heads, hblk]

/-- A block has the parameters declared for its function. -/
def Declared (ctx : Context) (head : Owner × List Text) : Prop :=
  ∀ name params, head.1 = .func name → ctx.signatures.get? name = some params → params ≠ [] → head.2 = params

lemma declared_beginBlock {head : Line.Start} (hs : ∀ h ∈ s.heads, Declared ctx h)
    (h : (beginBlock ctx head s).result = .ok s') : ∀ h ∈ s'.heads, Declared ctx h := by
  rw [beginBlock, Compile.bind_ok] at h
  obtain ⟨s₁, hfl, h⟩ := h
  rw [← heads_flush hfl] at hs
  have hnone := block_flush hfl
  have hopen : ∀ owner params, Declared ctx (owner, params) →
      s' = { s₁ with block := some ⟨owner, params, false, [], [], 0⟩ } → ∀ h ∈ s'.heads, Declared ctx h := by
    rintro owner params hnew rfl h hmem
    simp only [State.heads, hnone, map_none, toList_none, append_nil] at hs
    simp only [State.heads, map_some, toList_some, mem_append, mem_singleton] at hmem
    rcases hmem with hmem | rfl
    · exact hs h hmem
    · exact hnew
  cases head with
  | event name => exact hopen _ _ (fun _ _ h => by simp at h) (ok.inj h).symm
  | func name raw =>
    refine hopen _ _ (fun name' params hnm hget hne => ?_) (ok.inj h).symm
    obtain rfl := Owner.func.inj hnm
    simp [Table.getD, hget, hne]
  | loop name ticks =>
    simp only at h
    split at h
    · exact hopen _ _ (fun _ _ h => by simp at h) (ok.inj h).symm
    · simp at h

lemma declared_exec (hs : ∀ h ∈ s.heads, Declared ctx h) (h : (exec ctx s i).result = .ok s') :
    ∀ h ∈ s'.heads, Declared ctx h := by
  rcases exec_cases h with ⟨-, -, hfl⟩ | ⟨head, -, -, -, rfl, -⟩ | ⟨-, -, hext⟩
  · rwa [heads_flush hfl]
  · exact declared_beginBlock hs h
  have hhd : s'.heads = s.heads := by
    rw [State.heads, State.heads, hext.done]
    cases hb : s.block with
    | none => rw [hext.block_none hb]
    | some b =>
      obtain ⟨b', hb', hown, hparams, -⟩ := hext.exists_block hb
      simp [hb', hown, hparams]
  rwa [hhd]

lemma declared_of_run {p : Prepared} (h : (run ctx p).result = .ok s) : ∀ h ∈ s.heads, Declared ctx h := by
  obtain ⟨s₁, hls, hfl⟩ := run_ok h
  rw [heads_flush hfl]
  exact lines_induction hls (by simp [State.heads, State.start])
    fun s i s' hs _ h => declared_exec hs h

/-! ### From the arguments to the parameters -/

variable {commands : Spec → Option Command} {f x : Text} {params ls : List Text} {args : List Literal}

lemma isPlain_resultStack : isPlain resultStack := by decide

/-- The line of a call puts the arguments on the stack, calls the function, and takes the result from its stack. -/
lemma compile_call (hl : Passes ctx.lib commands) (hparams : ctx.signatures.get? f = some params) (hne : params ≠ [])
    (hf : IsFunctionName f) (hx : x ≠ [] ∧ ∀ c ∈ x, isVarChar c) (hargs : ∀ a ∈ args, a.Simple)
    (hlen : args.length = params.length) :
    ∃ pushed popped : List Placed, (pushActions ctx.lib false (args.map Literal.text)).result = .ok pushed ∧
      (Statement.compile ctx.lib ctx.signatures false (resultLine x f (args.map Literal.text))).result =
        (callSpec ctx.lib.api).result.map fun spec =>
          some (pushed ++ ⟨["slot(13)=" ++ wrap "text" f], spec⟩ :: popped) := by
  obtain ⟨a, hnm, hcomp⟩ := Statement.compile_resultLine ctx.lib ctx.signatures false hx.1 hx.2 hf
    (Literal.isArguments_text hargs)
  obtain ⟨pushed, hpsh, -⟩ := pushActions_run hl hargs
  have htgt : Arithmetic.IsTarget a.target a.name := by
    refine ⟨?_, hnm⟩
    rw [Assignment.target]
    cases a.saved
    · exact .inl rfl
    · exact .inr rfl
  obtain ⟨taken, htk, -⟩ := get_step hl isPlain_resultStack htgt
  obtain ⟨removed, hrem, -⟩ := remove_step hl isPlain_resultStack
  refine ⟨pushed, [taken, removed], hpsh, ?_⟩
  have hcnt : (checkCount ctx.signatures f (args.map Literal.text)).result = .ok () := by
    simp [checkCount, hparams, hlen]
  have hfill : (args.map Literal.text).isEmpty = false := by
    have : args ≠ [] := by
      rintro rfl
      exact hne (length_eq_zero_iff.mp hlen.symm)
    simpa using this
  rw [hcomp]
  simp only [resultActions, hfill, Bool.false_eq_true, if_false, result_bind, hcnt, hpsh, readResult,
    removeResult, htk, hrem, Except.bind]
  cases (callSpec ctx.lib.api).result with
  | error e => rfl
  | ok spec => simp [Except.map]

/-- Whatever the stack holds, the parameters of a function get the values that the arguments had at the call. The line
of the call begins with the actions that push, the function with those that take. -/
theorem arguments_reach_parameters (hl : Passes ctx.lib commands) (hsigs : signaturesOf ls = .ok ctx.signatures)
    (hparams : ctx.signatures.get? f = some params) (hnodup : params.Nodup) (hne : params ≠ [])
    (hf : IsFunctionName f) (hx : x ≠ [] ∧ ∀ c ∈ x, isVarChar c) (hargs : ∀ a ∈ args, a.Simple)
    (hlen : args.length = params.length) : ∃ pushed popped taken : List Placed,
      (Statement.compile ctx.lib ctx.signatures false (resultLine x f (args.map Literal.text))).result =
        ((callSpec ctx.lib.api).result.map fun spec =>
          some (pushed ++ ⟨["slot(13)=" ++ Value.wrap "text" f], spec⟩ :: popped)) ∧
      (∀ p s, (run ctx p).result = .ok s → ∀ b ∈ s.done, b.block.owner = .func f →
        ∃ pre rest, (taken.mapM (Instruction.place ctx)).result = .ok pre ∧ b.left.actions = pre ++ rest) ∧
      ∀ m, ∃ m', Passing.run commands (pushed ++ taken) m = some m' ∧
        params.map m'.vars = args.map (Literal.value m.vars) ∧ m'.arrays = m.arrays ∧
        ∀ y, y ∉ params → m'.vars y = m.vars y := by
  obtain ⟨pushed, popped, hpsh, hcomp⟩ := compile_call hl hparams hne hf hx hargs hlen
  obtain ⟨pushed', hpsh', hpush⟩ := pushActions_run hl hargs
  obtain rfl : pushed = pushed' := ok.inj (hpsh.symm.trans hpsh')
  obtain ⟨taken, hpro, htake⟩ := prologue_run hl (isPlain_of_signaturesOf hsigs f params hparams)
  refine ⟨pushed, popped, taken, hcomp, fun p s hrun b hb hown => ?_, fun m => ?_⟩
  · have hdeclared : b.block.params = params := by
      refine declared_of_run hrun (b.block.owner, b.block.params) ?_ f params hown hparams hne
      exact mem_append_left _ (mem_map_of_mem hb)
    obtain ⟨n, n', hmade⟩ := (flushed_of_run hrun).made hb
    have hfull := hmade.full
    rw [fullActions, hown, hdeclared] at hfull
    obtain ⟨pre, hpre, hfull⟩ := Compile.bind_ok.mp hfull
    refine ⟨pre, ?_⟩
    rw [← hpro, hpre]
    split at hfull
    next =>
      obtain heq := ok.inj hfull
      exact ⟨_, rfl, heq.symm⟩
    next =>
      obtain ⟨ret, -, hfull⟩ := Compile.bind_ok.mp hfull
      obtain heq := ok.inj hfull
      exact ⟨_, rfl, by rw [← heq, append_assoc]⟩
  · have hvals : (args.map (Literal.value m.vars)).length = params.length := by simpa using hlen
    refine ⟨⟨assign params (args.map (Literal.value m.vars)) m.vars, m.arrays⟩, ?_, map_assign hnodup hvals, rfl,
      fun y hy => assign_of_notMem hy⟩
    rw [run_append (hpush m), htake _ _ (m.arrays argsStack) hvals (by simp)]
    simp

/-! ### A function that calls itself -/

def arrayCommand (spec : Spec) : Option Passing.Command :=
  ([("Вставить в массив", .insert), ("Получить элемент массив", .get), ("Удалить элемент массива", .remove)] :
    List (Text × Passing.Command)).lookup ((spec.sign2.toOption).getD [])

def arrayAction (sign2 : Text) (more : List Param) : Spec :=
  Arithmetic.shippedAction sign2 (⟨"arr", "ARRAY", 10⟩ :: ⟨"num", "NUMBER", 13⟩ :: more) []

def stackLibrary : Library where
  api := .obj [
    ("array", .obj [("vstavit_v_massiv", arrayAction "Вставить в массив" [⟨"value", "ANY", 16⟩]),
      ("get_array", arrayAction "Получить элемент массив" [⟨"var", "VARIABLE", 16⟩]),
      ("remove_array", arrayAction "Удалить элемент массива" [])]),
    ("game", .obj [("call_function", Arithmetic.shippedAction "Вызвать функцию" [] [])])]
  values := []

lemma passes_stackLibrary : Passes stackLibrary arrayCommand where
  insert := ⟨_, ⟨⟨_, rfl⟩, _, Arithmetic.hasParams_shipped (by simp) (by simp) (by decide) (by decide), by decide,
    by decide⟩, by decide⟩
  get := ⟨_, ⟨⟨_, rfl⟩, _, Arithmetic.hasParams_shipped (by simp) (by simp) (by decide) (by decide), by decide,
    by decide⟩, by decide⟩
  remove := ⟨_, ⟨⟨_, rfl⟩, _, Arithmetic.hasParams_shipped (by simp) (by simp) (by decide) (by decide), by decide,
    by decide⟩, by decide⟩

def stackContext : Context where
  cfg := .ofVariables []
  lib := stackLibrary
  palette := ⟨Palette.blocksOf "[(iron_block) Присв. переменную]", []⟩
  events := []
  defaultPlayer := .skip
  defaultEntity := .skip
  taken := ["f"]
  signatures := [("f", ["a", "b", "c"])]

/-- A call that exchanges two parameters and passes a text with a brace. -/
def exchange : List Literal := [.name "b", .name "a", .quoted '"' "\x7b %x"]

/-- A function that calls itself with its own parameters, in another order. -/
def exchangeScript : Prepared :=
  ⟨texts ["func f(a, b, c) \x7b", "x = f(b, a, \"\x7b %x\")", "\x7d"], [], [], stackContext.signatures⟩

theorem arguments_reach_parameters_exchange : Passes stackLibrary arrayCommand ∧ (∀ a ∈ exchange, a.Simple) ∧
    ∃ pushed popped taken : List Placed,
      (Statement.compile stackLibrary stackContext.signatures false "x = f(b, a, \"\x7b %x\")").result =
        ((callSpec stackLibrary.api).result.map fun spec =>
          some (pushed ++ ⟨["slot(13)=text(f)"], spec⟩ :: popped)) ∧
      (∃ s b pre rest, (run stackContext exchangeScript).result = .ok s ∧ b ∈ s.done ∧ b.block.owner = .func "f" ∧
        (taken.mapM (Instruction.place stackContext)).result = .ok pre ∧ b.left.actions = pre ++ rest) ∧
      ∀ m, ∃ m', Passing.run arrayCommand (pushed ++ taken) m = some m' ∧
        [m'.vars "a", m'.vars "b", m'.vars "c"] = [m.vars "b", m.vars "a", .text "\x7b %x"] ∧ m'.arrays = m.arrays ∧
        ∀ y, y ∉ ([("a" : Text), "b", "c"] : List Text) → m'.vars y = m.vars y := by
  have hsimp : ∀ a ∈ exchange, a.Simple := by decide
  have hl : Passes stackContext.lib arrayCommand := passes_stackLibrary
  have hsigs : signaturesOf ["func f(a, b, c) \x7b"] = .ok stackContext.signatures :=
    ok_of_toOption (by decide)
  have hf : IsFunctionName "f" := ⟨by decide, all_eq_true.mp (by decide), by decide, by decide⟩
  have hparams : stackContext.signatures.get? "f" = some (texts ["a", "b", "c"]) := rfl
  have hln : ("x = f(b, a, \"\x7b %x\")" : Text) = resultLine "x" "f" (exchange.map Literal.text) := by decide
  have hnm : ("slot(13)=text(f)" : Text) = "slot(13)=" ++ Value.wrap "text" "f" := by decide
  have hany : (run stackContext exchangeScript).result.toOption.any fun s =>
      s.done.any fun b => b.block.owner == .func "f" := by decide +kernel
  obtain ⟨s, hrun, hdone⟩ := exists_of_any hany
  obtain ⟨b, hb, hown⟩ := any_eq_true.mp hdone
  rw [hln, hnm]
  obtain ⟨pushed, popped, taken, hcomp, hrow, hmoves⟩ :=
    arguments_reach_parameters (x := "x") hl hsigs hparams (by decide)
    (by decide) hf ⟨by decide, all_eq_true.mp (by decide)⟩ hsimp rfl
  obtain ⟨pre, rest, hpre, hrest⟩ := hrow _ s hrun b hb (eq_of_beq hown)
  exact ⟨passes_stackLibrary, hsimp, pushed, popped, taken, hcomp,
    ⟨s, b, pre, rest, hrun, hb, eq_of_beq hown, hpre, hrest⟩, hmoves⟩

end Program
end BlockScript
