import BlockScript.Proofs.Independence
import BlockScript.Proofs.Results

/-!
# Numbers of arguments

A script in which a function is called with a wrong number of arguments does not compile, if the call stands in a block
and has an argument at all (`Data.compile_of_wrong_count`). A call without arguments is not checked.
-/

open Option List
namespace BlockScript
open Text Pattern Program
open Script (Compile Settings)
open Plan (Owner)
open Assignment (IsFunctionName Signatures resultActions)
namespace Line

/-- The function that a line inside a block calls for its result, and the arguments. -/
def resultCall? (t : Text) : Option (Text × List Text) :=
  if t == "\x7d" || (If.ofLine? t).isSome || (Start.ofLine? t).isSome || (select? t).isSome then none
  else match message? t with
    | some (f, q) => some (f, Text.splitTop ',' (Text.trim q))
    | none =>
      match flatDealing t with
      | .takes _ f args => some (f, args)
      | _ => none

lemma notMem_of_message? {t f q : Text} (h : message? t = some (f, q)) : '\n' ∉ q := by
  obtain ⟨m, hm, heq⟩ := map_eq_some_iff.mp h
  cases heq
  obtain ⟨t, r, rfl, -, h⟩ := spells_of_match? rfl hm
  simp only [Pattern.blanks, Pattern.rest, Pattern.any, spells_seq] at h
  obtain ⟨_, _, -, -, _, _, -, -, _, _, -, -, _, -, _, _, -, -, f, _, _, -, -, _, _, -, -, _, -, q, _, _, -,
    ⟨hq, rfl⟩, _, -,
    _, _, -, -, _, -, _, _, -, -, _, _, _, -, hsemi, -, hg⟩ := h
  have hgrp : m.group 2 = q := by
    rw [Pattern.Match.group, Pattern.Match.group?, hg]
    rcases hsemi with hsemi | ⟨-, rfl⟩
    · rw [(spells_lit.mp hsemi).2]
      rfl
    · rfl
  rw [hgrp]
  intro hmem
  simpa using hq _ ((isInfix_trim q).subset hmem)

end Line
namespace Program
variable {ctx : Context} {i : Instruction} {owner : Owner} {temps n : Nat} {negated : Bool} {t f : Text}
  {args params : List Text} {ls : List Text} {sigs : Signatures}

/-! ### Declarations -/

/-- The lines declare the function with the parameters, and no line behind declares it again. -/
def Declares (ls : List Text) (f : Text) (params : List Text) : Prop :=
  ∃ front line back raw, ls = front ++ line :: back ∧ Line.Start.func? (Text.trim line) = some (f, raw)
    ∧ paramsOf f raw = .ok params ∧ ∀ l ∈ back, (Line.Start.func? (Text.trim l)).map Prod.fst ≠ some f

lemma get?_of_declares (h : signaturesOf ls = .ok sigs) (hdecl : Declares ls f params) : sigs.get? f = some params := by
  obtain ⟨front, line, back, raw, rfl, hln, hpar, hback⟩ := hdecl
  rw [signaturesOf, foldlM_append, bind_eq_ok] at h
  obtain ⟨before, -, h⟩ := h
  simp only [foldlM_cons, hln, hpar, bind_eq_ok] at h
  obtain ⟨start, ⟨_, hsame, hset⟩, h⟩ := h
  cases hsame
  have hst : start.get? f = some params := by
    rw [← Except.ok.inj hset]
    exact Table.get?_set_self _ _ _
  clear hset
  induction back generalizing start with
  | nil =>
    cases h
    exact hst
  | cons l back ih =>
    rw [foldlM_cons, bind_eq_ok] at h
    obtain ⟨next, hnext, h⟩ := h
    refine ih (fun l hl => hback l (by simp [hl])) next h ?_
    split at hnext
    next name raw' hnm =>
      obtain ⟨params', -, hset⟩ := bind_eq_ok.mp hnext
      cases hset
      have hne : f ≠ name := by
        rintro rfl
        exact hback l (by simp) (by rw [hnm]; rfl)
      rwa [Table.get?_set_of_ne hne]
    next =>
      cases hnext
      exact hst

/-! ### Calls -/

lemma count_of_resultActions {lib : Library} {trace : Bool} {a : Assignment} {ps : List Placed}
    (h : (resultActions lib sigs trace a f args).result = .ok ps) (hpar : sigs.get? f = some params) :
    args = [] ∨ args.length = params.length := by
  rw [or_iff_not_imp_left]
  intro hne
  have hfill : args.isEmpty = false := by simpa using hne
  simp only [resultActions, hfill, Bool.false_eq_true, if_false, Assignment.checkCount, hpar, Compile.bind_ok] at h
  obtain ⟨_, hchk, -⟩ := h
  split at hchk
  · simp at hchk
  next hlen => exact (by simpa using hlen : params.length = args.length).symm

lemma isVarChar_temp (temps : Nat) : ∀ c ∈ tempName ++ ofNat temps, isVarChar c := by
  intro c hc
  rcases mem_append.mp hc with hc | hc
  · exact List.all_eq_true.mp rfl c hc
  have hdg := isDigit_ofNat hc
  simp [isVarChar, isNameChar, isWordChar, isAlphanumeric, toNat_lt_of_digit hdg, Char.isAlphanum, hdg]

/-- A line compiled calls a function without arguments, or with as many as it has parameters. -/
lemma count_of_ofLine (h : (Instruction.ofLine ctx (some owner) temps n negated t).result = .ok i)
    (hcall : Line.resultCall? t = some (f, args)) (hf : IsFunctionName f) (hpar : ctx.signatures.get? f = some params) :
    args = [] ∨ args.length = params.length := by
  rw [Line.resultCall?] at hcall
  split at hcall
  · contradiction
  next hln =>
    simp only [Bool.or_eq_true, not_or, Bool.not_eq_true, isSome_eq_false_iff, isNone_iff_eq_none] at hln
    obtain ⟨⟨⟨hcl, hif⟩, hst⟩, hsel⟩ := hln
    have hin : (Instruction.ofInner ctx owner temps n negated t).result = .ok i := by
      simpa only [Instruction.ofLine, hcl, hif, hst, Bool.false_eq_true, if_false] using h
    split at hcall
    next f' q hmsg =>
      cases hcall
      simp only [Instruction.ofInner, hsel, hmsg, Instruction.ofMessage, Compile.bind_ok] at hin
      obtain ⟨placed, hplc, h⟩ := hin
      obtain ⟨a, -, hacts⟩ := Statement.compile_resultText ctx.lib ctx.signatures false
        (append_ne_nil_of_left_ne_nil (by decide) _) (isVarChar_temp (temps + 1)) hf (Line.notMem_of_message? hmsg)
      have hln : tempName ++ ofNat (temps + 1) ++ " = " ++ f ++ "(" ++ q ++ ")"
          = tempName ++ ofNat (temps + 1) ++ " = " ++ Value.wrap f q := by simp [Value.wrap]
      rw [hln, hacts] at hplc
      cases hps : (resultActions ctx.lib ctx.signatures false a f (splitTop ',' (trim q))).result with
      | error e => simp [hps, Except.map] at hplc
      | ok ps => exact count_of_resultActions hps hpar
    next hmsg =>
      have hdeals := Instruction.deals_ofInner hin hsel hmsg
      split at hcall
      next a f' args' hdealing =>
        cases hcall
        rw [hdealing] at hdeals
        obtain ⟨ps, -, -, hps, -⟩ := hdeals
        exact count_of_resultActions hps hpar
      · contradiction

lemma signaturesOf_of_prepare {cfg : Settings} {files : Files} {entry : Path} {p : Prepared}
    (h : (prepare cfg files entry).result = .ok p) : signaturesOf p.lines = .ok p.signatures := by
  simp only [prepare, Compile.bind_ok] at h
  obtain ⟨_, -, _, -, _, -, _, -, _, -, _, -, _, -, _, -, _, -, _, -, _, -, sigs, hsigs, _, -, _, -, h⟩ := h
  cases h
  exact hsigs

end Program
namespace Data
variable {cfg : Settings} {d : Data} {files : Files} {entry : Path} {shown : Text} {ctx : Program.Context}
  {p : Program.Prepared} {front back args params : List Text} {raw t f : Text} {negated : Bool}

/-- A script does not compile if a line in one of its blocks calls a function for its result, be it for a variable or
for a message, with arguments that are not as many as the parameters that the function is declared with. -/
theorem compile_of_wrong_count (hsetup : (d.setup cfg files entry shown).result = .ok (ctx, p))
    (hdecl : Program.Declares p.lines f params) (hf : IsFunctionName f) (hlines : p.lines = front ++ raw :: back)
    (hblock : ∀ s, (Program.lines ctx p.namespaces 1 .start front).result = .ok s → s.block.isSome)
    (hcode : Program.code p.namespaces raw = some (negated, t)) (hcall : Line.resultCall? t = some (f, args))
    (hne : args ≠ []) (hcount : args.length ≠ params.length) :
    ∃ e, (d.compile cfg files entry shown).result = .error e := by
  obtain ⟨hprepare, hsigs, -⟩ := setup_of_setup hsetup
  have hpar := get?_of_declares (signaturesOf_of_prepare hprepare) hdecl
  rw [← hsigs] at hpar
  cases hes : (d.compile cfg files entry shown).result with
  | error e => exact ⟨e, rfl⟩
  | ok es =>
    simp only [compile, Compile.bind_ok, hsetup] at hes
    obtain ⟨_, hsame, final, hrun, -⟩ := hes
    cases hsame
    obtain ⟨_, hall, -⟩ := run_ok hrun
    rw [hlines, lines_append] at hall
    cases hfront : (Program.lines ctx p.namespaces 1 .start front).result with
    | error e => simp [hfront, Except.bind] at hall
    | ok s =>
    rw [hfront, ok_bind, Program.lines, Compile.bind_ok] at hall
    obtain ⟨_, hln, -⟩ := hall
    obtain ⟨b, hb⟩ := isSome_iff_exists.mp (hblock s hfront)
    rcases line_ok hln with ⟨hnone, -⟩ | ⟨negated', t', i, hcd', hi, -⟩
    · simp [hcode] at hnone
    · cases hcode.symm.trans hcd'
      rw [hb] at hi
      rcases count_of_ofLine hi hcall hf hpar with hnil | hlen
      · exact absurd hnil hne
      · exact absurd hlen hcount

def twoForOne : Files := script "func f(a) \x7b\nx = f(1, 2)\n\x7d\n"

def twoForOneLines : List Text := texts ["func f(a) \x7b", "x = f(1, 2)", "\x7d"]

lemma twoForOne_any : (stackSample.ready twoForOne).result.toOption.any
    fun (ready : Program.Context × Program.Prepared) => decide
      (ready.2.lines = twoForOneLines ∧ ready.2.namespaces = [])
      && (Program.lines ready.1 [] 1 .start (twoForOneLines.take 1)).result.toOption.any fun s => s.block.isSome := by
  decide +kernel

theorem compile_of_wrong_count_twoForOne : ∃ ctx p e,
    (stackSample.ready twoForOne).result = .ok (ctx, p)
      ∧ Program.Declares p.lines "f" ["a".toList] ∧ "x = f(1, 2)".toList ∈ p.lines
      ∧ (stackSample.plan twoForOne).result = .error e := by
  obtain ⟨⟨ctx, p⟩, hsetup, hany⟩ := exists_of_any twoForOne_any
  obtain ⟨hready, hopen⟩ := Bool.and_eq_true_iff.mp hany
  obtain ⟨hlines, hnss⟩ := of_decide_eq_true hready
  obtain ⟨s, hfront, hblock⟩ := exists_of_any hopen
  have hdecl : Program.Declares p.lines "f" ["a".toList] :=
    ⟨[], "func f(a) \x7b".toList, texts ["x = f(1, 2)", "\x7d"], "a".toList, hlines, by decide, rfl,
      by decide⟩
  have hpts : p.lines = twoForOneLines.take 1 ++ "x = f(1, 2)".toList :: ["\x7d".toList] := hlines.trans rfl
  have hcode : code p.namespaces "x = f(1, 2)" = some (false, "x = f(1, 2)".toList) := by
    rw [hnss]
    decide
  have hcall : Line.resultCall? "x = f(1, 2)" = some ("f".toList, texts ["1", "2"]) := by decide
  obtain ⟨e, he⟩ := compile_of_wrong_count hsetup hdecl
    ⟨by decide, List.all_eq_true.mp (by decide), by decide, by decide⟩ hpts (fun _ hs => by
      rw [hnss] at hs
      cases hfront.symm.trans hs
      exact hblock) hcode hcall (by decide) (by decide)
  exact ⟨ctx, p, e, hsetup, hdecl, by rw [hlines]; decide, he⟩

def noneForOne : Files := script "func f(a) \x7b\nx = f()\n\x7d\n"

/-- A call without arguments is compiled whatever the parameters are. -/
theorem exists_call_unchecked : ∃ ctx p es,
    (stackSample.ready noneForOne).result = .ok (ctx, p)
      ∧ p.lines = texts ["func f(a) \x7b", "x = f()", "\x7d"] ∧ ctx.signatures.get? "f" = some ["a".toList]
      ∧ Line.resultCall? "x = f()" = some ("f".toList, [])
      ∧ (stackSample.plan noneForOne).result = .ok es := by
  obtain ⟨hany, hcomp⟩ : ((stackSample.ready noneForOne).result.toOption.any
      fun (ready : Program.Context × Program.Prepared) =>
        decide (ready.2.lines = texts ["func f(a) \x7b", "x = f()", "\x7d"]
        ∧ ready.1.signatures.get? "f" = some ["a".toList] ∧ Line.resultCall? "x = f()" = some ("f".toList, [])))
      ∧ (stackSample.plan noneForOne).result.toOption.any fun _ => true := by
    decide +kernel
  obtain ⟨⟨ctx, p⟩, hsetup, hready⟩ := exists_of_any hany
  obtain ⟨hlines, hsigs, hcall⟩ := of_decide_eq_true hready
  obtain ⟨es, hes, -⟩ := exists_of_any hcomp
  exact ⟨ctx, p, es, hsetup, hlines, hsigs, hcall, hes⟩

/-- What an event is compiled to that has this line before another, behind a function. -/
def entriesWith (line : Text) : Option (List Entry) :=
  (stackSample.plan (script
    (Text.joinWith "\n" ["func f(a) \x7b", "a.b()", "\x7d", "event(x) \x7b", line, "a.b()", "\x7d"]))).result.toOption

/-- The function is called where the line takes its result. A line that is the call alone is passed over. -/
theorem exists_call_dropped : (entriesWith "f(1)").isSome ∧ entriesWith "f(1)" = entriesWith ""
    ∧ ∃ es ∈ entriesWith "t = f(1)", ∃ e ∈ es, e.args = some "slot(13)=text(f)".toList := by
  decide +kernel

end Data
end BlockScript
