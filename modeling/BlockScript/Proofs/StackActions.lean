import BlockScript.Proofs.Passing

/-!
# Actions on stacks

The arguments and the results of functions are kept in arrays that serve as stacks. An action on one of them is written
as a call with the array in front and the value last, and read back. Whatever the value is, as long as it has no comma
outside quotes and brackets, the window of the action begins with the array meant
(`Action.array?_of_stackCall`).
-/

open List Except Option
namespace BlockScript
open Text Table
open Value (wrap)
open Script (Compile)
open Script.Compile (bind_ok)

namespace Text

lemma trim_named {n rest v : Text} {c : Char} (hn : n = c :: rest) (hc : isBlank c = false) :
    trim (n ++ "=" ++ v) = n ++ "=" ++ trimEnd v := by
  have hsign : isBlank '=' = false := rfl
  have hfr : (n ++ "=" ++ v).dropWhile isBlank = n ++ "=" ++ v := by simp [hn, hc]
  rw [trim, trimBy, hfr, trimEnd, dropEndWhile, dropEndWhile, reverse_append, dropWhile_append]
  split
  next h => simp [List.isEmpty_iff.mp h, hsign]
  · simp

lemma notMem_of_plainChar {t : Text} {c : Char} (h : isPlain t) (hc : isPlainChar c = false) : c ∉ t := fun hmem => by
  rw [List.all_eq_true.mp h c hmem] at hc
  contradiction

end Text
namespace Passing
open Arguments (written)
open Nesting (skips)
variable {stack : Text}

def stackCall (stack : Text) (value : Option Text) : List Text :=
  ["arr=" ++ wrap "arr" stack, "num=" ++ wrap "num" stackTop] ++ (value.map fun v => ("value=" : Text) ++ v).toList

lemma readable_top (h : isPlain stack) : ∀ a ∈ top stack, Arguments.Readable a := by
  simp only [top, mem_cons, not_mem_nil, or_false, forall_eq_or_imp, forall_eq]
  exact ⟨(fits_arr h).last.readable rfl, fits_top.last.readable rfl⟩

lemma ofText_stackCall {value : Option Text} (hstk : isPlain stack) (hvl : ∀ v ∈ value, skips ',' .top v) :
    ∃ named, Arguments.ofText (joinWith ", " (stackCall stack value)) = ⟨named, []⟩ ∧
      get? "arr" (named.filter fun e => !(trim e.2).isEmpty) = some (wrap "arr" stack) := by
  have hrd := readable_top hstk
  have htop : (top stack).map written = ["arr=" ++ wrap "arr" stack, "num=" ++ wrap "num" stackTop] := rfl
  have hfnd : ∀ more,
      get? "arr" ((top stack ++ more).filter fun e => !(trim e.2).isEmpty) = some (wrap "arr" stack) := by
    intro more
    have hkept : (!(trim (wrap "arr" stack)).isEmpty) = true := by
      rw [Value.isHead_arr.trim_wrap]
      simp [wrap]
    rw [top, cons_append, filter_cons, if_pos hkept]
    exact lookup_cons_self
  cases value with
  | none =>
    refine ⟨top stack, ?_, hfnd []⟩
    have hall := Arguments.ofText_joinWith hrd (fun a ha => back_top hstk a (dropLast_subset _ ha)) (by simp [top])
    simpa [stackCall, htop] using hall
  | some v =>
    have hv := hvl v rfl
    have hfr : Nesting.Closed ',' "value=" := .of_isPlain rfl (by decide)
    have hsk : ∀ t ∈ stackCall stack (some v), skips ',' .top t := by
      intro t ht
      rw [stackCall, ← htop, mem_append] at ht
      rcases ht with ht | ht
      · obtain ⟨a, ha, rfl⟩ := List.mem_map.mp ht
        exact (hrd a ha).skips_written
      obtain rfl : t = "value=" ++ v := by simpa using ht
      rw [Nesting.skips_append, hfr.back, hv]
      rfl
    have hback : ∀ t ∈ (stackCall stack (some v)).dropLast, Nesting.top.readAll t = .top := by
      intro t ht
      rw [stackCall, ← htop] at ht
      obtain ⟨a, ha, rfl⟩ : ∃ a ∈ top stack, written a = t := by simpa using ht
      exact (hrd a ha).back_written (back_top hstk a ha)
    have htrim : (stackCall stack (some v)).map trim = (top stack).map written ++ ["value=" ++ trimEnd v] := by
      have hlast : trim ("value=" ++ v) = "value=" ++ trimEnd v :=
        trim_named (n := "value") rfl rfl
      rw [stackCall, ← htop, map_append]
      refine congrArg₂ _ (map_congr_left fun a ha => (hrd a ha).trim_written) ?_
      exact congrArg (fun t => [t]) hlast
    have hspl : splitTop ',' (joinWith ", " (stackCall stack (some v))) =
        (top stack).map written ++ ["value=" ++ trimEnd v] := by
      rw [splitTop, map_trim_splitTopFrom (by simp [stackCall]) hsk hback (by simp), htrim, filter_eq_self]
      exact forall_mem_append.mpr ⟨List.forall_mem_map.mpr fun a _ => by simp [written], by simp⟩
    have hcut : cutTop? '=' ("value=" ++ trimEnd v) = some (("value" : Text), trimEnd v) :=
      cutTop?_append (t := "value") (.of_isPlain rfl (by decide))
    refine ⟨top stack ++ [(("value" : Text), trim (trimEnd v))], ?_, hfnd _⟩
    rw [Arguments.ofText, hspl, foldl_append, Arguments.foldl_add_written hrd (by simp [top]) _ (by simp [Table.names])]
    have hquot : isQuoted ("value=" ++ trimEnd v) = false := by simp [isQuoted]
    have hkey : trim "value" = "value" := rfl
    simp only [foldl_cons, foldl_nil, Arguments.add, hquot, hcut, hkey, nil_append, Bool.false_eq_true, if_false]
    rw [set_of_notMem (by simp [Table.names, top])]

end Passing

/-! ### What a call is compiled to -/

/-- The first parameter of an action is an array by the name of `arr`. -/
def Spec.LeadsWithArray (spec : Spec) : Prop :=
  ∃ (f : Param) (p : Json) (ps : List Json), Placed.params spec = .ok (p :: ps) ∧ f.Describes p ∧ f.name = "arr" ∧
    f.kind = .array

lemma liftM_ok {α : Type} {x : Except Fault α} {a : α} : (liftM x : Compile α).result = .ok a ↔ x = .ok a := by
  cases x <;> simp [Except.mapError]

namespace Placed
variable {lib : Library} {func canon stack : Text} {spec : Spec} {p : Placed}

lemma get?_bindVectors {ps : List Json} {b b' : Binding} {k v : Text} (h : bindVectors ps b = .ok b')
    (hk : get? k b.named = some v) : get? k b'.named = some v := by
  obtain ⟨vectors, -, h⟩ := bind_eq_ok.mp h
  obtain ⟨⟨n, b₁⟩, hfold, h⟩ := bind_eq_ok.mp h
  cases h
  refine foldlM_keeps (P := fun x => get? k x.2.named = some v) ?_ hk hfold
  rintro ⟨n, b⟩ p ⟨n', b'⟩ hb hstep
  obtain ⟨name, -, hstep⟩ := bind_eq_ok.mp hstep
  cases hstep
  split
  · exact hb
  next hnew =>
    have hne : k ≠ name := by
      rintro rfl
      simp [has_of_get? hb] at hnew
    rw [Binding.borrow]
    split
    · rw [named_take, get?_set_of_ne hne, hb]
    · exact hb

lemma ofSpec_leads {args : Text} {named : Table Text} (hlead : spec.LeadsWithArray) (hstk : '\n' ∉ stack)
    (hargs : Arguments.ofText args = ⟨named, []⟩)
    (harr : get? "arr" (named.filter fun e => !(trim e.2).isEmpty) = some (wrap "arr" stack))
    (h : (ofSpec lib ⟨"array", func, args⟩ canon spec).result = .ok p) :
    p.spec = spec ∧ ∃ f rest, p.pieces = Param.piece f (wrap "arr" stack) :: rest := by
  obtain ⟨f, q, ps, hps, hdesc, hnm, hkind⟩ := hlead
  have hwrap : (wrapValue lib.values f.kind (wrap "arr" stack)).result = .ok (wrap "arr" stack) :=
    result_wrapValue_wrap Value.isHead_arr hstk (by rw [hkind]; decide)
  rw [ofSpec] at h
  simp only [hargs, Arguments.dropEmpty, bind_ok, liftM_ok, hps, ok.injEq] at h
  obtain ⟨_, rfl, b, hvec, b₁, hfill, h⟩ := h
  cases hfill
  simp only [isEmpty_cons, Bool.false_eq_true, if_false, bind_ok, liftM_ok, Compile.result_pure,
    bindPositional_nil, isPlainModule_array.existence, ok.injEq] at h
  obtain ⟨_, rfl, _, rfl, ⟨slots, b₂⟩, hsl, _, -, es, -, clicks, -, -, -, rfl⟩ := h
  have hvl := get?_bindVectors hvec (get?_append_left harr)
  rw [paramPieces] at hsl
  simp only [bind_ok, liftM_ok, hdesc.paramName, ok.injEq] at hsl
  obtain ⟨_, rfl, hsl⟩ := hsl
  simp only [bind_some, hnm, hvl, map_some, bind_ok, liftM_ok, hdesc.paramMode,
    isPlainModule_array.game, hdesc.slot, ok.injEq] at hsl
  obtain ⟨_, rfl, _, rfl, hsl⟩ := hsl
  have hcycle :
    ((([] : Text) == "начать цикл" || ([] : Text) == "остановить цикл") && f.mode.upper == "TEXT") = false := rfl
  rw [hcycle, if_neg Bool.false_ne_true] at hsl
  simp only [bind_ok, liftM_ok, ok.injEq] at hsl
  obtain ⟨val, hval, _, rfl, more, -, hsl⟩ := hsl
  obtain rfl : val = wrap "arr" stack := ok.inj (hval.symm.trans hwrap)
  cases hsl
  exact ⟨rfl, f, more.1 ++ clicks.1, rfl⟩

lemma ofSpec_spec {call : Call} (h : (ofSpec lib call canon spec).result = .ok p) : p.spec = spec := by
  rw [ofSpec] at h
  simp only [bind_ok] at h
  obtain ⟨ps, -, b, -, b₁, -, h⟩ := h
  split at h
  all_goals
    simp only [bind_ok] at h
    obtain ⟨given, -, b₂, -, slots, -, enums, -, es, -, clicks, -, -, -, h⟩ := h
    cases h
    rfl

lemma call_array_ok {args : List Text} (hfn : lower (trim func) ≠ "noaction")
    (h : (lib.call "array" func args).result = .ok p) :
      ∃ canon, lib.api.find "array" func = .ok (some (canon, p.spec)) ∧
      (ofSpec lib ⟨"array", func, joinWith ", " args⟩ canon p.spec).result = .ok p := by
  rw [Library.call, ofCall, beq_false_of_ne hfn, if_neg Bool.false_ne_true] at h
  simp only [bind_ok, liftM_ok] at h
  obtain ⟨found, hfind, h⟩ := h
  split at h
  next canon spec =>
    split at h
    next =>
      obtain rfl := ofSpec_spec h
      exact ⟨canon, hfind, h⟩
    · simp at h
  · simp at h

end Placed
namespace Action
variable {lib : Library} {palette : Palette} {func stack : Text} {value : Option Text} {p : Placed} {a : Action}

def array? (a : Action) : Option Text :=
  (Text.dropLead? "=arr(" (a.args.dropWhile (· != '='))).map (·.takeWhile (· != ')'))

lemma array?_of_pieces {f : Param} {rest : List Text} (hstk : isPlain stack)
    (h : a.args = argsOf (f.piece (wrap "arr" stack) :: rest)) : a.array? = some stack := by
  obtain ⟨tail, htail⟩ : ∃ tail, a.args = ("slot(" ++ ofInt f.slot ++ ")") ++ ("=arr(" ++ (stack ++ ')' :: tail)) := by
    rw [h, argsOf]
    cases rest with
    | nil => exact ⟨[], by simp [joinWith, Param.piece, wrap]⟩
    | cons r rest => exact ⟨',' :: joinWith "," (r :: rest), by simp [joinWith, Param.piece, wrap]⟩
  have hfr : ∀ c ∈ "slot(" ++ ofInt f.slot ++ ")", (c != '=') = true := by
    intro c hc
    have hne : c ≠ '=' := by
      rintro rfl
      rcases mem_append.mp hc with hc | hc
      · rcases mem_append.mp hc with hc | hc
        · simp at hc
        · rcases mem_ofInt hc with hc | hc <;> simp at hc
      · simp at hc
    simpa using hne
  have hcl : ∀ c ∈ stack, (c != ')') = true := by
    intro c hc
    have hne : c ≠ ')' := by
      rintro rfl
      exact notMem_of_plainChar hstk rfl hc
    simpa using hne
  have hdrop : a.args.dropWhile (· != '=') = "=arr(" ++ (stack ++ ')' :: tail) := by
    rw [htail, dropWhile_append_of_pos hfr]
    rfl
  rw [array?, hdrop, dropLead?_append, map_some, takeWhile_append_of_pos hcl]
  simp

/-- The window of an action on a stack begins with the stack, whatever the value is that has no comma outside quotes
and brackets. -/
theorem array?_of_stackCall (hstk : isPlain stack) (hfn : lower (trim func) ≠ "noaction")
    (hlead : ∀ canon spec, lib.api.find "array" func = .ok (some (canon, spec)) → spec.LeadsWithArray)
    (hvl : ∀ v ∈ value, Nesting.skips ',' .top v)
    (h : (lib.call "array" func (Passing.stackCall stack value)).result = .ok p)
    (ha : (ofPlaced palette p).result = .ok a) : a.array? = some stack := by
  obtain ⟨canon, hfind, hspec⟩ := Placed.call_array_ok hfn h
  obtain ⟨named, hargs, harr⟩ := Passing.ofText_stackCall hstk hvl
  have hln : '\n' ∉ stack := notMem_of_plainChar hstk rfl
  obtain ⟨-, f, rest, hpcs⟩ := Placed.ofSpec_leads (hlead canon p.spec hfind) hln hargs harr hspec
  have hplc := (ofPlaced_ok ha).1
  rw [hpcs] at hplc
  exact array?_of_pieces hstk hplc

end Action
end BlockScript
