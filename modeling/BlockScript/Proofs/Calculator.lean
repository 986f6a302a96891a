import BlockScript.Proofs.CallByName
import BlockScript.Proofs.ExactIntegers

/-!
# A machine for arithmetic actions

Arithmetic actions run on a store of rational numbers. The machine reads an action as the game does: it looks up the
slots of the parameters in the action's record and takes the items from there. Setting a value assigns it, and the
four operations assign the left fold of the operands given.
-/

open List
namespace BlockScript
open Text
open Table (get?)
open Value (keeps wrap)

lemma Text.length_ofNat {n : Nat} (h : n < 2 ^ 53) : (ofNat n).length ≤ 4300 := by
  have : (ofNat n).length ≤ 16 :=
    (Nat.length_toDigits_le_iff (by decide) (by decide)).mpr (h.trans (by decide))
  omega

namespace Arithmetic

abbrev Store := Text → ℚ

/-- The four operations on numbers. Dividing by zero gives what `atZero` says. -/
def operate (atZero : ℚ → ℚ) : BinOp → ℚ → ℚ → ℚ
  | .add, x, y => x + y
  | .sub, x, y => x - y
  | .mul, x, y => x * y
  | .div, x, y => if y = 0 then atZero x else x / y

def foldOperands (atZero : ℚ → ℚ) (op : BinOp) : List ℚ → ℚ
  | [] => 0
  | x :: xs => xs.foldl (operate atZero op) x

/-- What a number token stands for: an integer or what a variable holds. -/
inductive Operand where
  | num (k : Int)
  | var (name : Text)
deriving DecidableEq

namespace Operand

def value (σ : Store) : Operand → ℚ
  | .num k => k
  | .var name => σ name

end Operand

def target? (token : Text) : Option Text :=
  match between? "var(" ")" token with
  | some name => some name
  | none => between? "var_save(" ")" token

def operand? (token : Text) : Option Operand :=
  match between? "num(%var(" ")%)" token with
  | some name => some (.var name)
  | none =>
    match between? "num(" ")" token with
    | some k => (Text.toInt? k).map .num
    | none => (target? token).map .var

/-! ### Running actions -/

inductive Command where
  | assign
  | calculate (op : BinOp)
deriving DecidableEq

/-- The command of an action by the second line of its sign. -/
def commandOf (spec : Spec) : Option Command :=
  ([("=", .assign), ("+", .calculate .add), ("-", .calculate .sub), ("*", .calculate .mul), ("/", .calculate .div)] :
    List (Text × Command)).lookup ((spec.sign2.toOption).getD [])

def slot? (spec : Spec) (name : Text) : Option Text := do
  let ps ← (Placed.params spec).toOption
  let p ← ps.find? fun p => (Placed.paramName p).toOption == some (some name)
  let slot ← (p.need "slot").toOption
  return slot.spell

def item? (p : Placed) (name : Text) : Option Text := do
  let slot ← slot? p.spec name
  p.pieces.findSome? (dropLead? ("slot(" ++ slot ++ ")="))

def operandName (n : Nat) : Text := "num" ++ if n ≤ 1 then [] else Text.ofNat n

def operandNames : List Text := (List.range' 1 maxOperands).map operandName

/-- Run one action; none if it is no action of the machine or an item is not readable. -/
def step (commands : Spec → Option Command) (atZero : ℚ → ℚ) (σ : Store) (p : Placed) : Option Store := do
  let command ← commands p.spec
  let target ← (item? p "var").bind target?
  match command with
  | .assign =>
    let v ← (item? p "value").bind operand?
    return Function.update σ target (v.value σ)
  | .calculate op =>
    let vs ← (operandNames.filterMap (item? p)).mapM operand?
    return Function.update σ target (foldOperands atZero op (vs.map (Operand.value σ)))

/-- Run actions in order. -/
def run (commands : Spec → Option Command) (atZero : ℚ → ℚ) (ps : List Placed) (σ : Store) : Option Store :=
  ps.foldlM (step commands atZero) σ

variable {commands : Spec → Option Command} {atZero : ℚ → ℚ} {σ σ' σ'' : Store} {ps qs : List Placed}

lemma run_singleton {p : Placed} : run commands atZero [p] σ = step commands atZero σ p := by
  simp [run]

lemma run_append (h : run commands atZero ps σ = some σ') (h' : run commands atZero qs σ' = some σ'') :
    run commands atZero (ps ++ qs) σ = some σ'' := by
  rw [run, foldlM_append]
  exact Option.bind_eq_some_iff.mpr ⟨σ', h, h'⟩

/-! ### Reading tokens -/

lemma target?_var (name : Text) : target? (wrap "var" name) = some name := by
  have h := between?_append "var(" ")" name
  have hw : wrap "var" name = "var(" ++ (name ++ ")") := by simp [wrap]
  rw [target?, hw, h]

lemma target?_var_save (name : Text) : target? (wrap "var_save" name) = some name := by
  have h := between?_append "var_save(" ")" name
  have hw : wrap "var_save" name = "var_save(" ++ (name ++ ")") := by simp [wrap]
  rw [target?, hw, between?_none, h]
  simp

lemma operand?_var (name : Text) : operand? (wrap "var" name) = some (.var name) := by
  have h₁ : between? "num(%var(" ")%)" (wrap "var" name) = none := between?_none (by simp [wrap])
  have h₂ : between? "num(" ")" (wrap "var" name) = none := between?_none (by simp [wrap])
  rw [operand?, target?_var]
  rfl

def reference (name : Text) : Text := wrap "num" ("%var" ++ ("(" ++ name ++ ")") ++ "%")

lemma reference_eq (name : Text) : reference name = "num(%var(" ++ (name ++ ")%)") := by
  simp [reference, wrap]

lemma operand?_reference (name : Text) : operand? (reference name) = some (.var name) := by
  have h : between? "num(%var(" ")%)" (reference name) = some name := by
    rw [reference_eq]
    exact between?_append "num(%var(" ")%)" name
  simp only [operand?, h]

end Arithmetic

/-! ### Items in slots -/

namespace Arithmetic
variable {spec : Spec} {fs : List Param} {f g : Param} {args : List (Text × Text)}

lemma ofInt_ne_paren {k : Int} {c : Char} (h : c ∈ ofInt k) : (c != ')') = true := by
  rw [bne_iff_ne]
  rintro rfl
  exact absurd (mem_ofInt h) (by decide)

lemma ofInt_injective : Function.Injective ofInt := by
  have hhead m n : ofNat m ≠ '-' :: ofNat n := by
    intro h
    exact absurd (isDigit_ofNat (n := m) (c := '-') (by simp [h])) (by decide)
  intro i j h
  cases i with
  | ofNat m =>
    cases j with
    | ofNat n => exact congrArg Int.ofNat (ofNat_injective h)
    | negSucc n => exact absurd h (hhead m (n + 1))
  | negSucc m =>
    cases j with
    | ofNat n => exact absurd h.symm (hhead n (m + 1))
    | negSucc n => exact congrArg Int.negSucc (Nat.succ_injective (ofNat_injective (cons.inj h).2))

lemma dropLead?_piece (v : Text) :
    dropLead? ("slot(" ++ ofInt f.slot ++ ")=") (g.piece v) = if f.slot = g.slot then some v else none := by
  split
  next h =>
    have hpc : g.piece v = ("slot(" ++ ofInt f.slot ++ ")=") ++ v := by rw [Param.piece, h]
    rw [hpc, dropLead?_append]
  next h =>
    rw [dropLead?, if_neg]
    intro hlead
    obtain ⟨w, hw⟩ : _ <+: _ := by simpa [startsWith] using hlead
    have hcut : ofInt f.slot ++ (')' :: '=' :: w) = ofInt g.slot ++ (')' :: '=' :: v) := by
      have : "slot(".toList ++ (ofInt f.slot ++ (')' :: '=' :: w))
          = "slot(".toList ++ (ofInt g.slot ++ (')' :: '=' :: v)) := by
        simpa [Param.piece] using hw
      exact append_cancel_left this
    have := append_inj_of_head (p := (· != ')')) (fun c => ofInt_ne_paren) (fun c => ofInt_ne_paren)
      (by simp) (by simp) hcut
    exact h (ofInt_injective this.1)

lemma slot?_eq (h : spec.HasParams fs) (hf : f ∈ fs) : slot? spec f.name = some (ofInt f.slot) := by
  obtain ⟨ps, hps, hdesc⟩ := h.params
  have hnd := h.nodup
  have hfind : ∃ p, ps.find? (fun p => (Placed.paramName p).toOption == some (some f.name)) = some p ∧
      f.Describes p := by
    clear h hps
    induction hdesc with
    | nil => simp at hf
    | @cons g p fs ps hg _ ih =>
      rw [map_cons, nodup_cons] at hnd
      rcases mem_cons.mp hf with rfl | hf
      · exact ⟨p, by simp [hg.paramName, Except.toOption], hg⟩
      have hne : g.name ≠ f.name := fun heq => hnd.1 (heq ▸ mem_map_of_mem hf)
      obtain ⟨q, hq, hdesc⟩ := ih hf hnd.2
      exact ⟨q, by simpa [hg.paramName, Except.toOption, hne] using hq, hdesc⟩
  obtain ⟨p, hp, hdesc⟩ := hfind
  have hok : ∀ {β : Type} x, (Except.ok x : Except Fault β).toOption = some x := fun _ => rfl
  simp only [slot?, hps, hok, Option.bind_eq_bind, Option.bind_some, hp, hdesc.slot]
  rfl

lemma findSome?_pieces (hf : f ∈ fs) (hsl : (fs.map Param.slot).Nodup) :
    (fs.filterMap fun g => (get? g.name args).map g.piece).findSome?
      (dropLead? ("slot(" ++ ofInt f.slot ++ ")=")) = get? f.name args := by
  have hpc : ∀ g : Param, ((get? g.name args).map g.piece).bind (dropLead? ("slot(" ++ ofInt f.slot ++ ")="))
      = if f.slot = g.slot then get? g.name args else none := by
    intro g
    cases get? g.name args with
    | none => simp
    | some v => rw [Option.map_some, Option.bind_some, dropLead?_piece]
  rw [← head?_filterMap, filterMap_filterMap, head?_filterMap]
  induction fs with
  | nil => simp at hf
  | cons g fs ih =>
    obtain ⟨hnew, hsl⟩ := nodup_cons.mp hsl
    rw [findSome?_cons, hpc]
    rcases mem_cons.mp hf with rfl | hf
    · rw [if_pos rfl]
      cases get? f.name args with
      | some v => rfl
      | none =>
        -- no later piece has this slot
        refine findSome?_eq_none_iff.mpr fun g hg => ?_
        rw [hpc, if_neg fun heq => hnew (mem_map.mpr ⟨g, hg, heq.symm⟩)]
    rw [if_neg fun heq => hnew (mem_map.mpr ⟨f, hf, heq⟩)]
    exact ih hf hsl

lemma item?_eq (h : spec.HasParams fs) (hsl : (fs.map Param.slot).Nodup) (hf : f ∈ fs) :
    item? ⟨fs.filterMap fun g => (get? g.name args).map g.piece, spec⟩ f.name = get? f.name args := by
  simp only [item?, slot?_eq h hf]
  exact findSome?_pieces hf hsl

/-! ### Actions of a library -/

def isKey (name : Text) : Bool :=
  !name.isEmpty && Text.isPlain name && name.all fun c => !isBlank c && c != ',' && c != '=' && !Keyword.isRussian c

/-- The library has an action of the `var` module, with parameters that have these names and modes and slots of
their own. -/
structure Provides (lib : Library) (func : Text) (modes : List (Text × Mode)) (spec : Spec) : Prop where
  found : ∃ canon, lib.api.find "var" func = .ok (some (canon, spec))
  params : ∃ fs, spec.HasParams fs ∧ (fs.map Param.slot).Nodup ∧ ∀ m ∈ modes, ∃ f ∈ fs, f.name = m.1 ∧ f.kind = m.2

/-- A wrapped value that a mode takes. -/
def Fits (mode : Mode) (v : Text) : Prop :=
  ∃ head inner, v = wrap head inner ∧ Value.IsHead head ∧ keeps mode head ∧ Nesting.Inside inner ∧
    '\n' ∉ inner

/-- A wrapped value that a mode takes as the last of the arguments: it may leave something open. -/
def FitsLast (mode : Mode) (v : Text) : Prop :=
  ∃ head inner, v = wrap head inner ∧ Value.IsHead head ∧ keeps mode head ∧
    Nesting.skips ',' (Nesting.inParens 1) inner ∧ '\n' ∉ inner

section
variable {mode : Mode} {name v : Text}

lemma Fits.back (h : Fits mode v) : Nesting.top.readAll v = .top := by
  obtain ⟨head, inner, rfl, hhead, -, hins, -⟩ := h
  exact (hhead.closed_wrap hins).back

lemma Fits.last (h : Fits mode v) : FitsLast mode v := by
  obtain ⟨head, inner, rfl, hhead, hkp, hins, hln⟩ := h
  exact ⟨head, inner, rfl, hhead, hkp, (hins 1 Nat.one_pos).2 ',', hln⟩

lemma Fits.of_isPlain {head t : Text} (hhead : Value.IsHead head) (hkp : keeps mode head) (ht : isPlain t) :
    Fits mode (wrap head t) :=
  ⟨head, t, rfl, hhead, hkp, .of_isPlain ht, fun hmem => absurd (all_eq_true.mp ht '\n' hmem) (by decide)⟩

lemma FitsLast.readable (h : FitsLast mode v) (hnm : isKey name) : Arguments.Readable (name, v) := by
  obtain ⟨head, inner, rfl, hhead, -, hsk, -⟩ := h
  simp only [isKey, Bool.and_eq_true, Bool.not_eq_true', isEmpty_eq_false_iff, all_eq_true, bne_iff_ne] at hnm
  obtain ⟨⟨hne, hpl⟩, hchr⟩ := hnm
  exact ⟨hne, hpl, fun c hc => ⟨(hchr c hc).1.1.1, (hchr c hc).1.1.2, (hchr c hc).1.2⟩, by simp [wrap],
    hhead.trim_wrap, hhead.skips_wrap hsk⟩

end

lemma any_isRussian {name : Text} (h : isKey name) : name.any Keyword.isRussian = false := by
  simp only [isKey, Bool.and_eq_true, all_eq_true] at h
  simpa using fun c hc => (h.2 c hc).2

variable {lib : Library} {module func canon : Text} {modes : List (Text × Mode)}

lemma call_items (hmod : Placed.IsPlainModule module) (hfn : Text.lower (trim func) ≠ "noaction")
    (hfind : lib.api.find module func = .ok (some (canon, spec))) (hspec : spec.HasParams fs)
    (hsl : (fs.map Param.slot).Nodup) (hfs : ∀ m ∈ modes, ∃ f ∈ fs, f.name = m.1 ∧ f.kind = m.2)
    (hargs : ∀ a ∈ args, isKey a.1 ∧ ∃ mode, (a.1, mode) ∈ modes ∧ FitsLast mode a.2)
    (hback : ∀ a ∈ args.dropLast, Nesting.top.readAll a.2 = .top) (hne : args ≠ []) (hnd : (args.map (·.1)).Nodup) :
    ∃ p, (lib.call module func (args.map Arguments.written)).result = .ok p ∧ p.spec = spec ∧
      ∀ m ∈ modes, item? p m.1 = get? m.1 args := by
  have hnms : ∀ a ∈ args, a.1 ∈ fs.map Param.name := by
    intro a ha
    obtain ⟨-, mode, hmode, -⟩ := hargs a ha
    obtain ⟨f, hf, hnm, -⟩ := hfs _ hmode
    exact mem_map.mpr ⟨f, hf, hnm⟩
  have hfs_ne : fs ≠ [] := by
    obtain ⟨a, t, rfl⟩ := exists_cons_of_ne_nil hne
    rintro rfl
    simpa using hnms a (by simp)
  have hwrap : ∀ f ∈ fs, ∀ v, get? f.name args = some v → (wrapValue lib.values f.kind v).result = .ok v := by
    intro f hf v hv
    obtain ⟨-, mode, hmode, hfits⟩ := hargs (f.name, v) (Table.mem_of_get? hv)
    obtain ⟨g, hg, hnm, hkind⟩ := hfs _ hmode
    obtain rfl : g = f := inj_on_of_nodup_map hspec.nodup hg hf hnm
    obtain ⟨head, inner, rfl, hhead, hkp, -, hln⟩ := hfits
    exact result_wrapValue_wrap hhead hln (hkind ▸ hkp)
  refine ⟨_, Placed.ofCall_named hmod hspec hfs_ne (fun a ha => ?_) hback hnd hnms
    (fun a ha => any_isRussian (hargs a ha).1) hwrap hfn hfind, rfl, ?_⟩
  · obtain ⟨hnm, mode, -, hfits⟩ := hargs a ha
    exact hfits.readable hnm
  intro m hm
  obtain ⟨f, hf, hnm, -⟩ := hfs m hm
  rw [← hnm]
  exact item?_eq hspec hsl hf

-- the names that come later in the list have no value, so looking each up gives back the values
lemma filterMap_lookup_zip {names toks : List Text} (hnd : names.Nodup) (h : toks.length ≤ names.length) :
    names.filterMap (fun name => (names.zip toks).lookup name) = toks := by
  induction toks generalizing names with
  | nil => simp
  | cons tok toks ih =>
    cases names with
    | nil => simp at h
    | cons name names =>
      obtain ⟨hnew, hnd⟩ := nodup_cons.mp hnd
      have hrest : names.filterMap (fun k => ((name :: names).zip (tok :: toks)).lookup k)
          = names.filterMap (fun k => (names.zip toks).lookup k) := by
        apply filterMap_congr
        intro k hk
        have hne : (k == name) = false := beq_false_of_ne fun heq => hnew (heq ▸ hk)
        rw [zip_cons_cons, lookup_cons, hne]
      rw [filterMap_cons_some (b := tok) (by simp), hrest, ih hnd (by simpa using h)]

lemma map_fst_zip_sublist (names toks : List Text) : ((names.zip toks).map (·.1)).Sublist names := by
  induction names generalizing toks with
  | nil => simp
  | cons name names ih =>
    cases toks with
    | nil => simp
    | cons tok toks => simpa using ih toks

lemma call_zip {key target : Text} {keyMode mode : Mode} (names toks : List Text) (hmod : Placed.IsPlainModule module)
    (hfn : Text.lower (trim func) ≠ "noaction") (hfind : lib.api.find module func = .ok (some (canon, spec)))
    (hspec : spec.HasParams fs) (hsl : (fs.map Param.slot).Nodup)
    (hfs : ∀ m ∈ (key, keyMode) :: names.map (·, mode), ∃ f ∈ fs, f.name = m.1 ∧ f.kind = m.2)
    (hkeys : (key :: names).all isKey) (hnd : (key :: names).Nodup) (htgt : Fits keyMode target)
    (htoks : ∀ tok ∈ toks, Fits mode tok) (hlen : toks.length ≤ names.length) :
    ∃ p, (lib.call module func (((key, target) :: names.zip toks).map Arguments.written)).result = .ok p ∧ p.spec = spec
      ∧ item? p key = some target ∧ names.filterMap (item? p) = toks := by
  obtain ⟨hnew, hnms⟩ := nodup_cons.mp hnd
  have hkey := all_eq_true.mp hkeys
  have hargs : ∀ a ∈ (key, target) :: names.zip toks, isKey a.1 ∧
      ∃ m, (a.1, m) ∈ (key, keyMode) :: names.map (·, mode) ∧ Fits m a.2 := by
    rintro ⟨name, v⟩ ha
    rcases mem_cons.mp ha with heq | ha
    · cases heq
      exact ⟨hkey key (by simp), keyMode, by simp, htgt⟩
    obtain ⟨hnm, hv⟩ := of_mem_zip ha
    exact ⟨hkey name (by simp [hnm]), mode, by simp [hnm], htoks v hv⟩
  have hnd' : (((key, target) :: names.zip toks).map (·.1)).Nodup := by
    rw [map_cons, nodup_cons]
    have hsub := map_fst_zip_sublist names toks
    exact ⟨fun hmem => hnew (hsub.subset hmem), hnms.sublist hsub⟩
  obtain ⟨p, hp, hpspec, hit⟩ := call_items hmod hfn hfind hspec hsl hfs
    (fun a ha => (hargs a ha).imp_right fun ⟨m, hm, hfits⟩ => ⟨m, hm, hfits.last⟩)
    (fun a ha => (hargs a (dropLast_subset _ ha)).2.choose_spec.2.back) (by simp) hnd'
  refine ⟨p, hp, hpspec, ?_, ?_⟩
  · simpa [get?] using hit (key, keyMode) (by simp)
  refine Eq.trans (filterMap_congr fun name hnm => ?_) (filterMap_lookup_zip hnms hlen)
  have hne : (name == key) = false := beq_false_of_ne fun heq => hnew (heq ▸ hnm)
  rw [hit (name, mode) (by simp [hnm]), get?, lookup_cons, hne]

lemma numbered_eq_zip (args : Nat → List Text → List Text) (name : Nat → Text) (hnil : ∀ n, args n [] = [])
    (hcons : ∀ n v vs, args n (v :: vs) = Arguments.written (name n, v) :: args (n + 1) vs) (n : Nat) {m : Nat}
    {vs : List Text} (h : vs.length ≤ m) : args n vs = (((List.range' n m).map name).zip vs).map Arguments.written := by
  induction vs generalizing n m with
  | nil => simp [hnil]
  | cons v vs ih =>
    cases m with
    | zero => simp at h
    | succ m => rw [hcons, ih (n + 1) (by simpa using h), range'_succ, map_cons, zip_cons_cons, map_cons]

end Arithmetic
end BlockScript
