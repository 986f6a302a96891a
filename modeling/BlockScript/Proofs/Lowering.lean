import BlockScript.Proofs.Calculator

/-!
# Arithmetic keeps its meaning

The actions that a formula is compiled to leave the value of the formula in the target (`run_compile_eq_eval`). The
proof goes through what the three uses of a formula promise: a token or a list of tokens that have the right value after
the actions emitted so far. Variables for parts are never reused, and those that gather operands are read right after
they are written, so nothing that is still needed is overwritten.
-/

open List Option Function
namespace BlockScript
open Value Text
open Formula (value? valueToken)
open Script (Compile)
open Script.Compile (result_bind result_pure)

/-! ### Parts of formulas -/

namespace Formula

/-- The numbers, variables and other expressions that a formula is built from. -/
def leaves : Formula → List Formula
  | .sign _ a => a.leaves
  | .bin _ a b => a.leaves ++ b.leaves
  | f => [f]

def parts : Formula → List Formula
  | .sign s a => .sign s a :: a.parts
  | .bin op a b => .bin op a b :: (a.parts ++ b.parts)
  | f => [f]

def isConstant : Formula → Bool
  | .var _ => false
  | .sign _ a => a.isConstant
  | .bin _ a b => a.isConstant && b.isConstant
  | _ => true

def divides : Formula → Bool
  | .sign _ a => a.divides
  | .bin op a b => op == .div || a.divides || b.divides
  | _ => false

end Formula
namespace Arithmetic
variable {lib : Library} {commands : Spec → Option Command} {atZero : ℚ → ℚ} {σ σ' σ'' : Store} {target t : Text}
  {toks : List Text} {os : List Operand} {op : BinOp} {o : Operand} {tok : Text} {n lo hi : Nat}

/-! ### Emitting one action -/

/-- The library has the actions that set a value and carry out the four operations, and the machine knows them. -/
structure Calculates (lib : Library) (commands : Spec → Option Command) : Prop where
  assign : ∃ mode spec, (mode = .any ∨ mode = .number) ∧
    Provides lib "set_value" [("var", .variable), ("value", mode)] spec ∧ commands spec = some .assign
  calculate : ∀ op, ∃ spec,
    Provides lib (actionName op) (("var", .variable) :: operandNames.map fun name => (name, .number)) spec ∧
      commands spec = some (.calculate op)

/-- The token names the variable that is to be set. -/
def IsTarget (target t : Text) : Prop :=
  (target = wrap "var" t ∨ target = wrap "var_save" t) ∧ isPlain t

lemma notMem_of_plain (h : isPlain t) : '\n' ∉ t := fun hmem =>
  absurd (List.all_eq_true.mp h '\n' hmem) (by decide)

namespace IsTarget

lemma fits (h : IsTarget target t) : Fits .variable target := by
  obtain ⟨rfl | rfl, ht⟩ := h
  · exact .of_isPlain isHead_var rfl ht
  · exact .of_isPlain isHead_var_save rfl ht

lemma target?_eq (h : IsTarget target t) : target? target = some t := by
  obtain ⟨rfl | rfl, -⟩ := h
  · exact target?_var t
  · exact target?_var_save t

lemma var (ht : isPlain t) : IsTarget (wrap "var" t) t := ⟨.inl rfl, ht⟩

end IsTarget

structure Spells (tok : Text) (o : Operand) : Prop where
  fits : Fits .number tok
  operand : operand? tok = some o

namespace Spells

lemma var (ht : isPlain t) : Spells (wrap "var" t) (.var t) :=
  ⟨.of_isPlain isHead_var rfl ht, operand?_var t⟩

lemma reference (ht : isPlain t) : Spells (reference t) (.var t) := by
  refine ⟨⟨"num", "%var" ++ ("(" ++ t ++ ")") ++ "%", rfl, isHead_num,
    rfl, ?_, by simpa using notMem_of_plain ht⟩, operand?_reference t⟩
  exact ((Nesting.Inside.of_isPlain rfl).append (Nesting.Inside.of_isPlain ht).parens).append
    (.of_isPlain rfl)

lemma num {k : Int} (hk : k.natAbs < 2 ^ 53) : Spells (wrap "num" (ofInt k)) (.num k) := by
  refine ⟨.of_isPlain isHead_num rfl (isPlain_ofInt k), ?_⟩
  have h₁ : between? "num(%var(" ")%)" (wrap "num" (ofInt k)) = none := by
    apply between?_none
    intro hpre
    have hrest : "%var(".toList <+: ofInt k ++ [')'] := by simpa [wrap] using hpre
    cases hk : ofInt k with
    | nil => simp [hk] at hrest
    | cons c u =>
      obtain ⟨w, hw⟩ := hrest
      obtain rfl : '%' = c := by simpa [hk] using congrArg List.head? hw
      exact absurd (mem_ofInt (k := k) (c := '%') (by simp [hk])) (by decide)
  have h₂ : between? "num(" ")" (wrap "num" (ofInt k)) = some (ofInt k) := by
    have hcut : wrap "num" (ofInt k) = "num(" ++ (ofInt k ++ ")") := by simp [wrap]
    rw [hcut]
    exact between?_append "num(" ")" _
  simp only [operand?, h₁, h₂, toInt?_ofInt (length_ofNat hk), map_some]

end Spells

lemma Spells.fits_of_mem (hops : Forall₂ Spells toks os) : ∀ tok ∈ toks, Fits .number tok := by
  induction hops with
  | nil => simp
  | cons h _ ih => simpa using ⟨h.fits, ih⟩

lemma Spells.mapM_operand? (hops : Forall₂ Spells toks os) : toks.mapM operand? = some os := by
  induction hops with
  | nil => rfl
  | cons h _ ih => simp [h.operand, ih]

lemma emit_step (atZero : ℚ → ℚ) (hl : Calculates lib commands) (op : BinOp) (ht : IsTarget target t)
    (hops : Forall₂ Spells toks os) (hlen : toks.length ≤ maxOperands) : ∃ p, (emit lib op target toks).result = .ok p ∧
      ∀ σ, step commands atZero σ p
        = some (Function.update σ t (foldOperands atZero op (os.map (Operand.value σ)))) := by
  obtain ⟨spec, hspec, hcmd⟩ := hl.calculate op
  obtain ⟨canon, hfind⟩ := hspec.found
  obtain ⟨fs, hpar, hsl, hfs⟩ := hspec.params
  have hfn : Text.lower (trim (actionName op)) ≠ "noaction" := by cases op <;> decide
  obtain ⟨p, hp, rfl, htgt, hopds⟩ := call_zip _ _ Placed.isPlainModule_var hfn hfind hpar hsl hfs rfl
    (by decide) ht.fits (Spells.fits_of_mem hops) (by simpa [operandNames] using hlen)
  refine ⟨p, ?_, fun σ => ?_⟩
  · rw [emit, numbered_eq_zip operandArgs operandName (fun _ => rfl) (fun _ _ _ => rfl) 1 hlen]
    exact hp
  simp only [step, hcmd, htgt, ht.target?_eq, hopds, Spells.mapM_operand? hops, bind_eq_bind, bind_some]
  rfl

lemma setValue_step (atZero : ℚ → ℚ) (hl : Calculates lib commands) (ht : IsTarget target t) (ho : Spells tok o) :
    ∃ p, (lib.setValue target tok).result = .ok p ∧
      ∀ σ, step commands atZero σ p = some (Function.update σ t (o.value σ)) := by
  obtain ⟨mode, spec, hmode, hspec, hcmd⟩ := hl.assign
  obtain ⟨canon, hfind⟩ := hspec.found
  obtain ⟨fs, hpar, hsl, hfs⟩ := hspec.params
  have hfits : Fits mode tok := by
    obtain ⟨head, inner, rfl, hhead, hkeeps, hins, hln⟩ := ho.fits
    refine ⟨head, inner, rfl, hhead, ?_, hins, hln⟩
    rcases hmode with rfl | rfl
    · exact keeps_any_of_number hkeeps
    · exact hkeeps
  obtain ⟨p, hp, rfl, htgt, hit⟩ := call_zip ["value"] [tok] Placed.isPlainModule_var
    (by decide) hfind hpar hsl hfs (by decide) (by decide) ht.fits (by simpa using hfits) (by simp)
  refine ⟨p, hp, fun σ => ?_⟩
  have hvl : item? p "value" = some tok := by
    obtain ⟨_, hmem, hitem⟩ := mem_filterMap.mp (hit ▸ mem_singleton_self tok)
    exact mem_singleton.mp hmem ▸ hitem
  simp only [step, hcmd, htgt, hvl, ht.target?_eq, ho.operand, bind_some]
  rfl

/-! ### Names of variables for parts -/

def partName (n : Nat) : Text := "__mlcc_tmp" ++ ofNat n

def accName (n : Nat) : Text := "__mlcc_acc" ++ ofNat n

lemma partName_eq (n : Nat) : partName n = "__mlcc_tmp" ++ ofNat n := rfl

lemma accName_eq (n : Nat) : accName n = "__mlcc_acc" ++ ofNat n := rfl

/-- The name begins like those of the variables for parts. -/
def isReserved (name : Text) : Bool := Text.startsWith name "__mlcc_"

lemma isPlain_partName (n : Nat) : isPlain (partName n) := by
  rw [partName_eq, isPlain_append, isPlain_ofNat]
  decide

lemma isPlain_accName (n : Nat) : isPlain (accName n) := by
  rw [accName_eq, isPlain_append, isPlain_ofNat]
  decide

lemma isReserved_partName (n : Nat) : isReserved (partName n) := by simp [isReserved, partName_eq, startsWith]

lemma isReserved_accName (n : Nat) : isReserved (accName n) := by simp [isReserved, accName_eq, startsWith]

lemma partName_injective : Function.Injective partName := fun _ _ h =>
  ofNat_injective (append_cancel_left h)

lemma accName_injective : Function.Injective accName := fun _ _ h =>
  ofNat_injective (append_cancel_left h)

lemma partName_ne_accName (m n : Nat) : partName m ≠ accName n := by simp [partName_eq, accName_eq]

/-! ### Emitting any number of operands -/

lemma foldOperands_append {xs ys : List ℚ} (hne : xs ≠ []) :
    foldOperands atZero op (xs ++ ys) = foldOperands atZero op (foldOperands atZero op xs :: ys) := by
  obtain ⟨x, xs, rfl⟩ := exists_cons_of_ne_nil hne
  simp [foldOperands]

lemma Operand.value_update {x : Text} {v : ℚ} (h : o ≠ .var x) : o.value (Function.update σ x v) = o.value σ := by
  cases o with
  | num k => rfl
  | var name => exact update_of_ne (fun heq => h (congrArg Operand.var heq)) v σ

/-- The actions set the target to the value. Of the other variables only those change in which operands are
gathered, and parts with the given numbers. -/
def Sets (commands : Spec → Option Command) (atZero : ℚ → ℚ) (ps : List Placed) (t : Text) (lo hi : Nat)
    (value : Store → ℚ) : Prop :=
  ∀ σ, ∃ σ', run commands atZero ps σ = some σ' ∧ σ' t = value σ ∧
    ∀ x, x ≠ t → (∀ m, x ≠ accName m) → (∀ m, lo < m → m ≤ hi → x ≠ partName m) → σ' x = σ x

lemma emit_sets (atZero : ℚ → ℚ) (hl : Calculates lib commands) (op : BinOp) (ht : IsTarget target t)
    (hops : Forall₂ Spells toks os) (hlen : toks.length ≤ maxOperands) : ∃ p, (emit lib op target toks).result = .ok p ∧
      Sets commands atZero [p] t 0 0 fun σ => foldOperands atZero op (os.map (Operand.value σ)) := by
  obtain ⟨p, hp, hstep⟩ := emit_step atZero hl op ht hops hlen
  exact ⟨p, hp, fun σ => ⟨_, by rw [run_singleton, hstep], by simp, fun x hx _ _ => by simp [hx]⟩⟩

lemma emitAll_sets (atZero : ℚ → ℚ) (hl : Calculates lib commands) (op : BinOp) (ht : IsTarget target t) (fuel : Nat)
    (hops : Forall₂ Spells toks os) (hfuel : toks.length ≤ 10 + 9 * fuel)
    (hacc : ∀ o ∈ os, ∀ m, n ≤ m → o ≠ .var (accName m)) : ∃ ps, (emitAll lib op target fuel n toks).result = .ok ps ∧
      Sets commands atZero ps t 0 0 fun σ => foldOperands atZero op (os.map (Operand.value σ)) := by
  induction fuel generalizing n toks os with
  | zero =>
    obtain ⟨p, hp, hsets⟩ := emit_sets atZero hl op ht hops hfuel
    exact ⟨[p], by simp [emitAll, result_bind, hp, Except.bind], hsets⟩
  | succ fuel ih =>
    rw [emitAll]
    split
    next hlen =>
      obtain ⟨p, hp, hsets⟩ := emit_sets atZero hl op ht hops hlen
      exact ⟨[p], by simp [result_bind, hp, Except.bind], hsets⟩
    next hlen =>
      have hlen' : toks.length = os.length := hops.length_eq
      obtain ⟨p, hp, hstep⟩ := emit_step atZero hl op (.var (isPlain_accName n))
        (forall₂_take maxOperands hops) (by simp)
      have hrest : Forall₂ Spells (reference (accName n) :: toks.drop maxOperands)
          (.var (accName n) :: os.drop maxOperands) :=
        .cons (.reference (isPlain_accName n)) (forall₂_drop maxOperands hops)
      have hacc' : ∀ o ∈ .var (accName n) :: os.drop maxOperands, ∀ m, n + 1 ≤ m → o ≠ .var (accName m) := by
        intro o ho m hm
        rcases mem_cons.mp ho with rfl | ho
        · intro heq
          have := accName_injective (Operand.var.inj heq)
          omega
        · exact hacc o (mem_of_mem_drop ho) m (by omega)
      obtain ⟨ps, hps, hsets⟩ := ih hrest (by simp [maxOperands]; omega) hacc'
      have htok : "num(%var(" ++ ("__mlcc_acc" ++ ofNat n) ++ ")%)" = reference (accName n) := by
        rw [reference_eq, accName_eq, append_assoc]
      refine ⟨p :: ps, ?_, fun σ => ?_⟩
      · rw [accName_eq] at hp
        simp only [htok]
        simp only [result_bind, hp, hps, Except.bind, result_pure]
      -- the gathered operands have their value where the next action reads them
      obtain ⟨σ', hrun, hval, hkp⟩ := hsets (Function.update σ (accName n)
        (foldOperands atZero op ((os.take maxOperands).map (Operand.value σ))))
      refine ⟨σ', ?_, ?_, ?_⟩
      · exact run_append (run_singleton.trans (hstep σ)) hrun
      · have hdrop : (os.drop maxOperands).map (Operand.value (Function.update σ (accName n)
            (foldOperands atZero op ((os.take maxOperands).map (Operand.value σ)))))
            = (os.drop maxOperands).map (Operand.value σ) := by
          apply map_congr_left
          intro o ho
          exact Operand.value_update (hacc o (mem_of_mem_drop ho) n (Nat.le_refl n))
        have htake : (os.take maxOperands).map (Operand.value σ) ≠ [] := by
          rw [ne_eq, map_eq_nil_iff, take_eq_nil_iff, not_or]
          refine ⟨by decide, ?_⟩
          rintro rfl
          rw [length_nil] at hlen'
          omega
        rw [hval]
        beta_reduce
        rw [map_cons, hdrop, Operand.value, update_self, ← foldOperands_append htake, ← map_append, take_append_drop]
      intro x hx hxacc hxpart
      rw [hkp x hx hxacc hxpart, update_of_ne (hxacc n)]

/-! ### Values of formulas -/

/-- The value of a finite number; the others have none and count as zero. -/
def ofBinary : Binary64 → ℚ
  | .finite neg m e => (if neg then -1 else 1) * m * 2 ^ e
  | _ => 0

/-- The value of a formula in a store. A part that is not arithmetic has none and counts as zero. -/
def eval (atZero : ℚ → ℚ) (names : Formula.Names) (σ : Store) : Formula → ℚ
  | .int n => n
  | .real x => ofBinary x
  | .truth b => if b then 1 else 0
  | .var name => σ (names.resolve name)
  | .sign .plus a => eval atZero names σ a
  | .sign .minus a => -eval atZero names σ a
  | .bin op a b => operate atZero op (eval atZero names σ a) (eval atZero names σ b)
  | .other => 0

variable {names : Formula.Names} {f a b : Formula}

/-- The number or variable may stand in a formula: an integer, or a variable whose name is plain and not reserved. -/
def isSourceLeaf (names : Formula.Names) : Formula → Bool
  | .int _ => true
  | .var x => isPlain (names.resolve x) && !isReserved (names.resolve x)
  | _ => false

/-- The formulas whose meaning the compiler keeps: they are built from integers and variables that are not reserved,
and their constant parts are computed without division and without leaving the integers of 53 bits. -/
structure Exact (atZero : ℚ → ℚ) (names : Formula.Names) (f : Formula) : Prop where
  leaves : ∀ l ∈ f.leaves, isSourceLeaf names l
  constants : ∀ g ∈ f.parts, g.isConstant → g.divides = false ∧ ∀ σ, |eval atZero names σ g| < 2 ^ 53

namespace Exact

lemma of_var {x : Text} (h : Exact atZero names f) (hf : f = .var x) :
    isPlain (names.resolve x) ∧ isReserved (names.resolve x) = false := by
  subst hf
  simpa [isSourceLeaf] using h.leaves (.var x) (by simp [Formula.leaves])

lemma sign {s : Sign} (h : Exact atZero names (.sign s a)) : Exact atZero names a :=
  ⟨h.leaves, fun g hg => h.constants g (mem_cons_of_mem _ hg)⟩

lemma left (h : Exact atZero names (.bin op a b)) : Exact atZero names a :=
  ⟨fun l hl => h.leaves l (mem_append_left _ hl),
    fun g hg => h.constants g (mem_cons_of_mem _ (mem_append_left _ hg))⟩

lemma right (h : Exact atZero names (.bin op a b)) : Exact atZero names b :=
  ⟨fun l hl => h.leaves l (mem_append_right _ hl),
    fun g hg => h.constants g (mem_cons_of_mem _ (mem_append_right _ hg))⟩

end Exact

lemma value?_of_not_constant (h : f.isConstant = false) : f.value? = none := by
  induction f with
  | var name => rfl
  | sign s a ih => simp [value?, ih h]
  | bin op a b iha ihb =>
    rw [Formula.isConstant, Bool.and_eq_false_iff] at h
    rcases h with h | h
    · simp [value?, iha h]
    · cases ha : a.value? <;> simp [value?, ihb h]
  | _ => simp [Formula.isConstant] at h

lemma mem_parts_self (f : Formula) : f ∈ f.parts := by cases f <;> simp [Formula.parts]

lemma Exact.natAbs_lt {k : Int} (h : Exact atZero names f) (hc : f.isConstant)
    (hk : ∀ σ, eval atZero names σ f = k) : k.natAbs < 2 ^ 53 := by
  have hlt := (h.constants f (mem_parts_self f) hc).2 fun _ => 0
  rw [hk, ← Int.cast_abs, Int.abs_eq_natAbs] at hlt
  exact_mod_cast hlt

lemma value?_of_constant (h : Exact atZero names f) (hc : f.isConstant) :
    ∃ x k, f.value? = some x ∧ x.IsInteger k ∧ ∀ σ, eval atZero names σ f = k := by
  induction f with
  | int n =>
    have hk : ∀ σ, eval atZero names σ (.int n) = n := fun _ => by simp [eval]
    obtain ⟨x, hx, hint⟩ := Binary64.ofInt?_isInteger (h.natAbs_lt hc hk)
    exact ⟨x, n, hx, hint, hk⟩
  | sign s a ih =>
    obtain ⟨x, k, hx, hint, hk⟩ := ih h.sign hc
    cases s with
    | plus => exact ⟨x, k, by simp [value?, hx, Formula.Sign.apply], hint, hk⟩
    | minus =>
      exact ⟨x.neg, -k, by simp [value?, hx, Formula.Sign.apply], hint.neg, fun σ => by simp [eval, hk]⟩
  | bin op a b iha ihb =>
    obtain ⟨hca, hcb⟩ : a.isConstant ∧ b.isConstant := by simpa [Formula.isConstant] using hc
    obtain ⟨x, i, hx, hxi, hi⟩ := iha h.left hca
    obtain ⟨y, j, hy, hyj, hj⟩ := ihb h.right hcb
    obtain ⟨z, k, hz, hk, hint⟩ : ∃ z k, Formula.BinOp.apply? op x y = some z ∧ operate atZero op i j = (k : Int)
        ∧ (k.natAbs < 2 ^ 53 → z.IsInteger k) := by
      cases op with
      | add => exact ⟨x.add y, i + j, rfl, by simp [operate], hxi.add hyj⟩
      | sub => exact ⟨x.sub y, i - j, rfl, by simp [operate], hxi.sub hyj⟩
      | mul => exact ⟨x.mul y, i * j, rfl, by simp [operate], hxi.mul hyj⟩
      | div => exact absurd (h.constants _ (mem_parts_self _) hc).1 (by simp [Formula.divides])
    have heval : ∀ σ, eval atZero names σ (.bin op a b) = k := fun σ => by rw [eval, hi, hj, hk]
    exact ⟨z, k, by simp [value?, hx, hy, hz], hint (h.natAbs_lt hc heval), heval⟩
  | var name => simp [Formula.isConstant] at hc
  | real | truth | other => exact absurd (h.leaves _ (mem_singleton_self _)) (by simp [isSourceLeaf])

lemma eval_congr (h : Exact atZero names f) (hσ : ∀ x, isReserved x = false → σ' x = σ x) :
    eval atZero names σ' f = eval atZero names σ f := by
  induction f with
  | var name =>
    exact hσ _ (h.of_var rfl).2
  | sign s a ih => cases s <;> simp [eval, ih h.sign]
  | bin op a b iha ihb => simp [eval, iha h.left, ihb h.right]
  | _ => rfl

/-! ### Steps of lowering -/

section Yields
variable {α β : Type} {x : Lower α} {v : α} {mid : Nat} {ps qs : List Placed}

/-- With `lo` parts in use, the step gives `v`, has `hi` parts in use behind it, and adds the actions. -/
def Yields (x : Lower α) (lo : Nat) (v : α) (hi : Nat) (ps : List Placed) : Prop :=
  lo ≤ hi ∧ ∀ acts, (x.run ⟨lo, acts⟩).result = .ok (v, ⟨hi, acts ++ ps⟩)

lemma yields_pure (v : α) : Yields (pure v) lo v lo [] :=
  ⟨Nat.le_refl _, fun acts => by rw [append_nil]; rfl⟩

lemma Yields.bind {w : β} {k : α → Lower β} (h : Yields x lo v mid ps) (h' : Yields (k v) mid w hi qs) :
    Yields (x >>= k) lo w hi (ps ++ qs) := by
  refine ⟨h.1.trans h'.1, fun acts => ?_⟩
  rw [StateT.run_bind, result_bind, h.2 acts]
  simpa [Except.bind] using h'.2 (acts ++ ps)

lemma yields_liftM {y : Compile α} (h : y.result = .ok v) : Yields (liftM y : Lower α) lo v lo [] := by
  refine ⟨Nat.le_refl _, fun acts => ?_⟩
  change (y >>= fun a => pure (a, _)).result = _
  rw [result_bind, h]
  simp [Except.bind]

lemma yields_data {y : Except Fault α} (h : y = .ok v) : Yields (liftM y : Lower α) lo v lo [] := by
  subst h
  exact yields_liftM rfl

lemma yields_push (ps : List Placed) : Yields (push ps) lo () lo ps := ⟨Nat.le_refl _, fun _ => rfl⟩

lemma yields_freshPart : Yields freshPart lo (partName (lo + 1)) (lo + 1) [] :=
  ⟨Nat.le_succ _, fun acts => by rw [append_nil]; rfl⟩

end Yields

/-! ### What the uses of a formula promise -/

/-- Between two stores only variables in which operands are gathered and parts with the given numbers differ. -/
def Keeps (lo hi : Nat) (σ σ' : Store) : Prop :=
  ∀ x, (∀ m, x ≠ accName m) → (∀ m, lo < m → m ≤ hi → x ≠ partName m) → σ' x = σ x

/-- The operand reads no variable but those of the source and parts with the given numbers. -/
def Operand.Within (lo hi : Nat) (o : Operand) : Prop :=
  ∀ x, o = .var x → isReserved x = false ∨ ∃ m, lo < m ∧ m ≤ hi ∧ x = partName m

variable (commands atZero) in
/-- The step gives a token that has the value after the actions it adds. -/
def GivesOperand (x : Lower Text) (value : Store → ℚ) : Prop :=
  ∀ lo, ∃ tok o hi ps, Yields x lo tok hi ps ∧ Spells tok o ∧ o.Within lo hi ∧
    ∀ σ, ∃ σ', run commands atZero ps σ = some σ' ∧ Keeps lo hi σ σ' ∧ o.value σ' = value σ

variable (commands atZero) in
/-- The step gives tokens whose fold has the value after the actions it adds. -/
def GivesOperands (x : Lower (List Text)) (op : BinOp) (value : Store → ℚ) : Prop :=
  ∀ lo, ∃ toks os hi ps, Yields x lo toks hi ps ∧ Forall₂ Spells toks os ∧ os ≠ [] ∧
    (∀ o ∈ os, o.Within lo hi) ∧ ∀ σ, ∃ σ', run commands atZero ps σ = some σ' ∧ Keeps lo hi σ σ' ∧
      foldOperands atZero op (os.map (Operand.value σ')) = value σ

variable (commands atZero) in
/-- The step adds actions that set a variable to the value. -/
def SetsTarget (x : Text → Lower Unit) (value : Store → ℚ) : Prop :=
  ∀ {target t}, IsTarget target t → ∀ lo, ∃ hi ps, Yields (x target) lo () hi ps ∧ Sets commands atZero ps t lo hi value

variable (commands atZero) in
/-- All three uses of a formula with this value are right. -/
structure Correct (l : Lowered) (value : Store → ℚ) : Prop where
  into : SetsTarget commands atZero l.into value
  operand : GivesOperand commands atZero l.operand value
  operands : ∀ op, GivesOperands commands atZero (l.operands op) op value

variable {value value' : Store → ℚ} {into : Text → Lower Unit} {x : Lower Text} {xs : Lower (List Text)} {mid : Nat}
  {flat : BinOp → Option (Lower (List Text))}

lemma ne_accName_of_not_reserved {x : Text} (h : isReserved x = false) (m : Nat) : x ≠ accName m := by
  rintro rfl
  simp [isReserved_accName] at h

lemma ne_partName {x : Text} (h : isReserved x = false) (m : Nat) : x ≠ partName m := by
  rintro rfl
  simp [isReserved_partName] at h

namespace Keeps

lemma of_not_isReserved (h : Keeps lo hi σ σ') {x : Text} (hx : isReserved x = false) : σ' x = σ x :=
  h x (ne_accName_of_not_reserved hx) fun m _ _ => ne_partName hx m

lemma trans (h : Keeps lo mid σ σ') (h' : Keeps mid hi σ' σ'') (hlm : lo ≤ mid) (hmh : mid ≤ hi) :
    Keeps lo hi σ σ'' := by
  intro x hacc hpart
  rw [h' x hacc fun m h₁ h₂ => hpart m (by omega) h₂, h x hacc fun m h₁ h₂ => hpart m h₁ (by omega)]

end Keeps
namespace Operand

lemma Within.mono {lo' hi' : Nat} (h : o.Within lo hi) (hlo : lo' ≤ lo) (hhi : hi ≤ hi') : o.Within lo' hi' := by
  intro x hx
  rcases h x hx with hfree | ⟨m, h₁, h₂, rfl⟩
  · exact .inl hfree
  · exact .inr ⟨m, by omega, by omega, rfl⟩

lemma Within.ne_accName (h : o.Within lo hi) (m : Nat) : o ≠ .var (accName m) := by
  intro heq
  rcases h _ heq with hfree | ⟨k, -, -, hk⟩
  · simp [isReserved_accName] at hfree
  · exact partName_ne_accName k m hk.symm

lemma Within.value_eq (h : o.Within lo mid) (hkp : Keeps mid hi σ σ') : o.value σ' = o.value σ := by
  cases o with
  | num k => rfl
  | var x =>
    refine hkp x (fun m heq => h.ne_accName m (congrArg Operand.var heq)) fun m h₁ h₂ => ?_
    rcases h x rfl with hfree | ⟨k, -, hk, rfl⟩
    · exact ne_partName hfree m
    intro heq
    have := partName_injective heq
    omega

end Operand

lemma givesOperand_part (h : SetsTarget commands atZero into value) :
    GivesOperand commands atZero (part into) value := by
  intro lo
  obtain ⟨hi, ps, hyld, hsets⟩ := h (.var (isPlain_partName (lo + 1))) (lo + 1)
  have hle : lo + 1 ≤ hi := hyld.1
  refine ⟨_, _, hi, ps, ?_, .var (isPlain_partName (lo + 1)), ?_, fun σ => ?_⟩
  · have hpart : Yields (part into) lo _ hi ([] ++ (ps ++ [])) :=
      yields_freshPart.bind (hyld.bind (yields_pure (wrap "var" (partName (lo + 1)))))
    rwa [nil_append, append_nil] at hpart
  · rintro x ⟨⟩
    exact .inr ⟨lo + 1, by omega, hle, rfl⟩
  obtain ⟨σ', hrun, hval, hkp⟩ := hsets σ
  refine ⟨σ', hrun, fun x hacc hpart => ?_, hval⟩
  exact hkp x (hpart (lo + 1) (by omega) hle) hacc fun m h₁ h₂ => hpart m (by omega) h₂

lemma setsTarget_assign (hl : Calculates lib commands) (h : GivesOperand commands atZero x value) :
    SetsTarget commands atZero (assign lib x) value := by
  intro target t ht lo
  obtain ⟨tok, o, hi, ps, hyld, hspl, -, hval⟩ := h lo
  obtain ⟨p, hp, hstep⟩ := setValue_step atZero hl ht hspl
  refine ⟨hi, ps ++ [p], ?_, fun σ => ?_⟩
  · exact hyld.bind ((yields_liftM hp).bind (yields_push [p]))
  obtain ⟨σ', hrun, hkp, hvl⟩ := hval σ
  refine ⟨_, run_append hrun (by rw [run_singleton, hstep]), by simp [hvl], fun x hx hacc hpart => ?_⟩
  rw [update_of_ne hx, hkp x hacc hpart]

lemma yields_single {ps : List Placed} (h : Yields x lo tok hi ps) : Yields (do return [← x]) lo [tok] hi ps := by
  have hlist : Yields (do return [← x]) lo [tok] hi (ps ++ []) := h.bind (yields_pure [tok])
  rwa [append_nil] at hlist

lemma givesOperands_single (op : BinOp) (h : GivesOperand commands atZero x value) :
    GivesOperands commands atZero (do return [← x]) op value := by
  intro lo
  obtain ⟨tok, o, hi, ps, hyld, hspl, hwith, hval⟩ := h lo
  exact ⟨[tok], [o], hi, ps, yields_single hyld, .cons hspl .nil, by simp, by simpa using hwith, hval⟩

/-- A formula is used rightly if it is computed, stands for itself and gives its operands rightly. -/
lemma correct_uses (hinto : SetsTarget commands atZero into value) (hopd : GivesOperand commands atZero x value)
    (hflat : ∀ op l, flat op = some l → GivesOperands commands atZero l op value) :
    Correct commands atZero (uses into x flat) value where
  into := hinto
  operand := hopd
  operands op := by
    change GivesOperands commands atZero ((flat op).getD _) op value
    cases hf : flat op with
    | none => exact givesOperands_single op hopd
    | some l => exact hflat op l hf

lemma givesOperand_number {v : Binary64} {k : Int} (hv : v.IsInteger k) (hk : k.natAbs < 2 ^ 53) :
    GivesOperand commands atZero (liftM (valueToken v)) fun _ => k := by
  have htok : valueToken v = .ok (wrap "num" (ofInt k)) := by
    rw [valueToken, hv.valueText hk]
    rfl
  intro lo
  refine ⟨_, .num k, lo, [], yields_data htok, .num hk, ?_, fun σ => ⟨σ, rfl, fun _ _ _ => rfl, rfl⟩⟩
  rintro x ⟨⟩

lemma givesOperand_variable (ht : isPlain t) (hfree : isReserved t = false) :
    GivesOperand commands atZero (pure (wrap "var" t)) fun σ => σ t := by
  intro lo
  refine ⟨_, .var t, lo, [], yields_pure _, .var ht, ?_, fun σ => ⟨σ, rfl, fun _ _ _ => rfl, rfl⟩⟩
  rintro x ⟨⟩
  exact .inl hfree

lemma setsTarget_operands (hl : Calculates lib commands) (h : GivesOperands commands atZero xs op value) :
    SetsTarget commands atZero (fun target => do
      let ops ← xs
      push (← emitAll lib op target ops.length 1 ops)) value := by
  intro target t ht lo
  obtain ⟨toks, os, hi, ps, hyld, hspl, -, hwith, hval⟩ := h lo
  obtain ⟨qs, hqs, hsets⟩ := emitAll_sets atZero hl op ht toks.length hspl (by omega)
    fun o ho m _ => (hwith o ho).ne_accName m
  refine ⟨hi, ps ++ qs, ?_, fun σ => ?_⟩
  · exact hyld.bind ((yields_liftM hqs).bind (yields_push qs))
  obtain ⟨σ', hrun, hkp, hvl⟩ := hval σ
  obtain ⟨σ'', hrun', hvl', hkp'⟩ := hsets σ'
  refine ⟨σ'', run_append hrun hrun', hvl'.trans hvl, fun x hx hacc hpart => ?_⟩
  rw [hkp' x hx hacc fun m h₁ h₂ => by omega, hkp x hacc hpart]

lemma setsTarget_negated (hl : Calculates lib commands) (h : GivesOperand commands atZero x value) :
    SetsTarget commands atZero (fun target => do push (← emitAll lib .mul target 1 1 [← x, "num(-1)"]))
      fun σ => -value σ := by
  intro target t ht lo
  obtain ⟨tok, o, hi, ps, hyld, hspl, hwith, hval⟩ := h lo
  have hminus : Spells "num(-1)" (.num (-1)) := by
    have htok : "num(-1)" = wrap "num" (ofInt (-1)) := by decide
    rw [htok]
    exact .num (by decide)
  have hspell' : Forall₂ Spells [tok, "num(-1)"] [o, .num (-1)] := .cons hspl (.cons hminus .nil)
  have hacc : ∀ o' ∈ [o, .num (-1)], ∀ m, 1 ≤ m → o' ≠ .var (accName m) := by
    simp only [mem_cons, not_mem_nil, or_false, forall_eq_or_imp, forall_eq]
    exact ⟨fun m _ => hwith.ne_accName m, fun m _ => by simp⟩
  obtain ⟨qs, hqs, hsets⟩ := emitAll_sets atZero hl .mul ht 1 hspell' (by simp) hacc
  refine ⟨hi, ps ++ qs, hyld.bind ((yields_liftM hqs).bind (yields_push qs)), fun σ => ?_⟩
  obtain ⟨σ', hrun, hkp, hvl⟩ := hval σ
  obtain ⟨σ'', hrun', hvl', hkp'⟩ := hsets σ'
  refine ⟨σ'', run_append hrun hrun', ?_, fun x hx hacc hpart => ?_⟩
  · have hproduct : foldOperands atZero .mul ([o, .num (-1)].map (Operand.value σ')) = -(o.value σ') := by
      have hone : (Operand.num (-1)).value σ' = -1 := by simp [Operand.value]
      simp [foldOperands, operate, hone]
    exact hvl'.trans (hproduct.trans (congrArg Neg.neg hvl))
  · rw [hkp' x hx hacc fun m h₁ h₂ => by omega, hkp x hacc hpart]

/-! ### Operands of both sides -/

variable (commands atZero) in
/-- The step gives tokens that extend a list of operands by a side with the value. -/
def Extends (x : Lower (List Text)) (op : BinOp) (value : Store → ℚ) : Prop :=
  ∀ lo, ∃ toks os hi ps, Yields x lo toks hi ps ∧ Forall₂ Spells toks os ∧ (∀ o ∈ os, o.Within lo hi) ∧
    ∀ σ, ∃ σ', run commands atZero ps σ = some σ' ∧ Keeps lo hi σ σ' ∧
      ∀ v, (os.map (Operand.value σ')).foldl (operate atZero op) v = operate atZero op v (value σ)

lemma GivesOperands.extends (hop : op = .add ∨ op = .mul) (h : GivesOperands commands atZero xs op value) :
    Extends commands atZero xs op value := by
  have hassoc : ∀ u v w, operate atZero op (operate atZero op u v) w = operate atZero op u (operate atZero op v w) := by
    rcases hop with rfl | rfl
    · exact add_assoc
    · exact mul_assoc
  have : Std.Associative (operate atZero op) := ⟨hassoc⟩
  intro lo
  obtain ⟨toks, os, hi, ps, hyld, hspl, hne, hwith, hval⟩ := h lo
  refine ⟨toks, os, hi, ps, hyld, hspl, hwith, fun σ => ?_⟩
  obtain ⟨σ', hrun, hkp, hvl⟩ := hval σ
  refine ⟨σ', hrun, hkp, fun v => ?_⟩
  obtain ⟨o, os, rfl⟩ := exists_cons_of_ne_nil hne
  rw [← hvl, map_cons, foldl_cons, foldOperands, foldl_assoc]

lemma GivesOperand.extends (op : BinOp) (h : GivesOperand commands atZero x value) :
    Extends commands atZero (do return [← x]) op value := by
  intro lo
  obtain ⟨tok, o, hi, ps, hyld, hspl, hwith, hval⟩ := h lo
  refine ⟨[tok], [o], hi, ps, yields_single hyld, .cons hspl .nil, by simpa using hwith, fun σ => ?_⟩
  obtain ⟨σ', hrun, hkp, hvl⟩ := hval σ
  exact ⟨σ', hrun, hkp, fun v => by simp [hvl]⟩

lemma GivesOperands.append {ys : Lower (List Text)} (hx : GivesOperands commands atZero xs op value)
    (hy : Extends commands atZero ys op value')
    (hstab : ∀ {σ σ'}, (∀ x, isReserved x = false → σ' x = σ x) → value' σ' = value' σ) :
    GivesOperands commands atZero (do return (← xs) ++ (← ys)) op fun σ => operate atZero op (value σ) (value' σ) := by
  intro lo
  obtain ⟨toks, os, mid, ps, hyld, hspl, hne, hwith, hval⟩ := hx lo
  obtain ⟨toks', os', hi, ps', hyld', hspell', hwith', hval'⟩ := hy mid
  have hboth : Yields (do return (← xs) ++ (← ys)) lo (toks ++ toks') hi (ps ++ (ps' ++ [])) :=
    hyld.bind (hyld'.bind (yields_pure (toks ++ toks')))
  rw [append_nil] at hboth
  refine ⟨toks ++ toks', os ++ os', hi, ps ++ ps', hboth, rel_append hspl hspell', by simp [hne],
    forall_mem_append.mpr ⟨fun o ho => ?_, fun o ho => ?_⟩, fun σ => ?_⟩
  · exact (hwith o ho).mono (Nat.le_refl lo) hyld'.1
  · exact (hwith' o ho).mono hyld.1 (Nat.le_refl hi)
  obtain ⟨σ₁, hrun, hkp, hvl⟩ := hval σ
  obtain ⟨σ₂, hrun', hkp', hvl'⟩ := hval' σ₁
  refine ⟨σ₂, run_append hrun hrun', hkp.trans hkp' hyld.1 hyld'.1, ?_⟩
  have hleft : os.map (Operand.value σ₂) = os.map (Operand.value σ₁) :=
    map_congr_left fun o ho => (hwith o ho).value_eq hkp'
  have hright : value' σ₁ = value' σ := hstab fun x hx => hkp.of_not_isReserved hx
  have hfold : foldOperands atZero op (os.map (Operand.value σ₁) ++ os'.map (Operand.value σ₂))
      = (os'.map (Operand.value σ₂)).foldl (operate atZero op)
        (foldOperands atZero op (os.map (Operand.value σ₁))) := by
    rw [foldOperands_append (by simpa using hne), foldOperands]
  rw [map_append, hleft, hfold, hvl', hvl, hright]

variable {l r : Lowered}

/-- The operands of the two sides are those of the operation: sums and products are associative, and the right side
of a difference or a quotient is one operand. -/
lemma givesOperands_sides (op : BinOp) (hl : Correct commands atZero l value) (hr : Correct commands atZero r value')
    (hstab : ∀ {σ σ'}, (∀ x, isReserved x = false → σ' x = σ x) → value' σ' = value' σ) :
    GivesOperands commands atZero (sides op l r) op fun σ => operate atZero op (value σ) (value' σ) := by
  cases op with
  | add => exact (hl.operands .add).append ((hr.operands .add).extends (.inl rfl)) hstab
  | mul => exact (hl.operands .mul).append ((hr.operands .mul).extends (.inr rfl)) hstab
  | sub => exact (hl.operands .sub).append (hr.operand.extends .sub) hstab
  | div => exact (hl.operands .div).append (hr.operand.extends .div) hstab

/-! ### Formulas -/

lemma correct_usesOf (hl : Calculates lib commands) (hf : Exact atZero names f)
    (hinto : SetsTarget commands atZero into fun σ => eval atZero names σ f)
    (hflat : ∀ op l, flat op = some l → GivesOperands commands atZero l op fun σ => eval atZero names σ f) :
    Correct commands atZero (usesOf lib f into flat) fun σ => eval atZero names σ f := by
  cases hc : f.isConstant with
  | false =>
    rw [usesOf, value?_of_not_constant hc]
    exact correct_uses hinto (givesOperand_part hinto) hflat
  | true =>
    obtain ⟨v, k, hv, hint, hk⟩ := value?_of_constant hf hc
    have htok : GivesOperand commands atZero (liftM (valueToken v)) fun σ => eval atZero names σ f := by
      simpa [hk] using givesOperand_number hint (hf.natAbs_lt hc hk)
    rw [usesOf, hv]
    exact correct_uses (setsTarget_assign hl htok) htok hflat

theorem correct_lower (hl : Calculates lib commands) (hf : Exact atZero names f) :
    Correct commands atZero (lower lib names f) fun σ => eval atZero names σ f := by
  induction f with
  | int n =>
    obtain ⟨v, k, hv, hint, hk⟩ := value?_of_constant hf rfl
    have htok : GivesOperand commands atZero (liftM (valueToken v))
        fun σ => eval atZero names σ (.int n) := by
      simpa [hk] using givesOperand_number hint (hf.natAbs_lt rfl hk)
    rw [lower, leaf, hv]
    exact correct_uses (setsTarget_assign hl htok) htok (by simp)
  | var name =>
    obtain ⟨hpl, hfree⟩ := hf.of_var rfl
    have htok : GivesOperand commands atZero _ _ := givesOperand_variable hpl hfree
    exact correct_uses (setsTarget_assign hl htok) htok (by simp)
  | sign s a ih =>
    cases s with
    | plus => exact correct_usesOf hl hf (ih hf.sign).into (by simp)
    | minus => exact correct_usesOf hl hf (setsTarget_negated hl (ih hf.sign).operand) (by simp)
  | bin op a b iha ihb =>
    have hsides := givesOperands_sides op (iha hf.left) (ihb hf.right) (eval_congr hf.right)
    refine correct_usesOf hl hf (setsTarget_operands hl hsides) fun o l hl' => ?_
    by_cases ho : o = op
    · rw [if_pos ho] at hl'
      cases hl'
      exact ho ▸ hsides
    rw [if_neg ho] at hl'
    cases hl'
  | real | truth | other => exact absurd (hf.leaves _ (mem_singleton_self _)) (by simp [isSourceLeaf])

/-- A formula compiles, and running its actions leaves its value in the target. No other variable of the source
changes. -/
theorem run_compile_eq_eval (hl : Calculates lib commands) (hf : Exact atZero names f) (ht : IsTarget target t)
    (σ : Store) : ∃ actions σ', (compile lib names target f).result = .ok actions ∧
      run commands atZero actions σ = some σ' ∧ σ' t = eval atZero names σ f ∧
        ∀ x, x ≠ t → isReserved x = false → σ' x = σ x := by
  obtain ⟨hi, ps, hyld, hsets⟩ := (correct_lower hl hf).into ht 0
  obtain ⟨σ', hrun, hvl, hkp⟩ := hsets σ
  refine ⟨ps, σ', ?_, hrun, hvl, fun x hx hfree => ?_⟩
  · have hstep := hyld.2 []
    rw [nil_append] at hstep
    have hwarn n : (warnCount target n).result = .ok () := by
      unfold warnCount
      split <;> rfl
    simp only [compile, result_bind, hstep, Except.bind, hwarn, result_pure]
  · exact hkp x hx (ne_accName_of_not_reserved hfree) fun m _ _ => ne_partName hfree m

/-! ### The shipped actions -/

def shippedAction (sign2 : Text) (fs : List Param) (choices : List Json) : Spec :=
  .obj [("sign1", .str "Присв. переменную"), ("sign2", .str sign2), ("params", .arr (fs.map Param.record)),
    ("enums", .arr choices)]

def numberedParams (stem mode : Text) (n : Nat) (slot : Int) : Nat → List Param
  | 0 => []
  | k + 1 => ⟨stem ++ ofNat n, mode, slot⟩ :: numberedParams stem mode (n + 1) (slot + 1) k

def shippedOperands : List Param :=
  ⟨"var", "VARIABLE", 12⟩ :: ⟨"num", "NUMBER", 14⟩ :: numberedParams "num" "NUMBER" 2 27 9

def shippedLibrary : Library where
  api := .obj [("var", .obj [
    ("set_value", shippedAction "="
      (⟨"var", "VARIABLE", 13⟩ :: ⟨"value", "ANY", 27⟩ :: numberedParams "value" "ANY" 2 28 7)
      [.obj [("name", .str "separator"), ("slot", .int 22), ("options", .obj [("Без разделения", .int 0)])]]),
    ("set_sum", shippedAction "+" shippedOperands []), ("set_difference", shippedAction "-" shippedOperands []),
    ("set_product", shippedAction "*" shippedOperands []), ("set_quotient", shippedAction "/" shippedOperands [])])]
  values := []

lemma hasParams_shipped {sign2 : Text} {fs : List Param} {choices : List Json} (hfs : fs ≠ [])
    (hch : ∀ e ∈ choices, ∃ k, e.get "name" = .ok (.str k) ∧ k ∉ fs.map Param.name)
    (hnd : (fs.map Param.name).Nodup) (hmds : ∀ f ∈ fs, upper f.mode ≠ "VECTOR") :
    (shippedAction sign2 fs choices).HasParams fs where
  params := by
    refine ⟨fs.map Param.record, ?_, ?_⟩
    · obtain ⟨f, fs, rfl⟩ := exists_cons_of_ne_nil hfs
      rfl
    rw [forall₂_map_right_iff, forall₂_same]
    exact fun f _ => f.describes_record
  choices := by
    refine ⟨.arr choices, choices, rfl, ?_, fun e he => ?_⟩
    · cases choices <;> rfl
    obtain ⟨k, hk, hmem⟩ := hch e he
    refine ⟨_, hk, fun f hf heq => hmem ?_⟩
    exact List.mem_map.mpr ⟨f, hf, (Json.str.inj heq).symm⟩
  nodup := hnd
  modes := hmds

lemma hasParams_operands (sign2 : Text) : (shippedAction sign2 shippedOperands []).HasParams shippedOperands :=
  hasParams_shipped (by decide) (by simp) (by decide) (by decide)

lemma calculates_shippedLibrary : Calculates shippedLibrary commandOf where
  assign := by
    refine ⟨.any, _, .inl rfl, ⟨⟨_, rfl⟩, _, hasParams_shipped (by simp) ?_ (by decide) (by decide), by decide,
      by decide⟩, by decide⟩
    simp only [mem_singleton, forall_eq]
    exact ⟨"separator", rfl, by decide⟩
  calculate op := by
    have hsl : (shippedOperands.map Param.slot).Nodup := by decide
    have hmds : ∀ m ∈ ("var".toList, Mode.variable) :: operandNames.map (fun name => (name, Mode.number)),
        ∃ f ∈ shippedOperands, f.name = m.1 ∧ f.kind = m.2 := by
      decide
    cases op with
    | add => exact ⟨_, ⟨⟨_, rfl⟩, _, hasParams_operands "+", hsl, hmds⟩, by decide⟩
    | sub => exact ⟨_, ⟨⟨_, rfl⟩, _, hasParams_operands "-", hsl, hmds⟩, by decide⟩
    | mul => exact ⟨_, ⟨⟨_, rfl⟩, _, hasParams_operands "*", hsl, hmds⟩, by decide⟩
    | div => exact ⟨_, ⟨⟨_, rfl⟩, _, hasParams_operands "/", hsl, hmds⟩, by decide⟩

/-- A formula that needs a part, a folded constant and more operands than one action takes:
`-x / (3 - 5) + a + … + j`. -/
def longSum : Formula :=
  (texts ["a", "b", "c", "d", "e", "f", "g", "h", "i", "j"]).foldl (fun f name => .bin .add f (.var name))
    (.bin .div (.sign .minus (.var "x")) (.bin .sub (.int 3) (.int 5)))

lemma exact_longSum : Exact (fun _ => 0) [] longSum where
  leaves := by decide
  constants := by
    have hconstants : longSum.parts.filter Formula.isConstant = [.bin .sub (.int 3) (.int 5), .int 3, .int 5] := by
      decide
    intro g hg hc
    have hmem : g ∈ longSum.parts.filter Formula.isConstant := mem_filter.mpr ⟨hg, hc⟩
    simp only [hconstants, mem_cons, not_mem_nil, or_false] at hmem
    rcases hmem with rfl | rfl | rfl
    · exact ⟨rfl, fun σ => by norm_num [eval, operate, abs]⟩
    · exact ⟨rfl, fun σ => by norm_num [eval]⟩
    · exact ⟨rfl, fun σ => by norm_num [eval]⟩

/-- The theorem at work on the shipped actions, with a formula that reads its own target. -/
theorem run_compile_longSum : Calculates shippedLibrary commandOf ∧ Exact (fun _ => 0) [] longSum ∧
    IsTarget "var_save(x)" "x" ∧ ∃ actions σ', (compile shippedLibrary [] "var_save(x)" longSum).result = .ok actions ∧
      run commandOf (fun _ => 0) actions (fun _ => 1) = some σ' ∧ σ' "x" = eval (fun _ => 0) [] (fun _ => 1) longSum ∧
        ∀ x : Text, x ≠ "x" → isReserved x = false → σ' x = 1 :=
  have ht : IsTarget "var_save(x)" "x" := ⟨.inr (by decide), by decide⟩
  ⟨calculates_shippedLibrary, exact_longSum, ht, run_compile_eq_eval calculates_shippedLibrary exact_longSum ht _⟩

end Arithmetic
end BlockScript
