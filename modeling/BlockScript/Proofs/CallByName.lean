import BlockScript.Proofs.Matching
import BlockScript.Proofs.Outcomes
import BlockScript.Proofs.Spelling

/-!
# Calls with arguments by name

A call that gives wrapped values by name puts each of them, unchanged, into the slot of its parameter:
`Placed.ofSpec_named`. The first part shows that a wrapped value is recognised and kept (`wrapValue_wrap`).
-/

open List hiding any
namespace BlockScript
open Except (mapError)
open Nesting (inParens skips top)
open Pattern (Match any blanks rest spells_many1 spells_of_match? spells_seq)
open Table (get? has names)
open Text (upper)
open Script.Compile (result_bind result_liftM result_pure)
open Pattern.Match (group?)

/-! ### Game values -/

namespace GameValues

lemma not_isHeadChar_of_blank {c : Char} (h : isBlank c) : isHeadChar c = false := by
  simpa using of_isBlank (p := (!isHeadChar ·)) rfl h

lemma callPattern_inv {t : Text} {m : Match} (h : callPattern.match? t = some m) :
    ∃ w b e b' b'' b₃ r : Text, t = w ++ (b ++ '(' :: (b' ++ (e ++ (b'' ++ ')' :: (b₃ ++ r)))))
      ∧ (∀ c ∈ w, isHeadChar c) ∧ (∀ c ∈ b, isBlank c) ∧ (∀ c ∈ b', isBlank c) ∧ (∀ c ∈ b'', isBlank c)
      ∧ m.group 1 = w ∧ m.group 2 = e := by
  obtain ⟨u, r, rfl, -, h⟩ := spells_of_match? rfl h
  simp only [blanks, spells_seq] at h
  obtain ⟨w, _, _, rfl, hword, b, _, rfl, hb, _, rfl, b', _, rfl, hb', e, _, _, rfl, he, b'', _, rfl, hb'', b₃,
    rfl, -, hg⟩ := h
  obtain ⟨-, hw, rfl⟩ := spells_many1.mp hword
  obtain ⟨-, -, rfl⟩ := Pattern.spells_many1Lazy.mp he
  refine ⟨w, b, e, b', b'', b₃, r, by simp, hw, hb, hb', hb'', ?_, ?_⟩
  · simp [Pattern.Match.group, group?, hg, lookup_cons]
  · simp [Pattern.Match.group, group?, hg]

lemma memberPattern_inv {t : Text} {m : Match} (h : memberPattern.match? t = some m) :
    ∃ w e r : Text, t = w ++ '.' :: (e ++ r) ∧ w ≠ [] ∧ (∀ c ∈ w, isHeadChar c) ∧ (r = [] ∨ r = ['\n'])
      ∧ m.group 1 = w ∧ m.group 2 = e := by
  obtain ⟨u, r, rfl, hend, h⟩ := spells_of_match? rfl h
  simp only [spells_seq] at h
  obtain ⟨w, _, _, rfl, hword, e, rfl, _, he, hg⟩ := h
  obtain ⟨hne, hw, rfl⟩ := spells_many1.mp hword
  obtain ⟨-, -, rfl⟩ := spells_many1.mp he
  refine ⟨w, e, r, by simp, hne, hw, hend, ?_, ?_⟩
  · simp [Pattern.Match.group, group?, hg, lookup_cons]
  · simp [Pattern.Match.group, group?, hg]

end GameValues

/-! ### Wrapped values are kept -/

namespace Value

/-- A word that wraps a value and is no game value. -/
structure IsHead (head : Text) : Prop where
  start : ∃ c t, head = c :: t ∧ Formula.isLatinStart c
  word : ∀ c ∈ head, Formula.isLatinWord c
  gameWord : ∀ c ∈ head, GameValues.isHeadChar c
  lower : Text.lower head = head
  wrapper : wrapperHeads.contains head
  game : GameValues.heads.contains head = false

variable {head t : Text}

lemma isHead_num : IsHead "num" :=
  ⟨⟨'n', ['u', 'm'], rfl, rfl⟩, all_eq_true.mp rfl, all_eq_true.mp rfl, by decide, by decide, by decide⟩

lemma isHead_var : IsHead "var" :=
  ⟨⟨'v', ['a', 'r'], rfl, rfl⟩, all_eq_true.mp rfl, all_eq_true.mp (by decide), rfl, rfl, rfl⟩

lemma isHead_var_save : IsHead "var_save" :=
  ⟨⟨'v', "ar_save".toList, rfl, rfl⟩, all_eq_true.mp rfl, all_eq_true.mp rfl, rfl, rfl, by decide⟩

lemma isHead_arr : IsHead "arr" :=
  ⟨⟨'a', ['r', 'r'], rfl, rfl⟩, all_eq_true.mp rfl, all_eq_true.mp rfl, rfl, rfl, by decide⟩

lemma isHead_text : IsHead "text" :=
  ⟨⟨'t', ['e', 'x', 't'], rfl, rfl⟩, all_eq_true.mp rfl, all_eq_true.mp rfl, rfl, rfl,
    rfl⟩

lemma wrap_eq (head t : Text) : wrap head t = head ++ '(' :: (t ++ [')']) := by simp [wrap]

namespace IsHead

lemma trim_wrap (h : IsHead head) : Text.trim (wrap head t) = wrap head t := by
  obtain ⟨c, u, rfl, hc⟩ := h.start
  exact Text.trim_self (d := ')') (by simp [wrap]) getLast?_concat
    (isBlank_of_latinWord (h.word c (by simp))) rfl

lemma eq_of_append {p : Char → Bool} (hp : ∀ c ∈ head, p c) (hpar : p '(' = false)
    (hbl : ∀ c, isBlank c → p c = false) {w b r : Text} (hw : ∀ c ∈ w, p c) (hb : ∀ c ∈ b, isBlank c)
    (heq : wrap head t = w ++ (b ++ '(' :: r)) : w = head := by
  rw [wrap_eq] at heq
  refine (Text.append_inj_of_head hw hp ?_ ?_ heq.symm).1
  · cases b with
    | nil => simpa using hpar
    | cons c b => simpa using hbl c (hb c (by simp))
  · simpa using hpar

lemma nameIn?_wrap (h : IsHead head) : GameValues.nameIn? (wrap head t) = none := by
  have hpar : GameValues.isHeadChar '(' = false := rfl
  rw [GameValues.nameIn?]
  split
  next m hm =>
    -- what stands before the parenthesis is the word itself
    obtain ⟨w, b, e, b', b'', b₃, r, heq, hchr, hb, -, -, hgrp, -⟩ := GameValues.callPattern_inv hm
    have hgrp1 : m.group 1 = head :=
      hgrp.trans (eq_of_append h.gameWord hpar (fun _ => GameValues.not_isHeadChar_of_blank) hchr hb heq)
    simp only [hgrp1, h.lower, h.game, Bool.false_eq_true, if_false]
  next hn =>
    split
    next m hm =>
      -- a point would have to stand where the parenthesis is
      obtain ⟨w, e, r, heq, -, hchr, -⟩ := GameValues.memberPattern_inv hm
      rw [wrap_eq] at heq
      have := (Text.append_inj_of_head h.gameWord hchr (by simpa using hpar) (by simp; decide) heq).2
      simp at this
    · rfl

lemma closed (h : IsHead head) : Nesting.Closed ',' head :=
  .of_isPlain (all_eq_true.mpr fun c hc => isPlainChar_of_latinWord (h.word c hc))
    fun hmem => absurd (h.word ',' hmem) (by decide)

/-- A wrapped value has a comma outside only if what it wraps has one behind a parenthesis that closes too much. -/
lemma skips_wrap (h : IsHead head) (ht : skips ',' (inParens 1) t) : skips ',' .top (wrap head t) := by
  have hopen : top.read '(' = inParens 1 := rfl
  rw [wrap_eq, Nesting.skips_append, h.closed.skips, h.closed.back, skips, hopen, Nesting.skips_append, ht]
  simp [skips]

lemma closed_wrap (h : IsHead head) (ht : Nesting.Inside t) : Nesting.Closed ',' (wrap head t) := by
  rw [wrap, append_assoc, append_assoc]
  exact h.closed.append (.parens ht (by decide))

lemma fits_wrap (h : IsHead head) (ht : '\n' ∉ t) : wrapperPattern.fits (wrap head t) := by
  obtain ⟨c, u, rfl, hc⟩ := h.start
  have hln : ∀ d ∈ t, (d != '\n') = true := by
    intro d hd
    simpa using fun heq : d = '\n' => ht (heq ▸ hd)
  refine Pattern.fits_of_spells (g := [(1, c :: u)]) rfl ?_
  simp only [blanks, rest, any, spells_seq, wrap_eq]
  exact ⟨c :: u, _, _, rfl, ⟨c, u, rfl, hc, fun d hd => h.word d (by simp [hd]), rfl⟩, [], _, rfl, by simp, _, rfl, t,
    _, rfl, hln, _, rfl, by simp, rfl⟩

lemma wrapperHead?_wrap (h : IsHead head) (ht : '\n' ∉ t) : wrapperHead? (wrap head t) = some head := by
  have hpar : Formula.isLatinWord '(' = false := rfl
  have hbl c : isBlank c → Formula.isLatinWord c = false := by
    intro hc
    rw [← Bool.not_eq_true]
    intro hword
    simp [isBlank_of_latinWord hword] at hc
  obtain ⟨m, hm⟩ := Option.isSome_iff_exists.mp (h.fits_wrap ht)
  obtain ⟨w, r, heq, -, hspl⟩ := spells_of_match? rfl hm
  simp only [blanks, rest, any, spells_seq] at hspl
  obtain ⟨_, _, _, rfl, ⟨c, u, rfl, hc, hu, rfl⟩, b, _, rfl, hb, v, rfl, _, _, rfl, -, _, rfl, -, hg⟩ := hspl
  have hchr : ∀ d ∈ c :: u, Formula.isLatinWord d := by
    simp only [mem_cons, forall_eq_or_imp]
    exact ⟨isLatinWord_of_latinStart hc, hu⟩
  have hgrp1 : m.group 1 = head := by
    rw [← eq_of_append h.word hpar hbl hchr hb (by simpa using heq)]
    simp [Pattern.Match.group, group?, hg]
  simp only [wrapperHead?, hm, Option.bind_some, hgrp1, h.lower, h.wrapper, if_true]

end IsHead

def keeps (mode : Mode) (head : Text) : Bool :=
  match mode with
  | .variable => head == "var" || head == "var_save"
  | .array => head == "arr"
  | .number | .other => head == "num" || head == "var" || head == "var_save"
  | .any => head == "text" || head == "num" || head == "var" || head == "var_save"
  | _ => false

lemma keeps_any_of_number (h : keeps .number head) : keeps .any head := by
  simp only [keeps, Bool.or_eq_true] at h ⊢
  tauto

lemma result_wrapped {mode : Mode} {v : Text} (h : keeps mode head) : (wrapped mode head v).result = .ok v := by
  cases mode <;> simp [keeps] at h
  · rcases h with (rfl | rfl) | rfl <;> rfl
  · rcases h with rfl | rfl <;> rfl
  · obtain rfl := h
    rfl
  · rfl
  · rfl

end Value
open Value in
lemma result_wrapValue_wrap {values : GameValues} {mode : Mode} {head t : Text} (h : IsHead head) (ht : '\n' ∉ t)
    (hmode : keeps mode head) : (wrapValue values mode (wrap head t)).result = .ok (wrap head t) := by
  have hne : (wrap head t).isEmpty = false := by simp [wrap]
  have htok : values.token? (wrap head t) = none := by
    rw [GameValues.token?, GameValues.resolve?, h.trim_wrap, h.nameIn?_wrap]
    rfl
  simp only [wrapValue, h.trim_wrap, hne, htok, h.wrapperHead?_wrap ht]
  exact result_wrapped hmode

/-! ### Actions with parameters -/

structure Param where
  name : Text
  mode : Text
  slot : Int

namespace Param

/-- The record describes the parameter. -/
structure Describes (f : Param) (p : Json) : Prop where
  name : p.need "name" = .ok (.str f.name)
  mode : p.get "mode" = .ok (.str f.mode)
  slot : p.need "slot" = .ok (.int f.slot)

def piece (f : Param) (v : Text) : Text := "slot(" ++ Text.ofInt f.slot ++ ")=" ++ v

/-- The kind of item the parameter takes. -/
def kind (f : Param) : Mode := Mode.ofText (upper f.mode)

variable {f : Param} {p : Json}

def record (f : Param) : Json := .obj [("name", .str f.name), ("mode", .str f.mode), ("slot", .int f.slot)]

lemma describes_record (f : Param) : f.Describes f.record := ⟨rfl, rfl, rfl⟩

lemma Describes.paramName (h : f.Describes p) : Placed.paramName p = .ok (some f.name) := by
  rw [Placed.paramName, h.name]
  rfl

lemma Describes.paramMode (h : f.Describes p) : Placed.paramMode p = .ok (upper f.mode) := by
  rw [Placed.paramMode, h.mode]
  cases hm : f.mode with
  | nil => rfl
  | cons c t => simp [Json.isTruthy, bind, Except.bind, pure, Except.pure]

lemma Describes.spelt_mode (h : f.Describes p) : Placed.spelt "mode" p = .ok f.mode := by
  rw [Placed.spelt, h.mode]
  cases hm : f.mode with
  | nil => rfl
  | cons c t => simp [Json.isTruthy, Json.spell, bind, Except.bind, pure, Except.pure]

lemma get_of_need {key : Text} {v : Json} (h : p.need key = .ok v) : p.get key = .ok v := by
  cases p with
  | obj fields =>
    rw [Json.need] at h
    split at h
    next w hw =>
      cases h
      rw [Json.get, hw, Option.getD_some]
    · contradiction
  | _ => contradiction

lemma Describes.spelt_name (h : f.Describes p) : Placed.spelt "name" p = .ok f.name := by
  rw [Placed.spelt, get_of_need h.name]
  cases hm : f.name with
  | nil => rfl
  | cons c t => simp [Json.isTruthy, Json.spell, bind, Except.bind, pure, Except.pure]

lemma Describes.slotNumber (h : f.Describes p) : ∃ n, Placed.slotNumber p = .ok n := by
  rw [Placed.slotNumber, get_of_need h.slot]
  by_cases hn : (Json.int f.slot).isTruthy
  · exact ⟨f.slot, by simp [hn, Choice.clickCount, bind, Except.bind]⟩
  · exact ⟨0, by simp [hn, bind, Except.bind, pure, Except.pure]⟩

end Param

/-- The action takes the given parameters and has no choice of the name of a parameter. -/
structure Spec.Offers (spec : Spec) (fs : List Param) : Prop where
  params : ∃ ps, Placed.params spec = .ok ps ∧ List.Forall₂ Param.Describes fs ps
  choices : ∃ v es, spec.get "enums" = .ok v ∧ v.asItems = .ok es ∧
    ∀ e ∈ es, ∃ w, e.get "name" = .ok w ∧ ∀ f ∈ fs, w ≠ .str f.name
  nodup : (fs.map Param.name).Nodup

/-- The action takes the given parameters, none of them a vector, and has no choice of the name of a parameter. -/
structure Spec.HasParams (spec : Spec) (fs : List Param) : Prop extends spec.Offers fs where
  modes : ∀ f ∈ fs, upper f.mode ≠ "VECTOR"

namespace Placed
open Param
variable {lib : Library} {module : Text} {spec : Spec} {fs : List Param} {ps es : List Json} {b : Binding}

lemma pure_bind_ok {α β : Type} (a : α) (f : α → Except Fault β) : (Except.ok a >>= f) = f a := rfl

def isVector (p : Json) : Bool := (spelt "mode" p).toOption.any fun mode => upper mode == "VECTOR"

lemma exists_vectorParams (hfs : List.Forall₂ Describes fs ps) :
    ∃ vs, vectorParams ps = .ok vs ∧ ∀ p ∈ vs, ∃ f ∈ fs, f.Describes p ∧ upper f.mode = "VECTOR" := by
  have hdesc : ∀ p ∈ ps, ∃ f ∈ fs, f.Describes p := (exists_of_forall₂ hfs).2
  have hmds : ∀ p ∈ ps, do return upper (← spelt "mode" p) == "VECTOR" = .ok (isVector p) := by
    intro p hp
    obtain ⟨f, -, hf⟩ := hdesc p hp
    simp only [isVector, hf.spelt_mode]
    rfl
  have hfilter : ps.filterM (fun p => do return upper (← spelt "mode" p) == "VECTOR") = .ok (ps.filter isVector) := by
    refine filterM_ok_iff.mpr ⟨fun p hp => ?_, filter_congr fun p hp => ?_⟩
    · exact (eq_ok_iff_told.mp (hmds p hp)).1
    · exact (eq_ok_iff_told.mp (hmds p hp)).2
  obtain ⟨slotted, hslotted⟩ : ∃ slotted,
    (ps.filter isVector).mapM (fun p => do return ((← slotNumber p), p)) = .ok slotted := by
    refine exists_mapM_ok_iff.mpr fun p hp => ?_
    obtain ⟨f, -, hf⟩ := hdesc p (mem_filter.mp hp).1
    obtain ⟨n, hn⟩ := hf.slotNumber
    exact ⟨(n, p), by rw [hn]; rfl⟩
  refine ⟨(slotted.mergeSort fun a b => a.1 ≤ b.1).map (·.2), ?_, ?_⟩
  · rw [vectorParams, hfilter, pure_bind_ok, hslotted]
    rfl
  intro p hp
  obtain ⟨e, he, rfl⟩ := mem_map.mp hp
  obtain ⟨q, hq, hslot⟩ := exists_of_mapM_ok hslotted e (mem_mergeSort.mp he)
  obtain ⟨hq, hvector⟩ := mem_filter.mp hq
  obtain ⟨f, hf, hdes⟩ := hdesc q hq
  obtain ⟨n, hn⟩ := hdes.slotNumber
  rw [hn] at hslot
  cases hslot
  refine ⟨f, hf, hdes, ?_⟩
  rw [isVector, hdes.spelt_mode] at hvector
  exact beq_iff_eq.mp hvector

/-- Nothing is given under the names of vectors if every vector is given or none of those names is. -/
lemma bindVectors_eq (hfs : List.Forall₂ Describes fs ps) (hvec : ∀ f ∈ fs, upper f.mode = "VECTOR" →
      has f.name b.named ∨ ∀ n, ∀ k ∈ vectorNames n, has k b.named = false) : bindVectors ps b = .ok b := by
  obtain ⟨vs, hvs, hdesc⟩ := exists_vectorParams hfs
  have hstep n : ∀ p ∈ vs, (do
      let name ← spelt "name" p
      let b : Binding := if name.isEmpty || b.named.has name then b else b.borrow name (vectorNames n)
      return (n + 1, b) : Except Fault (Nat × Binding)) = .ok (n + 1, b) := by
    intro p hp
    obtain ⟨f, hf, hdes, hmode⟩ := hdesc p hp
    rw [hdes.spelt_name]
    show Except.ok _ = _
    rcases hvec f hf hmode with hgiv | hnone
    · rw [hgiv, Bool.or_true, if_pos rfl]
    have hborrow : b.borrow f.name (vectorNames n) = b := by
      rw [Binding.borrow, find?_eq_none.mpr fun k hk => by simp [hnone n k hk]]
    rw [hborrow, ite_self]
  have hfold : ∀ n, ∃ m, vs.foldlM (fun r p => do
      let name ← spelt "name" p
      let b : Binding := if name.isEmpty || r.2.named.has name then r.2 else r.2.borrow name (vectorNames r.1)
      return (r.1 + 1, b)) (n, b) = .ok (m, b) := by
    clear hvs hdesc
    induction vs with
    | nil => exact fun n => ⟨n, rfl⟩
    | cons p vs ih =>
      intro n
      obtain ⟨m, hm⟩ := ih (fun n p hp => hstep n p (by simp [hp])) (n + 1)
      refine ⟨m, ?_⟩
      refine (congrArg (· >>= _) (hstep n p (by simp))).trans ?_
      exact hm
  obtain ⟨m, hm⟩ := hfold 1
  rw [bindVectors, hvs, pure_bind_ok, hm]
  rfl

lemma mem_taken_take {name k : Text} : k ∈ (b.take name).taken ↔ k ∈ b.taken ∨ k = name := by
  unfold Binding.take
  split
  next h =>
    have hmem : name ∈ b.taken := by simpa using h
    constructor
    · exact .inl
    · rintro (h | rfl) <;> assumption
  · simp

@[simp] lemma named_take {name : Text} : (b.take name).named = b.named := by
  unfold Binding.take
  split <;> rfl

lemma result_paramPieces (hfs : List.Forall₂ Describes fs ps) (hgame : gameSign2 module spec = .ok [])
    (hwrap : ∀ f ∈ fs, ∀ v, get? f.name b.named = some v → (wrapValue lib.values f.kind v).result = .ok v) :
    ∃ taken, (paramPieces lib module spec ps b).result =
        .ok (fs.filterMap fun f => (get? f.name b.named).map f.piece, ⟨b.named, taken⟩) ∧
      (∀ k ∈ b.taken, k ∈ taken) ∧ ∀ f ∈ fs, (get? f.name b.named).isSome → f.name ∈ taken := by
  induction hfs generalizing b with
  | nil => exact ⟨b.taken, rfl, fun _ h => h, by simp⟩
  | @cons f p fs ps hf _ ih =>
    rw [paramPieces]
    simp only [result_bind, result_liftM, hf.paramName, mapError, Except.bind]
    cases hv : get? f.name b.named with
    | none =>
      obtain ⟨taken, hpcs, hkp, htk⟩ := ih (fun f hf => hwrap f (by simp [hf]))
      refine ⟨taken, ?_, hkp, ?_⟩
      · simpa [hv] using hpcs
      · simpa [hv] using htk
    | some v =>
      obtain ⟨taken, hpcs, hkp, htk⟩ := ih (b := b.take f.name)
        (fun g hg v => by simpa using hwrap g (by simp [hg]) v)
      refine ⟨taken, ?_, fun k hk => hkp k (mem_taken_take.mpr (.inl hk)), ?_⟩
      · have hkind : (wrapValue lib.values (Mode.ofText (upper f.mode)) v).result = .ok v := hwrap f (by simp) v hv
        simp only [Option.bind_some, hv, Option.map_some, result_bind, result_liftM, hf.paramMode,
          hf.slot, hgame, mapError, Except.bind]
        have hcycle : ((([] : Text) == "начать цикл" || ([] : Text) == "остановить цикл") && f.mode.upper == "TEXT")
          = false := rfl
        rw [hcycle, if_neg Bool.false_ne_true]
        simp only [result_bind, hkind, hpcs, named_take, filterMap_cons, hv]
        rfl
      intro g hg
      rcases mem_cons.mp hg with rfl | hg
      · intro _
        exact hkp _ (mem_taken_take.mpr (.inr rfl))
      · simpa using htk g hg

lemma result_choicePieces (h : ∀ e ∈ es, ∃ w, e.get "name" = .ok w ∧ ∀ k, w = .str k → get? k b.named = none) :
    (choicePieces es b).result = .ok ([], b) := by
  induction es with
  | nil => rfl
  | cons e es ih =>
    obtain ⟨w, hw, hnone⟩ := h e (by simp)
    have hrest := ih fun e he => h e (by simp [he])
    rw [choicePieces]
    simp only [result_bind, result_liftM, hw, mapError, Except.bind]
    cases w with
    | str name =>
      have hnm : (if name.isEmpty then none else get? name b.named) = none := by
        rw [hnone name rfl]
        split <;> rfl
      simpa only [hnm] using hrest
    | _ => exact hrest

lemma result_checkNames {call : Call} {canon : Text} {sources : Table Text}
    (h : ∀ k ∈ names b.named, k ∈ b.taken) : (checkNames call canon ps es sources b).result = .ok () := by
  have hunk extra : (names b.named).filter (fun k => !(b.taken ++ extra).contains k) = [] := by
    rw [filter_eq_nil_iff]
    intro k hk
    simp [h k hk]
  rw [checkNames]
  simp only [append_assoc, hunk]
  rfl

lemma bindPositional_nil : bindPositional ps [] b = .ok b := by
  cases ps <;> rfl

end Placed
namespace Keyword

lemma spellings_eq_nil {named : Table Text} (h : ∀ a ∈ named, a.1.any isRussian = false) : spellings named = [] := by
  refine List.foldlRecOn named _ (motive := (· = [])) rfl fun extra hext a ha => ?_
  simp only [h a ha]
  exact hext

end Keyword
namespace Placed
open Arguments (Readable written)
variable {lib : Library} {spec : Spec} {fs : List Param} {args : List (Text × Text)} {module func canon : Text}

structure IsPlainModule (module : Text) : Prop where
  game : ∀ spec, gameSign2 module spec = .ok []
  fill : ∀ spec b, bindFill module spec b = .ok b
  existence : ∀ canon b, bindExistence module canon b = b

lemma isPlainModule_var : IsPlainModule "var" := ⟨fun _ => rfl, fun _ _ => rfl, fun _ _ => rfl⟩

lemma isPlainModule_array : IsPlainModule "array" := ⟨fun _ => rfl, fun _ _ => rfl, fun _ _ => rfl⟩

lemma isTruthy_of_offers (h : spec.Offers fs) (hfs : fs ≠ []) : spec.isTruthy := by
  obtain ⟨ps, hps, hdesc⟩ := h.params
  have hps_ne : ps ≠ [] := by
    rintro rfl
    cases hdesc
    exact hfs rfl
  cases spec with
  | obj fields =>
    cases fields with
    | nil => exact absurd (Except.ok.inj hps).symm hps_ne
    | cons => rfl
  | _ => exact absurd hps (by simp [params, Json.get, bind, Except.bind])

variable (hmod : IsPlainModule module) (hspec : spec.HasParams fs) (hfs : fs ≠ [])
  (hargs : ∀ a ∈ args, Readable a) (hback : ∀ a ∈ args.dropLast, top.readAll a.2 = .top)
  (hnd : (args.map (·.1)).Nodup) (hnms : ∀ a ∈ args, a.1 ∈ fs.map Param.name)
  (hlatin : ∀ a ∈ args, a.1.any Keyword.isRussian = false)
  (hwrap : ∀ f ∈ fs, ∀ v, get? f.name args = some v → (wrapValue lib.values f.kind v).result = .ok v)

include hmod hspec hfs hargs hback hnd hnms hlatin hwrap

/-- A call that gives readable values by name puts each into its slot. -/
theorem ofSpec_named : (ofSpec lib ⟨module, func, Text.joinWith ", " (args.map written)⟩ canon spec).result =
      .ok ⟨fs.filterMap fun f => (get? f.name args).map f.piece, spec⟩ := by
  obtain ⟨ps, hps, hdesc⟩ := hspec.params
  obtain ⟨v, es, henums, hit, hes⟩ := hspec.choices
  have hps_ne : ps.isEmpty = false := by
    cases hdesc with
    | nil => exact absurd rfl hfs
    | cons => rfl
  obtain ⟨taken, hpcs, -, htk⟩ := result_paramPieces (b := ⟨args, []⟩) hdesc (hmod.game spec) hwrap
  have hch : (choicePieces es ⟨args, taken⟩).result = .ok ([], ⟨args, taken⟩) := by
    apply result_choicePieces
    intro e he
    obtain ⟨w, hw, hne⟩ := hes e he
    refine ⟨w, hw, ?_⟩
    rintro k rfl
    rw [get?, lookup_eq_none_iff]
    intro a ha
    obtain ⟨f, hf, hnm⟩ := mem_map.mp (hnms a ha)
    rw [bne_iff_ne]
    rintro rfl
    exact hne f hf (by rw [hnm])
  have hchk call : ∀ sources, (checkNames call canon ps es sources ⟨args, taken⟩).result = .ok () := by
    intro sources
    refine result_checkNames fun k hk => ?_
    obtain ⟨a, ha, rfl⟩ := mem_map.mp hk
    obtain ⟨f, hf, hnm⟩ := mem_map.mp (hnms a ha)
    rw [← hnm]
    refine htk f hf ?_
    rw [get?, hnm, Option.isSome_iff_ne_none, ne_eq, lookup_eq_none_iff]
    intro hnone
    simpa using hnone a ha
  rw [ofSpec]
  simp only [Arguments.ofText_joinWith hargs hback hnd, Arguments.dropEmpty_self hargs, Keyword.spellings_eq_nil hlatin,
    map_nil, result_bind, result_liftM, hps, bindVectors_eq hdesc fun f hf hmode => absurd hmode (hspec.modes f hf),
    hmod.fill, hps_ne, bindPositional_nil, hmod.existence, hpcs, henums, hit, hch, hchk, result_pure,
    mapError, Except.bind, Bool.false_eq_true, if_false, nil_append, append_nil]

/-- A call of a known action that gives readable values by name. -/
theorem ofCall_named (hfn : Text.lower (Text.trim func) ≠ "noaction")
    (hfind : lib.api.find module func = .ok (some (canon, spec))) : (lib.call module func (args.map written)).result =
      .ok ⟨fs.filterMap fun f => (get? f.name args).map f.piece, spec⟩ := by
  rw [Library.call, ofCall, beq_false_of_ne hfn, if_neg Bool.false_ne_true]
  simp only [result_bind, result_liftM, hfind, mapError, Except.bind, isTruthy_of_offers hspec.toOffers hfs]
  exact ofSpec_named hmod hspec hfs hargs hback hnd hnms hlatin hwrap

end Placed
end BlockScript
