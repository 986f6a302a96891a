import BlockScript.Proofs.Independence
import BlockScript.World.Listing

/-!
# Scopes

The end of the scope of a selection makes a selection: the one made last before the scope was opened, or the default of
the scope's domain if there was none (`Program.selection_restored`). What was selected in another block counts as well,
and of a selection that was negated only the affirmed form is made again (`Data.exists_negation_dropped`).

Worlds are listed with braces on lines of their own. Those open no scope, so that the scope of a condition is lost when
a listing is compiled (`Data.listed_scope_lost`).
-/

open Option List
namespace BlockScript
open Program Instruction
open Script (Compile)
namespace Program
variable {ctx : Context} {s s' : State} {i : Instruction} {a : Action} {scope : Option Action} {negated negated' : Bool}
  {t raw : Text} {n : Nat} {namespaces ls : List Text} {outer : List OpenScope}

/-! ### Selections made -/

/-- The selection that an instruction makes, as the library has it, and whether it is negated: the one that the
instruction names, or the one that the end of a scope restores. -/
def Instruction.made? (s : State) : Instruction → Option (Action × Bool)
  | .selection a negated _ => some (a, negated)
  | .close =>
    match s.scopes with
    | .selection before default :: _ => let a := before.getD default; some (a, a.negated)
    | _ => none
  | _ => none

/-- The selections that lines make, one after another. -/
def selectionsOf (ctx : Context) (namespaces : List Text) : Nat → State → List Text → List (Action × Bool)
  | _, _, [] => []
  | n, s, raw :: rest =>
    match (line ctx namespaces n raw s).result with
    | .error _ => []
    | .ok s' =>
      ((code namespaces raw).bind fun (negated, t) =>
        (ofLine ctx (s.block.map fun b => b.owner) s.temps n negated t).result.toOption.bind
          (made? s)).toList ++ selectionsOf ctx namespaces (n + 1) s' rest

lemma selection_flush (h : (flush ctx s).result = .ok s') : s'.selection = s.selection := by
  rcases flush_ok h with ⟨-, rfl⟩ | ⟨-, -, -, -, -, rfl⟩ <;> rfl

lemma selection_exec (h : (exec ctx s i).result = .ok s') :
    s'.selection = ((i.made? s).map Prod.fst).or s.selection := by
  cases i with
  | idle | condition | result =>
    cases h
    rfl
  | close =>
    rw [exec] at h
    split at h
    next o outer hsc =>
      cases h
      cases o with
      | condition => simp [made?, hsc, closeScope]
      | selection before default => cases before <;> simp [made?, hsc, closeScope]
    next hsc => simp [made?, hsc, selection_flush h]
  | start head =>
    obtain ⟨s₁, owner, params, hfl, -, rfl⟩ := beginBlock_ok h
    exact (selection_flush hfl : s₁.selection = s.selection)
  | selection a negated scope => cases scope <;> cases h <;> rfl
  | actions as temps =>
    cases h
    exact State.foldl_add (P := fun s' => s'.selection = s.selection) (fun _ _ hs => hs) as rfl

/-- Behind some lines the selection in force is the last that they made, or the one that was in force before them. -/
lemma selection_lines (h : (lines ctx namespaces n s ls).result = .ok s') :
    s'.selection = ((selectionsOf ctx namespaces n s ls).getLast?.map Prod.fst).or s.selection := by
  induction ls generalizing n s with
  | nil =>
    cases h
    rfl
  | cons raw ls ih =>
    rw [lines, Compile.bind_ok] at h
    obtain ⟨s₁, hln, h⟩ := h
    rw [selectionsOf, hln, ih h]
    rcases line_ok hln with ⟨hcd, rfl⟩ | ⟨negated, t, i, hcd, hi, hexec⟩
    · simp [hcd]
    rw [selection_exec hexec]
    simp only [hcd, bind_some, hi, Except.toOption, getLast?_append]
    cases i.made? s <;> simp

/-! ### Inside of a scope -/

/-- How many of the scopes that some lines of a block open are open behind them, if `d` were open before. There is no
such number if the lines close a scope that was open before those, or begin a block. -/
def openAfter (namespaces : List Text) : Nat → List Text → Option Nat
  | d, [] => some d
  | d, raw :: rest =>
    match code namespaces raw with
    | none => openAfter namespaces d rest
    | some (_, t) =>
      match roleOf true t, d with
      | .close, d + 1 => openAfter namespaces d rest
      | .scope, d => openAfter namespaces (d + 1) rest
      | .flat, d => openAfter namespaces d rest
      | _, _ => none

/-- The state is in a block, in `d` scopes inside others. -/
def State.Inside (outer : List OpenScope) (d : Nat) (s : State) : Prop :=
  s.block.isSome ∧ ∃ inner, s.scopes = inner ++ outer ∧ inner.length = d

lemma State.Inside.flat {d : Nat} (hs : s.Inside outer d) (hi : i.Flat ctx) (h : (exec ctx s i).result = .ok s') :
    s'.Inside outer d := by
  obtain ⟨hblk, inner, hsc, hd⟩ := hs
  cases hi with
  | idle =>
    cases h
    exact ⟨hblk, inner, hsc, hd⟩
  | actions as temps _ =>
    cases h
    exact State.foldl_add (fun s a hs => ⟨by simpa using hs.1, hs.2⟩) as
      ⟨hblk, inner, hsc, hd⟩
  | result a _ | selection a negated _ =>
    cases h
    exact ⟨by simpa using hblk, inner, hsc, hd⟩

lemma State.Inside.enter {d : Nat} (hs : s.Inside outer d) (hi : i.Plays ctx .scope)
    (h : (exec ctx s i).result = .ok s') : s'.Inside outer (d + 1) := by
  obtain ⟨hblk, inner, hsc, hd⟩ := hs
  rcases hi with ⟨a, -, rfl⟩ | ⟨a, negated, default, -, rfl, -⟩
  all_goals
    cases h
    exact ⟨by simpa [State.enter] using hblk, _ :: inner, congrArg (_ :: ·) hsc, congrArg (· + 1) hd⟩

lemma State.Inside.close {d : Nat} (hs : s.Inside outer (d + 1)) (h : (exec ctx s .close).result = .ok s') :
    s'.Inside outer d := by
  obtain ⟨hblk, inner, hsc, hd⟩ := hs
  obtain ⟨o, inner, rfl⟩ := exists_cons_of_length_eq_add_one hd
  rw [exec, hsc] at h
  cases h
  have hlen : inner.length = d := by simpa using hd
  cases o with
  | condition => exact ⟨by simpa [closeScope] using hblk, inner, rfl, hlen⟩
  | selection before default => cases before <;> exact ⟨by simpa [closeScope] using hblk, inner, rfl, hlen⟩

/-- Lines inside a scope leave what is around it as it was. -/
theorem State.Inside.lines {d d' : Nat} (hs : s.Inside outer d) (hd : openAfter namespaces d ls = some d')
    (h : (lines ctx namespaces n s ls).result = .ok s') : s'.Inside outer d' := by
  induction ls generalizing n s d with
  | nil =>
    cases h
    cases hd
    exact hs
  | cons raw ls ih =>
    rw [lines, Compile.bind_ok] at h
    obtain ⟨s₁, hln, h⟩ := h
    rw [openAfter] at hd
    rcases line_ok hln with ⟨hcd, rfl⟩ | ⟨negated, t, i, hcd, hi, hexec⟩
    · rw [hcd] at hd
      exact ih hs hd h
    have hplay := ofLine_ok hi
    rw [isSome_map, hs.1] at hplay
    simp only [hcd] at hd
    split at hd
    next d hrole =>
      rw [hrole] at hplay
      obtain rfl : i = .close := hplay
      exact ih (hs.close hexec) hd h
    next d hrole =>
      rw [hrole] at hplay
      exact ih (hs.enter hplay hexec) hd h
    next d hrole =>
      rw [hrole] at hplay
      exact ih (hs.flat hplay hexec) hd h
    · contradiction

/-! ### The end of a scope -/

/-- The line opens the scope of a selection. -/
def Opens (namespaces : List Text) (raw : Text) (sel : Line.Select) : Prop :=
  ∃ negated t, code namespaces raw = some (negated, t) ∧ t ≠ "\x7d".toList ∧ Line.If.ofLine? t = none
    ∧ Line.Start.ofLine? t = none ∧ Line.select? t = some sel ∧ sel.opens

lemma exists_default_of_opens {sel : Line.Select} (hopens : Opens namespaces raw sel) (hblk : s.block.isSome)
    (h : (line ctx namespaces n raw s).result = .ok s') : ∃ default, IsDefault ctx sel default ∧ s'.block.isSome
      ∧ s'.scopes = .selection s.selection default :: s.scopes := by
  obtain ⟨negated, t, hcd, hcl, hif, hst, hsel, hopens⟩ := hopens
  rcases line_ok h with ⟨hnone, -⟩ | ⟨negated', t', i, hcd', hi, hexec⟩
  · simp [hcd] at hnone
  obtain ⟨rfl, rfl⟩ : negated = negated' ∧ t = t' := by simpa [hcd] using hcd'
  obtain ⟨b, hb⟩ := isSome_iff_exists.mp hblk
  have hselect : (ofSelect ctx negated sel).result = .ok i := by
    simpa only [ofLine, beq_false_of_ne hcl, Bool.false_eq_true, if_false, hif, hst, hb, map_some,
      ofInner, hsel] using hi
  obtain ⟨a, opened, -, rfl, hscope, hdef⟩ := ofSelect_ok hselect
  rw [hopens] at hscope
  obtain ⟨default, rfl⟩ := isSome_iff_exists.mp hscope
  cases hexec
  exact ⟨default, hdef default rfl, by simpa [State.enter] using hblk, rfl⟩

/-- In a script that compiles, the end of a scope makes the selection that the lines before the scope made last, in this
block or in another, as the library has it, also if it was negated; the default of the scope's domain if they made
none. -/
theorem selection_restored {p : Prepared} {final : State} {pre body post : List Text} {opening closing : Text}
    {sel : Line.Select} (hrun : (run ctx p).result = .ok final)
    (hlines : p.lines = pre ++ opening :: (body ++ closing :: post))
    (hopens : Opens p.namespaces opening sel) (hbody : openAfter p.namespaces 0 body = some 0)
    (hclosing : ∃ negated, code p.namespaces closing = some (negated, "\x7d".toList)) :
    ∃ s, (lines ctx p.namespaces 1 .start pre).result = .ok s ∧ (s.block.isSome →
      ∃ s₁ s₂ default restored, (lines ctx p.namespaces 1 .start (pre ++ opening :: body)).result = .ok s₁
        ∧ (lines ctx p.namespaces 1 .start (pre ++ opening :: (body ++ [closing]))).result = .ok s₂
        ∧ IsDefault ctx sel default
        ∧ restored = ((selectionsOf ctx p.namespaces 1 .start pre).getLast?.map Prod.fst).getD default
        ∧ s₁.Extends [restored] false s₂ ∧ s₂.selection = some restored ∧ s₂.scopes = s.scopes) := by
  obtain ⟨s', hall, -⟩ := run_ok hrun
  have hwh : p.lines = pre ++ (opening :: body ++ closing :: post) := by simp [hlines]
  rw [hwh, lines_append] at hall
  cases hpre : (lines ctx p.namespaces 1 .start pre).result with
  | error e => simp [hpre, Except.bind] at hall
  | ok s =>
    refine ⟨s, rfl, fun hblk => ?_⟩
    rw [hpre, ok_bind, lines_append] at hall
    cases hbeh : (lines ctx p.namespaces (1 + pre.length) s (opening :: body)).result with
    | error e => simp [hbeh, Except.bind] at hall
    | ok s₁ =>
      have hfr : (lines ctx p.namespaces 1 .start (pre ++ opening :: body)).result = .ok s₁ := by
        rw [lines_append, hpre, ok_bind, hbeh]
      rw [hbeh, ok_bind, lines, Compile.bind_ok] at hall
      obtain ⟨s₂, hlast, -⟩ := hall
      have hthree : (lines ctx p.namespaces 1 .start (pre ++ opening :: (body ++ [closing]))).result = .ok s₂ := by
        rw [← cons_append, lines_append, hpre, ok_bind, lines_append, hbeh, ok_bind, lines, Compile.bind_ok]
        exact ⟨s₂, hlast, rfl⟩
      rw [lines, Compile.bind_ok] at hbeh
      obtain ⟨s₀, hopening, hin⟩ := hbeh
      obtain ⟨default, hdef, hblock₀, hsc⟩ := exists_default_of_opens hopens hblk hopening
      have hins : s₀.Inside (.selection s.selection default :: s.scopes) 0 := ⟨hblock₀, [], hsc, rfl⟩
      obtain ⟨-, inner, hsc₁, hnil⟩ := hins.lines hbody hin
      obtain rfl := eq_nil_of_length_eq_zero hnil
      obtain ⟨negated, hcd⟩ := hclosing
      have hend : (exec ctx s₁ .close).result = .ok s₂ := by
        rcases line_ok hlast with ⟨hnone, -⟩ | ⟨negated', t, i, hcd', hi, hexec⟩
        · simp [hcd] at hnone
        obtain ⟨-, rfl⟩ : negated = negated' ∧ "\x7d".toList = t := by simpa [hcd] using hcd'
        obtain rfl : i = .close := ofLine_ok hi
        exact hexec
      have hadded : Instruction.close.added s₁ = [s.selection.getD default] := by simp [added, hsc₁]
      refine ⟨s₁, s₂, default, s.selection.getD default, hfr, hthree, hdef, ?_, ?_, ?_⟩
      · simp [selection_lines hpre, State.start]
      · rcases exec_cases hend with ⟨-, hemp, -⟩ | ⟨head, -, -, -, hhead, -⟩ | ⟨-, -, hextends⟩
        · simp [hsc₁] at hemp
        · contradiction
        · rwa [hadded] at hextends
      · rw [exec, hsc₁] at hend
        cases hend
        cases s.selection <;> exact ⟨rfl, rfl⟩

end Program
namespace Data

/-- A library with a selection by a condition, an action and a condition. -/
def conditionApi : Json := .obj [
  sampleSelect
    [("all", sampleSpec "Выбрать объект" "все" []), ("c", sampleSpec "Выбрать объект" "Игрок по условию" [])],
  ("a", .obj [("b", sampleSpec "Игра" "b" [])]), ("if_player", .obj [("d", sampleSpec "Если" "d" [])])]

def conditionSample : Data :=
  { sample with api := .value conditionApi, blocks := some "[(select) Выбрать объект][(game) Игра][(planks) Если]" }

def negatedLines : List Text :=
  texts ["event(x) \x7b", "NOT select.c", "select.all \x7b", "a.b()", "\x7d", "\x7d"]

def negatedScope : Files := script (Text.joinWith "\n" negatedLines)

-- one evaluation, since each of these reads the library
lemma negatedScope_passes :
    (passes (conditionSample.ready negatedScope).result fun ctx _ =>
      decide ((lines ctx [] 1 .start (negatedLines.take 2)).result.toOption.any (fun s => s.block.isSome)
        ∧ (selectionsOf ctx [] 1 .start (negatedLines.take 2)).map Prod.snd = [true]))
    ∧ ((conditionSample.ready negatedScope).result.toOption.all
      fun c => decide (c.2.lines = negatedLines ∧ c.2.namespaces = []))
    ∧ (conditionSample.plan negatedScope).result.toOption.any
      fun es => decide (∃ made ∈ es[1]?, ∃ restored ∈ es.getLast?,
        made.negated = true ∧ restored = { made with negated := false }) := by
  decide +kernel

lemma negatedScope_lines {ctx : Program.Context} {p : Program.Prepared}
    (h : (conditionSample.ready negatedScope).result = .ok (ctx, p)) :
    p.lines = negatedLines ∧ p.namespaces = [] := by
  have hall := negatedScope_passes.2.1
  rw [h] at hall
  exact of_decide_eq_true hall

-- the selection that the end of the scope makes is the one of the second line, without its negation
theorem selection_restored_negatedScope : ∃ ctx p final s₂ made restored,
    (conditionSample.ready negatedScope).result = .ok (ctx, p)
      ∧ (Program.run ctx p).result = .ok final
      ∧ Program.selectionsOf ctx [] 1 .start (negatedLines.take 2) = [made] ∧ made.2 = true
      ∧ (Program.lines ctx [] 1 .start (negatedLines.take 5)).result = .ok s₂
      ∧ s₂.selection = some restored ∧ restored = made.1 := by
  obtain ⟨ctx, p, final, hset, hrun, htest⟩ := exists_of_passes negatedScope_passes.1
  obtain ⟨hlines, hnss⟩ := negatedScope_lines hset
  obtain ⟨hopen, hmade⟩ := of_decide_eq_true htest
  obtain ⟨made, hmade, hneg⟩ := map_eq_singleton_iff.1 hmade
  obtain ⟨s, hs, hblk⟩ := exists_of_any hopen
  have hpts : p.lines = negatedLines.take 2
      ++ "select.all \x7b".toList :: (["a.b()".toList] ++ "\x7d".toList :: ["\x7d".toList]) := hlines.trans (by decide)
  have hopens : Program.Opens p.namespaces "select.all \x7b".toList ⟨"all", "", true⟩ :=
    ⟨false, "select.all \x7b".toList, by rw [hnss]; decide⟩
  obtain ⟨s', hs', h⟩ := selection_restored hrun hpts hopens (by rw [hnss]; decide)
    ⟨false, by rw [hnss]; decide⟩
  rw [hnss] at hs' h
  obtain rfl : s = s' := Except.ok.inj (hs.symm.trans hs')
  obtain ⟨-, s₂, default, restored, -, hs₂, -, hrest, -, hselection, -⟩ := h hblk
  rw [hmade] at hrest
  exact ⟨ctx, p, final, s₂, made, restored, hset, hrun, hmade, hneg, hs₂, hselection, hrest⟩

/-- Behind a negated selection, the end of a scope makes that selection without its negation. -/
theorem exists_negation_dropped : ∃ es made restored,
    (conditionSample.plan negatedScope).result = .ok es
      ∧ es[1]? = some made ∧ es.getLast? = some restored
      ∧ made.negated = true ∧ restored = { made with negated := false } := by
  obtain ⟨es, hes, htest⟩ := exists_of_any negatedScope_passes.2.2
  obtain ⟨made, hmade, restored, hrest, h⟩ := of_decide_eq_true htest
  exact ⟨es, made, restored, hes, hmade, hrest, h⟩

def blockAt (x : Int) (kind : Text) (sign : List Text) (facing : Text) : Json :=
  .obj [("pos", .obj [("x", .int x)]), ("block", .str ("minecraft:" ++ kind)), ("sign", .texts sign),
    ("facing", .str facing)]

def conditionBlocks : List Json := [blockAt 10 "diamond_block" (texts ["", "x"]) [],
  blockAt 8 "planks" (texts ["Если", "d"]) [], blockAt 7 "piston" [] "west",
  blockAt 6 "game" (texts ["Игра", "b"]) [], blockAt 5 "piston" [] "east", blockAt 4 "game" (texts ["Игра", "b"]) []]

/-- What is listed for a world is compiled without the end of the condition and without what is behind it. -/
theorem listed_scope_lost : ∃ t es,
    World.listing (.obj [("rows", .arr [.obj [("blocks", .arr conditionBlocks)]])]) conditionApi = .ok t
      ∧ (conditionSample.plan (script t)).result = .ok es
      ∧ es.map Entry.block = texts ["diamond_block", "planks", "game"] := by
  have hsort : World.sortBlocks conditionBlocks = .ok conditionBlocks := by
    change Except.ok (List.map _ (List.mergeSort _ _)) = _
    rw [mergeSort_of_pairwise (by decide)]
    rfl
  have hany : (World.Index.ofApi conditionApi).toOption.any fun idx => (World.placeLines idx
      (conditionBlocks.tail.filterMap fun b => (World.placeOf b).int?.map fun x => (x, b)) 7 8 1).toOption.any
        fun body =>
        (conditionSample.plan (script (Text.trimEnd (Text.joinWith "\n"
          (("event(\"x\") \x7b" : Text) :: body ++ [['\x7d'], []])) ++ "\n"))).result.toOption.any fun es =>
            es.map Entry.block == texts ["diamond_block", "planks", "game"] := by
    decide +kernel
  obtain ⟨idx, hidx, hany⟩ := exists_of_any hany
  obtain ⟨body, hbody, hany⟩ := exists_of_any hany
  obtain ⟨es, hes, hblocks⟩ := exists_of_any hany
  have hrow : World.rowLines idx 0 (.obj [("blocks", .arr conditionBlocks)])
      = .ok (("event(\"x\") \x7b" : Text) :: body ++ [['\x7d'], []]) :=
    bind_eq_ok.mpr ⟨_, rfl, bind_eq_ok.mpr ⟨_, congrArg _ hsort, bind_eq_ok.mpr ⟨_, rfl, bind_eq_ok.mpr
      ⟨body, congrArg _ hbody, rfl⟩⟩⟩⟩
  have hrows : World.rowsLines idx 0 [.obj [("blocks", .arr conditionBlocks)]] = .ok _ :=
    bind_eq_ok.mpr ⟨_, hrow, bind_eq_ok.mpr ⟨[], rfl, congrArg Except.ok (append_nil _)⟩⟩
  exact ⟨_, es, bind_eq_ok.mpr ⟨idx, congrArg _ hidx, bind_eq_ok.mpr ⟨_, rfl, bind_eq_ok.mpr ⟨_, rfl, bind_eq_ok.mpr
    ⟨_, rfl, bind_eq_ok.mpr ⟨_, hrows, rfl⟩⟩⟩⟩⟩, hes, eq_of_beq hblocks⟩

end Data
end BlockScript
