import BlockScript.Proofs.Balance
import BlockScript.Proofs.Faithful
import BlockScript.Proofs.Instructions

/-!
# Nested scripts

In a script whose scopes are all closed inside their blocks, the actions gathered for a block open a scope for
every condition that is open, and no scope is open at a recorded boundary. So an event and a function without parameters
are put into balanced rows. The boundaries of a function with parameters are recorded before the actions that take the
arguments are put in front, and are not moved: its rows are balanced only if the places at which it is cut happen to
stand in no scope (`Data.balanced_iff`).
-/

open List Option
namespace BlockScript
open Program
open Script (Settings)
open Script.Compile (bind_ok)
open Plan
namespace Program
variable {ctx : Context} {s s' : State} {b : OpenBlock} {i : Instruction} {namespaces ls : List Text} {n : Nat}

/-! ### Levels -/

/-- Where a script is behind a line, from where it was before: outside blocks, or in a block with so many open scopes.
No block begins in another one, and no scope is opened outside. -/
def Role.level : Role → Option Nat → Option (Option Nat)
  | .close, none | .close, some 0 => some none
  | .close, some (d + 1) => some (some d)
  | .scope, none => none
  | .scope, some d => some (some (d + 1))
  | .start, none => some (some 0)
  | .start, some _ => none
  | .flat, l => some l

/-- Where a script is behind some lines. -/
def levelAfter (namespaces : List Text) : Option Nat → List Text → Option (Option Nat)
  | l, [] => some l
  | l, raw :: rest =>
    match code namespaces raw with
    | none => levelAfter namespaces l rest
    | some (_, t) => ((roleOf l.isSome t).level l).bind fun l => levelAfter namespaces l rest

/-- Every scope and every block of a script is closed, a scope before the block in which it was opened. -/
def Prepared.Nested (p : Prepared) : Prop := levelAfter p.namespaces none p.lines = some none

instance (p : Prepared) : Decidable p.Nested := inferInstanceAs (Decidable (_ = _))

/-! ### Actions that neither open nor close scopes -/

/-- What the library places closes no scope. -/
structure Context.Quiet (ctx : Context) : Prop where
  library : ∀ a, OfLibrary ctx a → Neutral a
  player : Neutral ctx.defaultPlayer
  entity : Neutral ctx.defaultEntity

lemma Context.Quiet.setting (h : ctx.Quiet) : ctx.toSetting.Quiet := by
  refine ⟨h.player, fun k a hcall => h.library a ?_⟩
  rw [Setting.callHelper, bind_ok] at hcall
  obtain ⟨p, -, hcall⟩ := hcall
  exact Instruction.ofLibrary_place hcall

lemma quiet_of_blocks (hskip : ∀ e ∈ ctx.palette.blocks, Palette.plainBlock e.2 ≠ "skip")
    (hplay : ∃ p, (Action.ofPlaced ctx.palette p).result = .ok ctx.defaultPlayer)
    (hety : ∃ p, (Action.ofPlaced ctx.palette p).result = .ok ctx.defaultEntity) : ctx.Quiet := by
  have hplc : ∀ p a, (Action.ofPlaced ctx.palette p).result = .ok a → Neutral a := by
    intro p a h
    obtain ⟨-, hop, -, key, block, hblk, ha⟩ := Action.ofPlaced_ok h
    obtain ⟨before, behind, heq, -⟩ := lookup_eq_some_iff.mp hblk
    exact ⟨hop, by simpa [Action.closes, ha] using hskip (key, block) (by simp [heq])⟩
  refine ⟨?_, hplc _ _ hplay.choose_spec, hplc _ _ hety.choose_spec⟩
  rintro a ⟨p, a', negated, h, rfl⟩
  have ha := hplc p a' h
  exact ⟨ha.opens, ha.closes⟩

/-! ### What every line keeps -/

/-- What the actions of an open block do while `d` conditions are open. -/
structure OpenBlock.Keeps (b : OpenBlock) (d : Nat) : Prop where
  proper : Proper b.actions
  depth : depthAfter 0 b.actions = some d
  /-- No scope is open at a boundary. -/
  safe : ∀ bd ∈ b.boundaries, bd.pos ≤ b.actions.length ∧ Matched (b.actions.take bd.pos)
  records : ∀ bd ∈ b.boundaries, ∀ a, bd.selection = some a → Neutral a

/-- What the actions of a block put into rows do. Boundaries are safe unless actions were put in front. -/
structure Finished.Keeps (f : Finished) : Prop where
  regular : Regular f.left.actions
  safe : (∃ name, f.block.owner = .event name) ∨ f.block.params = [] → f.left.Safe
  records : f.left.Records 0 fun _ a => Neutral a

/-- The selections taken back when a scope is closed neither open nor close one. -/
def OpenScope.Quiet : OpenScope → Prop
  | .condition => True
  | .selection before default => (∀ a, before = some a → Neutral a) ∧ Neutral default

/-- What every line of a nested script keeps. -/
structure State.Keeps (s : State) (l : Option Nat) : Prop where
  level : s.block.map (fun _ => s.scopes.length) = l
  outside : s.block = none → s.scopes = []
  selection : ∀ a, s.selection = some a → Neutral a
  scopes : ∀ o ∈ s.scopes, o.Quiet
  block : ∀ b, s.block = some b → b.Keeps s.conditions
  done : ∀ f ∈ s.done, f.Keeps

namespace State
variable {d : Nat} {a : Action} {l : Option Nat}

/-- A block is kept when an action is added, if the action leaves as many scopes open as there are conditions. -/
lemma keeps_extend (hb : b.Keeps d) (hsel : ∀ a, s.selection = some a → Neutral a)
    (hprop : a.opens → a.closes = false) (hdep : depthAfter d [a] = some s.conditions) :
    (s.extend b a).Keeps s.conditions := by
  have hall : depthAfter 0 (b.actions ++ [a]) = some s.conditions := by
    rw [depthAfter_append, hb.depth]
    exact hdep
  have hold : ∀ bd ∈ b.boundaries, bd.pos ≤ (b.actions ++ [a]).length ∧ Matched ((b.actions ++ [a]).take bd.pos) := by
    intro bd hbd
    obtain ⟨hle, hmt⟩ := hb.safe bd hbd
    rw [take_append_of_le_length hle, length_append]
    exact ⟨Nat.le_add_right_of_le hle, hmt⟩
  constructor
  case proper => exact forall_mem_append.mpr ⟨hb.proper, forall_mem_singleton.mpr hprop⟩
  case depth => exact hall
  case safe =>
    intro bd hbd
    simp only [extend] at hbd
    split at hbd
    next hsc =>
      rcases mem_addBoundary hbd with hbd | rfl
      · exact hold bd hbd
      have hzero : s.conditions = 0 := by simp [conditions, List.isEmpty_iff.mp hsc]
      refine ⟨Nat.le_refl _, ?_⟩
      change Matched ((b.actions ++ [a]).take (b.actions ++ [a]).length)
      rw [take_length, Matched, hall, hzero]
    · exact hold bd hbd
  case records =>
    intro bd hbd c hc
    rcases mem_boundaries_extend hbd with hbd | hbd
    · exact hb.records bd hbd c hc
    · exact hsel c (hbd ▸ hc)

lemma depthAfter_neutral (ha : Neutral a) : depthAfter d [a] = some d :=
  depthAfter_of_neutral (by simpa using ha)

lemma Keeps.add_neutral (hs : s.Keeps l) (ha : Neutral a) : (s.add a).Keeps l := by
  refine ⟨?_, fun h => hs.outside (by simpa using h), hs.selection, hs.scopes, fun b' hb' => ?_, hs.done⟩
  · rw [← hs.level, block_add, Option.map_map]
    rfl
  obtain ⟨b, hb, rfl⟩ := map_eq_some_iff.mp hb'
  refine keeps_extend (hs.block b hb) hs.selection (fun h => ?_) (depthAfter_neutral ha)
  exact ha.closes

lemma Keeps.select (sel : Option Action) (hs : s.Keeps l) (hsel : ∀ a, sel = some a → Neutral a) :
    ({ s with selection := sel } : State).Keeps l :=
  ⟨hs.level, hs.outside, hsel, hs.scopes, hs.block, hs.done⟩

lemma Keeps.closeScope {o : OpenScope} {outer : List OpenScope} (hs : s.Keeps (some (d + 1)))
    (hsc : s.scopes = o :: outer) : (closeScope o { s with scopes := outer }).Keeps (some d) := by
  obtain ⟨b, hb, hlen⟩ := map_eq_some_iff.mp hs.level
  rw [hsc, length_cons, Nat.add_right_cancel_iff] at hlen
  have hquiet := hs.scopes
  rw [hsc] at hquiet
  have hkp := hs.block b hb
  cases o with
  | condition =>
    have hcond : s.conditions = { s with scopes := outer }.conditions + 1 := by
      simp [conditions, hsc]
    refine ⟨?_, fun h => ?_, hs.selection, fun o ho => hquiet o (by simp_all [Program.closeScope]),
      fun b' hb' => ?_, hs.done⟩
    · simp [Program.closeScope, hb, hlen]
    · simp [Program.closeScope, hb] at h
    obtain ⟨b'', hb'', rfl⟩ := map_eq_some_iff.mp hb'
    obtain rfl := some.inj (hb.symm.trans hb'')
    refine keeps_extend hkp hs.selection (fun h => by contradiction) ?_
    rw [hcond]
    rfl
  | selection before default =>
    have hcond : s.conditions = { s with scopes := outer }.conditions := by
      simp [conditions, hsc]
    have hout : { s with scopes := outer }.Keeps (some d) := by
      refine ⟨by simp [hb, hlen], fun h => ?_, hs.selection, fun o ho => hquiet o (by simp_all),
        fun b' hb' => ?_, hs.done⟩
      · rw [show s.block = none from h] at hb
        contradiction
      rw [← hcond]
      exact hs.block b' hb'
    obtain ⟨hbef, hdef⟩ := hquiet (.selection before default) (by simp)
    cases before with
    | none =>
      refine ((hout.select none (by simp)).add_neutral hdef).select (some default) fun a ha => ?_
      cases ha
      exact hdef
    | some before =>
      exact (hout.select (some before) hbef).add_neutral (hbef before rfl)

end State

/-- All actions of a block: nothing is put before the actions of an event or of a function without parameters. -/
lemma fullActions_ok {as : List Action} (h : (fullActions ctx b).result = .ok as) :
    ∃ pre post, as = pre ++ (b.actions ++ post) ∧ (∀ a ∈ pre ++ post, OfLibrary ctx a)
      ∧ ((∃ name, b.owner = .event name) ∨ b.params = [] → pre = []) := by
  cases hown : b.owner with
  | func name =>
    simp only [fullActions, hown, bind_ok] at h
    obtain ⟨pre, hpre, h⟩ := h
    have hnone : (∃ name', Owner.func name = .event name') ∨ b.params = [] → pre = [] := by
      rintro (⟨name', hnm⟩ | hps)
      · contradiction
      rw [hps] at hpre
      exact (Except.ok.inj hpre).symm
    have hlib := Instruction.ofLibrary_prologue hpre
    split at h
    next =>
      cases h
      exact ⟨pre, [], by simp, by simpa using hlib, hnone⟩
    rw [bind_ok] at h
    obtain ⟨ret, hret, h⟩ := h
    cases h
    refine ⟨pre, [ret], by simp, fun a ha => ?_, hnone⟩
    rcases mem_append.mp ha with ha | ha
    · exact hlib a ha
    · exact mem_singleton.mp ha ▸ Instruction.ofLibrary_returnAction hret
  | event | loop =>
    simp only [fullActions, hown] at h
    cases h
    exact ⟨[], [], by simp, by simp, fun _ => rfl⟩

lemma Finished.keeps_of_full {f : Finished} (hctx : ctx.Quiet) (hb : f.block.Keeps 0)
    (hfull : (fullActions ctx f.block).result = .ok f.left.actions) (hsel : ∀ a, s.selection = some a → Neutral a)
    (hbnd : f.left.boundaries = f.block.boundaries ∨ s.scopes = []
      ∧ f.left.boundaries = State.addBoundary f.block.boundaries ⟨f.left.actions.length, s.selection⟩) : f.Keeps := by
  obtain ⟨pre, post, heq, hlib, hnone⟩ := fullActions_ok hfull
  have hneut : ∀ a ∈ pre ++ post, Neutral a := fun a ha => hctx.library a (hlib a ha)
  have hreg : Regular f.left.actions := by
    rw [heq]
    refine Regular.append (.of_neutral fun a ha => hneut a (by simp [ha])) (.append ⟨hb.proper, hb.depth⟩ ?_)
    exact .of_neutral fun a ha => hneut a (by simp [ha])
  have hbnd : ∀ bd ∈ f.left.boundaries, bd ∈ f.block.boundaries ∨ bd = ⟨f.left.actions.length, s.selection⟩ := by
    intro bd hbd
    rcases hbnd with h | ⟨-, h⟩
    · exact .inl (h ▸ hbd)
    · exact State.mem_addBoundary (h ▸ hbd)
  refine ⟨hreg, fun hfr bd hbd => ?_, fun bd hbd a ha => ?_⟩
  · rcases hbnd bd hbd with hbd | rfl
    · obtain ⟨hle, hmt⟩ := hb.safe bd hbd
      rwa [heq, hnone hfr, nil_append, take_append_of_le_length hle]
    rw [take_length]
    exact hreg.matched
  rcases hbnd bd hbd with hbd | rfl
  · exact hb.records bd hbd a ha
  · exact hsel a ha

namespace State
variable {l : Option Nat}

lemma Keeps.flush (hctx : ctx.Quiet) (hs : s.Keeps l) (hsc : s.scopes = [])
    (h : (flush ctx s).result = .ok s') : s'.Keeps none := by
  rcases flush_ok h with ⟨hblk, rfl⟩ | ⟨f, next, hblk, hmade, hbnd, rfl⟩
  · exact ⟨by rw [hblk]; rfl, hs.outside, hs.selection, hs.scopes, hs.block, hs.done⟩
  have hzero : s.conditions = 0 := by simp [conditions, hsc]
  have hf : f.Keeps :=
    f.keeps_of_full hctx (hzero ▸ hs.block f.block hblk) hmade.full hs.selection hbnd
  refine ⟨rfl, fun _ => hsc, hs.selection, hs.scopes, fun b hb => by simp at hb, fun g hg => ?_⟩
  rcases mem_append.mp hg with hg | hg
  · exact hs.done g hg
  · exact mem_singleton.mp hg ▸ hf

lemma Keeps.exec_close {l' : Option Nat} (hctx : ctx.Quiet) (hs : s.Keeps l) (hl : Role.close.level l = some l')
    (h : (exec ctx s .close).result = .ok s') : s'.Keeps l' := by
  rw [exec] at h
  cases hsc : s.scopes with
  | nil =>
    simp only [hsc] at h
    have hl' : l' = none := by
      have hlv := hs.level
      rw [hsc] at hlv
      cases hb : s.block <;> simp [hb] at hlv <;> subst hlv <;> exact (some.inj hl).symm
    rw [hl']
    exact hs.flush hctx hsc h
  | cons o outer =>
    simp only [hsc] at h
    cases h
    obtain rfl : some (outer.length + 1) = l := by
      cases hb : s.block with
      | none => simp [hs.outside hb] at hsc
      | some b => simpa [hb, hsc] using hs.level
    cases hl
    exact hs.closeScope hsc

lemma Keeps.condition {d : Nat} {a : Action} (hs : s.Keeps (some d)) (ha : Neutral a) :
    ((s.enter .condition).add { a with opens := true }).Keeps (some (d + 1)) := by
  obtain ⟨b, hb, hlen⟩ := map_eq_some_iff.mp hs.level
  refine ⟨by simp [enter, hb, hlen], fun hnone => by simp [enter, hb] at hnone, hs.selection, fun o ho => ?_,
    fun b' hb' => ?_, hs.done⟩
  · rcases mem_cons.mp ho with rfl | ho
    · trivial
    · exact hs.scopes o ho
  obtain ⟨b, hb, rfl⟩ := map_eq_some_iff.mp hb'
  refine keeps_extend (hs.block b hb) hs.selection (fun _ => ha.closes) ?_
  simp [depthAfter, conditions, enter]

lemma Keeps.makeSelection {a : Action} (hs : s.Keeps l) (ha : Neutral a) (negated : Bool) :
    ({ s.add { a with negated } with selection := some a } : State).Keeps l := by
  refine (hs.add_neutral (a := { a with negated }) ⟨ha.opens, ha.closes⟩).select _ fun a' ha' => ?_
  cases ha'
  exact ha

lemma Keeps.enter_selection {d : Nat} {before : Option Action} {default : Action} (hs : s.Keeps (some d))
    (hbef : ∀ a, before = some a → Neutral a) (hdef : Neutral default) :
    (s.enter (.selection before default)).Keeps (some (d + 1)) := by
  obtain ⟨b, hb, hlen⟩ := map_eq_some_iff.mp hs.level
  refine ⟨by simp [enter, hb, hlen], fun hnone => by simp [enter, hb] at hnone, hs.selection, fun o ho => ?_,
    fun b' hb' => ?_, hs.done⟩
  · rcases mem_cons.mp ho with rfl | ho
    · exact ⟨hbef, hdef⟩
    · exact hs.scopes o ho
  · simpa [conditions, enter] using hs.block b' hb'

lemma Keeps.begin {head : Line.Start} (hctx : ctx.Quiet) (hs : s.Keeps none)
    (h : (exec ctx s (.start head)).result = .ok s') : s'.Keeps (some 0) := by
  have hblk : s.block = none := by simpa using hs.level
  obtain ⟨s₁, owner, params, hfl, -, rfl⟩ := beginBlock_ok h
  have hs₁ := hs.flush hctx (hs.outside hblk) hfl
  have hsc : s₁.scopes = [] := hs₁.outside (by simpa using hs₁.level)
  refine ⟨by simp [hsc], fun hnone => by simp at hnone, hs₁.selection, hs₁.scopes, fun b hb => ?_, hs₁.done⟩
  cases hb
  exact ⟨by simp [Proper], by simp [depthAfter, conditions, hsc], by simp, by simp⟩

lemma Keeps.foldl_neutral {as : List Action} (hs : s.Keeps l) (has : ∀ a ∈ as, Neutral a) :
    (as.foldl add s).Keeps l := by
  induction as generalizing s with
  | nil => exact hs
  | cons a as ih => exact ih (hs.add_neutral (has a (by simp))) fun b hb => has b (by simp [hb])

lemma Keeps.exec_flat (hctx : ctx.Quiet) (hs : s.Keeps l) (hi : i.Flat ctx)
    (h : (exec ctx s i).result = .ok s') : s'.Keeps l := by
  cases hi with
  | idle =>
    cases h
    exact hs
  | actions as temps has =>
    cases h
    refine Keeps.foldl_neutral ?_ fun a ha => hctx.library a (has a ha)
    exact ⟨hs.level, hs.outside, hs.selection, hs.scopes, hs.block, hs.done⟩
  | result a ha =>
    cases h
    refine Keeps.add_neutral ⟨?_, fun hnone => hs.outside (by simpa using hnone), hs.selection, hs.scopes,
      fun b' hb' => ?_, hs.done⟩ (hctx.library a ha)
    · rw [← hs.level, Option.map_map]
      rfl
    obtain ⟨b, hb, rfl⟩ := map_eq_some_iff.mp hb'
    obtain ⟨hprop, hdep, hsafe, hrecords⟩ := hs.block b hb
    exact ⟨hprop, hdep, hsafe, hrecords⟩
  | selection a negated ha =>
    cases h
    exact hs.makeSelection (hctx.library a ha) negated

theorem Keeps.exec {l' : Option Nat} {r : Role} (hctx : ctx.Quiet) (hs : s.Keeps l) (hi : i.Plays ctx r)
    (hl : r.level l = some l') (h : (exec ctx s i).result = .ok s') : s'.Keeps l' := by
  cases r with
  | close =>
    obtain rfl := hi
    exact hs.exec_close hctx hl h
  | scope =>
    cases l with
    | none => simp [Role.level] at hl
    | some d =>
      cases hl
      rcases hi with ⟨a, ha, rfl⟩ | ⟨a, negated, default, ha, rfl, hdef⟩
      · cases h
        exact hs.condition (hctx.library a ha)
      cases h
      refine (hs.makeSelection (hctx.library a ha) negated).enter_selection hs.selection ?_
      rcases hdef with rfl | rfl
      · exact hctx.player
      · exact hctx.entity
  | start =>
    cases l with
    | some d => simp [Role.level] at hl
    | none =>
      cases hl
      obtain ⟨head, rfl⟩ := hi
      exact hs.begin hctx h
  | flat =>
    cases hl
    exact hs.exec_flat hctx hi h

/-- What every instruction keeps at the level of its line holds behind lines at the level behind them. -/
theorem lines_levels {P : State → Option Nat → Prop} {l' : Option Nat}
    (hlv : ∀ {s l}, P s l → s.block.isSome = l.isSome)
    (hexec : ∀ {s s' i r l l'}, P s l → i.Plays ctx r → r.level l = some l' → (exec ctx s i).result = .ok s' → P s' l')
    (hs : P s l) (hl : levelAfter namespaces l ls = some l') (h : (lines ctx namespaces n s ls).result = .ok s') :
    P s' l' := by
  induction ls generalizing n s l with
  | nil =>
    cases h
    cases hl
    exact hs
  | cons raw ls ih =>
    rw [Program.lines, bind_ok] at h
    obtain ⟨s₁, hln, h⟩ := h
    rw [levelAfter] at hl
    rcases line_ok hln with ⟨hcd, rfl⟩ | ⟨negated, t, i, hcd, hi, hln⟩
    · rw [hcd] at hl
      exact ih hs hl h
    simp only [hcd] at hl
    obtain ⟨l₁, hl₁, hl⟩ := bind_eq_some_iff.mp hl
    have hplays := Instruction.ofLine_ok hi
    rw [isSome_map, hlv hs] at hplays
    exact ih (hexec hs hplays hl₁ hln) hl h

/-- What every line of a nested script keeps holds behind all lines. -/
theorem Keeps.lines {l' : Option Nat} (hctx : ctx.Quiet) (hs : s.Keeps l) (hl : levelAfter namespaces l ls = some l')
    (h : (lines ctx namespaces n s ls).result = .ok s') : s'.Keeps l' :=
  lines_levels (fun hs => by rw [← hs.level, isSome_map]) (fun hs => hs.exec hctx) hs hl h

end State

theorem keeps_of_run {p : Prepared} (hctx : ctx.Quiet) (hp : p.Nested) (h : (run ctx p).result = .ok s) :
    ∀ f ∈ s.done, f.Keeps := by
  obtain ⟨s₁, hls, hfl⟩ := run_ok h
  have hst : State.start.Keeps none :=
    ⟨rfl, fun _ => rfl, by simp [State.start], by simp [State.start], by simp [State.start], by simp [State.start]⟩
  have hs₁ := hst.lines hctx hp hls
  have hblk : s₁.block = none := by simpa using hs₁.level
  exact (hs₁.flush hctx (hs₁.outside hblk) hfl).done

end Program

/-! ### Data files -/

namespace Data
variable {cfg : Settings} {d : Data} {files : Files} {entry : Path} {shown : Text} {ctx : Program.Context}
  {p : Program.Prepared} {s : Program.State} {f : Program.Finished}

lemma quiet_of_setup (hsetup : (d.setup cfg files entry shown).result = .ok (ctx, p))
    (hskip : ∀ e ∈ d.loadBlocks, Palette.plainBlock e.2 ≠ "skip") : ctx.Quiet := by
  simp only [setup, bind_ok] at hsetup
  obtain ⟨-, -, api, -, aliases, -, events, -, n, -, -, -, h⟩ := hsetup
  simp only [Program.setup, bind_ok] at h
  obtain ⟨player, ⟨placed, -, hplay⟩, entity, ⟨placed', -, hety⟩, p', -, h⟩ := h
  cases h
  exact quiet_of_blocks hskip ⟨placed, hplay⟩ ⟨placed', hety⟩

/-- In a script whose scopes are all closed inside their blocks, the rows of an event or of a function without
parameters are balanced. The rows of a function with parameters are so iff every place at which its actions
are cut, those that take the arguments included, happens to stand in no scope. -/
theorem balanced_iff (hsetup : (d.setup cfg files entry shown).result = .ok (ctx, p))
    (hrun : (Program.run ctx p).result = .ok s) (hskip : ∀ e ∈ d.loadBlocks, Palette.plainBlock e.2 ≠ "skip")
    (hnested : p.Nested) (hf : f ∈ s.done) (hloop : ∀ name ticks, f.block.owner ≠ .loop name ticks) :
    (∀ r ∈ f.chains.flatten, r.Whole ctx.toSetting) ∧ ((∀ r ∈ f.chains.flatten, Balanced r.actions) ↔
      (∃ name, f.block.owner = .event name) ∨ f.block.params = []
        ∨ ∀ n, f.left.CutAt n → Balanced (f.left.actions.take n)) := by
  have hctx := quiet_of_setup hsetup hskip
  have hkp := keeps_of_run hctx hnested hrun f hf
  obtain ⟨m, m', hmade⟩ := (flushed_of_run hrun).made hf
  have hrows := hmade.rows
  cases hown : f.block.owner with
  | event name =>
    rw [hown] at hrows
    refine ⟨whole_of_flatten (Setting.blockRows_whole hrows rfl).2, iff_of_true ?_ (.inl ⟨name, rfl⟩)⟩
    exact Setting.blockRows_balanced hctx.setting hrows rfl hkp.regular (hkp.safe (.inl ⟨name, hown⟩)) hkp.records
  | func name =>
    rw [hown] at hrows
    refine ⟨whole_of_flatten (Setting.blockRows_whole hrows rfl).2, ?_⟩
    rw [Setting.blockRows_balanced_iff hctx.setting hrows hkp.regular]
    constructor
    · exact fun hcuts => .inr (.inr hcuts)
    · rintro (⟨name', hnm⟩ | hps | hcuts)
      · contradiction
      · exact fun n hn => Setting.balanced_of_cutAt hkp.regular (hkp.safe (.inr hps)) hn
      · exact hcuts
  | loop name ticks => exact absurd hown (hloop name ticks)

/-! ### A function with a parameter -/

def sampleParam (name mode : Text) (slot : Int) : Json :=
  .obj [("name", .str name), ("mode", .str mode), ("slot", .int slot)]

def stackSample : Data :=
  let arr := sampleParam "arr" "ARRAY" 10
  let num := sampleParam "num" "NUMBER" 13
  { sample with
    api := .value (.obj [
      sampleSelect [], sampleCall,
      ("array", .obj [("get_array", sampleSpec "Массив" "получить" [arr, num, sampleParam "var" "VARIABLE" 16]),
        ("remove_array", sampleSpec "Массив" "удалить" [arr, num]),
        ("vstavit_v_massiv", sampleSpec "Массив" "вставить" [arr, num, sampleParam "value" "ANY" 16])]),
      ("if_player", .obj [("c", sampleSpec "Если" "c" [])]),
      ("a", .obj [("b", sampleSpec "Игра" "b" [])])])
    blocks := some "[(select) Выбрать объект][(game) Игра][(array) Массив][(if) Если]" }

/-- A function with a parameter and a condition where its first row ends. -/
def longFunc : Files :=
  script ("func f(p) \x7b\n" ++ (List.replicate 38 ("a.b()\n" : Text)).flatten
    ++ "if_player.c() \x7b\na.b()\n\x7d\n\x7d\n")

lemma longFunc_nested (h : (stackSample.ready longFunc).result = .ok (ctx, p)) :
    p.Nested := by
  have hall : (stackSample.ready longFunc).result.toOption.all
      fun c => decide c.2.Nested := by
    decide +kernel
  rw [h] at hall
  exact of_decide_eq_true hall

-- the row that is cut off first holds the condition but not its end
lemma longFunc_passes : passes (stackSample.ready longFunc).result fun _ s =>
      decide (∃ f ∈ s.done, f.block.owner = .func "f" ∧ ∃ r ∈ f.chains.flatten,
        r.entries ∈ rowsOf (promote (collapse (Program.Finished.entries s.done)).1).1
          ∧ r.actions.countP Action.closes < r.actions.countP Action.opens) := by
  decide +kernel

theorem balanced_iff_longFunc : ∃ ctx p s f,
    (stackSample.ready longFunc).result = .ok (ctx, p)
      ∧ (Program.run ctx p).result = .ok s ∧ p.Nested ∧ f ∈ s.done ∧ f.block.owner = .func "f"
      ∧ (∀ r ∈ f.chains.flatten, r.Whole ctx.toSetting) ∧ ((∀ r ∈ f.chains.flatten, Balanced r.actions) ↔
        (∃ name, f.block.owner = .event name) ∨ f.block.params = []
          ∨ ∀ n, f.left.CutAt n → Balanced (f.left.actions.take n)) := by
  obtain ⟨ctx, p, s, hsetup, hrun, htest⟩ := exists_of_passes longFunc_passes
  obtain ⟨f, hf, hown, -⟩ := of_decide_eq_true htest
  have hnested := longFunc_nested hsetup
  refine ⟨ctx, p, s, f, hsetup, hrun, hnested, hf, hown, ?_⟩
  exact balanced_iff hsetup hrun (by decide +kernel) hnested hf (by simp [hown])

/-- A function with a parameter may be cut inside a scope. -/
theorem exists_unbalanced_row : ∃ ctx p s es,
    (stackSample.ready longFunc).result = .ok (ctx, p)
      ∧ p.Nested ∧ (Program.run ctx p).result = .ok s
      ∧ (stackSample.plan longFunc).result = .ok es
      ∧ ∃ f ∈ s.done, f.block.owner = .func "f" ∧ ∃ r ∈ f.chains.flatten, r.entries ∈ rowsOf es
        ∧ ¬ Balanced r.actions := by
  obtain ⟨ctx, p, s, hsetup, hrun, htest⟩ := exists_of_passes longFunc_passes
  obtain ⟨f, hf, hown, r, hr, hplan, hopen⟩ := of_decide_eq_true htest
  obtain ⟨es, hes⟩ := exists_compile hsetup hrun
  have hlink := link_of_compile hsetup hrun hes
  rw [result_link] at hlink
  cases hlink
  have hnested := longFunc_nested hsetup
  refine ⟨ctx, p, s, _, hsetup, hnested, hrun, hes, f, hf, hown, r, hr, hplan, fun hbal => ?_⟩
  exact Nat.ne_of_lt hopen hbal.total

end Data
end BlockScript
