import BlockScript.Proofs.Instructions

/-!
# What lines do to blocks

A run reads the lines one after another, so what one line keeps, with what was read before it,
holds behind all of them (`Program.lines_rec`). What each line came to is kept in its reading (`Program.readings`). The
blocks of a script are those that its lines begin (`Program.owners_of_run`).
-/

open Option
namespace BlockScript.Program
open Instruction (ofLine)
open Script (Compile)
open Plan (Owner)
variable {ctx : Context} {s s' : State} {i : Instruction} {namespaces ls : List Text} {n : Nat}
  {owner : Option Owner} {temps : Nat} {negated : Bool}

/-! ### Lines -/

/-- What each line keeps, with the lines read before it, holds behind all lines. -/
theorem lines_rec {P : List Text → State → Prop} (h : (lines ctx namespaces n s ls).result = .ok s') (hs : P [] s)
    (hstep : ∀ pre raw post s s', ls = pre ++ raw :: post → P pre s →
      (line ctx namespaces (n + pre.length) raw s).result = .ok s' → P (pre ++ [raw]) s') : P ls s' := by
  -- The lines that were read are moved to the front, so the invariant speaks of the same list throughout.
  suffices hgo : ∀ post pre s, ls = pre ++ post → P pre s →
      (lines ctx namespaces (n + pre.length) s post).result = .ok s' → P ls s' from hgo ls [] s rfl hs h
  intro post
  induction post with
  | nil =>
    rintro pre s rfl hpre h
    cases h
    simpa using hpre
  | cons raw post ih =>
    intro pre s hls hpre h
    rw [lines, Compile.bind_ok] at h
    obtain ⟨s₁, hln, h⟩ := h
    refine ih (pre ++ [raw]) s₁ (by simpa using hls) (hstep pre raw post s s₁ hls hpre hln) ?_
    simpa [Nat.add_assoc] using h

/-! ### Readings -/

def addedBy (ctx : Context) (n : Nat) (s : State) (negated : Bool) (t : Text) : List Action :=
  match (ofLine ctx (s.block.map fun b => b.owner) s.temps n negated t).result with
  | .ok i => i.added s
  | .error _ => []

/-- What a line that says something came to. -/
structure Reading where
  /-- The line, without namespaces and negation. -/
  text : Text
  /-- How many blocks were ended before it. -/
  index : Nat
  /-- The line stands in a block. -/
  inBlock : Bool
  /-- The actions that the line adds. -/
  part : List Action

/-- The readings of the lines of a script that say something, up to the first error. -/
def readings (ctx : Context) (namespaces : List Text) : Nat → State → List Text → List Reading
  | _, _, [] => []
  | n, s, raw :: rest =>
    match (line ctx namespaces n raw s).result with
    | .error _ => []
    | .ok s' =>
      ((code namespaces raw).map fun (negated, t) =>
        ⟨t, s.done.length, s.block.isSome, addedBy ctx n s negated t⟩).toList
        ++ readings ctx namespaces (n + 1) s' rest

lemma text_readings (h : (lines ctx namespaces n s ls).result = .ok s') :
    (readings ctx namespaces n s ls).map Reading.text = ls.filterMap fun raw => (code namespaces raw).map Prod.snd := by
  induction ls generalizing n s with
  | nil => rfl
  | cons raw rest ih =>
    rw [lines, Compile.bind_ok] at h
    obtain ⟨s₁, hln, h⟩ := h
    rw [readings, hln]
    cases hcd : code namespaces raw <;> simp [hcd, ih h]

/-- What each instruction keeps, with the readings of the lines up to its own, holds behind all lines. -/
theorem readings_rec {P : List Reading → State → Prop} (h : (lines ctx namespaces n s ls).result = .ok s') (hs : P [] s)
    (hstep : ∀ rs n s s' negated t i, P rs s →
      (ofLine ctx (s.block.map fun b => b.owner) s.temps n negated t).result = .ok i →
      (exec ctx s i).result = .ok s' → P (rs ++ [⟨t, s.done.length, s.block.isSome, i.added s⟩]) s') :
    P (readings ctx namespaces n s ls) s' := by
  suffices hgo : ∀ rs, P rs s → P (rs ++ readings ctx namespaces n s ls) s' from hgo [] hs
  clear hs
  induction ls generalizing n s with
  | nil =>
    cases h
    simp [readings]
  | cons raw rest ih =>
    intro rs hrs
    rw [lines, Compile.bind_ok] at h
    obtain ⟨s₁, hln, h⟩ := h
    rw [readings, hln]
    rcases line_ok hln with ⟨hcd, rfl⟩ | ⟨negated, t, i, hcd, hi, hexec⟩
    · simpa [hcd] using ih h rs hrs
    simp only [hcd, map_some, toList_some, addedBy, hi]
    rw [← List.append_assoc]
    exact ih h _ (hstep rs n s s₁ negated t i hrs hi hexec)

/-! ### The blocks that lines begin -/

def startOf (namespaces : List Text) (raw : Text) : Option Line.Start :=
  (code namespaces raw).bind fun (_, t) => if roleOf false t = .start then Line.Start.ofLine? t else none

/-- The owners of the blocks that the lines of a script begin. -/
def Prepared.owners (p : Prepared) : List Owner :=
  p.lines.filterMap fun raw => (startOf p.namespaces raw).bind Line.Start.owner?

def State.owners (s : State) : List Owner :=
  s.done.map (fun f => f.block.owner) ++ (s.block.map fun b => b.owner).toList

lemma roleOf_eq_start_iff {inBlock : Bool} {t : Text} : roleOf inBlock t = .start ↔
    (t == "\x7d") = false ∧ Line.If.ofLine? t = none ∧ (Line.Start.ofLine? t).isSome := by
  rw [roleOf]
  split
  next h => simpa using fun h' => absurd h (by simpa using h')
  next h =>
    split
    next hif => simp [isSome_iff_ne_none.mp hif]
    next hif =>
      split
      next hst => simpa [hst] using ⟨by simpa using h, by simpa using hif⟩
      next hst =>
        split <;> simpa using fun _ _ => hst

lemma ofLine_start {t : Text}
    (h : (ofLine ctx owner temps n negated t).result = .ok i) (hrole : roleOf false t = .start) :
    ∃ head, Line.Start.ofLine? t = some head ∧ negated = false ∧ i = .start head := by
  obtain ⟨hcl, hif, hst⟩ := roleOf_eq_start_iff.mp hrole
  rcases ofLine_cases h with ⟨hcl', -⟩ | ⟨-, ⟨_, _, _, hif', -⟩ | ⟨-, hhead | ⟨hst', -⟩⟩⟩
  · cases hcl.symm.trans hcl'
  · simp [hif] at hif'
  · exact hhead
  · simp [hst'] at hst

lemma startOf_eq {raw t : Text} (hcd : code namespaces raw = some (negated, t))
    (h : (ofLine ctx owner temps n negated t).result = .ok i) :
    startOf namespaces raw = match i with | .start head => some head | _ => none := by
  rw [startOf, hcd, bind_some]
  by_cases hrole : roleOf false t = .start
  · obtain ⟨head, hhead, -, rfl⟩ := ofLine_start h hrole
    simp [hrole, hhead]
  have hoth : roleOf owner.isSome t ≠ .start := by rwa [Ne, roleOf_eq_start_iff, ← roleOf_eq_start_iff]
  have hplay := Instruction.ofLine_ok h
  simp only [hrole, if_false]
  cases i with
  | start head =>
    exfalso
    cases hr : roleOf owner.isSome t <;> simp [hr, Instruction.Plays] at hplay hoth
    cases hplay
  | _ => rfl

lemma owners_flush (h : (flush ctx s).result = .ok s') : s'.owners = s.owners := by
  rcases flush_ok h with ⟨-, rfl⟩ | ⟨f, next, hblk, -, -, rfl⟩
  · rfl
  · simp [State.owners, hblk]

/-- The blocks so far, the one that is open last. -/
def State.blocks (s : State) : List OpenBlock := s.done.map (fun f => f.block) ++ s.block.toList

lemma blocks_flush (h : (flush ctx s).result = .ok s') : s'.blocks = s.blocks := by
  rcases flush_ok h with ⟨-, rfl⟩ | ⟨f, next, hblk, -, -, rfl⟩
  · rfl
  · simp [State.blocks, hblk]

lemma length_blocks_exec (h : (exec ctx s i).result = .ok s') : s.blocks.length ≤ s'.blocks.length := by
  rcases exec_cases h with ⟨-, -, hfl⟩ | ⟨_, s₁, _, _, -, hfl, -, rfl⟩ | ⟨-, -, hext⟩
  · rw [blocks_flush hfl]
  · rw [← blocks_flush hfl]
    simp [State.blocks, block_flush hfl]
  cases hb : s.block with
  | none => simp [State.blocks, hext.done, hb]
  | some b =>
    obtain ⟨b', hb', -⟩ := hext.exists_block hb
    simp [State.blocks, hext.done, hb, hb']

/-- A block is one that an instruction begins, or was there before it; if it is the one that is open, the instruction
adds its actions to it. -/
lemma block_exec {k : Nat} {b' : OpenBlock} (h : (exec ctx s i).result = .ok s') (hb' : s'.blocks[k]? = some b') :
    (s.blocks.length ≤ k ∧ b'.actions = [] ∧ b'.returns = false)
      ∨ ∃ b, s.blocks[k]? = some b ∧ if s.block.isSome ∧ k = s.done.length then
        b'.returns = (b.returns || i.returns) ∧ b'.actions = b.actions ++ i.added s else b' = b := by
  rcases exec_cases h with ⟨rfl, hsc, hfl⟩ | ⟨head, s₁, owner, params, rfl, hfl, -, rfl⟩ | ⟨-, -, hext⟩
  · rw [blocks_flush hfl] at hb'
    exact .inr ⟨b', hb', by simp [Instruction.added, Instruction.returns, hsc]⟩
  · have hnew : State.blocks { s₁ with block := some ⟨owner, params, false, [], [], 0⟩ }
        = s.blocks ++ [⟨owner, params, false, [], [], 0⟩] := by
      rw [← blocks_flush hfl]
      simp [State.blocks, block_flush hfl]
    rw [hnew, List.getElem?_append] at hb'
    split at hb'
    · exact .inr ⟨b', hb', by simp [Instruction.added, Instruction.returns]⟩
    next hk =>
      obtain rfl := List.mem_singleton.mp (List.mem_of_getElem? hb')
      exact .inl ⟨Nat.not_lt.mp hk, rfl, rfl⟩
  cases hb : s.block with
  | none =>
    rw [State.blocks, hext.done, hext.block_none hb, ← hb] at hb'
    exact .inr ⟨b', hb', by simp⟩
  | some b =>
    obtain ⟨b₁, hb₁, -, -, hrets, hacts⟩ := hext.exists_block hb
    rw [State.blocks, hext.done, hb₁, List.getElem?_append] at hb'
    split at hb'
    next hk =>
      refine .inr ⟨b', by rw [State.blocks, List.getElem?_append_left hk, hb'], ?_⟩
      rw [if_neg (by simp at hk; omega)]
    next hk =>
      obtain rfl := List.mem_singleton.mp (List.mem_of_getElem? hb')
      have hlast : k = s.done.length := by
        have hlen := (List.getElem?_eq_some_iff.mp hb').1
        simp at hlen hk
        omega
      exact .inr ⟨b, by simp [State.blocks, hb, hlast], by simp [hlast, hrets, hacts]⟩

lemma owners_exec (h : (exec ctx s i).result = .ok s') :
    s'.owners = s.owners ++ (match i with | .start head => head.owner? | _ => none).toList := by
  rcases exec_cases h with ⟨rfl, -, hfl⟩ | ⟨head, s₁, owner, params, rfl, hfl, hown, rfl⟩ | ⟨hst, -, hext⟩
  · simp [owners_flush hfl]
  · rw [← owners_flush hfl]
    simp [State.owners, block_flush hfl, hown]
  have hsame : s'.owners = s.owners := by
    rw [State.owners, State.owners, hext.done]
    cases hb : s.block with
    | none => rw [hext.block_none hb]
    | some b =>
      obtain ⟨b', hb', hown, -⟩ := hext.exists_block hb
      simp [hb', hown]
  cases i <;> simp_all

/-- The blocks of a script are those that its lines begin. -/
theorem owners_of_run {p : Prepared} (h : (run ctx p).result = .ok s) :
    s.done.map (fun f => f.block.owner) = p.owners := by
  obtain ⟨s₁, hlns, hfl⟩ := run_ok h
  have hrd : s₁.owners = p.owners := by
    refine lines_rec (P := fun pre s => s.owners = pre.filterMap fun raw =>
      (startOf p.namespaces raw).bind Line.Start.owner?) hlns rfl fun pre raw post s s' _ hpre hln => ?_
    rw [List.filterMap_append, ← hpre]
    rcases line_ok hln with ⟨hcd, rfl⟩ | ⟨negated, t, i, hcd, hi, hexec⟩
    · simp [startOf, hcd]
    have hlast : [raw].filterMap (fun raw => (startOf p.namespaces raw).bind Line.Start.owner?)
        = ((startOf p.namespaces raw).bind Line.Start.owner?).toList := by
      cases hr : (startOf p.namespaces raw).bind Line.Start.owner? <;> simp [hr]
    rw [owners_exec hexec, hlast, startOf_eq hcd hi]
    cases i <;> rfl
  rw [← hrd, ← owners_flush hfl, State.owners, block_flush hfl]
  simp

end BlockScript.Program
