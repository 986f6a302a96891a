import BlockScript.Proofs.Bodies
import BlockScript.Proofs.Nested
import BlockScript.Proofs.StackActions

/-!
# Scripts one behind the other

A script made of whole blocks is written out by itself, whatever follows it: no call and no multiple selection of
it goes on behind its end (`Program.writtenOut_append`). Functions defined behind it keep their parameters.
-/

open List Except
namespace BlockScript
open Layout Table Multiselect
open Text (trim)
open Script (Error Settings)

lemma map_ok {ε α β : Type} {x : Except ε α} {f : α → β} {b : β} : x.map f = .ok b ↔ ∃ a, x = .ok a ∧ f a = b := by
  cases x <;> simp [Except.map]

/-! ### Calls and blocks -/

namespace Layout
variable {cfg : Settings} {o : Option OpenCall} {ls ls' out : List Text}

/-- Where all calls are closed, the lines that follow are read as if they stood alone. -/
lemma result_joinCalls_append (h : (joinCalls cfg o ls).result = .ok out) (ls' : List Text) :
    (joinCalls cfg o (ls ++ ls')).result = (joinCalls cfg none ls').result.map (out ++ ·) := by
  induction ls generalizing o out with
  | nil =>
    cases o with
    | none =>
      cases h
      rw [nil_append]
      cases (joinCalls cfg none ls').result <;> rfl
    | some c => simp [joinCalls] at h
  | cons l ls ih =>
    rw [joinCalls_cons] at h
    rw [cons_append, joinCalls_cons]
    rcases hgiv : given cfg o l with e | front
    · simp [hgiv, Except.bind] at h
    rw [hgiv, ok_bind, map_ok] at h
    obtain ⟨back, hback, rfl⟩ := h
    rw [ok_bind, ih hback]
    cases (joinCalls cfg none ls').result <;> simp [Except.map]

lemma laidOut_append (h : laidOut cfg ls = .ok out) (ls' : List Text) :
    laidOut cfg (ls ++ ls') = (laidOut cfg ls').map (out ++ ·) := by
  rw [laidOut, map_ok] at h
  obtain ⟨ks, hks, rfl⟩ := h
  rw [laidOut, result_joinCalls_append hks, laidOut]
  cases (joinCalls cfg none ls').result <;> simp [Except.map, spreadBlocks]

end Layout

/-! ### Multiple selections -/

namespace Multiselect
variable {n m : Nat} {l : Text} {ls ls' out : List Text}

lemma expandFrom_eq (hn : ls.length ≤ n) (hm : ls.length ≤ m) : expandFrom n ls = expandFrom m ls := by
  induction n generalizing m ls with
  | zero =>
    obtain rfl : ls = [] := by simpa using hn
    cases m <;> rfl
  | succ n ih =>
    cases ls with
    | nil => cases m <;> rfl
    | cons l ls =>
      obtain ⟨m, rfl⟩ : ∃ k, m = k + 1 := ⟨m - 1, by simp at hm; omega⟩
      simp only [length_cons, Nat.add_le_add_iff_right] at hn hm
      cases hmt : headPattern.match? (trim l) with
      | none =>
        have hld : leads headPattern l = false := by simp [leads, Pattern.fits, hmt]
        rw [expandFrom_cons n ls hld, expandFrom_cons m ls hld, ih hn hm]
      | some found =>
        have hdrop := length_dropWhile_le (isDeeper (indent l).length) ls
        rw [expandFrom_leads n ls hmt, expandFrom_leads m ls hmt, ih (Nat.le_trans hdrop hn) (Nat.le_trans hdrop hm)]

def endsClosed (ls : List Text) : Bool := (ls.filter fun l => !isIdle l).getLast?.all fun l => trim l == "\x7d"

lemma endsClosed_blockLines {margin counter threshold : Text} {scope : Scope} {body : List Text}
    (hmar : ∀ c ∈ margin, isBlank c) (h : blockLines margin scope counter threshold body = .ok out)
      (front : List Text) :
    endsClosed (front ++ out) = false := by
  rw [blockLines, bind_eq_ok] at h
  obtain ⟨conditions, -, h⟩ := h
  cases h
  set last := margin ++ "select." ++ scope.word ++ ".сравнить_число_легко(" ++ counter ++ ", " ++ threshold
        ++ ", тип_проверки=\"≥ (Больше или равно)\")" with hlast
  have hhead : (trim last).head? = some 's' := by
    simp only [hlast, append_assoc]
    rw [Text.head?_trim, trimStart_append hmar]
    rfl
  have hidle : isIdle last = false := by
    cases htrim : trim last with
    | nil => simp [htrim] at hhead
    | cons c u => simp_all [isIdle]
  have hcl : trim last ≠ ['\x7d'] := fun heq => by simp [heq] at hhead
  simp [endsClosed, hidle, hcl]

lemma takeWhile_append_of_stops {p : Text → Bool} (h : ls.dropWhile p ≠ []) (ls' : List Text) :
    (ls ++ ls').takeWhile p = ls.takeWhile p ∧ (ls ++ ls').dropWhile p = ls.dropWhile p ++ ls' := by
  induction ls with
  | nil => contradiction
  | cons l ls ih =>
    cases hl : p l with
    | false => simp [hl]
    | true => simpa [hl] using ih (by simpa [hl] using h)

/-- Lines behind a script that ends with a closing line belong to no multiple selection of it. -/
lemma expandFrom_append (front : List Text) (hn : ls.length ≤ n) (h : expandFrom n ls = .ok out)
    (hend : endsClosed (front ++ out)) (ls' : List Text) :
    expandFrom (n + ls'.length) (ls ++ ls') = (expandFrom ls'.length ls').map (out ++ ·) := by
  have hnone m : ls'.length ≤ m → expandFrom m ([] ++ ls') = (expandFrom ls'.length ls').map ([] ++ ·) := by
    intro hm
    rw [nil_append, expandFrom_eq hm (Nat.le_refl _)]
    cases expandFrom ls'.length ls' <;> rfl
  have happ : ∀ out more, ((expandFrom ls'.length ls').map (more ++ ·)).map (out ++ ·)
      = (expandFrom ls'.length ls').map ((out ++ more) ++ ·) := by
    cases expandFrom ls'.length ls' <;> simp [Except.map]
  induction n generalizing ls out front with
  | zero =>
    obtain rfl : ls = [] := by simpa using hn
    cases h
    exact hnone _ (Nat.le_add_left _ _)
  | succ n ih =>
    cases ls with
    | nil =>
      cases h
      exact hnone _ (Nat.le_add_left _ _)
    | cons l ls =>
      simp only [length_cons, Nat.add_le_add_iff_right] at hn
      rw [cons_append, Nat.add_right_comm]
      cases hmt : headPattern.match? (trim l) with
      | none =>
        have hld : leads headPattern l = false := by simp [leads, Pattern.fits, hmt]
        rw [expandFrom_cons _ _ hld] at h ⊢
        obtain ⟨out, hout, rfl⟩ := map_ok.mp h
        rw [ih (front ++ [l]) hn hout (by simpa using hend)]
        exact happ [l] out
      | some found =>
        rw [expandFrom_leads _ _ hmt] at h ⊢
        cases hsc : Scope.ofText? (found.group 1) with
        | none => simp [hsc] at h
        | some scope =>
          simp only [hsc, Option.elim] at h ⊢
          split at h
          · simp at h
          next hbd =>
            rcases hls : blockLines (indent l) scope (found.group 2) (found.group 3)
                (ls.takeWhile (isDeeper (indent l).length)) with e | lines
            · simp [hls, Except.bind] at h
            rw [hls, ok_bind, map_ok] at h
            obtain ⟨more, hmore, rfl⟩ := h
            -- The block does not reach the end, or the script would end with a selection.
            have hrest : ls.dropWhile (isDeeper (indent l).length) ≠ [] := by
              intro hnil
              rw [hnil] at hmore
              obtain rfl : more = [] := by cases n <;> exact (ok.inj hmore).symm
              have := endsClosed_blockLines (fun c hc => isBlank_of_mem_indent hc) hls front
              simp [this] at hend
            obtain ⟨htake, hdrop⟩ := takeWhile_append_of_stops hrest ls'
            rw [htake, hdrop, if_neg hbd, hls,
              ih (front ++ lines) (Nat.le_trans (length_dropWhile_le _ _) hn) hmore (by simpa using hend)]
            exact happ lines more

lemma expand_append (h : expand ls = .ok out) (hend : endsClosed out) (ls' : List Text) :
    expand (ls ++ ls') = (expand ls').map (out ++ ·) := by
  rw [expand, length_append, expandFrom_append [] (Nat.le_refl _) h hend, expand]

end Multiselect

/-! ### Functions -/

namespace Program
variable {cfg : Settings} {namespaces ls ls' out : List Text} {sigs sigs' found : Assignment.Signatures}

/-- Every function of `sigs'` has the same parameters in `sigs`. -/
def Includes (sigs sigs' : Assignment.Signatures) : Prop :=
  ∀ name params, sigs'.get? name = some params → sigs.get? name = some params

lemma Includes.set (h : Includes sigs sigs') (name : Text) (params : List Text) :
    Includes (sigs.set name params) (sigs'.set name params) := by
  intro k v hk
  by_cases heq : k = name
  · subst heq
    rw [get?_set_self] at hk ⊢
    exact hk
  rw [get?_set_of_ne heq] at hk ⊢
  exact h k v hk

def addSignature (sigs : Assignment.Signatures) (line : Text) : Except Error Assignment.Signatures :=
  match Line.Start.func? (trim line) with
  | some (name, raw) => do return sigs.set name (← paramsOf name raw)
  | none => .ok sigs

lemma signaturesOf_eq (ls : List Text) : signaturesOf ls = ls.foldlM addSignature [] := rfl

lemma addSignature_cases {line : Text} (h : addSignature sigs line = .ok found) :
    (Line.Start.func? (trim line) = none ∧ found = sigs) ∨ ∃ name raw params,
      Line.Start.func? (trim line) = some (name, raw) ∧ paramsOf name raw = .ok params
        ∧ found = sigs.set name params := by
  rw [addSignature] at h
  split at h
  next name raw hfn =>
    rw [bind_eq_ok] at h
    obtain ⟨params, hps, h⟩ := h
    exact .inr ⟨name, raw, params, hfn, hps, (ok.inj h).symm⟩
  next hfn => exact .inl ⟨hfn, (ok.inj h).symm⟩

lemma addSignatures_includes (h : ls.foldlM addSignature sigs = .ok found) (hsigs : Includes sigs sigs') :
    ∃ found', ls.foldlM addSignature sigs' = .ok found' ∧ Includes found found' := by
  induction ls generalizing sigs sigs' with
  | nil =>
    cases h
    exact ⟨sigs', rfl, hsigs⟩
  | cons l ls ih =>
    rw [foldlM_cons, bind_eq_ok] at h
    obtain ⟨next, hnext, h⟩ := h
    rw [foldlM_cons]
    rcases addSignature_cases hnext with ⟨hfn, rfl⟩ | ⟨name, raw, params, hfn, hps, rfl⟩
    · rw [addSignature, hfn]
      exact ih h hsigs
    have hstep : addSignature sigs' l = .ok (sigs'.set name params) := by
      rw [addSignature, hfn]
      simp only [hps]
      rfl
    rw [hstep]
    exact ih h (hsigs.set name params)

lemma isSome_of_addSignatures {name : Text} (h : ls.foldlM addSignature sigs = .ok found)
    (hnm : (sigs.get? name).isSome ∨ ∃ l ∈ ls, ∃ raw, Line.Start.func? (trim l) = some (name, raw)) :
    (found.get? name).isSome := by
  induction ls generalizing sigs with
  | nil =>
    cases h
    simpa using hnm
  | cons l ls ih =>
    rw [foldlM_cons, bind_eq_ok] at h
    obtain ⟨next, hnext, h⟩ := h
    refine ih h ?_
    rw [exists_mem_cons_iff] at hnm
    rcases addSignature_cases hnext with ⟨hfn, rfl⟩ | ⟨name', raw', params, hfn, -, rfl⟩
    · simpa [hfn] using hnm
    rw [get?_set_eq]
    by_cases heq : name = name'
    · simp [heq]
    · simpa [hfn, heq, Ne.symm heq] using hnm

/-! ### Whole blocks -/

/-- The lines are made of whole blocks, and no templates: `out` is what they are written out as. -/
structure Whole (cfg : Settings) (ls out : List Text) : Prop where
  written : (Layout.laidOut cfg ls).bind Multiselect.expand = .ok out
  /-- Every scope and every block is closed. -/
  closed : levelAfter [] none out = some none
  /-- Nothing stands behind the last block. -/
  last : Multiselect.endsClosed out

/-- There are no templates among the lines once they are laid out. -/
def Untemplated (cfg : Settings) (ls : List Text) : Prop :=
  ∀ laid ∈ (Layout.laidOut cfg ls).toOption, ∀ l ∈ laid, Layout.leads Template.headPattern l = false
deriving Decidable

lemma writtenOut_ok {laid : List Text} {p : Prepared} (hlaid : ∀ l ∈ laid, leads Template.headPattern l = false)
    (h : writtenOut namespaces laid = .ok p) : ∃ sigs, expand laid = .ok p.lines
      ∧ p.lines.foldlM addSignature [] = .ok sigs ∧ p = ⟨p.lines, namespaces, [], sigs⟩ := by
  rw [writtenOut, unfolded_not_leads hlaid, ok_bind] at h
  rcases hout : expand laid with e | out
  · simp [hout, Except.bind] at h
  rw [hout, ok_bind, signed] at h
  rcases hsigs : signaturesOf out with e | sigs
  · simp [hsigs, Except.bind] at h
  rw [hsigs] at h
  cases h
  exact ⟨sigs, rfl, hsigs, rfl⟩

/-- Lines behind whole blocks are written out as if they stood alone. -/
theorem prepare_append {files files' : Files} {entry entry' : Path} {p : Prepared}
    (hload : Source.load files entry = .ok ⟨ls ++ ls', namespaces⟩)
    (hload' : Source.load files' entry' = .ok ⟨ls', namespaces⟩) (hwh : Whole cfg ls out)
    (htpl : Untemplated cfg (ls ++ ls')) (h : (prepare cfg files entry).result = .ok p) :
    ∃ p', (prepare cfg files' entry').result = .ok p' ∧ p.lines = out ++ p'.lines ∧ p.namespaces = namespaces
      ∧ p'.namespaces = namespaces ∧ p.templates = [] ∧ p'.templates = [] ∧ Includes p.signatures p'.signatures
      ∧ ∀ name, (∃ l ∈ p'.lines, ∃ raw, Line.Start.func? (trim l) = some (name, raw)) →
        (p'.signatures.get? name).isSome := by
  obtain ⟨laid, hlaid, hout⟩ : ∃ laid, laidOut cfg ls = .ok laid ∧ expand laid = .ok out :=
    bind_eq_ok.mp hwh.written
  rw [result_prepare, hload, ok_bind, laidOut_append hlaid] at h
  rcases hlaid' : laidOut cfg ls' with e | laid'
  · simp [hlaid', Except.map, Except.bind] at h
  have hnone : ∀ l ∈ laid ++ laid', leads Template.headPattern l = false :=
    htpl _ (by rw [laidOut_append hlaid, hlaid']; rfl)
  rw [hlaid'] at h
  obtain ⟨sigs, hls, hsigs, hp⟩ := writtenOut_ok hnone h
  rw [expand_append hout hwh.last, map_ok] at hls
  obtain ⟨out', hout', hls⟩ := hls
  rw [← hls, foldlM_append, bind_eq_ok] at hsigs
  obtain ⟨before, -, hsigs⟩ := hsigs
  have hemp : Includes before [] := fun name params h => by simp [Table.get?] at h
  obtain ⟨sigs', hsigs', hincl⟩ := addSignatures_includes hsigs hemp
  refine ⟨⟨out', namespaces, [], sigs'⟩, ?_, hls.symm, by rw [hp], rfl, by rw [hp], rfl, by rw [hp]; exact hincl,
    fun name hnm => isSome_of_addSignatures hsigs' (.inr hnm)⟩
  rw [result_prepare, hload', ok_bind, hlaid', ok_bind, writtenOut,
    unfolded_not_leads fun l hl => hnone l (by simp [hl]), ok_bind, hout', ok_bind, signed, signaturesOf_eq, hsigs']
  rfl

end Program
end BlockScript
