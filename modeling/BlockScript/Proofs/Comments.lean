import BlockScript.Proofs.Bodies
import BlockScript.Proofs.Faithful

/-!
# Comments

Comments can be left out of a script and it compiles alike (`Data.compile_leftOut`), but not all of them: the
parentheses of a comment count inside a call over several lines, a comment that looks like a block on one line is
spread over several lines, and a comment with a small margin ends the body of a template or of a multiple selection.
-/

open List
namespace BlockScript
open Layout
open Script (Settings)
namespace Layout

/-! ### Comments that do not matter -/

/-- A line that begins with a number sign, behind its margin. -/
def isComment (l : Text) : Bool := (Text.trim l).head? == some '#'

/-- Inside of a call, a comment leaves as many parentheses open; outside calls, it does not look like a block. -/
def Closed (o : Option OpenCall) (c : Text) : Prop := if o.isSome then parenDelta c = 0 else block? c = none
deriving Decidable

/-- A comment does not end a body that would go on. -/
def EndsNothing (K : Option Nat) (c : Text) (rest : List Text) : Prop := ∀ k ∈ K, isDeeper k c ∨ Leaves k rest
deriving Decidable

/-- Some lines do not matter to how a script is laid out and written out. -/
structure Inert (cfg : Settings) (cs ls : List Text) : Prop where
  calls : Along openAfter (fun o c _ => c ∈ cs → Closed o c) none ls
  templates : ∀ ks ∈ (laidOut cfg ls).toOption,
    Along (bodyOf Template.headPattern) (fun K c rest => c ∈ cs → EndsNothing K c rest) none ks
  multiselects : ∀ ks ∈ (laidOut cfg ls).toOption,
    Along (bodyOf Multiselect.headPattern) (fun K c rest => c ∈ cs → EndsNothing K c rest) none ks
  filled : ∀ ks ∈ (laidOut cfg ls).toOption, Template.Filled ks
  oneKind : ∀ ks ∈ (laidOut cfg ls).toOption, Program.OneKind ks

/-! ### Laying out -/

/-- Some lines are left out, one by one. -/
def LeftOut (cs : List Text) (a a' : List Text) : Prop := ∃ c ∈ cs, a = [c] ∧ a' = []

variable {cfg : Settings} {cs ls ls' : List Text} {o : Option OpenCall} {c : Text}

lemma isIdle_of_comment (h : isComment c) : isIdle c := by
  simp only [isComment] at h
  simp [isIdle, h]

lemma opens?_of_idle (h : isIdle c) : opens? c = none := by simp [opens?, h]

lemma openAfter_pos (ho : ∀ call ∈ o, 0 < call.balance) (l : Text) : ∀ call ∈ openAfter o l, 0 < call.balance := by
  intro call hcall
  cases o with
  | none =>
    simp only [openAfter, opens?] at hcall
    split at hcall
    · contradiction
    split at hcall
    next hpos =>
      cases hcall
      exact hpos
    · contradiction
  | some before =>
    simp only [openAfter, Option.elim] at hcall
    split at hcall
    · contradiction
    next hpos =>
      cases hcall
      omega

/-- A comment inside a call does not matter if it leaves as many parentheses open. -/
lemma read_of_parenDelta (cfg : Settings) {call : OpenCall} (hidle : isIdle c) (hdelta : parenDelta c = 0)
    (hpos : 0 < call.balance) :
    given cfg (some call) c = .ok [] ∧ openAfter (some call) c = some call := by
  have hrd : call.read c = call := by simp [OpenCall.read, hidle, hdelta]
  have hnot : ¬ call.balance ≤ 0 := by omega
  simp [given, openAfter, hrd, if_neg hnot]

theorem joinCalls_leftOut (hcs : ∀ c ∈ cs, isComment c) (h : Source.Rewritten (LeftOut cs) ls ls')
    (hcalls : Along openAfter (fun o c _ => c ∈ cs → Closed o c) none ls) :
    Alike (LeftOut (cs.filter fun c => (block? c).isNone)) (joinCalls cfg none ls).result
      (joinCalls cfg none ls').result := by
  refine joinCalls_rewritten (P := fun o => ∀ call ∈ o, 0 < call.balance) (fun o l ho => openAfter_pos ho l) ?_ h nofun
    hcalls
  rintro o _ _ rest rest' ⟨c, hc, rfl, rfl⟩ ho hok
  have hidle := isIdle_of_comment (hcs c hc)
  have hcld := hok.1 hc
  have hnil : (joinCalls cfg o rest').result = (joinCalls cfg o rest').result.map ([] ++ ·) := by
    cases (joinCalls cfg o rest').result <;> rfl
  cases o with
  | some call =>
    have hdelta : parenDelta c = 0 := by simpa [Closed] using hcld
    obtain ⟨hgiv, hstay⟩ := read_of_parenDelta cfg hidle hdelta (ho call rfl)
    refine ⟨hstay ▸ hok.2, [], [], .nil, ?_, hnil⟩
    rw [singleton_append, joinCalls_cons, hgiv, hstay, ok_bind]
  | none =>
    have hblk : block? c = none := by simpa [Closed] using hcld
    have hstay : openAfter none c = none := opens?_of_idle hidle
    refine ⟨hstay ▸ hok.2, [c], [], ?_, ?_, hnil⟩
    · exact .single ⟨c, mem_filter.mpr ⟨hc, by simp [hblk]⟩, rfl, rfl⟩
    · exact joinCalls_append (by simpa using opens?_of_idle hidle)

theorem laidOut_leftOut (hcs : ∀ c ∈ cs, isComment c) (h : Source.Rewritten (LeftOut cs) ls ls')
    (hcalls : Along openAfter (fun o c _ => c ∈ cs → Closed o c) none ls) :
    Alike (LeftOut cs) (laidOut cfg ls) (laidOut cfg ls') := by
  refine (joinCalls_leftOut hcs h hcalls).spreadBlocks ?_
  rintro _ _ ⟨c, hc, rfl, rfl⟩
  obtain ⟨hmem, hblk⟩ := mem_filter.mp hc
  have hspread : spreadBlock c = [c] := by simp [spreadBlock, Option.isNone_iff_eq_none.mp hblk]
  rw [spreadBlocks, flatMap_singleton, hspread]
  exact .single ⟨c, hmem, rfl, rfl⟩

lemma find?_leftOut (hcs : ∀ c ∈ cs, isComment c) (h : Source.Rewritten (LeftOut cs) ls ls') :
    (ls'.find? fun l => !isIdle l) = ls.find? fun l => !isIdle l := by
  induction h with
  | nil => rfl
  | keep l _ ih => rw [find?_cons, find?_cons, ih]
  | swap allowed _ ih =>
    obtain ⟨c, hc, rfl, rfl⟩ := allowed
    simpa [isIdle_of_comment (hcs c hc)] using ih

theorem loose_leftOut {p : Pattern} {K : Option Nat} (hcs : ∀ c ∈ cs, isComment c)
    (h : Source.Rewritten (LeftOut cs) ls ls')
    (hends : Along (bodyOf p) (fun K c rest => c ∈ cs → EndsNothing K c rest) K ls) : Loose p K ls ls' := by
  induction h generalizing K with
  | nil => exact .nil K
  | keep l _ ih => exact .keep l (ih hends.2)
  | @swap a a' ls ls' allowed rest ih =>
    obtain ⟨c, hc, rfl, rfl⟩ := allowed
    refine .drop (isIdle_of_comment (hcs c hc)) (fun k hk => ?_) (ih hends.2)
    refine (hends.1 hc k hk).imp_right fun hlv => ?_
    rw [Leaves, nil_append, find?_leftOut hcs rest]
    exact hlv

lemma silent_leftOut (hcs : ∀ c ∈ cs, isComment c) : Source.Silent (LeftOut cs) where
  left := by
    rintro _ _ ⟨c, hc, rfl, rfl⟩
    refine ⟨by simp, fun l hl => ?_⟩
    obtain rfl := mem_singleton.mp hl
    rw [Source.import?]
    rcases trim_of_idle (isIdle_of_comment (hcs l hc)) with ht | ⟨u, ht⟩ <;> rw [ht] <;> rfl
  right := by
    rintro _ _ ⟨c, -, -, rfl⟩ l hl
    contradiction

end Layout
namespace Program

/-- Scripts with some inert comments left out are prepared alike. -/
theorem prepare_leftOut {cfg : Settings} {cs : List Text} {files files' : Files} {entry : Path} (hentry : entry.Proper)
    (hcs : ∀ c ∈ cs, isComment c) (hfiles : Source.FilesRewritten (LeftOut cs) files files')
    (hinert : ∀ loaded, Source.load files entry = .ok loaded → Inert cfg cs loaded.lines) :
    (prepare cfg files entry).result.map Prepared.gist = (prepare cfg files' entry).result.map Prepared.gist := by
  refine prepare_rewritten hentry (silent_leftOut hcs) hfiles
    (fun loaded ls' hload h => laidOut_leftOut hcs h (hinert loaded hload).calls) ?_
  intro loaded ks ks' namespaces hload hks hkp
  have hok := hinert loaded hload
  have hmem : ks ∈ (laidOut cfg loaded.lines).toOption := by rw [hks]; rfl
  exact writtenOut_loose (loose_leftOut hcs hkp (hok.templates ks hmem))
    (loose_leftOut hcs hkp (hok.multiselects ks hmem)) (hok.filled ks hmem) (hok.oneKind ks hmem) namespaces

end Program
namespace Data

/-- Comments do not matter. Some lines are left out of the files of a script, all of them comments. If inside calls
over several lines their parentheses are closed, outside calls none of them looks like a block on one line and none
ends a body that would go on, if every template has a body without them, and if the script does not have both templates
and multiple selections, then the script compiles to the same entries as before, or to none as before. -/
theorem compile_leftOut {cfg : Settings} {cs : List Text} {files files' : Files} {entry : Path} (hentry : entry.Proper)
    (hcs : ∀ c ∈ cs, isComment c) (hfiles : Source.FilesRewritten (LeftOut cs) files files')
    (hinert : ∀ loaded, Source.load files entry = .ok loaded → Inert cfg cs loaded.lines) (d : Data) (shown : Text) :
    (d.compile cfg files' entry shown).result.toOption = (d.compile cfg files entry shown).result.toOption :=
  (compile_of_gist (Program.prepare_leftOut hentry hcs hfiles hinert) d shown).symm

/-! ### Some scripts with comments -/

lemma filesRewritten_script {cs : List Text} {text text' : Text}
    (h : Source.fileLines text' = (Source.fileLines text).filter fun l => !cs.contains l) :
    Source.FilesRewritten (LeftOut cs) (script text) (script text') := by
  refine .cons ⟨rfl, ?_⟩ .nil
  rw [h]
  induction Source.fileLines text with
  | nil => exact .nil
  | cons l ls ih =>
    by_cases hl : l ∈ cs
    · rw [filter_cons_of_neg (by simpa using hl)]
      exact .swap ⟨l, hl, rfl, rfl⟩ ih
    rw [filter_cons_of_pos (by simpa using hl)]
    exact .keep l ih

/-- Comments in the body of a template, in a block, and inside a call over several lines. -/
def commented : Text :=
  "vfunc f()\n    a.b()\n    # first\nevent(x) \x7b\n# second\nf()\na.b(\n  # third (1)\n)\n\x7d\n"

def uncommented : Text := "vfunc f()\n    a.b()\nevent(x) \x7b\nf()\na.b(\n)\n\x7d\n"

def threeComments : List Text := texts ["    # first", "# second", "  # third (1)"]

theorem compile_leftOut_commented :
    (∀ c ∈ threeComments, isComment c) ∧ Source.FilesRewritten (LeftOut threeComments) (script commented)
      (script uncommented)
      ∧ (sample.plan (script commented)).result.toOption.isSome
      ∧ (sample.plan (script uncommented)).result.toOption
        = (sample.plan (script commented)).result.toOption := by
  have hcs : ∀ c ∈ threeComments, isComment c := by decide +kernel
  have hfiles : Source.FilesRewritten (LeftOut threeComments) (script commented) (script uncommented) :=
    filesRewritten_script (by decide +kernel)
  have hls : (Source.load (script commented) (.ofText "/main")).toOption.map (fun loaded => loaded.lines)
      = some (Source.fileLines commented) := by decide +kernel
  refine ⟨hcs, hfiles, by decide +kernel,
    compile_leftOut (Path.proper_ofText "/main") hcs hfiles (fun loaded h => ?_) _ _⟩
  have hloaded : loaded.lines = Source.fileLines commented := by
    rw [h] at hls
    exact Option.some.inj hls
  rw [hloaded]
  exact ⟨by decide +kernel, by decide +kernel, by decide +kernel, by decide +kernel, by decide +kernel⟩

/-- A block commented out on one line is carried out all the same, but for its header. -/
theorem exists_live_comment : Source.FilesRewritten (LeftOut ["# event(y) \x7b a.b() \x7d"])
        (script "event(x) \x7b\n# event(y) \x7b a.b() \x7d\n\x7d\n") (script "event(x) \x7b\n\x7d\n")
      ∧ isComment "# event(y) \x7b a.b() \x7d"
      ∧ (sample.plan (script "event(x) \x7b\n# event(y) \x7b a.b() \x7d\n\x7d\n")).result.toOption
        = some [.ofBlock "diamond_block" "x" "no", .ofBlock "game" "b||b" "no"]
      ∧ (sample.plan (script "event(x) \x7b\n\x7d\n")).result.toOption
        = some [.ofBlock "diamond_block" "x" "no"] :=
  ⟨filesRewritten_script (by decide +kernel), by decide +kernel⟩

end Data
end BlockScript
