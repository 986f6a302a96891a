import BlockScript.Proofs.Loading
import BlockScript.Proofs.Plans

/-!
# Preparing a script

Before its lines are compiled, a script is read and laid out, and its templates and multiple selections are written
out. The result of compiling is put together from the results of these stages (`Program.result_prepare`,
`Data.result_compile`). Of the lines that come out in the end, those that are empty or comments do not matter, and
neither do the margins of the others (`Data.compile_of_gist`).
-/

open List
namespace BlockScript
open Text
open Script (Compile Error Settings)
open Script.Compile (result_bind result_pure)

/-! ### Results -/

lemma ok_bind {ε α β : Type} (a : α) (f : α → Except ε β) : (Except.ok a).bind f = f a := rfl

lemma bind_bind {ε α β γ : Type} (x : Except ε α) (f : α → Except ε β) (g : β → Except ε γ) :
    (x.bind f).bind g = x.bind fun a => (f a).bind g := by
  cases x <;> rfl

lemma map_eq_bind {ε α β : Type} (x : Except ε α) (f : α → β) : x.map f = x.bind fun a => .ok (f a) := by
  cases x <;> rfl

lemma cases_of_map_eq {ε α β γ : Type} {x : Except ε α} {y : Except ε β} {f : α → γ} {g : β → γ}
    (h : x.map f = y.map g) : (∃ e, x = .error e ∧ y = .error e) ∨ ∃ a b, x = .ok a ∧ y = .ok b ∧ f a = g b := by
  cases x with
  | error e =>
    cases y with
    | error e' => exact .inl ⟨e, rfl, congrArg Except.error (Except.error.inj h).symm⟩
    | ok b => contradiction
  | ok a =>
    cases y with
    | error e => contradiction
    | ok b => exact .inr ⟨a, b, rfl, rfl, Except.ok.inj h⟩

lemma toOption_bind {ε α β : Type} (x : Except ε α) (f : α → Except ε β) :
    (x.bind f).toOption = x.toOption.bind fun a => (f a).toOption := by
  cases x <;> rfl

lemma toOption_map {ε α β : Type} (x : Except ε α) (f : α → β) : (x.map f).toOption = x.toOption.map f := by
  cases x <;> rfl

lemma toOption_bind_congr {ε α β : Type} (x : Except ε α) {f g : α → Except ε β}
    (h : ∀ a, (f a).toOption = (g a).toOption) : (x.bind f).toOption = (x.bind g).toOption := by
  rw [toOption_bind, toOption_bind]
  simp [h]

/-! ### Trimming -/

namespace Text
variable {t u : Text} {p : Char → Bool}

lemma dropEndWhile_append (h : ∀ c ∈ u, p c) : dropEndWhile p (t ++ u) = dropEndWhile p t := by
  rw [dropEndWhile, dropEndWhile, reverse_append, dropWhile_append_of_pos (by simpa using h)]

lemma trim_append_right (h : ∀ c ∈ u, isBlank c) : trim (t ++ u) = trim t := by
  rw [trim, trim, trimBy, trimBy, dropWhile_append]
  split
  next hnil =>
    have hu : u.dropWhile isBlank = [] := dropWhile_eq_nil_iff.mpr h
    rw [hu, List.isEmpty_iff.mp hnil]
  · exact dropEndWhile_append h

lemma trim_trimStart (t : Text) : trim (trimStart t) = trim t := by
  rw [trim, trim, trimBy, trimBy, trimStart, dropWhile_idempotent]

lemma joinWith_ne_nil {sep : Text} {ts : List Text} (h : t ≠ []) : joinWith sep (t :: ts) ≠ [] := by
  cases ts <;> simp [joinWith, h]

lemma trim_joinWith {sep : Text} {ts : List Text} (h : ∀ t ∈ ts, trim t = t ∧ t ≠ []) :
    trim (joinWith sep ts) = joinWith sep ts := by
  rw [trim_self_iff]
  fun_induction joinWith sep ts with
  | case1 => simp
  | case2 t => exact trim_self_iff.mp (h t (by simp)).1
  | case3 t rest hrest ih =>
    obtain ⟨u, rest, rfl⟩ := exists_cons_of_ne_nil hrest
    have hne : joinWith sep (u :: rest) ≠ [] := joinWith_ne_nil (h u (by simp)).2
    obtain ⟨htrim, hfill⟩ := h t (by simp)
    constructor
    · obtain ⟨c, t, rfl⟩ := exists_cons_of_ne_nil hfill
      exact (trim_self_iff.mp htrim).1
    rw [getLast?_append_of_ne_nil _ hne]
    exact (ih fun v hv => h v (by simp [mem_cons.mp hv])).2

lemma head?_trim (t : Text) : (trim t).head? = (trimStart t).head? := by
  obtain ⟨u, hu⟩ : trim t <+: trimStart t := rdropWhile_prefix isBlank _
  cases htrim : trim t with
  | cons d w =>
    rw [← hu, htrim]
    rfl
  | nil =>
    have hall : (trimStart t).dropWhile isBlank = [] := dropWhile_eq_nil_iff.mpr (rdropWhile_eq_nil_iff.mp htrim)
    rw [trimStart, dropWhile_idempotent] at hall
    rw [trimStart, hall]

@[simp] lemma trim_trim (t : Text) : trim (trim t) = trim t := trim_self_iff.mpr (isBlank_ends_trim t)

end Text

/-! ### Calls over several lines -/

namespace Layout

def OpenCall.read (c : OpenCall) (line : Text) : OpenCall :=
  ⟨c.indent, if isIdle line then c.parts else c.parts ++ [trim line], c.balance + parenDelta line⟩

def openAfter (o : Option OpenCall) (line : Text) : Option OpenCall :=
  o.elim (opens? line) fun c => if (c.read line).balance ≤ 0 then none else some (c.read line)

/-- What a line gives: itself, but nothing while a call is open, and the whole call where it is closed. -/
def given (cfg : Settings) (o : Option OpenCall) (line : Text) : Except Error (List Text) :=
  o.elim (.ok (if (opens? line).isSome then [] else [line])) fun c =>
    if (c.read line).balance ≤ 0 then (joined cfg (c.read line)).result.map fun t => [t] else .ok []

lemma joinCalls_cons (cfg : Settings) (o : Option OpenCall) (l : Text) (ls : List Text) :
    (joinCalls cfg o (l :: ls)).result
      = (given cfg o l).bind fun out => (joinCalls cfg (openAfter o l) ls).result.map (out ++ ·) := by
  cases o with
  | none =>
    rw [joinCalls]
    simp only [given, openAfter, Option.elim]
    cases opens? l with
    | some c =>
      simp only [result_bind, Settings.result_traceStage]
      cases (joinCalls cfg (some c) ls).result <;> rfl
    | none =>
      simp only [result_bind]
      cases (joinCalls cfg none ls).result <;> rfl
  | some c =>
    change (if (c.read l).balance ≤ 0 then (do return (← joined cfg (c.read l)) :: (← joinCalls cfg none ls))
      else joinCalls cfg (some (c.read l)) ls : Compile (List Text)).result = _
    simp only [given, openAfter, Option.elim]
    split
    next =>
      simp only [result_bind]
      cases (joined cfg (c.read l)).result with
      | error e => rfl
      | ok t => cases (joinCalls cfg none ls).result <;> rfl
    · cases (joinCalls cfg (some (c.read l)) ls).result <;> rfl

/-- What holds of every line, with what is known of the lines before it and with the lines behind it. -/
def Along {σ : Type} (next : σ → Text → σ) (ok : σ → Text → List Text → Prop) : σ → List Text → Prop
  | _, [] => True
  | s, l :: ls => ok s l ls ∧ Along next ok (next s l) ls

instance decidableAlong {σ : Type} {next : σ → Text → σ} {ok : σ → Text → List Text → Prop}
    [∀ s l ls, Decidable (ok s l ls)] : (s : σ) → (ls : List Text) → Decidable (Along next ok s ls)
  | _, [] => .isTrue trivial
  | s, l :: ls =>
    have : Decidable (Along next ok (next s l) ls) := decidableAlong (next s l) ls
    inferInstanceAs (Decidable (ok s l ls ∧ Along next ok (next s l) ls))

/-- Two stages fail alike, or give lines exchanged as `U` allows. -/
def Alike (U : List Text → List Text → Prop) (x x' : Except Error (List Text)) : Prop :=
  (∃ e, x = .error e ∧ x' = .error e) ∨ ∃ ks ks', x = .ok ks ∧ x' = .ok ks' ∧ Source.Rewritten U ks ks'

section Rewritten
variable {cfg : Settings} {U V : List Text → List Text → Prop} {ls ls' out out' : List Text}
  {x x' : Except Error (List Text)} {o : Option OpenCall}

lemma Alike.map_append (h : Alike U x x') (hout : Source.Rewritten U out out') :
    Alike U (x.map (out ++ ·)) (x'.map (out' ++ ·)) := by
  rcases h with ⟨e, rfl, rfl⟩ | ⟨ks, ks', rfl, rfl, hks⟩
  · exact .inl ⟨e, rfl, rfl⟩
  · exact .inr ⟨out ++ ks, out' ++ ks', rfl, rfl, hout.append hks⟩

/-- Calls are joined alike if those lines are that are exchanged, wherever they stand. `P` holds of the calls that may
be open, and `ok` of the lines at their places. -/
theorem joinCalls_rewritten {P : Option OpenCall → Prop} {ok : Option OpenCall → Text → List Text → Prop}
    (hP : ∀ o l, P o → P (openAfter o l))
    (hswap : ∀ o a a' rest rest', U a a' → P o → Along openAfter ok o (a ++ rest) →
      Along openAfter ok o rest ∧ ∃ out out', Source.Rewritten V out out'
        ∧ (joinCalls cfg o (a ++ rest)).result = (joinCalls cfg o rest).result.map (out ++ ·)
        ∧ (joinCalls cfg o (a' ++ rest')).result = (joinCalls cfg o rest').result.map (out' ++ ·))
    (h : Source.Rewritten U ls ls') (ho : P o) (hok : Along openAfter ok o ls) :
    Alike V (joinCalls cfg o ls).result (joinCalls cfg o ls').result := by
  induction h generalizing o with
  | nil =>
    cases (joinCalls cfg o []).result with
    | error e => exact .inl ⟨e, rfl, rfl⟩
    | ok ks => exact .inr ⟨ks, ks, rfl, rfl, .refl ks⟩
  | keep l _ ih =>
    rw [joinCalls_cons, joinCalls_cons]
    cases given cfg o l with
    | error e => exact .inl ⟨e, rfl, rfl⟩
    | ok out => exact (ih (hP o l ho) hok.2).map_append (.refl out)
  | @swap a a' ls ls' allowed _ ih =>
    obtain ⟨hrest, out, out', hout, hjoin, hjoin'⟩ := hswap o a a' ls ls' allowed ho hok
    rw [hjoin, hjoin']
    exact (ih ho hrest).map_append hout

lemma joinCalls_append {a rest : List Text} (h : ∀ l ∈ a, opens? l = none) :
    (joinCalls cfg none (a ++ rest)).result = (joinCalls cfg none rest).result.map (a ++ ·) := by
  induction a with
  | nil => cases hx : (joinCalls cfg none rest).result <;> simp [hx, Except.map]
  | cons l a ih =>
    have hl := h l (by simp)
    rw [cons_append, joinCalls_cons]
    simp only [given, openAfter, Option.elim, hl, ih fun l hl => h l (by simp [hl])]
    cases (joinCalls cfg none rest).result <;> rfl

lemma spreadBlocks_rewritten (hswap : ∀ a a', U a a' → Source.Rewritten V (spreadBlocks a) (spreadBlocks a'))
    (h : Source.Rewritten U ls ls') : Source.Rewritten V (spreadBlocks ls) (spreadBlocks ls') := by
  induction h with
  | nil => exact .nil
  | keep l _ ih => exact (Source.Rewritten.refl (spreadBlock l)).append ih
  | swap allowed _ ih =>
    rw [spreadBlocks, spreadBlocks, flatMap_append, flatMap_append]
    exact (hswap _ _ allowed).append ih

lemma Alike.spreadBlocks (hswap : ∀ a a', U a a' → Source.Rewritten V (spreadBlocks a) (spreadBlocks a'))
    (h : Alike U x x') : Alike V (x.map Layout.spreadBlocks) (x'.map Layout.spreadBlocks) := by
  rcases h with ⟨e, rfl, rfl⟩ | ⟨ks, ks', rfl, rfl, hks⟩
  · exact .inl ⟨e, rfl, rfl⟩
  · exact .inr ⟨_, _, rfl, rfl, spreadBlocks_rewritten hswap hks⟩

end Rewritten

def laidOut (cfg : Settings) (ls : List Text) : Except Error (List Text) :=
  (joinCalls cfg none ls).result.map spreadBlocks

/-! ### Lines that say something -/

/-- The lines that say something, without their margins. -/
def codeLines (ls : List Text) : List Text := (ls.filter fun l => !isIdle l).map trimStart

variable {l : Text} {ls ls' : List Text}

lemma isIdle_trimStart (l : Text) : isIdle (trimStart l) = isIdle l := by
  rw [isIdle, isIdle, trim_trimStart]

@[simp] lemma codeLines_nil : codeLines [] = [] := rfl

lemma codeLines_idle (h : isIdle l) : codeLines (l :: ls) = codeLines ls := by simp [codeLines, h]

lemma codeLines_cons (h : isIdle l = false) : codeLines (l :: ls) = trimStart l :: codeLines ls := by
  simp [codeLines, h]

@[simp] lemma codeLines_append (ls ls' : List Text) : codeLines (ls ++ ls') = codeLines ls ++ codeLines ls' := by
  simp [codeLines]

lemma isIdle_iff : isIdle l ↔ trimStart l = [] ∨ ∃ t, trimStart l = '#' :: t := by
  have hemp : trim l = [] ↔ trimStart l = [] := by
    rw [← head?_eq_none_iff, head?_trim, head?_eq_none_iff]
  simp [isIdle, hemp, head?_trim, head?_eq_some_iff]

lemma trim_of_idle (h : isIdle l) : trim l = [] ∨ ∃ u, trim l = '#' :: u := by
  simp only [isIdle, Bool.or_eq_true, List.isEmpty_iff] at h
  refine h.imp_right fun hhead => ?_
  cases ht : trim l with
  | nil => simp [ht] at hhead
  | cons c u => exact ⟨u, by simpa [ht] using hhead⟩

end Layout
namespace Program
open Layout (codeLines codeLines_idle codeLines_cons isIdle laidOut trim_of_idle)
open Instruction (ofCall ofInner ofLine unknownLine)
variable {ctx : Context}

/-! ### Stages -/

/-- A script whose templates are written out, and the templates. -/
def unfolded (ls : List Text) : Except Error (List Text × Table Template) :=
  (Template.collect ls.length [] ls).bind fun r => (Template.expand r.2 r.1).map fun out => (out, r.2)

def signed (namespaces : List Text) (T : Table Template) (out : List Text) : Except Error Prepared :=
  (signaturesOf out).bind fun sigs => (checkNames T sigs).map fun _ => ⟨out, namespaces, T, sigs⟩

/-- A script laid out, with its templates and multiple selections written out. -/
def writtenOut (namespaces ls : List Text) : Except Error Prepared :=
  (unfolded ls).bind fun r => (Multiselect.expand r.1).bind fun out => signed namespaces r.2 out

theorem result_prepare (cfg : Settings) (files : Files) (entry : Path) :
    (prepare cfg files entry).result = (Source.load files entry).bind fun loaded =>
      (laidOut cfg loaded.lines).bind (writtenOut loaded.namespaces) := by
  have hcnt : ∀ stage ls more, (traceCount cfg stage ls more).result = .ok () := fun _ _ _ =>
    Settings.result_traceStage ..
  simp only [prepare, laidOut, writtenOut, signed, unfolded, result_bind, Compile.result_ofExcept, hcnt,
    Settings.result_traceStage, result_pure, bind_bind, ok_bind, map_eq_bind]

theorem prepare_rewritten {cfg : Settings} {U V : List Text → List Text → Prop} {files files' : Files} {entry : Path}
    (hent : entry.Proper) (hsil : Source.Silent U) (hfs : Source.FilesRewritten U files files') {β : Type}
    {view : Prepared → β}
    (hlay : ∀ loaded ls', Source.load files entry = .ok loaded → Source.Rewritten U loaded.lines ls' →
      Layout.Alike V (laidOut cfg loaded.lines) (laidOut cfg ls'))
    (hwrite : ∀ loaded ks ks' namespaces, Source.load files entry = .ok loaded → laidOut cfg loaded.lines = .ok ks →
      Source.Rewritten V ks ks' → (writtenOut namespaces ks).map view = (writtenOut namespaces ks').map view) :
    (prepare cfg files entry).result.map view = (prepare cfg files' entry).result.map view := by
  rw [result_prepare, result_prepare]
  rcases Source.load_rewritten hsil hfs hent with ⟨e, he, he'⟩ | ⟨ls, ls', namespaces, hls, hls', hrest⟩
  · rw [he, he']
  rw [hls, hls', ok_bind, ok_bind]
  rcases hlay _ ls' hls hrest with ⟨e, he, he'⟩ | ⟨ks, ks', hks, hks', hkp⟩
  · rw [he, he']
  rw [hks, hks']
  exact hwrite _ ks ks' namespaces hls hks hkp

/-! ### Line numbers -/

lemma toOption_unknownLine (ctx : Context) (n m : Nat) (t : Text) :
    (unknownLine ctx n t).result.toOption = (unknownLine ctx m t).result.toOption := by
  rw [unknownLine, unknownLine]
  split
  · rfl
  split
  · rfl
  · rfl

lemma toOption_ofCall (ctx : Context) (temps n m : Nat) (negated : Bool) (t : Text) :
    (ofCall ctx temps n negated t).result.toOption = (ofCall ctx temps m negated t).result.toOption := by
  rw [ofCall, ofCall, result_bind, result_bind]
  refine toOption_bind_congr _ fun r => ?_
  cases r with
  | some r => rfl
  | none =>
    simp only [result_bind]
    refine toOption_bind_congr _ fun r => ?_
    cases r with
    | some p => rfl
    | none =>
      simp only [result_bind, toOption_bind]
      rw [toOption_unknownLine ctx n m]

lemma toOption_ofInner (ctx : Context) (owner : Plan.Owner) (temps n m : Nat) (negated : Bool) (t : Text) :
    (ofInner ctx owner temps n negated t).result.toOption = (ofInner ctx owner temps m negated t).result.toOption := by
  rw [ofInner, ofInner]
  split
  · rfl
  split
  · rfl
  split
  · rfl
  rw [result_bind, result_bind]
  refine toOption_bind_congr _ fun r => ?_
  split
  · rfl
  · exact toOption_ofCall ctx temps n m negated t

lemma toOption_ofLine (ctx : Context) (owner : Option Plan.Owner) (temps n m : Nat) (negated : Bool) (t : Text) :
    (ofLine ctx owner temps n negated t).result.toOption = (ofLine ctx owner temps m negated t).result.toOption := by
  rw [Instruction.ofLine.eq_def, Instruction.ofLine.eq_def]
  split
  · rfl
  split
  · rfl
  split
  · rfl
  cases owner with
  | none => rfl
  | some owner => exact toOption_ofInner ctx owner temps n m negated t

/-! ### Lines that say something -/

lemma toOption_line (ctx : Context) (namespaces : List Text) (n m : Nat) {raw raw' : Text}
    (h : trim raw = trim raw') (s : State) :
    (line ctx namespaces n raw s).result.toOption = (line ctx namespaces m raw' s).result.toOption := by
  rw [result_line, result_line, code, code, h]
  split
  · rfl
  next negated t _ =>
    split
    · rfl
    rw [toOption_bind, toOption_bind, toOption_ofLine ctx _ _ n m]

lemma result_line_of_idle (ctx : Context) (namespaces : List Text) (n : Nat) {raw : Text} (h : isIdle raw) (s : State) :
    (line ctx namespaces n raw s).result = .ok s := by
  have htrim : isIdle (trim raw) := by rwa [isIdle, trim_trim]
  rw [result_line, code]
  simp [htrim]

/-- Only the lines that say something matter to what is compiled, and their margins do not. -/
lemma toOption_lines (ctx : Context) (namespaces : List Text) (n m : Nat) (s : State) (ls : List Text) :
    (lines ctx namespaces n s ls).result.toOption = (lines ctx namespaces m s (codeLines ls)).result.toOption := by
  induction ls generalizing n m s with
  | nil => rfl
  | cons l ls ih =>
    cases hl : isIdle l with
    | true =>
      rw [codeLines_idle hl, lines, result_bind, result_line_of_idle _ _ _ hl]
      exact ih (n + 1) m s
    | false =>
      rw [codeLines_cons hl, lines, lines, result_bind, result_bind, toOption_bind,
        toOption_bind, toOption_line ctx namespaces n m (trim_trimStart l).symm]
      simp [ih (n + 1) (m + 1)]

lemma signaturesOf_codeLines (ls : List Text) : signaturesOf (codeLines ls) = signaturesOf ls := by
  rw [signaturesOf, signaturesOf]
  generalize [] = sigs
  induction ls generalizing sigs with
  | nil => rfl
  | cons l ls ih =>
    cases hl : isIdle l with
    | true =>
      have hnone : Line.Start.func? (trim l) = none := by
        rcases trim_of_idle hl with ht | ⟨u, ht⟩ <;> rw [ht] <;> rfl
      rw [codeLines_idle hl, foldlM_cons, hnone]
      exact ih sigs
    | false =>
      rw [codeLines_cons hl, foldlM_cons, trim_trimStart]
      refine congrArg _ (funext fun sigs => ?_)
      exact ih sigs

/-- What of a script matters once all is written out. -/
def Prepared.gist (p : Prepared) : List Text × List Text × List Text × Assignment.Signatures :=
  (codeLines p.lines, p.namespaces, p.templates.names, p.signatures)

lemma toOption_run {p p' : Prepared} (h : p.gist = p'.gist) :
    (run ctx p).result.toOption = (run ctx p').result.toOption := by
  obtain ⟨hlns, hnss, -⟩ : codeLines p.lines = codeLines p'.lines ∧ p.namespaces = p'.namespaces ∧ _ := by
    simpa [Prepared.gist] using h
  have hsame : (lines ctx p.namespaces 1 .start p.lines).result.toOption
      = (lines ctx p'.namespaces 1 .start p'.lines).result.toOption := by
    rw [toOption_lines ctx p.namespaces 1 1, toOption_lines ctx p'.namespaces 1 1, hlns, hnss]
  simp only [run, result_bind, toOption_bind, hsame]

end Program
namespace Data
open Program (Prepared)
open Layout (codeLines)

/-- What the lines of a script are compiled with, by the functions of the script and the names of its templates. -/
def contexts (d : Data) (cfg : Settings) : Except Error (Assignment.Signatures → List Text → Program.Context) :=
  d.loadApi.result.bind fun api => (liftM d.loadAliases : Compile _).result.bind fun aliases =>
    (liftM d.loadEvents : Compile _).result.bind fun events => (liftM (size api) : Compile _).result.bind fun _ =>
      ((⟨api, d.loadValues⟩ : Library).call "select" "vybrat_igroka_po_umolchaniyu" []).result.bind fun player =>
        (Action.ofPlaced ⟨d.loadBlocks, aliases⟩ player).result.bind fun player =>
          ((⟨api, d.loadValues⟩ : Library).call "select" "vybrat_suschnost_po_umolchaniyu" []).result.bind fun entity =>
            (Action.ofPlaced ⟨d.loadBlocks, aliases⟩ entity).result.map fun entity sigs names =>
              ⟨⟨cfg, ⟨api, d.loadValues⟩, ⟨d.loadBlocks, aliases⟩, events, player, entity, sigs.names ++ names⟩, sigs⟩

theorem result_setup (d : Data) (cfg : Settings) (files : Files) (entry : Path) (shown : Text) :
    (d.setup cfg files entry shown).result = (d.contexts cfg).bind fun ctx =>
      (Program.prepare cfg files entry).result.map fun p => (ctx p.signatures p.templates.names, p) := by
  simp [setup, Program.setup, contexts, result_bind, bind_bind, ok_bind, map_eq_bind]

theorem result_compile (d : Data) (cfg : Settings) (files : Files) (entry : Path) (shown : Text) :
    (d.compile cfg files entry shown).result = (d.contexts cfg).bind fun ctx =>
      (Program.prepare cfg files entry).result.bind fun p =>
        (Program.run (ctx p.signatures p.templates.names) p).result.map fun s =>
          (Plan.promote (Plan.collapse s.entries).1).1 := by
  have hplan : ∀ s, (Program.plan cfg s).result = .ok (Plan.promote (Plan.collapse s.entries).1).1 := fun s => by
    simp [Program.plan, result_bind, Plan.result_link, Except.bind]
  simp [compile, result_setup, result_bind, hplan, bind_bind, ok_bind, map_eq_bind]

theorem compile_of_gist {cfg : Settings} {files files' : Files} {entry : Path}
    (h : (Program.prepare cfg files entry).result.map Prepared.gist
      = (Program.prepare cfg files' entry).result.map Prepared.gist) (d : Data) (shown : Text) :
    (d.compile cfg files entry shown).result.toOption = (d.compile cfg files' entry shown).result.toOption := by
  rw [result_compile, result_compile]
  refine toOption_bind_congr _ fun ctx => ?_
  rcases cases_of_map_eq h with ⟨e, hp, hp'⟩ | ⟨p, p', hp, hp', hgist⟩
  · rw [hp, hp']
  obtain ⟨-, -, hnms, hsigs⟩ : codeLines p.lines = codeLines p'.lines ∧ p.namespaces = p'.namespaces
      ∧ p.templates.names = p'.templates.names ∧ p.signatures = p'.signatures := by
    simpa [Prepared.gist] using hgist
  rw [hp, hp']
  simp [ok_bind, toOption_map, Program.toOption_run hgist, hnms, hsigs]

end Data
end BlockScript
