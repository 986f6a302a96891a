import BlockScript.Proofs.Comments

/-!
# Blocks on one line

A block written on one line is spread over several before it is compiled. Where the quotes and brackets of its
header and of its statements are closed, it is spread into the lines it would have been written on
(`Layout.spreadBlock_oneLine`), so that both ways of writing it compile alike (`Data.compile_overLines`). A block with
one statement is an exception: it is cut before everything that looks like an assignment or a call.
-/

open List
namespace BlockScript
open Nesting (isQuote)
open Text (joinWith trim trimEnd trimStart)
open Script (Settings)
namespace Layout

/-! ### Closed texts -/

/-- A character that is no quote, no bracket and no backslash. -/
def isPlain (c : Char) : Bool :=
  !isQuote c && !(['(', ')', '[', ']', '\x7b', '\x7d', '\\'].contains c)

/-- What may stand between quotes. A backslash takes the character behind it; the last character is no backslash. -/
inductive Quoted (q : Char) : Text → Prop
  | nil : Quoted q []
  | char {c : Char} {t : Text} (other : c ≠ q) (plain : c ≠ '\\') (rest : Quoted q t) : Quoted q (c :: t)
  | escape {c : Char} {t : Text} (last : t = [] → c ≠ '\\') (rest : Quoted q t) : Quoted q ('\\' :: c :: t)

/-- Texts whose quotes and brackets are closed. With `top`, semicolons and braces stand inside parentheses or
square brackets only. -/
inductive Sealed : Bool → Text → Prop
  | nil (top : Bool) : Sealed top []
  | char {top : Bool} {c : Char} {t : Text} (plain : isPlain c) (inner : top → c ≠ ';') (rest : Sealed top t) :
    Sealed top (c :: t)
  | escape {top : Bool} {c : Char} {t : Text} (plain : isPlain c ∨ c = '\\') (inner : top → c ≠ ';')
    (rest : Sealed top t) :
    Sealed top ('\\' :: c :: t)
  | quoted {top : Bool} {q : Char} {u t : Text} (quote : isQuote q) (inside : Quoted q u) (rest : Sealed top t) :
    Sealed top (q :: (u ++ q :: t))
  | paren {top : Bool} {u t : Text} (inside : Sealed false u) (rest : Sealed top t) :
    Sealed top ('(' :: (u ++ ')' :: t))
  | bracket {top : Bool} {u t : Text} (inside : Sealed false u) (rest : Sealed top t) :
    Sealed top ('[' :: (u ++ ']' :: t))
  | brace {u t : Text} (inside : Sealed false u) (rest : Sealed false t) :
    Sealed false ('\x7b' :: (u ++ '\x7d' :: t))

lemma quoted_of_ne {q : Char} {t : Text} (h : t.all fun c => c != q && c != '\\') : Quoted q t := by
  induction t with
  | nil => exact .nil
  | cons c t ih =>
    simp only [all_cons, Bool.and_eq_true, bne_iff_ne] at h
    exact .char h.1.1 h.1.2 (ih h.2)

variable {top : Bool}

lemma sealed_of_plain {t : Text} (h : t.all fun c => isPlain c && c != ';') : Sealed top t := by
  induction t with
  | nil => exact .nil _
  | cons c t ih =>
    simp only [all_cons, Bool.and_eq_true, bne_iff_ne] at h
    exact .char h.1.1 (fun _ => h.1.2) (ih h.2)

lemma sealed_append {t u : Text} (ht : Sealed top t) (hu : Sealed top u) : Sealed top (t ++ u) := by
  induction ht with
  | nil => exact hu
  | char plain inner _ ih => exact .char plain inner (ih hu)
  | escape plain inner _ ih => exact .escape plain inner (ih hu)
  | quoted quote inside _ ih =>
    simpa using Sealed.quoted quote inside (ih hu)
  | paren inside _ _ ih =>
    simpa using Sealed.paren inside (ih hu)
  | bracket inside _ _ ih =>
    simpa using Sealed.bracket inside (ih hu)
  | brace inside _ _ ih =>
    simpa using Sealed.brace inside (ih hu)

/-! ### Reading closed texts -/

namespace Scan
variable {s : Scan} {t u : Text} {c q : Char}
  {top : Bool} {ok : Scan → Char → Prop} {F : Scan → Text → Text → β}

def readAll (s : Scan) (t : Text) : Scan := t.foldl read s

def behind (s : Scan) (t : Text) : Scan := { s with last := t.getLast?.or s.last }

@[simp] lemma behind_nil (s : Scan) : s.behind [] = s := by simp [behind]

@[simp] lemma isTop_behind (s : Scan) (t : Text) : (s.behind t).isTop = s.isTop := rfl

lemma behind_behind (s : Scan) (t u : Text) : (s.behind t).behind u = s.behind (t ++ u) := by
  simp [behind, Option.or_assoc]

lemma read_of_plain (hs : s.quote = none) (hc : isPlain c ∨ c = '\\') : s.read c = s.behind [c] := by
  obtain ⟨quote, last, paren, brace, bracket⟩ := s
  obtain rfl : quote = none := hs
  rcases hc with hc | rfl
  · simp only [isPlain, Bool.and_eq_true, Bool.not_eq_true', contains_cons,
      Bool.or_eq_false_iff, beq_eq_false_iff_ne] at hc
    obtain ⟨hqt, h₁, h₂, h₃, h₄, h₅, h₆, -⟩ := hc
    simp only [read, hqt]
    rfl
  · rfl

/-- What holds of every character of a text and the reader before it. -/
def Along (ok : Scan → Char → Prop) : Scan → Text → Prop
  | _, [] => True
  | s, c :: t => ok s c ∧ Along ok (s.read c) t

lemma along_append : Along ok s (t ++ u) ↔ Along ok s t ∧ Along ok (s.readAll t) u := by
  induction t generalizing s with
  | nil => simp [Along, readAll]
  | cons c t ih => simp [Along, readAll, ih, and_assoc]

/-- A character at which neither a statement nor a block begins or ends. -/
structure IsInner (s : Scan) (c : Char) : Prop where
  quote : ∀ q, s.quote = some q → isQuote q
  start : s.quote = none → c = ';' ∨ c = '\x7b' → 0 < s.paren + s.bracket
  stop : s.quote = none → c = '\x7d' → 0 < s.brace

lemma readAll_append (s : Scan) (t u : Text) : s.readAll (t ++ u) = (s.readAll t).readAll u := foldl_append

lemma readAll_cons (s : Scan) (c : Char) (t : Text) : s.readAll (c :: t) = (s.read c).readAll t := rfl

lemma read_quoted {l : Option Char} (hq : isQuote q) (h : Quoted q u) (hl : u = [] → l ≠ some '\\') :
    Along IsInner { s with quote := some q, last := l } (u ++ [q])
      ∧ readAll { s with quote := some q, last := l } (u ++ [q]) = { s with quote := none, last := some q } := by
  have hsl : q ≠ '\\' := by
    rintro rfl
    contradiction
  -- inside of quotes nothing but the quote matters
  have hins : ∀ l c, IsInner { s with quote := some q, last := l } c := fun _ _ =>
    ⟨fun _ h => Option.some.inj h ▸ hq, nofun, nofun⟩
  have hstay : ∀ l c, c ≠ q ∨ l = some '\\' →
      read { s with quote := some q, last := l } c = { s with quote := some q, last := some c } := by
    rintro l c (hc | rfl)
    · simp [read, hc]
    · simp [read]
  induction h generalizing l with
  | nil =>
    refine ⟨⟨hins l q, trivial⟩, ?_⟩
    simp [readAll, read, hl rfl]
  | @char c t other plain _ ih =>
    obtain ⟨halg, hend⟩ := ih (l := some c) fun _ => by simpa using plain
    rw [← hstay l c (.inl other)] at halg hend
    exact ⟨⟨hins l c, halg⟩, hend⟩
  | @escape c t last _ ih =>
    obtain ⟨halg, hend⟩ := ih (l := some c) fun ht => by simpa using last ht
    rw [← hstay (some '\\') c (.inr rfl), ← hstay l '\\' (.inl hsl.symm)] at halg hend
    refine ⟨⟨hins l '\\', ?_, halg⟩, hend⟩
    rw [hstay l '\\' (.inl hsl.symm)]
    exact hins _ c

lemma read_group {s₁ : Scan} {o d : Char} (hopen : s.read o = s₁) (ho : IsInner s o)
    (hu : Along IsInner s₁ u ∧ s₁.readAll u = s₁.behind u) (hcl : (s₁.behind u).read d = { s with last := some d })
    (hd : IsInner (s₁.behind u) d)
    (ht : Along IsInner { s with last := some d } t
      ∧ readAll { s with last := some d } t = behind { s with last := some d } t) :
    Along IsInner s (o :: (u ++ d :: t)) ∧ s.readAll (o :: (u ++ d :: t)) = s.behind (o :: (u ++ d :: t)) := by
  constructor
  · refine ⟨ho, ?_⟩
    rw [hopen, along_append, hu.2]
    refine ⟨hu.1, hd, ?_⟩
    rw [hcl]
    exact ht.1
  rw [readAll_cons, hopen, readAll_append, hu.2, readAll_cons, hcl, ht.2]
  simp [behind, getLast?_cons]

lemma inner_of_plain (hs : s.quote = none) (hc : isPlain c ∨ c = '\\') (hinn : top → c ≠ ';')
    (htop : top ∨ 0 < s.paren + s.bracket) : IsInner s c := by
  refine ⟨fun q hq => ?_, fun _ => ?_, fun _ => ?_⟩
  · simp [hs] at hq
  · rintro (rfl | rfl)
    · exact htop.resolve_left fun h => hinn h rfl
    · rcases hc with hc | hc <;> contradiction
  rintro rfl
  rcases hc with hc | hc <;> contradiction

lemma inner_of_ne (hs : s.quote = none) (h : c ≠ ';' ∧ c ≠ '\x7b' ∧ c ≠ '\x7d') : IsInner s c :=
  ⟨fun q hq => by simp [hs] at hq, fun _ hc => (hc.elim h.1 h.2.1).elim, fun _ hc => (h.2.2 hc).elim⟩

/-- A closed text is read without coming to the end of a statement or of a block, and leaves nothing open. -/
lemma read_sealed (h : Sealed top t) (hs : s.quote = none) (htop : top ∨ 0 < s.paren + s.bracket) :
    Along IsInner s t ∧ s.readAll t = s.behind t := by
  induction h generalizing s with
  | nil => exact ⟨trivial, by simp [readAll]⟩
  | @char top c t plain inner _ ih =>
    have hrd := read_of_plain hs (.inl plain)
    obtain ⟨halg, hend⟩ := ih (s := s.behind [c]) hs htop
    refine ⟨⟨inner_of_plain hs (.inl plain) inner htop, hrd ▸ halg⟩, ?_⟩
    rw [readAll_cons, hrd, hend, behind_behind]
    rfl
  | @escape top c t plain inner _ ih =>
    have hsl : s.read '\\' = s.behind ['\\'] := read_of_plain hs (.inr rfl)
    have hrd : (s.behind ['\\']).read c = s.behind ['\\', c] := by
      rw [read_of_plain (s := s.behind ['\\']) hs plain]
      rfl
    obtain ⟨halg, hend⟩ := ih (s := s.behind ['\\', c]) hs htop
    refine ⟨⟨inner_of_plain hs (.inr rfl) (fun _ => by decide) htop, ?_, ?_⟩, ?_⟩
    · rw [hsl]
      exact inner_of_plain hs plain inner htop
    · rw [hsl, hrd]
      exact halg
    rw [readAll_cons, hsl, readAll_cons, hrd, hend, behind_behind]
    rfl
  | @quoted top q u t quote inside _ ih =>
    have hopen : s.read q = { s with quote := some q, last := some q } := by
      simp [read, hs, quote]
    have hsl : q ≠ '\\' := by
      rintro rfl
      contradiction
    have hinn : IsInner s q := by
      refine inner_of_ne hs ⟨?_, ?_, ?_⟩ <;>
        (rintro rfl; contradiction)
    obtain ⟨hquot, hcl⟩ := read_quoted (l := some q) quote inside fun _ => by simpa using hsl
    obtain ⟨halg, hend⟩ := ih (s := { s with quote := none, last := some q }) rfl htop
    have hspl : u ++ q :: t = u ++ [q] ++ t := by simp
    refine ⟨⟨hinn, ?_⟩, ?_⟩
    · rw [hopen, hspl, along_append, hcl]
      exact ⟨hquot, halg⟩
    rw [readAll_cons, hopen, hspl, readAll_append, hcl, hend]
    simp [behind, hs, getLast?_cons]
  | @paren top u t _ _ ihu iht =>
    have hopen : s.read '(' = { s with paren := s.paren + 1, last := some '(' } := by simp [read, hs, isQuote]
    refine read_group hopen (inner_of_ne hs (by decide)) (ihu hs (.inr ?_)) ?_ (inner_of_ne hs (by decide))
      (iht hs htop)
    · dsimp only
      omega
    · simp [read, behind, hs, isQuote]
  | @bracket top u t _ _ ihu iht =>
    have hopen : s.read '[' = { s with bracket := s.bracket + 1, last := some '[' } := by
      simp [read, hs, isQuote]
    refine read_group hopen (inner_of_ne hs (by decide)) (ihu hs (.inr ?_)) ?_ (inner_of_ne hs (by decide))
      (iht hs htop)
    · dsimp only
      omega
    · simp [read, behind, hs, isQuote]
  | @brace u t _ _ ihu iht =>
    have hin : 0 < s.paren + s.bracket := htop.resolve_left (by simp)
    have hopen : s.read '\x7b' = { s with brace := s.brace + 1, last := some '\x7b' } := by
      simp [read, hs, isQuote]
    have hfst : IsInner s '\x7b' := ⟨fun q hq => by simp [hs] at hq, fun _ _ => hin, fun _ hc => by contradiction⟩
    refine read_group hopen hfst (ihu hs (.inr hin)) ?_ ⟨fun q hq => ?_, fun _ hc => ?_, fun _ _ => Nat.succ_pos _⟩
      (iht hs htop)
    · simp [read, behind, hs, isQuote]
    · simp [behind, hs] at hq
    · simp at hc

/-- A loop that keeps what it has read passes over a text if it passes over each of its characters. -/
lemma pass_along {β : Type} {F : Scan → Text → Text → β}
    (hF : ∀ s c part rest, ok s c → F s part (c :: rest) = F (s.read c) (c :: part) rest) (h : Along ok s t)
    (part rest : Text) : F s part (t ++ rest) = F (s.readAll t) (t.reverse ++ part) rest := by
  induction t generalizing s part with
  | nil => rfl
  | cons c t ih =>
    rw [cons_append, hF s c part _ h.1, ih h.2, readAll_cons]
    simp

/-- A loop that passes over characters inside statements passes over closed texts. -/
lemma pass_sealed {β : Type} {F : Scan → Text → Text → β}
    (hF : ∀ s c part rest, IsInner s c → F s part (c :: rest) = F (s.read c) (c :: part) rest) (h : Sealed top t)
    (hs : s.quote = none) (htop : top ∨ 0 < s.paren + s.bracket) (part rest : Text) :
    F s part (t ++ rest) = F (s.behind t) (t.reverse ++ part) rest := by
  obtain ⟨halg, hend⟩ := read_sealed h hs htop
  rw [pass_along hF halg, hend]

end Scan
open Scan (IsInner read_of_plain)
variable {s : Scan} {t u margin : Text} {c : Char}
  {ss : List Text}

lemma isTop_eq_false (h : 0 < s.paren + s.bracket) : s.isTop = false := by
  simp only [Scan.isTop, Bool.and_eq_false_iff, beq_eq_false_iff_ne]
  omega

lemma isTop_of_quote {q : Char} (h : s.quote = some q) : s.isTop = false := by simp [Scan.isTop, h]

lemma splitStatementsFrom_inner (s : Scan) (c : Char) (part rest : Text) (h : IsInner s c) :
    splitStatementsFrom s part (c :: rest) = splitStatementsFrom (s.read c) (c :: part) rest := by
  rw [splitStatementsFrom, if_neg]
  rintro hstop
  obtain ⟨hc, htop⟩ := Bool.and_eq_true_iff.mp hstop
  cases hq : s.quote with
  | some q => simp [isTop_of_quote hq] at htop
  | none => simp [isTop_eq_false (h.start hq (.inl (by simpa using hc)))] at htop

lemma read_with_brace (b : Nat) (h : c ≠ '\x7b' ∧ c ≠ '\x7d') :
    Scan.read { s with brace := b } c = { s.read c with brace := b } := by
  obtain ⟨quote, last, paren, brace, bracket⟩ := s
  cases quote with
  | some q => rfl
  | none =>
    simp only [Scan.read]
    split
    · rfl
    · split <;> first | rfl | simp_all

lemma skipBrace_eq (b : Nat) (h : IsInner s c) :
    (if c == '\x7b' || c == '\x7d' then { s with brace := b, last := some c } else Scan.read { s with brace := b } c)
      = { s.read c with brace := b } := by
  split
  next hc =>
    obtain ⟨quote, last, paren, brace, bracket⟩ := s
    have hc : c = '\x7b' ∨ c = '\x7d' := by simpa using hc
    cases quote with
    | some q =>
      have hne : c ≠ q := by
        rintro rfl
        have := h.quote c rfl
        rcases hc with rfl | rfl <;> contradiction
      simp [Scan.read, hne]
    | none => rcases hc with rfl | rfl <;> rfl
  next hc => exact read_with_brace b (by simpa using hc)

lemma openBrace?_inner (s : Scan) (c : Char) (part rest : Text) (h : IsInner s c) :
    openBrace? { s with brace := 0 } part (c :: rest) = openBrace? { s.read c with brace := 0 } (c :: part) rest := by
  have hpass : ¬ (c == '\x7b' && { s with brace := 0 }.isTop) = true := by
    intro hstop
    obtain ⟨hc, htop⟩ := Bool.and_eq_true_iff.mp hstop
    cases hq : s.quote with
    | some q => simp [Scan.isTop, hq] at htop
    | none =>
      have hin := h.start hq (.inr (by simpa using hc))
      simp [isTop_eq_false (s := { s with brace := 0 }) hin] at htop
  rw [openBrace?, if_neg hpass, skipBrace_eq 0 h]

/-- The end of a block, found by a reader that counts the braces. -/
def closeFrom (s : Scan) (inside rest : Text) : Option (Text × Text) :=
  closeBrace? { s with brace := 0 } (s.brace + 1) inside rest

lemma closeFrom_inner (s : Scan) (c : Char) (part rest : Text) (h : IsInner s c) :
    closeFrom s part (c :: rest) = closeFrom (s.read c) (c :: part) rest := by
  rw [closeFrom, closeFrom, closeBrace?, skipBrace_eq 0 h]
  obtain ⟨quote, last, paren, brace, bracket⟩ := s
  cases quote with
  | some q =>
    simp [Scan.read]
  | none =>
    by_cases hopen : c = '\x7b'
    · subst hopen
      simp [Scan.read, isQuote]
    by_cases hcl : c = '\x7d'
    · subst hcl
      have hpos : 0 < brace := h.stop rfl rfl
      obtain ⟨k, rfl⟩ : ∃ k, brace = k + 1 := ⟨brace - 1, by omega⟩
      simp [Scan.read, isQuote]
    have hbrace : (Scan.read ⟨none, last, paren, brace, bracket⟩ c).brace = brace := by
      have := congrArg Scan.brace (read_with_brace (s := ⟨none, last, paren, brace, bracket⟩) brace ⟨hopen, hcl⟩)
      exact this
    simp [hopen, hcl, hbrace]

/-! ### Spreading -/

/-- A piece of a line that can stand by itself: closed, trimmed and not empty. -/
structure IsPiece (t : Text) : Prop where
  closed : Sealed true t
  trimmed : trim t = t
  nonempty : t ≠ []

lemma sealed_of_blank (h : ∀ c ∈ t, isBlank c) : Sealed true t :=
  sealed_of_plain (all_eq_true.mpr fun c hc => of_isBlank (p := fun c => isPlain c && c != ';') rfl (h c hc))

-- the blank behind a semicolon belongs to the next part until the parts are trimmed
lemma map_trim_splitStatementsFrom {part : Text} (hne : ss ≠ []) (hss : ∀ t ∈ ss, IsPiece t)
    (hs : s.quote = none ∧ s.isTop) (hpart : ∀ c ∈ part, isBlank c) :
    (splitStatementsFrom s part (joinWith "; " ss)).map trim = ss := by
  have hbl : ∀ c ∈ part.reverse, isBlank c := by simpa using hpart
  induction ss generalizing s part with
  | nil => contradiction
  | cons t ss ih =>
    have ht := hss t (by simp)
    have hhead : trim (part.reverse ++ t) = t := by rw [Text.trim_append_left hbl, ht.trimmed]
    have hpass := Scan.pass_sealed splitStatementsFrom_inner ht.closed hs.1 (.inl rfl) part
    cases ss with
    | nil =>
      have h := hpass []
      rw [append_nil] at h
      simp [joinWith, h, splitStatementsFrom, hhead]
    | cons t' ss =>
      have hjoin : joinWith "; " (t :: t' :: ss) = t ++ (';' :: ' ' :: joinWith "; " (t' :: ss)) := by
        simp [joinWith]
      have hqt : (s.behind t).quote = none := hs.1
      rw [hjoin, hpass, splitStatementsFrom, if_pos (by simpa using hs.2), splitStatementsFrom, if_neg (by simp),
        map_cons, ih (by simp) (fun t h => hss t (by simp [h])) ?_ (by simp [isBlank]) (by simp [isBlank])]
      · simp [hhead]
      rw [read_of_plain hqt (.inl rfl), read_of_plain (by exact hqt) (.inl rfl)]
      exact hs

lemma splitStatements_joinWith (hne : ss ≠ []) (hss : ∀ t ∈ ss, IsPiece t) :
    splitStatements (joinWith "; " ss) = ss := by
  rw [splitStatements, map_trim_splitStatementsFrom hne hss ⟨rfl, rfl⟩ (by simp), filter_eq_self]
  intro t ht
  simpa using (hss t ht).nonempty

lemma split_of_not_occurs {a : Pattern} (h : a.occurs t = false) : a.split t = [t] := by
  have hnone : a.searchFrom false 0 none t = none := by simpa [Pattern.occurs, Pattern.search?] using h
  have hall : a.findAll t = [] := by simp [Pattern.findAll, Pattern.findAllFrom, Pattern.Place.start, hnone]
  rw [Pattern.split, hall]
  rfl

lemma statements_joinWith (hne : ss ≠ []) (hss : ∀ t ∈ ss, IsPiece t)
    (hwh : ∀ t, ss = [t] → gapPattern.occurs t = false) : statements (joinWith "; " ss) = ss := by
  rw [statements, splitStatements_joinWith hne hss]
  split
  · rfl
  next hlen =>
    have hpos := length_pos_iff.mpr hne
    obtain ⟨t, rfl⟩ := length_eq_one_iff.mp (show ss.length = 1 by omega)
    have ht := hss t (by simp)
    have hpts : ((gapPattern.split t).map trim).filter (!·.isEmpty) = [t] := by
      rw [split_of_not_occurs (hwh t rfl)]
      simp [ht.trimmed, ht.nonempty]
    simp [joinWith, hpts]

lemma pass_joinWith {β : Type} {F : Scan → Text → Text → β}
    (hF : ∀ s c part rest, IsInner s c → F s part (c :: rest) = F (s.read c) (c :: part) rest)
    (hsemi : ∀ (s : Scan) part rest, s.quote = none → F s part (';' :: rest) = F (s.read ';') (';' :: part) rest)
    (hss : ∀ t ∈ ss, Sealed true t) (hs : s.quote = none) (part rest : Text) : F s part (joinWith "; " ss ++ rest)
      = F (s.behind (joinWith "; " ss)) ((joinWith "; " ss).reverse ++ part) rest := by
  induction ss generalizing s part with
  | nil => simp [joinWith]
  | cons t ss ih =>
    have ht := hss t (by simp)
    cases ss with
    | nil => exact Scan.pass_sealed hF ht hs (.inl rfl) part rest
    | cons t' ss =>
      have hjoin : joinWith "; " (t :: t' :: ss) = t ++ (';' :: ' ' :: joinWith "; " (t' :: ss)) := by
        simp [joinWith]
      have hqt : (s.behind t).quote = none := hs
      have hsep : ((s.behind t).read ';').read ' ' = s.behind (t ++ [';', ' ']) := by
        rw [read_of_plain hqt (.inl (by decide)), read_of_plain (by exact hqt) (.inl (by decide)),
          Scan.behind_behind, Scan.behind_behind]
        simp
      rw [hjoin, append_assoc, Scan.pass_sealed hF ht hs (.inl rfl), cons_append, hsemi _ _ _ hqt,
        cons_append, hF _ _ _ _ (Scan.inner_of_ne (by rw [read_of_plain hqt (.inl (by decide))]; exact hs)
          (by decide)), hsep, ih (fun t h => hss t (by simp [h])) (by exact hs), Scan.behind_behind]
      simp

/-! ### Blocks and how they are written -/

/-- A block, with the margins it has when it is written over several lines. -/
structure BlockText where
  margin : Text
  header : Text
  /-- The statements, each behind its margin. -/
  body : List (Text × Text)
  /-- The margin of the closing brace. -/
  footMargin : Text

namespace BlockText

def statements (b : BlockText) : List Text := b.body.map fun l => l.2

def oneLine (b : BlockText) : Text :=
  b.margin ++ b.header ++ " \x7b " ++ joinWith "; " b.statements ++ " \x7d"

def overLines (b : BlockText) : List Text :=
  (b.margin ++ b.header ++ " \x7b") :: (b.body.map (fun l => l.1 ++ l.2) ++ [b.footMargin ++ "\x7d"])

/-- The margins that a block gets when it is spread over several lines. -/
def spread (b : BlockText) : BlockText :=
  ⟨b.margin, b.header, b.statements.map fun s => (b.margin ++ "    ", s), b.margin⟩

/-- The block can be read on one line: margins are blank, the header and the statements are closed, and a single
statement is in one piece. None of the lines imports something. -/
structure Readable (b : BlockText) : Prop where
  margins : ∀ m ∈ b.margin :: b.footMargin :: b.body.map (fun l => l.1), Text.allBlank m
  header : IsPiece b.header
  nonempty : b.statements ≠ []
  pieces : ∀ t ∈ b.statements, IsPiece t
  whole : ∀ t, b.statements = [t] → gapPattern.occurs t = false
  imports : ∀ l ∈ b.oneLine :: b.overLines, Source.import? l = none

lemma Readable.isBlank_of_margin {b : BlockText} (hb : b.Readable) (m : Text)
    (hm : m ∈ b.margin :: b.footMargin :: b.body.map fun l => l.1) : ∀ c ∈ m, isBlank c :=
  all_eq_true.mp (hb.margins m hm)

end BlockText
variable {b : BlockText}

lemma closeFrom_semicolon (s : Scan) (part rest : Text) (hs : s.quote = none) :
    closeFrom s part (';' :: rest) = closeFrom (s.read ';') (';' :: part) rest := by
  rw [closeFrom, closeFrom, closeBrace?, read_of_plain hs (.inl rfl),
    read_of_plain (s := { s with brace := 0 }) hs (.inl rfl)]
  simp [Scan.behind]

lemma sealed_margin_append (hm : ∀ c ∈ margin, isBlank c) (ht : IsPiece t) : Sealed true (margin ++ t) :=
  sealed_append (sealed_of_blank hm) ht.closed

lemma openBrace?_sealed (ht : Sealed true t) (rest : Text) :
    openBrace? .start [] (t ++ rest) = openBrace? (Scan.start.behind t) t.reverse rest := by
  have h := Scan.pass_sealed openBrace?_inner ht
    (s := .start) rfl (.inl rfl) [] rest
  simpa [Scan.start, Scan.behind] using h

lemma block?_of_sealed (ht : Sealed true t) : block? t = none := by
  have h := openBrace?_sealed ht []
  rw [append_nil] at h
  rw [block?, h]
  rfl

lemma block?_close (hm : ∀ c ∈ margin, isBlank c) : block? (margin ++ "\x7d") = none := by
  rw [block?, openBrace?_sealed (sealed_of_blank hm)]
  simp [openBrace?]

lemma block?_open (ht : Sealed true t) : block? (t ++ " \x7b") = none := by
  have htop : (Scan.read (Scan.start.behind t) ' ').isTop := by
    rfl
  rw [block?, openBrace?_sealed ht]
  simp [openBrace?, closeBrace?, htop]

lemma closeBrace?_joinWith (hss : ∀ t ∈ ss, Sealed true t) :
    closeBrace? { Scan.start with last := some '\x7b' } 1 [] (" " ++ joinWith "; " ss ++ " \x7d")
      = some (" " ++ joinWith "; " ss ++ " ", []) := by
  have hbl s part rest : s.quote = none →
      closeFrom s part (' ' :: rest) = closeFrom (s.behind [' ']) (' ' :: part) rest := by
    intro hs
    rw [closeFrom_inner s ' ' part rest (Scan.inner_of_ne hs (by decide)), read_of_plain hs (.inl rfl)]
  change closeFrom { Scan.start with last := some '\x7b' } [] (' ' :: (joinWith "; " ss ++ [' ', '\x7d'])) = _
  rw [hbl _ _ _ rfl, pass_joinWith closeFrom_inner closeFrom_semicolon hss rfl, hbl _ _ _ rfl]
  simp [closeFrom, closeBrace?, Scan.behind, Scan.start]

lemma IsPiece.trimEnd_append (ht : IsPiece t) (m : Text) : trimEnd (m ++ t ++ " ") = m ++ t := by
  have hlast : trimEnd (m ++ t) = m ++ t := by
    refine rdropWhile_eq_self_iff.mpr fun hne => ?_
    rw [getLast_append_of_ne_nil _ ht.nonempty]
    have h := (Text.trim_self_iff.mp ht.trimmed).2 _ (getLast?_eq_some_getLast ht.nonempty)
    simp [h]
  rw [trimEnd, Text.dropEndWhile_append (by simp [isBlank])]
  exact hlast

lemma block?_oneLine (hb : b.Readable) :
    block? b.oneLine = some (b.margin ++ b.header, joinWith "; " b.statements) := by
  have hsealed := sealed_margin_append (hb.isBlank_of_margin b.margin (by simp)) hb.header
  have htop : (Scan.read (Scan.start.behind (b.margin ++ b.header)) ' ').isTop := by
    rfl
  have hopen : openBrace? .start [] b.oneLine
      = some (b.margin ++ b.header ++ " ", " " ++ joinWith "; " b.statements ++ " \x7d") := by
    have hln : b.oneLine
        = b.margin ++ b.header ++ (' ' :: '\x7b' :: (" " ++ joinWith "; " b.statements ++ " \x7d")) := by
      simp [BlockText.oneLine]
    rw [hln, openBrace?_sealed hsealed]
    simp [openBrace?, htop]
  have htrim : trim (" " ++ joinWith "; " b.statements ++ " ") = joinWith "; " b.statements := by
    rw [Text.trim_append_right (by simp [isBlank]), Text.trim_append_left (by simp [isBlank]),
      Text.trim_joinWith fun t ht => ⟨(hb.pieces t ht).trimmed, (hb.pieces t ht).nonempty⟩]
  have hbd : joinWith "; " b.statements ≠ [] := by
    obtain ⟨t, ss, hss⟩ := exists_cons_of_ne_nil hb.nonempty
    have ht := (hb.pieces t (by simp [hss])).nonempty
    rw [hss]
    cases ss <;> simp [joinWith, ht]
  rw [block?, hopen]
  simp only
  rw [closeBrace?_joinWith fun t ht => (hb.pieces t ht).closed]
  simp only
  rw [hb.header.trimEnd_append, htrim]
  simpa [hb.header.nonempty, Text.allBlank] using hbd

theorem spreadBlock_oneLine (hb : b.Readable) : spreadBlock b.oneLine = b.spread.overLines := by
  have hmar : b.oneLine.takeWhile isBlank = b.margin := by
    obtain ⟨c, t, ht⟩ := exists_cons_of_ne_nil hb.header.nonempty
    have hc := (Text.trim_self_iff.mp hb.header.trimmed).1 c (by simp [ht])
    rw [BlockText.oneLine, append_assoc, append_assoc, append_assoc,
      takeWhile_append_of_pos (hb.isBlank_of_margin b.margin (by simp)), ht]
    simp [hc]
  rw [spreadBlock, block?_oneLine hb]
  simp only
  rw [statements_joinWith hb.nonempty hb.pieces hb.whole, hmar]
  simp [BlockText.overLines, BlockText.spread]

/-- What holds of closed lines, of these with a brace behind them and of braces alone holds of the lines of a block. -/
lemma forall_overLines {P : Text → Prop} (hb : b.Readable) (hopen : ∀ {t}, Sealed true t → P (t ++ " \x7b"))
    (hln : ∀ {t}, Sealed true t → P t) (hcl : ∀ {m : Text}, (∀ c ∈ m, isBlank c) → P (m ++ "\x7d")) :
    ∀ l ∈ b.overLines, P l := by
  refine forall_mem_cons.mpr ⟨?_, forall_mem_append.mpr ⟨forall_mem_map.mpr fun st hst => ?_, ?_⟩⟩
  · exact hopen (sealed_margin_append (hb.isBlank_of_margin b.margin (by simp)) hb.header)
  · have hm : st.1 ∈ b.body.map fun l => l.1 := mem_map_of_mem hst
    have ht : st.2 ∈ b.statements := mem_map_of_mem hst
    exact hln (sealed_margin_append (hb.isBlank_of_margin st.1 (by simp [hm])) (hb.pieces st.2 ht))
  · exact forall_mem_singleton.mpr (hcl (hb.isBlank_of_margin b.footMargin (by simp)))

lemma spreadBlocks_overLines (hb : b.Readable) : spreadBlocks b.overLines = b.overLines := by
  have hstay : ∀ l ∈ b.overLines, spreadBlock l = [l] := by
    intro l hl
    have hnone : block? l = none := forall_overLines hb block?_open block?_of_sealed block?_close l hl
    simp [spreadBlock, hnone]
  rw [spreadBlocks, flatMap_congr hstay, flatMap_singleton']

/-! ### Parentheses -/

def countParen (r : Nesting × Int) (c : Char) : Nesting × Int :=
  (r.1.read c, if !r.1.escaped && r.1.quote.isNone && c == '(' then r.2 + 1
    else if !r.1.escaped && r.1.quote.isNone && c == ')' then r.2 - 1 else r.2)

lemma parenDelta_eq (l : Text) : parenDelta l = (l.foldl countParen (Nesting.top, 0)).2 := rfl

section Count
variable {s : Nesting} {n : Int} {q : Char} {top : Bool}

lemma countParen_of_plain (hs : s.quote = none ∧ s.escaped = false) (hc : isPlain c) :
    countParen (s, n) c = (s, n) := by
  simp only [isPlain, Bool.and_eq_true, Bool.not_eq_true', contains_cons,
    Bool.or_eq_false_iff, beq_eq_false_iff_ne] at hc
  obtain ⟨hqt, hopen, hcl, _, _, _, _, hsl⟩ := hc
  simp [countParen, Nesting.read, hs, hqt, hopen, hcl, hsl]

lemma countParen_escape (hs : s.escaped = false) (c : Char) : countParen (countParen (s, n) '\\') c = (s, n) := by
  obtain ⟨quote, escaped, paren, brace, bracket⟩ := s
  obtain rfl : escaped = false := hs
  simp [countParen, Nesting.read]

lemma foldl_countParen_quoted (hq : isQuote q) (h : Quoted q u) (hs : s.escaped = false) :
    (u ++ [q]).foldl countParen ({ s with quote := some q }, n) = ({ s with quote := none }, n) := by
  have hsl : q ≠ '\\' := by
    rintro rfl
    contradiction
  induction h with
  | nil => simp [countParen, Nesting.read, hs, hsl]
  | @char c t other plain _ ih =>
    have hstay : countParen ({ s with quote := some q }, n) c = ({ s with quote := some q }, n) := by
      simp [countParen, Nesting.read, hs, other, plain]
    rw [cons_append, foldl_cons, hstay, ih]
  | @escape c t _ _ ih =>
    rw [cons_append, cons_append, foldl_cons, foldl_cons, countParen_escape (by exact hs), ih]

lemma countParen_group {o d : Char} {r r' : Nesting × Int} (hopen : countParen r o = r')
    (hu : u.foldl countParen r' = r') (hcl : countParen r' d = r) (ht : t.foldl countParen r = r) :
    (o :: (u ++ d :: t)).foldl countParen r = r := by
  rw [foldl_cons, hopen, foldl_append, hu, foldl_cons, hcl, ht]

lemma countParen_sealed (h : Sealed top t) (paren brace bracket : Nat) (n : Int) :
    t.foldl countParen (⟨none, false, paren, brace, bracket⟩, n) = (⟨none, false, paren, brace, bracket⟩, n) := by
  induction h generalizing paren brace bracket n with
  | nil => rfl
  | char plain _ _ ih => rw [foldl_cons, countParen_of_plain ⟨rfl, rfl⟩ plain, ih]
  | escape _ _ _ ih => rw [foldl_cons, foldl_cons, countParen_escape rfl, ih]
  | @quoted top q u t quote inside _ ih =>
    have hne : q ≠ '\\' ∧ q ≠ '(' ∧ q ≠ ')' := by
      refine ⟨?_, ?_, ?_⟩ <;> (rintro rfl; contradiction)
    have hopen : countParen (⟨none, false, paren, brace, bracket⟩, n) q
        = (⟨some q, false, paren, brace, bracket⟩, n) := by
      simp [countParen, Nesting.read, quote, hne]
    have hspl : u ++ q :: t = u ++ [q] ++ t := by simp
    have hcl := foldl_countParen_quoted (s := ⟨none, false, paren, brace, bracket⟩) (n := n) quote inside rfl
    rw [foldl_cons, hopen, hspl, foldl_append, hcl, ih]
  | paren _ _ ihu iht =>
    refine countParen_group ?_ (ihu (paren + 1) brace bracket (n + 1)) ?_ (iht paren brace bracket n) <;>
      simp [countParen, Nesting.read, isQuote]
  | bracket _ _ ihu iht =>
    refine countParen_group ?_ (ihu paren brace (bracket + 1) n) ?_ (iht paren brace bracket n) <;>
      simp [countParen, Nesting.read, isQuote]
  | brace _ _ ihu iht =>
    refine countParen_group ?_ (ihu paren (brace + 1) bracket n) ?_ (iht paren brace bracket n) <;>
      simp [countParen, Nesting.read, isQuote]

end Count

lemma parenDelta_of_sealed (h : Sealed top t) : parenDelta t = 0 := by
  rw [parenDelta_eq, Nesting.top, countParen_sealed h]

lemma opens?_of_parenDelta {l : Text} (h : parenDelta l = 0) : opens? l = none := by
  rw [opens?]
  simp only [h]
  split <;> rfl

lemma Sealed.relax (h : Sealed top t) : Sealed false t := by
  induction h with
  | nil => exact .nil _
  | char plain _ _ ih => exact .char plain nofun ih
  | escape plain _ _ ih => exact .escape plain nofun ih
  | quoted quote inside _ ih => exact .quoted quote inside ih
  | paren inside _ _ ih => exact .paren inside ih
  | bracket inside _ _ ih => exact .bracket inside ih
  | brace inside _ _ ih => exact .brace inside ih

lemma sealed_joinWith (hss : ∀ t ∈ ss, Sealed true t) : Sealed false (joinWith "; " ss) := by
  induction ss with
  | nil => exact .nil _
  | cons t ss ih =>
    have ht := (hss t (by simp)).relax
    cases ss with
    | nil => exact ht
    | cons t' ss =>
      have hsep : Sealed false (';' :: ' ' :: joinWith "; " (t' :: ss)) :=
        .char rfl nofun (.char rfl nofun (ih fun t h => hss t (by simp [h])))
      simpa [joinWith] using sealed_append ht hsep

lemma opens?_oneLine (hb : b.Readable) : opens? b.oneLine = none := by
  have hhdr := (sealed_margin_append (hb.isBlank_of_margin b.margin (by simp)) hb.header).relax
  have hbd := sealed_joinWith fun t ht => (hb.pieces t ht).closed
  have hins : Sealed false (' ' :: (joinWith "; " b.statements ++ [' '])) :=
    .char rfl nofun (sealed_append hbd (.char rfl nofun (.nil _)))
  have hblk : Sealed false (' ' :: '\x7b' :: ((' ' :: (joinWith "; " b.statements ++ [' '])) ++ '\x7d' :: [])) :=
    .char rfl nofun (.brace hins (.nil _))
  have hln : Sealed false b.oneLine := by simpa [BlockText.oneLine] using sealed_append hhdr hblk
  exact opens?_of_parenDelta (parenDelta_of_sealed hln)

lemma opens?_overLines (hb : b.Readable) {l : Text} (hl : l ∈ b.overLines) : opens? l = none := by
  refine opens?_of_parenDelta (forall_overLines hb (fun ht => ?_) parenDelta_of_sealed (fun hm => ?_) l hl)
  · rw [parenDelta_eq, foldl_append, Nesting.top, countParen_sealed ht]
    rfl
  rw [parenDelta_eq, foldl_append, Nesting.top, countParen_sealed (sealed_of_blank hm)]
  rfl

/-! ### Scripts with blocks on one line -/

/-- Some blocks on one line are written over several lines instead. -/
def Respelled (bs : List BlockText) (a a' : List Text) : Prop := ∃ b ∈ bs, a = [b.oneLine] ∧ a' = b.overLines

/-- Blocks over several lines get other margins. -/
def Remargined (bs : List BlockText) (a a' : List Text) : Prop := ∃ b ∈ bs, a = b.spread.overLines ∧ a' = b.overLines

/-- The lines of some blocks stand outside bodies, and begin none. -/
def Outside (p : Pattern) (bs : List BlockText) (K : Option Nat) (l : Text) : Prop :=
  (∃ b ∈ bs, l ∈ b.spread.overLines) → K = none ∧ leads p l = false
deriving Decidable

/-- Some blocks on one line stand where a block can stand: outside calls over several lines. Over several lines they
have the margins they get when they are spread, or else they stand outside templates and multiple selections. -/
structure FreeStanding (cfg : Settings) (bs : List BlockText) (ls : List Text) : Prop where
  calls : Along openAfter (fun o l _ => (∃ b ∈ bs, l = b.oneLine) → o = none) none ls
  margins : (∀ b ∈ bs, b.spread.overLines = b.overLines) ∨ ∀ ks ∈ (laidOut cfg ls).toOption,
    Along (bodyOf Template.headPattern) (fun K l _ => Outside Template.headPattern bs K l) none ks
      ∧ Along (bodyOf Multiselect.headPattern) (fun K l _ => Outside Multiselect.headPattern bs K l) none ks
      ∧ Template.Filled ks ∧ Program.OneKind ks

variable {cfg : Settings} {bs : List BlockText} {ls ls' : List Text}
  {p : Pattern} {K : Option Nat}

lemma silent_respelled (hbs : ∀ b ∈ bs, b.Readable) : Source.Silent (Respelled bs) where
  left := by
    rintro _ _ ⟨b, hb, rfl, rfl⟩
    exact ⟨by simp, fun l hl => (hbs b hb).imports l (by simp [mem_singleton.mp hl])⟩
  right := by
    rintro _ _ ⟨b, hb, rfl, rfl⟩ l hl
    exact (hbs b hb).imports l (by simp [hl])

/-- Scripts with blocks written over several lines instead of one are laid out alike, but for margins. -/
theorem laidOut_respelled (hbs : ∀ b ∈ bs, b.Readable) (h : Source.Rewritten (Respelled bs) ls ls')
    (hcall : Along openAfter (fun o l _ => (∃ b ∈ bs, l = b.oneLine) → o = none) none ls) :
    Alike (Remargined bs) (laidOut cfg ls) (laidOut cfg ls') := by
  have hjoin : Alike (Respelled bs) (joinCalls cfg none ls).result (joinCalls cfg none ls').result := by
    refine joinCalls_rewritten (P := fun _ => True) (fun _ _ _ => trivial) ?_ h trivial hcall
    rintro o _ _ rest rest' ⟨b, hb, rfl, rfl⟩ - hok
    obtain rfl : o = none := hok.1 ⟨b, hb, rfl⟩
    have hop := opens?_oneLine (hbs b hb)
    have hstay : openAfter none b.oneLine = none := hop
    have hrest := hok.2
    rw [hstay] at hrest
    exact ⟨hrest, [b.oneLine], b.overLines, .single ⟨b, hb, rfl, rfl⟩, joinCalls_append (by simpa using hop),
      joinCalls_append fun l hl => opens?_overLines (hbs b hb) hl⟩
  refine hjoin.spreadBlocks ?_
  rintro _ _ ⟨b, hb, rfl, rfl⟩
  rw [spreadBlocks_overLines (hbs b hb), spreadBlocks, flatMap_singleton, spreadBlock_oneLine (hbs b hb)]
  exact .single ⟨b, hb, rfl, rfl⟩

lemma loose_append {a a' : List Text} (hsame : List.Forall₂ (fun l l' => trimStart l = trimStart l') a a')
    (hmem : ∀ l ∈ a, ∃ b ∈ bs, l ∈ b.spread.overLines)
    (hout : Along (bodyOf p) (fun K l _ => Outside p bs K l) K (a ++ ls))
    (hrest : ∀ K, Along (bodyOf p) (fun K l _ => Outside p bs K l) K ls → Loose p K ls ls') :
    Loose p K (a ++ ls) (a' ++ ls') := by
  induction hsame with
  | nil => exact hrest K hout
  | @cons l l' a a' hl _ ih =>
    obtain ⟨rfl, hld⟩ := hout.1 (hmem l (by simp))
    have hnext := hout.2
    rw [bodyOf_not_leads hld] at hnext
    exact .shift hl hld (ih (fun l hl => hmem l (by simp [hl])) hnext)

lemma forall₂_spread (hb : b.Readable) :
    List.Forall₂ (fun l l' => trimStart l = trimStart l') b.spread.overLines b.overLines := by
  have hsame : ∀ {m m' : Text} t, (∀ c ∈ m, isBlank c) → (∀ c ∈ m', isBlank c) →
      trimStart (m ++ t) = trimStart (m' ++ t) := fun t hm hm' => by
    rw [trimStart_append hm, trimStart_append hm']
  have hmar := hb.isBlank_of_margin b.margin (by simp)
  have hdeeper : ∀ c ∈ b.margin ++ "    ", isBlank c :=
    forall_mem_append.mpr ⟨hmar, all_eq_true.mp rfl⟩
  refine .cons rfl (rel_append ?_ (.cons ?_ .nil))
  · rw [BlockText.spread, BlockText.statements, map_map, map_map, forall₂_map_left_iff,
      forall₂_map_right_iff, forall₂_same]
    intro l hl
    have hm : l.1 ∈ b.body.map fun l => l.1 := mem_map_of_mem hl
    exact hsame l.2 hdeeper (hb.isBlank_of_margin l.1 (by simp [hm]))
  · exact hsame _ hmar (hb.isBlank_of_margin b.footMargin (by simp))

theorem loose_remargined (hbs : ∀ b ∈ bs, b.Readable)
    (h : Source.Rewritten (Remargined bs) ls ls') (hout : Along (bodyOf p) (fun K l _ => Outside p bs K l) K ls) :
    Loose p K ls ls' := by
  induction h generalizing K with
  | nil => exact .nil K
  | keep l _ ih => exact .keep l (ih hout.2)
  | swap allowed _ ih =>
    obtain ⟨b, hb, rfl, rfl⟩ := allowed
    exact loose_append (forall₂_spread (hbs b hb)) (fun l hl => ⟨b, hb, hl⟩) hout fun K hK => ih hK

lemma eq_of_remargined (h : Source.Rewritten (Remargined bs) ls ls')
    (hbs : ∀ b ∈ bs, b.spread.overLines = b.overLines) :
    ls = ls' := by
  induction h with
  | nil => rfl
  | keep l _ ih => rw [ih]
  | swap allowed _ ih =>
    obtain ⟨b, hb, rfl, rfl⟩ := allowed
    rw [hbs b hb, ih]

end Layout
namespace Program
open Layout (BlockText Respelled FreeStanding)

/-- Scripts with blocks written over several lines instead of one are prepared alike. -/
theorem prepare_respelled {cfg : Settings} {bs : List BlockText} {files files' : Files} {entry : Path}
    (hentry : entry.Proper) (hbs : ∀ b ∈ bs, b.Readable) (hfiles : Source.FilesRewritten (Respelled bs) files files')
    (hfree : ∀ loaded, Source.load files entry = .ok loaded → FreeStanding cfg bs loaded.lines) :
    (prepare cfg files entry).result.map Prepared.gist = (prepare cfg files' entry).result.map Prepared.gist := by
  refine prepare_rewritten hentry (Layout.silent_respelled hbs) hfiles
    (fun loaded ls' hload h => Layout.laidOut_respelled hbs h (hfree loaded hload).calls) ?_
  intro loaded ks ks' namespaces hload hks hkp
  rcases (hfree loaded hload).margins with hexact | houtside
  · rw [Layout.eq_of_remargined hkp hexact]
  obtain ⟨htpl, hmultiselects, hfill, hone⟩ := houtside ks (by rw [hks]; rfl)
  exact writtenOut_loose (Layout.loose_remargined hbs hkp htpl)
    (Layout.loose_remargined hbs hkp hmultiselects) hfill hone namespaces

end Program
namespace Data
open Layout (BlockText Respelled FreeStanding)

/-- A block means the same on one line and over several lines. Some blocks on one line are written over several lines
instead, in any files of a script. If their headers and statements are closed, a block with a single statement has
nothing in it that looks like one more statement, and the blocks stand outside calls over several lines, templates and
multiple selections (in these, they may stand with the right margins), then the script compiles to the same entries as
before, or to none as before. -/
theorem compile_overLines {cfg : Settings} {bs : List BlockText} {files files' : Files} {entry : Path}
    (hentry : entry.Proper) (hbs : ∀ b ∈ bs, b.Readable) (hfiles : Source.FilesRewritten (Respelled bs) files files')
    (hfree : ∀ loaded, Source.load files entry = .ok loaded → FreeStanding cfg bs loaded.lines) (d : Data)
      (shown : Text) :
    (d.compile cfg files' entry shown).result.toOption = (d.compile cfg files entry shown).result.toOption :=
  (compile_of_gist (Program.prepare_respelled hentry hbs hfiles hfree) d shown).symm

/-! ### Some scripts with blocks on one line -/

/-- An event with two statements, one of them with a semicolon in quotes. -/
def quotedBlock : BlockText := ⟨[], "event(\"x\")", [([], "select.all"), ("  ", "a.b(\"c; d\")")], []⟩

lemma isPiece_call (name text : Text) (hnm : name.all fun c => Layout.isPlain c && c != ';')
    (htext : text.all fun c => c != '"' && c != '\\')
      (htrim : trim (name ++ "(\"" ++ text ++ "\")") = name ++ "(\"" ++ text ++ "\")") :
    Layout.IsPiece (name ++ "(\"" ++ text ++ "\")") where
  closed := by
    have hquot : Layout.Sealed false ('"' :: (text ++ '"' :: [])) := .quoted rfl (Layout.quoted_of_ne htext) (.nil _)
    have hargs : Layout.Sealed true ('(' :: (('"' :: (text ++ '"' :: [])) ++ ')' :: [])) := .paren hquot (.nil _)
    simpa using Layout.sealed_append (Layout.sealed_of_plain hnm) hargs
  trimmed := htrim
  nonempty := by simp

lemma quotedBlock_readable : quotedBlock.Readable where
  margins := by decide
  header := isPiece_call "event" "x" rfl rfl rfl
  nonempty := by decide
  pieces := forall_mem_cons.mpr ⟨⟨Layout.sealed_of_plain rfl, rfl, by decide⟩,
    forall_mem_singleton.mpr (isPiece_call "a.b" "c; d" rfl rfl rfl)⟩
  whole := fun t ht => nomatch ht
  imports := by decide

def quotedOneLine : Text := "event(\"x\") \x7b select.all; a.b(\"c; d\") \x7d\n"

def quotedOverLines : Text := "event(\"x\") \x7b\nselect.all\n  a.b(\"c; d\")\n\x7d\n"

lemma filesRewritten_respelled {b : BlockText} {text text' : Text} (h : Source.fileLines text = [b.oneLine])
    (h' : Source.fileLines text' = b.overLines) :
      Source.FilesRewritten (Respelled [b]) (script text) (script text') := by
  refine .cons ⟨rfl, ?_⟩ .nil
  rw [h, h']
  exact .single ⟨b, by simp, rfl, rfl⟩

theorem compile_overLines_quotedBlock :
    quotedBlock.Readable ∧ Source.FilesRewritten (Respelled [quotedBlock]) (script quotedOneLine)
      (script quotedOverLines)
      ∧ (sample.plan (script quotedOneLine)).result.toOption.isSome
      ∧ (sample.plan (script quotedOverLines)).result.toOption
        = (sample.plan (script quotedOneLine)).result.toOption := by
  have hfiles : Source.FilesRewritten (Respelled [quotedBlock]) (script quotedOneLine) (script quotedOverLines) :=
    filesRewritten_respelled (by decide +kernel) (by decide +kernel)
  have hload : (Source.load (script quotedOneLine) (.ofText "/main")).toOption.map (fun loaded => loaded.lines)
      = some [quotedBlock.oneLine] := by decide +kernel
  refine ⟨quotedBlock_readable, hfiles, by decide +kernel, compile_overLines (Path.proper_ofText "/main")
    (by simpa using quotedBlock_readable) hfiles (fun loaded h => ?_) _ _⟩
  have hloaded : loaded.lines = [quotedBlock.oneLine] := by
    rw [h] at hload
    exact Option.some.inj hload
  rw [hloaded]
  exact ⟨by decide +kernel, .inr (by decide +kernel)⟩

/-- An event with a single statement, which has an equals sign in quotes. -/
def tornBlock : BlockText := ⟨[], "event(\"x\")", [([], "a.b(\"c d = e\")")], []⟩

/-- A single statement on one line is cut before what looks like an assignment, also inside quotes. -/
theorem exists_torn_statement : Layout.IsPiece tornBlock.header ∧ (∀ t ∈ tornBlock.statements, Layout.IsPiece t)
      ∧ Source.FilesRewritten (Respelled [tornBlock]) (script "event(\"x\") \x7b a.b(\"c d = e\") \x7d\n")
        (script "event(\"x\") \x7b\na.b(\"c d = e\")\n\x7d\n")
      ∧ (sample.plan (script "event(\"x\") \x7b a.b(\"c d = e\") \x7d\n")).result.toOption = none
      ∧ (sample.plan (script "event(\"x\") \x7b\na.b(\"c d = e\")\n\x7d\n")).result.toOption
        = some [.ofBlock "diamond_block" "x" "no", .ofBlock "game" "b||b" "no"] := by
  refine ⟨?_, fun t ht => ?_, filesRewritten_respelled (by decide +kernel) (by decide +kernel), by decide +kernel⟩
  · exact isPiece_call "event" "x" (by decide +kernel) (by decide +kernel) (by decide +kernel)
  · obtain rfl := mem_singleton.mp ht
    exact isPiece_call "a.b" "c d = e" (by decide +kernel) (by decide +kernel) (by decide +kernel)

/-- A call over several lines is refused if one of them looks like an import. -/
theorem exists_broken_call :
    (sample.plan (script "event(\"x\") \x7b\na.b(use , c)\n\x7d\n")).result.toOption = some
      [.ofBlock "diamond_block" "x" "no", .ofBlock "game" "b||b" "no"]
    ∧ (sample.plan (script "event(\"x\") \x7b\na.b(\nuse ,\nc)\n\x7d\n")).result.toOption = none := by
  decide +kernel

end Data
end BlockScript
