import Mathlib.Data.List.Chain
import BlockScript.Proofs.MlctRows

/-!
# Tokens of the older language

A text between quotes is read back iff no backslash in it stands before a backslash, a quote or the end
(`lexFrom_quoted_iff`), since a backslash read counts as one that hides what follows. A comment that is open at the end
of a program is read for ever, and nothing else is (`lexFrom_endless`).
-/

namespace BlockScript.Mlct

/-- A text with a backslash before each of its backslashes and quotes. -/
def escape (q : Char) (t : Text) : Text := t.flatMap fun c => if c = '\\' ∨ c = q then ['\\', c] else [c]

/-- No backslash stands before a backslash or a quote, the closing one behind the text included. -/
abbrev Plain (q : Char) (t : Text) : Prop := (t ++ [q]).IsChain fun a b => a = '\\' → b ≠ '\\' ∧ b ≠ q

section Quoted
variable {q : Char} (hq : '\\' ≠ q) (t rest : Text) (escaped : Bool)
include hq

/-- A written character is read as itself, with one more backslash if a backslash was read before it. -/
lemma readQuoted_escape_cons (c : Char) : readQuoted q escaped (escape q (c :: t) ++ rest)
      = ((if escaped ∧ (c = '\\' ∨ c = q) then ['\\', c] else [c]) ++ (readQuoted q (c = '\\') (escape q t ++ rest)).1,
        (readQuoted q (c = '\\') (escape q t ++ rest)).2) := by
  by_cases hc : c = '\\'
  · cases escaped <;> simp [escape, readQuoted, hc, hq]
  by_cases hcq : c = q
  · cases escaped <;> simp [escape, readQuoted, hcq, hq, hq.symm]
  · simp [escape, readQuoted, hc, hcq]

lemma length_le_readQuoted : t.length ≤ (readQuoted q escaped (escape q t ++ rest)).1.length := by
  induction t generalizing escaped with
  | nil => exact Nat.zero_le _
  | cons c t ih =>
    rw [readQuoted_escape_cons hq]
    have := ih (c = '\\')
    split <;> simp <;> omega

lemma readQuoted_escape_iff :
    ((readQuoted q escaped (escape q t ++ q :: rest)).1 = t ↔ Plain q (if escaped then '\\' :: t else t))
    ∧ (Plain q (if escaped then '\\' :: t else t) → (readQuoted q escaped (escape q t ++ q :: rest)).2
      = some rest) := by
  induction t generalizing escaped with
  | nil => cases escaped <;> simp [escape, readQuoted, Plain, hq.symm]
  | cons c t ih =>
    obtain ⟨hval, hrest⟩ := ih (c = '\\')
    have hlong : '\\' :: (readQuoted q true (escape q t ++ q :: rest)).1 ≠ t := fun h => by
      have := length_le_readQuoted hq t (q :: rest) true
      have := congrArg List.length h
      rw [List.length_cons] at this
      omega
    rw [readQuoted_escape_cons hq]
    by_cases hc : c = '\\'
    · cases escaped <;> simp_all [Plain]
    have hch : Plain q (c :: t) ↔ Plain q t := by simp [Plain, List.isChain_cons, hc]
    by_cases hcq : c = q <;> cases escaped <;> simp_all [Plain]

end Quoted

/-- A text between quotes is read as one token with this text, and what follows it as if it stood alone, iff
no backslash of the text stands before a backslash, a quote or its end. -/
theorem lexFrom_quoted_iff {q : Char} (h : q = '"' ∨ q = '\'') (size : Nat) (t rest : Text) :
    lexFrom size (q :: escape q t ++ q :: rest)
        = { lexFrom size rest with tokens := ⟨.text, t⟩ :: (lexFrom size rest).tokens } ↔ Plain q t := by
  have hq : '\\' ≠ q := by rcases h with rfl | rfl <;> decide
  have hfst pos u : Piece.first pos q u = .enclosed .text pos (readQuoted q false u) := by
    rcases h with rfl | rfl <;> rfl
  obtain ⟨hval, hrest⟩ := readQuoted_escape_iff hq t rest false
  rw [List.cons_append, lexFrom.eq_def]
  rcases hrd : readQuoted q false (escape q t ++ q :: rest) with ⟨v, _ | r⟩ <;> rw [hrd] at hval hrest <;>
    dsimp only <;> split <;> rename_i hpc <;> rw [hfst, hrd] at hpc <;> cases hpc
  · constructor <;> intro hp
    · cases hp
    · cases hrest hp
  · constructor
    · intro heq
      have htok := (List.cons.inj (congrArg Lexed.tokens heq)).1
      exact hval.mp (congrArg Token.value htok)
    · intro hp
      cases hval.mpr hp
      cases hrest hp
      rfl

theorem lexFrom_quoted_iff_path : lexFrom 9 ('"' :: escape '"' "a\\b" ++ '"' :: ";")
    = { lexFrom 9 ";" with tokens := ⟨.text, "a\\b"⟩ :: (lexFrom 9 ";").tokens } :=
  (lexFrom_quoted_iff (.inl rfl) 9 _ _).mpr (by decide)

/-- A text of one backslash has no end. -/
theorem lex_lone_backslash : (lex ('"' :: escape '"' "\\" ++ ['"'])).tokens = [.start] := by
  rw [lex, lexFrom.eq_def]
  rfl

def importing : Language := { smallLanguage with
  custom := [("CODE_NAMES", [("import", "IMPORT_MODULE"), ("last", "LOAD_MODULE_TO_END")])] }

/-- The second import to the end takes away the last token of the first file. -/
theorem import_loses_token :
    ((parse ⟨importing, [("/a.mlct", "1 2"), ("/b.mlct", "3 4")], .ofText "/"⟩ "main.mlct"
        (lex "import a last;import b last;").tokens ⟨[], [], true⟩).1.toOption.map fun p =>
      (p.tokens.filter (·.kind == .number)).map Token.value) = some ["1".toList, "3", "4"] := by
  decide +kernel

section Endless
variable {size pos : Nat} {c : Char} {t rest : Text}

/-- The reader of tokens comes to a place of a program of `size` characters. -/
inductive Comes (size : Nat) : Text → Text → Prop
  | refl (t : Text) : Comes size t t
  | next {c : Char} {rest r u : Text} {k : Option Token} {w : Option Trouble}
    (piece : Piece.first (size - (rest.length + 1)) c rest = .next k w r) (more : Comes size r u) :
      Comes size (c :: rest) u

/-- A comment without an end. -/
def IsOpenComment : Text → Prop
  | [] => False
  | c :: rest => (c = '#' ∨ c = '/') ∧ if rest.head? = some '*' then ¬ ['*', '/'] <:+: rest
      else (c = '#' ∨ rest.head? = some '/') ∧ '\n' ∉ rest

lemma afterLine?_eq_none : afterLine? t = none ↔ '\n' ∉ t := by
  induction t with
  | nil => simp [afterLine?]
  | cons c t ih =>
    rw [afterLine?, List.mem_cons, not_or, ← ih]
    by_cases hc : c = '\n'
    · simp [hc]
    · simp [hc, Ne.symm hc]

lemma afterStar?_eq_none : afterStar? t = none ↔ ¬ ['*', '/'] <:+: t := by
  induction t with
  | nil => simp [afterStar?]
  | cons c t ih =>
    rw [afterStar?, List.infix_cons_iff, not_or, ← ih, List.cons_prefix_cons]
    cases t with
    | nil => simp
    | cons d t =>
      by_cases h : '*' = c ∧ '/' = d
      · simp [← h.1, ← h.2]
      · simp [h, eq_comm (a := c), eq_comm (a := d)]

lemma comment_eq_endless (hc : c = '#' ∨ c = '/') :
    Piece.comment pos c rest = .endless ↔ IsOpenComment (c :: rest) := by
  simp only [Piece.comment, IsOpenComment, beq_iff_eq]
  split
  · rw [← afterStar?_eq_none]
    cases afterStar? rest <;> simp [hc]
  · rw [← afterLine?_eq_none]
    rcases hc with rfl | rfl
    · cases afterLine? rest <;> simp
    · by_cases hslash : rest.head? = some '/' <;> cases afterLine? rest <;> simp [hslash]

lemma first_eq_endless : Piece.first pos c rest = .endless ↔ IsOpenComment (c :: rest) := by
  unfold Piece.first
  split
  next hc => exact comment_eq_endless (by simpa using hc)
  next hc =>
    refine iff_of_false ?_ fun h => hc (by simpa using h.1)
    have henclosed : ∀ kind p, Piece.enclosed kind pos p ≠ .endless := by
      rintro kind ⟨t, _ | r⟩ ⟨⟩
    split
    · rintro ⟨⟩
    split
    · exact henclosed _ _
    split
    · rintro ⟨⟩
    split
    · exact henclosed _ _
    split
    · dsimp only
      cases (readWord rest).2 <;> rintro ⟨⟩
    · unfold Piece.single
      split <;> rintro ⟨⟩

/-- The reader of tokens goes on for ever iff it comes to a comment without an end. -/
theorem lexFrom_endless : (lexFrom size t).ending = .endless ↔ ∃ u, Comes size t u ∧ IsOpenComment u := by
  fun_induction lexFrom size t with
  | case1 =>
    refine iff_of_false (by simp) ?_
    rintro ⟨_, ⟨⟩, h⟩
    exact h
  | case2 c rest trouble hpiece =>
    refine iff_of_false (by simp) ?_
    rintro ⟨_, _ | ⟨hnext, -⟩, h⟩
    · simp [first_eq_endless.mpr h] at hpiece
    · simp [hnext] at hpiece
  | case3 c rest hpiece => exact iff_of_true rfl ⟨_, .refl _, first_eq_endless.mp hpiece⟩
  | case4 c rest k w r hpiece _ ih =>
    rw [ih]
    constructor
    · rintro ⟨u, hu, h⟩
      exact ⟨u, .next hpiece hu, h⟩
    · rintro ⟨u, _ | ⟨hnext, hu⟩, h⟩
      · simp [first_eq_endless.mpr h] at hpiece
      · rw [hpiece] at hnext
        cases hnext
        exact ⟨u, hu, h⟩

end Endless

/-- A comment that is open at the end of a program is read for ever. -/
theorem lex_open_comment : (lex "#").ending = .endless := by
  rw [lex, lexFrom.eq_def]
  rfl

end BlockScript.Mlct
