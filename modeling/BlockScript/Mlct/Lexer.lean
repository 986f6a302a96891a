import BlockScript.Mlct.Report
import BlockScript.Mlct.Token

/-!
# Reading tokens

A program is cut into pieces from its start: blanks and comments, which are left out, and tokens. Every piece takes at
least one character away, so that the reading ends; `first_rest_le` says so.
-/

namespace BlockScript.Mlct

/-! ### The readers of pieces -/

/-- What stands before the closing quote, and what follows it; nothing follows if the quote is missing. After a
backslash a quote belongs to the text. `escaped` says that a backslash stands before. -/
def readQuoted (quote : Char) : Bool → Text → Text × Option Text
  | _, [] => ([], none)
  | escaped, c :: rest =>
    if c == quote && !escaped then ([], some rest)
    else if c == '\\' then
      let (t, r) := readQuoted quote true rest
      (if escaped then '\\' :: t else t, r)
    else
      let (t, r) := readQuoted quote false rest
      (c :: t, r)

/-- What stands before the closing backquote, and what follows it. -/
def readName : Text → Text × Option Text
  | [] => ([], none)
  | c :: rest =>
    if c == '`' then ([], some rest)
    else
      let (t, r) := readName rest
      (c :: t, r)

/-- Letters and digits, with one point at most. `pointed` says that the point stands before. -/
def readNumber : Bool → Text → Text × Text
  | _, [] => ([], [])
  | pointed, c :: rest =>
    if isAlphanumeric c || (c == '.' && !pointed) then
      let (t, r) := readNumber (pointed || c == '.') rest
      (c :: t, r)
    else ([], c :: rest)

def readWord : Text → Text × Text
  | [] => ([], [])
  | c :: rest =>
    if isWordChar c then
      let (t, r) := readWord rest
      (c :: t, r)
    else ([], c :: rest)

/-- What follows a comment that ends with its line, from the end of the line on. -/
def afterLine? : Text → Option Text
  | [] => none
  | c :: rest => if c == '\n' then some (c :: rest) else afterLine? rest

/-- What follows the end of a comment over several lines. -/
def afterStar? : Text → Option Text
  | [] => none
  | c :: rest => if c == '*' && rest.head? == some '/' then some rest.tail else afterStar? rest

/-! ### Pieces -/

inductive Piece where
  /-- A token, or none for what is left out; perhaps a warning; and what follows. -/
  | next (token : Option Token) (warning : Option Trouble) (rest : Text)
  | wrong (t : Trouble)
  | endless

namespace Piece

def comment (pos : Nat) (c : Char) (rest : Text) : Piece :=
  let skip (r : Option Text) : Piece := match r with
    | some r => .next none none r
    | none => .endless
  if rest.head? == some '*' then skip (afterStar? rest)
  else if c == '/' && rest.head? != some '/' then
    .wrong { cause := .wrongComment, value := Text.ofNat pos,
             comment := some "Комментарий начинается с //, а не с /" }
  else skip (afterLine? rest)

def enclosed (kind : TokenKind) (pos : Nat) : Text × Option Text → Piece
  | (t, some rest) => .next (some ⟨kind, t⟩) none rest
  | (t, none) => .wrong { cause := .unfinished, value := kind.title, more := [.str t, .int pos] }

def number (pos : Nat) : Text × Text → Piece
  | (t, rest) =>
    let warning : Option Trouble := if rest.head? == some '.' then
        some { cause := .wrongCharacter, value := Text.ofNat pos, more := [.str "NUMBER", .str t],
               comment := some "Слишком много точек" }
      else none
    .next (some ⟨.number, t⟩) warning rest

/-- The piece of a word. The program must not end with it. -/
def word (pos : Nat) : Text × Text → Piece
  | (t, []) => .wrong { cause := .unfinished, value := TokenKind.name.title, more := [.str t, .int pos] }
  | (t, rest) => .next (some ⟨.word, t⟩) none rest

def single (pos : Nat) (c : Char) (rest : Text) : Piece :=
  match TokenKind.ofChar? c with
  | some k => .next (some ⟨k, [c]⟩) none rest
  | none => .wrong { cause := .wrongCharacter, value := Text.ofNat pos, more := [.str "CHAR", .str [c]],
                     comment := some "Неизвестный символ" }

/-- The first piece of a program that starts with `c`, at the position `pos`. -/
def first (pos : Nat) (c : Char) (rest : Text) : Piece :=
  if c == '#' || c == '/' then comment pos c rest
  else if c == '\t' || c == ' ' || c == '\n' then .next none none rest
  else if c == '"' || c == '\'' then enclosed .text pos (readQuoted c false rest)
  else if isDigitMark c then
    let (t, r) := readNumber false rest
    number pos (c :: t, r)
  else if c == '`' then enclosed .name pos (readName rest)
  else if isLetter c then
    let (t, r) := readWord rest
    word pos (c :: t, r)
  else single pos c rest

end Piece

/-! ### What is left is shorter -/

variable {t r : Text}

theorem readQuoted_rest_le {q : Char} {b : Bool} (h : (readQuoted q b t).2 = some r) :
    r.length ≤ t.length := by
  induction t generalizing b with
  | nil => simp [readQuoted] at h
  | cons c rest ih =>
    unfold readQuoted at h
    split at h
    · simp_all
    · split at h <;> exact Nat.le_succ_of_le (ih h)

theorem readName_rest_le (h : (readName t).2 = some r) : r.length ≤ t.length := by
  induction t with
  | nil => simp [readName] at h
  | cons c rest ih =>
    unfold readName at h
    split at h
    · simp_all
    · exact Nat.le_succ_of_le (ih h)

theorem readNumber_rest_le (b : Bool) (t : Text) : (readNumber b t).2.length ≤ t.length := by
  induction t generalizing b with
  | nil => simp [readNumber]
  | cons c rest ih =>
    unfold readNumber
    split
    · exact Nat.le_succ_of_le (ih _)
    · simp

theorem readWord_rest_le (t : Text) : (readWord t).2.length ≤ t.length := by
  induction t with
  | nil => simp [readWord]
  | cons c rest ih =>
    unfold readWord
    split
    · exact Nat.le_succ_of_le ih
    · simp

theorem afterLine?_le (h : afterLine? t = some r) : r.length ≤ t.length := by
  induction t with
  | nil => simp [afterLine?] at h
  | cons c rest ih =>
    unfold afterLine? at h
    split at h
    · simp_all
    · exact Nat.le_succ_of_le (ih h)

theorem afterStar?_le (h : afterStar? t = some r) : r.length ≤ t.length := by
  induction t with
  | nil => simp [afterStar?] at h
  | cons c rest ih =>
    unfold afterStar? at h
    split at h
    · simp only [Option.some.injEq] at h
      subst h
      simp only [List.length_tail, List.length_cons]
      omega
    · exact Nat.le_succ_of_le (ih h)

namespace Piece

variable {pos : Nat} {c : Char} {rest : Text} {k : Option Token} {w : Option Trouble}

theorem comment_rest_le (h : comment pos c rest = .next k w r) : r.length ≤ rest.length := by
  unfold comment at h
  split at h
  · cases hs : afterStar? rest <;> simp [hs] at h
    exact h.2.2 ▸ afterStar?_le hs
  · split at h
    · simp at h
    · cases hs : afterLine? rest <;> simp [hs] at h
      exact h.2.2 ▸ afterLine?_le hs

theorem enclosed_rest {kind : TokenKind} {p : Text × Option Text} (h : enclosed kind pos p = .next k w r) :
    p.2 = some r := by
  obtain ⟨t, rest⟩ := p
  cases rest <;> simp_all [enclosed]

theorem number_rest {p : Text × Text} (h : number pos p = .next k w r) : p.2 = r := by
  simp only [number, next.injEq] at h
  exact h.2.2

theorem word_rest {p : Text × Text} (h : word pos p = .next k w r) : p.2 = r := by
  obtain ⟨t, rest⟩ := p
  cases rest <;> simp_all [word]

theorem single_rest (h : single pos c rest = .next k w r) : rest = r := by
  unfold single at h
  split at h <;> simp_all

/-- A piece takes its first character away, and perhaps more. -/
theorem first_rest_le (h : first pos c rest = .next k w r) : r.length ≤ rest.length := by
  unfold first at h
  split at h
  · exact comment_rest_le h
  · split at h
    · simp_all
    · split at h
      · exact readQuoted_rest_le (enclosed_rest h)
      · split at h
        · exact number_rest h ▸ readNumber_rest_le false rest
        · split at h
          · exact readName_rest_le (enclosed_rest h)
          · split at h
            · exact word_rest h ▸ readWord_rest_le rest
            · exact Nat.le_of_eq (congrArg _ (single_rest h).symm)

end Piece

/-! ### Whole programs -/

inductive LexEnd where
  | complete
  | wrong (t : Trouble)
  | endless

structure Lexed where
  tokens : List Token
  warnings : List Trouble
  ending : LexEnd

/-- Read what is left of a program of `size` characters. -/
def lexFrom (size : Nat) : Text → Lexed
  | [] => ⟨[.finish], [], .complete⟩
  | c :: rest =>
    match _h : Piece.first (size - (rest.length + 1)) c rest with
    | .wrong t => ⟨[], [], .wrong t⟩
    | .endless => ⟨[], [], .endless⟩
    | .next token warning r =>
      let more := lexFrom size r
      ⟨token.toList ++ more.tokens, warning.toList ++ more.warnings, more.ending⟩
termination_by t => t.length
decreasing_by exact Nat.lt_succ_of_le (Piece.first_rest_le _h)

def lex (t : Text) : Lexed :=
  let l := lexFrom t.length t
  { l with tokens := .start :: l.tokens }

def tokenize (t : Text) : Work (List Token) := do
  let l := lex t
  l.warnings.forM Work.warn
  match l.ending with
  | .complete => return l.tokens
  | .wrong trouble => Work.fail trouble (some (.ok (l.tokens.map Token.shown)))
  | .endless => throw .endless

end BlockScript.Mlct
