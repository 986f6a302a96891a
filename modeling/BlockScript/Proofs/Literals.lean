import BlockScript.Script.Assignment
import BlockScript.Proofs.Calculator

/-!
# Arguments written out

An argument of a function may be an integer, the name of a variable or a quoted text. Each of them is passed on as one
token: `Literal.result_itemToken`. For integers and names this goes through the lexer and the parser of formulas, which
read an integer as itself and find no value in a name.
-/

open List Option
namespace BlockScript
open Assignment Value Nesting Formula
open Text

/-! ### Lexing numbers and names -/

namespace Text

lemma head?_ofNat {n : Nat} (h : n ≠ 0) : (ofNat n).head? ≠ some '0' := by
  induction n using Nat.strongRecOn with
  | ind n ih =>
    by_cases hn : n < 10
    · have hdg : ∀ m < 10, m ≠ 0 → [m.digitChar].head? ≠ some '0' := by decide
      rw [ofNat, Nat.toDigits_of_lt_base hn]
      exact hdg n hn h
    have hspl : ofNat n = ofNat (n / 10) ++ [(n % 10).digitChar] :=
      Nat.toDigits_of_base_le (by decide) (Nat.le_of_not_lt hn)
    have hhead := ih (n / 10) (by omega) (by omega)
    obtain ⟨c, t, ht⟩ := exists_cons_of_ne_nil (ofNat_ne_nil (n / 10))
    rw [hspl, ht]
    rwa [ht] at hhead

lemma isQuotedOrQuote_of_notMem {t : Text} (h : ∀ c, c = '"' ∨ c = '\'' → c ∉ t) : isQuotedOrQuote t = false := by
  have hhead : ∀ c, c = '"' ∨ c = '\'' → (t.head? == some c) = false := fun c hc =>
    beq_false_of_ne fun heq => h c hc (mem_of_head? heq)
  rw [isQuotedOrQuote, hhead '"' (.inl rfl), hhead '\'' (.inr rfl)]
  rfl

end Text
namespace Formula
namespace Token
variable {t u : Text} {c : Char} {n : Nat}

lemma digitRun_of_digit (h : ∀ c ∈ t, c.isDigit) : digitRun Char.isDigit t = (t, []) := by
  induction t with
  | nil => rfl
  | cons c t ih =>
    have hc := h c (by simp)
    cases t with
    | nil => simp [digitRun, hc]
    | cons d t => simp [digitRun, hc, ih fun e he => h e (mem_cons_of_mem c he)]

lemma numberOf_ofNat (n : Nat) : numberOf 10 (ofNat n) = n := by
  have hdg : ∀ c ∈ ofNat n, digitValue c = c.toNat - '0'.toNat := by
    intro c hc
    rw [digitValue, if_pos (isDigit_ofNat hc)]
    rfl
  have hval := ofDigitValues_ofNat n
  rw [ofDigitValues, foldl_map] at hval
  refine Eq.trans (foldl_ext _ _ _ fun m c hc => ?_) hval
  rw [hdg c hc, Nat.mul_comm]

lemma token?_ofNat (h : (ofNat n).length ≤ 4300) : token? (ofNat n) = some (.int n, []) := by
  have hall : ∀ c ∈ ofNat n, c.isDigit := fun c => isDigit_ofNat
  obtain ⟨c, t, ht⟩ := exists_cons_of_ne_nil (ofNat_ne_nil n)
  have hc : c.isDigit := hall c (by simp [ht])
  have hdig : digits Char.isDigit (ofNat n) = (ofNat n, []) := by
    rw [ht, digits, if_pos hc, ← ht, digitRun_of_digit hall]
  have hzero : ((ofNat n).head? == some '0' && !((ofNat n).all (· == '0'))) = false := by
    by_cases hn : n = 0
    · subst hn
      decide
    rw [Bool.and_eq_false_iff]
    exact .inl (beq_false_of_ne (head?_ofNat hn))
  have hdecimal : decimalNumber? (ofNat n) = some (.int n, []) := by
    rw [decimalNumber?, hdig]
    simp [decimalNumber?.wholeToken?, hzero, if_neg (Nat.not_lt.mpr h), numberOf_ofNat]
  have hnum : number? (ofNat n) = decimalNumber? (ofNat n) := by
    unfold number?
    split
    next d rest heq =>
      -- a zero in front is the whole number
      have hn : n = 0 := by
        by_contra hn
        exact head?_ofNat hn (by rw [heq]; rfl)
      subst hn
      exact absurd (congrArg List.length heq) (by simp [ofNat])
    · rfl
  rw [ht, token?, hc, Bool.true_or, if_pos rfl, ← ht, hnum, hdecimal]

lemma lexFrom_cons (fuel : Nat) (opened : List Text) (fresh : Bool) (hc : c ∉ ['\n', '\\', '#', ' ', '\t', '\x0c']) :
    lexFrom (fuel + 1) opened fresh (c :: t) = (do
      let (tok, after) ← token? (c :: t) let opened ← brackets? opened tok let more ← lexFrom fuel opened false after
      some (tok :: more)) := by
  simp only [mem_cons, not_or] at hc
  obtain ⟨h₁, h₂, h₃, h₄, h₅, h₆⟩ := hc
  rw [lexFrom]
  · simp [h₄, h₅, h₆]
  · exact h₁
  · exact fun _ h => absurd h h₂
  · exact h₃

lemma lex_eq (h : ∀ c ∈ t, c ≠ '\x00' ∧ c ≠ '\r') : lex t = lexFrom (t.length + 2) [] true t := by
  have hnul : t.contains '\x00' = false := by
    simpa using fun hmem => (h _ hmem).1 rfl
  have hmap : (t.map fun c => if c == '\r' then '\n' else c) = t := by
    refine (map_congr_left fun c hc => ?_).trans (List.map_id t)
    simp [(h c hc).2]
  simp only [lex, hnul, hmap, Bool.false_eq_true, if_false]

lemma notMem_of_digit (h : c.isDigit) :
    c ∉ ['\n', '\\', '#', ' ', '\t', '\x0c', '\x00', '\r', '=', '>', '"', '\'', '-', ',', '(', '.'] :=
  notMem_of_all h rfl

lemma lexFrom_ofNat (fuel : Nat) (fresh : Bool) (h : (ofNat n).length ≤ 4300) :
    lexFrom (fuel + 2) [] fresh (ofNat n) = some [.int n] := by
  obtain ⟨c, t, ht⟩ := exists_cons_of_ne_nil (ofNat_ne_nil n)
  have hc := notMem_of_digit (isDigit_ofNat (n := n) (c := c) (by simp [ht]))
  have htok := token?_ofNat h
  rw [ht] at htok ⊢
  rw [lexFrom_cons _ _ _ (by simp_all), htok]
  rfl

lemma lex_ofInt (k : Int) (h : (ofNat k.natAbs).length ≤ 4300) :
    lex (ofInt k) = some (if k < 0 then [.op ['-'], .int k.natAbs] else [.int k.natAbs]) := by
  have hpl : ∀ c ∈ ofInt k, c ≠ '\x00' ∧ c ≠ '\r' := by
    intro c hc
    rcases mem_ofInt hc with hd | rfl
    · have := notMem_of_digit hd
      simp_all
    · decide
  rw [lex_eq hpl]
  cases k with
  | ofNat n =>
    have hneg : ¬ (Int.ofNat n < 0) := by simp
    exact lexFrom_ofNat _ _ h
  | negSucc n =>
    have hneg : Int.negSucc n < 0 := Int.negSucc_lt_zero n
    have hminus : token? ('-' :: ofNat (n + 1)) = some (.op ['-'], ofNat (n + 1)) := by
      obtain ⟨d, t, ht⟩ := exists_cons_of_ne_nil (ofNat_ne_nil (n + 1))
      have hd := notMem_of_digit (isDigit_ofNat (n := n + 1) (c := d) (by simp [ht]))
      have h₁ : ('=' == d) = false := beq_false_of_ne (by rintro rfl; simp at hd)
      have h₂ : ('>' == d) = false := beq_false_of_ne (by rintro rfl; simp at hd)
      have hfind : operators.find? (fun o => o.isPrefixOf ('-' :: d :: t)) = some ['-'] := by
        simp [operators, texts, List.isPrefixOf, h₁, h₂]
      have hword : inWord '-' = false := rfl
      have hdg : '-'.isDigit = false := rfl
      rw [ht]
      simp [token?, operator?, hfind, hword]
    rw [ofInt, lexFrom_cons _ _ _ (by decide), hminus]
    have hrest := lexFrom_ofNat (n := n + 1) ((ofNat (n + 1)).length) false h
    simp [brackets?, closerOf?, isCloser, hrest]

lemma inWord_of_nameChar (h : isNameChar c) : inWord c := by
  by_cases hc : c.toNat < 128
  · simp only [isNameChar, isWordChar, isAlphanumeric, hc, isCyrillic, Bool.or_eq_true, Bool.and_eq_true,
      decide_eq_true_eq] at h
    simp only [inWord, Bool.or_eq_true]
    rcases h with h | h
    · exact .inl h
    · omega
  · simp [inWord, Nat.le_of_not_lt hc]

lemma notMem_of_varChar (h : isVarChar c) :
    c ∉ ['\n', '\\', '#', ' ', '\t', '\x0c', '\x00', '\r', '=', '~', '"', '\'', '-', ',', '(', ')', '.', '['] :=
  notMem_of_all h rfl

lemma lex_name (hne : t ≠ []) (h : ∀ c ∈ t, isNameChar c) (hdg : ∀ c, t.head? = some c → c.isDigit = false) :
    lex t = none ∨ lex t = some [.name t] ∨ t ∈ keywords ∧ lex t = some [.keyword t] := by
  have hspec : ∀ c ∈ t, c ∉ _ := fun c hc => notMem_of_varChar (isVarChar_of_nameChar (h c hc))
  obtain ⟨c, u, rfl⟩ := exists_cons_of_ne_nil hne
  have hc := hspec c (by simp)
  have hword : ∀ d ∈ c :: u, inWord d := fun d hd => inWord_of_nameChar (h d hd)
  have htake : (c :: u).takeWhile inWord = c :: u := takeWhile_eq_self_iff.mpr hword
  have hdrop : (c :: u).dropWhile inWord = [] := dropWhile_eq_nil_iff.mpr hword
  have htok : token? (c :: u) = word? (c :: u) := by
    have h₁ : (c == '.') = false := beq_false_of_ne (by rintro rfl; simp at hc)
    have h₂ : (c == '"') = false := beq_false_of_ne (by rintro rfl; simp at hc)
    have h₃ : (c == '\'') = false := beq_false_of_ne (by rintro rfl; simp at hc)
    simp [token?, hdg c rfl, h₁, h₂, h₃, hword c (by simp)]
  have hpl : ∀ d ∈ c :: u, d ≠ '\x00' ∧ d ≠ '\r' := by
    intro d hd
    have := hspec d hd
    simp_all
  have hwh : word? (c :: u) = if !isIdentifier (c :: u) then none
      else if keywords.contains (c :: u) then some (.keyword (c :: u), []) else some (.name (c :: u), []) := by
    rw [word?, htake, hdrop]
  rw [lex_eq hpl, lexFrom_cons _ _ _ (by simp_all), htok, hwh]
  split
  · exact .inl rfl
  split
  next hkey => exact .inr (.inr ⟨contains_iff_mem.mp hkey, rfl⟩)
  · exact .inr (.inl rfl)

end Token

/-! ### Values of integers and names -/

variable {t : Text} {k : Int}

lemma textValue?_ofInt (h : k.natAbs < 2 ^ 53) : ∃ x, textValue? (ofInt k) = some x ∧ Binary64.IsInteger x k := by
  have hint : ∀ n, Parser.topLevel 90 2 true [.int n] = some (.int n) := fun _ => rfl
  have hneg : ∀ n, Parser.topLevel 120 3 true [.op ['-'], .int n] = some (.sign .minus (.int n)) := fun _ => rfl
  obtain ⟨x, hx, hval⟩ := Binary64.ofInt?_isInteger (i := k.natAbs) (by omega)
  by_cases hk : k < 0
  · refine ⟨x.neg, ?_, ?_⟩
    · rw [textValue?, parse?, Token.lex_ofInt k (length_ofNat h), if_pos hk]
      change (Parser.topLevel 120 3 true _).bind value? = _
      rw [hneg, bind_some, value?, value?, hx]
      rfl
    have : k = -k.natAbs := by omega
    rw [this]
    exact hval.neg
  refine ⟨x, ?_, ?_⟩
  · rw [textValue?, parse?, Token.lex_ofInt k (length_ofNat h), if_neg hk]
    change (Parser.topLevel 90 2 true _).bind value? = _
    rw [hint, bind_some, value?, hx]
  have : k = k.natAbs := by omega
  rw [this]
  exact hval

lemma textValue?_name (hne : t ≠ []) (h : ∀ c ∈ t, isNameChar c) (hdg : ∀ c, t.head? = some c → c.isDigit = false)
    (htrue : t ≠ "True") (hfalse : t ≠ "False") : textValue? t = none := by
  have hnm : ∀ u, Parser.topLevel 90 2 true [.name u] = some (.var u) := fun _ => rfl
  have hkeyword : ∀ u ∈ Token.keywords, u ≠ "True" → u ≠ "False" →
      (Parser.topLevel 90 2 true [.keyword u]).bind value? = none := by decide
  rw [textValue?, parse?]
  rcases Token.lex_name hne h hdg with hlex | hlex | ⟨hmem, hlex⟩
  · rw [hlex]
    rfl
  · rw [hlex]
    change (Parser.topLevel 90 2 true _).bind value? = _
    rfl
  rw [hlex]
  exact hkeyword t hmem htrue hfalse

end Formula

/-! ### Texts that are no wrapped values -/

namespace GameValues
variable {t : Text}

lemma mem_of_callPattern (h : callPattern.fits t) : '(' ∈ t := by
  obtain ⟨m, hm⟩ := isSome_iff_exists.mp h
  obtain ⟨w, b, e, b', b'', b₃, r, rfl, -⟩ := callPattern_inv hm
  simp

lemma mem_of_memberPattern (h : memberPattern.fits t) : '.' ∈ t := by
  obtain ⟨m, hm⟩ := isSome_iff_exists.mp h
  obtain ⟨w, e, r, rfl, -⟩ := memberPattern_inv hm
  simp

lemma isHeadChar_of_memberPattern (h : memberPattern.fits t) : ∃ c, t.head? = some c ∧ isHeadChar c := by
  obtain ⟨m, hm⟩ := isSome_iff_exists.mp h
  obtain ⟨w, e, r, rfl, hne, hchr, -⟩ := memberPattern_inv hm
  obtain ⟨c, u, rfl⟩ := exists_cons_of_ne_nil hne
  exact ⟨c, rfl, hchr c (by simp)⟩

lemma token?_none (values : GameValues) (htrim : trim t = t) (hpar : '(' ∉ t)
    (hpt : '.' ∉ t ∨ ∀ c, t.head? = some c → isHeadChar c = false) : values.token? t = none := by
  have hcall : callPattern.match? t = none := by
    rw [← not_isSome_iff_eq_none]
    exact fun h => hpar (mem_of_callPattern h)
  have hmember : memberPattern.match? t = none := by
    rw [← not_isSome_iff_eq_none]
    intro h
    rcases hpt with hpt | hhead
    · exact hpt (mem_of_memberPattern h)
    obtain ⟨c, hc, hchar⟩ := isHeadChar_of_memberPattern h
    simp [hhead c hc] at hchar
  simp only [token?, resolve?, htrim, nameIn?, hcall, hmember, map_none]

end GameValues

lemma Assignment.mem_of_keptPattern {t : Text} (h : keptPattern.fits t) : '(' ∈ t := by
  obtain ⟨m, hm⟩ := isSome_iff_exists.mp h
  obtain ⟨t, r, rfl, -, h⟩ := Pattern.spells_of_match? rfl hm
  obtain ⟨_, _, _, rfl, ⟨_, _, _, rfl, ⟨_, _, _, rfl, ⟨_, v, _, rfl, -, hopen⟩, -⟩, -⟩, -⟩ := h
  simp [(Pattern.spells_lit.mp hopen).1]

/-! ### Literals -/

inductive Literal where
  | number (k : Int)
  | name (t : Text)
  | quoted (mark : Char) (t : Text)
deriving DecidableEq

namespace Literal

def specialChars : List Char := [',', '(', ')', '[', ']', '"', '\'', '\\', '\n']

/-- The argument is an integer of at most 53 bits, a name that is no truth value, or a text between quotes that holds
no special character. -/
def Simple : Literal → Prop
  | .number k => k.natAbs < 2 ^ 53
  | .name t => t ≠ [] ∧ (∀ c ∈ t, isNameChar c) ∧ (∀ c, t.head? = some c → c.isDigit = false) ∧ t ≠ "True" ∧ t ≠ "False"
  | .quoted mark t => (mark = '"' ∨ mark = '\'') ∧ ∀ c ∈ t, c ∉ specialChars

instance : DecidablePred Simple
  | .number k => inferInstanceAs (Decidable (k.natAbs < 2 ^ 53))
  | .name t => decidable_of_iff
    (!t.isEmpty && t.all isNameChar && t.head?.all (!·.isDigit) && t != "True" && t != "False") (by
      simp [Simple, and_assoc, Option.all_eq_true])
  | .quoted mark t => decidable_of_iff ((mark == '"' || mark == '\'') && t.all fun c => !specialChars.contains c) (by
      simp [Simple])

/-- The argument is read as one part: it is an integer, a name, or a text that no quote ends too early. -/
def IsPart : Literal → Prop
  | .number _ => True
  | .name t => t ≠ [] ∧ ∀ c ∈ t, isNameChar c
  | .quoted mark t => (mark = '"' ∨ mark = '\'') ∧ mark ∉ t ∧ '\\' ∉ t

/-- How the argument is written. -/
def text : Literal → Text
  | .number k => ofInt k
  | .name t => t
  | .quoted mark t => mark :: (t ++ [mark])

/-- The token of the argument. -/
def token : Literal → Text
  | .number k => Value.wrap "num" (ofInt k)
  | .name t => Value.wrap "var" t
  | .quoted _ t => Value.wrap "text" t

variable {a : Literal}

lemma getLast?_quoted (mark : Char) (t : Text) : (text (.quoted mark t)).getLast? = some mark := by
  rw [text, ← cons_append, getLast?_concat]

lemma isQuotedOrQuote_quoted {mark : Char} (h : mark = '"' ∨ mark = '\'') (t : Text) :
    isQuotedOrQuote (text (.quoted mark t)) := by
  rw [isQuotedOrQuote, getLast?_quoted]
  rcases h with rfl | rfl <;> rfl

lemma inner_quoted (mark : Char) (t : Text) : Text.inner (text (.quoted mark t)) = t := by simp [Text.inner, text]

lemma Simple.isPart (h : a.Simple) : a.IsPart := by
  cases a with
  | number k => trivial
  | name t => exact ⟨h.1, h.2.1⟩
  | quoted mark t =>
    have hspec : ∀ c ∈ specialChars, c ∉ t := fun c hc hmem => h.2 c hmem hc
    refine ⟨h.1, ?_, hspec '\\' (by decide)⟩
    rcases h.1 with rfl | rfl <;> exact hspec _ (by decide)

lemma IsPart.trim_text (h : a.IsPart) : trim a.text = a.text := by
  cases a with
  | number k => exact trim_of_digit fun c => mem_ofInt
  | name t => exact trim_of_not_blank fun c hc => isBlank_of_varChar (isVarChar_of_nameChar (h.2 c hc))
  | quoted mark t =>
    have hmark : isBlank mark = false := by
      rcases h.1 with rfl | rfl <;> decide
    exact trim_self rfl (getLast?_quoted mark t) hmark hmark

lemma IsPart.text_ne (h : a.IsPart) : a.text ≠ [] := by
  cases a with
  | number k =>
    cases k with
    | ofNat n => exact ofNat_ne_nil n
    | negSucc n => exact cons_ne_nil _ _
  | name t => exact h.1
  | quoted mark t => exact cons_ne_nil _ _

lemma readAll_quoted {mark : Char} {t : Text} (hmark : mark ∉ t) (hesc : '\\' ∉ t) :
    readAll ⟨some mark, false, 0, 0, 0⟩ t = ⟨some mark, false, 0, 0, 0⟩ ∧ skips ',' ⟨some mark, false, 0, 0, 0⟩ t := by
  induction t with
  | nil => exact ⟨rfl, rfl⟩
  | cons c t ih =>
    rw [mem_cons, not_or] at hmark hesc
    have hrd : read ⟨some mark, false, 0, 0, 0⟩ c = ⟨some mark, false, 0, 0, 0⟩ := by
      simp [Nesting.read, Ne.symm hmark.1, Ne.symm hesc.1]
    rw [readAll_cons, skips, hrd]
    simpa [isTop] using ih hmark.2 hesc.2

lemma IsPart.closed_text (h : a.IsPart) : Nesting.Closed ',' a.text := by
  cases a with
  | number k =>
    refine .of_isPlain (isPlain_ofInt k) fun hmem => ?_
    exact absurd (mem_ofInt hmem) (by decide)
  | name t =>
    have hchr := fun c hc => isVarChar_of_nameChar (h.2 c hc)
    refine .of_isPlain (List.all_eq_true.mpr fun c hc => isPlainChar_of_varChar (hchr c hc)) fun hmem => ?_
    simpa using Formula.Token.notMem_of_varChar (hchr _ hmem)
  | quoted mark t =>
    obtain ⟨hmark, hnot, hesc⟩ := h
    obtain ⟨hback, hsk⟩ := readAll_quoted hnot hesc
    have hopen : top.read mark = ⟨some mark, false, 0, 0, 0⟩ := by
      rcases hmark with rfl | rfl <;> rfl
    have hcl : read ⟨some mark, false, 0, 0, 0⟩ mark = .top := by
      rcases hmark with rfl | rfl <;> rfl
    have hcomma : (mark == ',') = false := by
      rcases hmark with rfl | rfl <;> rfl
    constructor
    · rw [text, readAll_cons, hopen, readAll_append, hback, readAll_cons, hcl]
      rfl
    rw [text, skips, hopen, skips_append, hsk]
    simp [skips, hcomma]

lemma Simple.notMem_text (h : a.Simple) : '(' ∉ a.text := by
  cases a with
  | number k => exact fun hmem => absurd (mem_ofInt hmem) (by decide)
  | name t => exact fun hmem => absurd (h.2.1 _ hmem) (by decide)
  | quoted mark t =>
    intro hmem
    refine h.2 '(' ?_ (by decide)
    rcases h.1 with rfl | rfl <;> simpa [text] using hmem

lemma Simple.token?_text (h : a.Simple) (values : GameValues) : values.token? a.text = none := by
  refine GameValues.token?_none values h.isPart.trim_text h.notMem_text ?_
  cases a with
  | number k =>
    refine .inl fun hmem => absurd (mem_ofInt hmem) (by decide)
  | name t => exact .inl fun hmem => absurd (h.2.1 _ hmem) (by decide)
  | quoted mark t =>
    refine .inr fun c hc => ?_
    obtain rfl : mark = c := by simpa [text] using hc
    rcases h.1 with rfl | rfl <;> decide

theorem result_itemToken (h : a.Simple) (values : GameValues) : (itemToken values a.text).result = .ok a.token := by
  have hemp : a.text.isEmpty = false := by simpa using h.isPart.text_ne
  have hkept : keptPattern.fits a.text = false := by
    rw [← Bool.not_eq_true]
    exact fun hfits => h.notMem_text (mem_of_keptPattern hfits)
  simp only [itemToken, h.isPart.trim_text, hemp, h.token?_text values, hkept]
  cases a with
  | number k =>
    obtain ⟨x, hx, hval⟩ := textValue?_ofInt h
    have hqt : isQuotedOrQuote (ofInt k) = false := by
      refine isQuotedOrQuote_of_notMem fun c hc hmem => ?_
      rcases hc with rfl | rfl <;> exact absurd (mem_ofInt hmem) (by decide)
    simp only [text, hqt, hx, Formula.valueToken, hval.valueText h]
    rfl
  | name t =>
    obtain ⟨hne, hchr, hdg, htrue, hfalse⟩ := h
    have hvar := fun c hc => isVarChar_of_nameChar (hchr c hc)
    have hqt : isQuotedOrQuote t = false := by
      refine isQuotedOrQuote_of_notMem fun c hc hmem => ?_
      rcases hc with rfl | rfl <;> exact absurd (hvar _ hmem) (by decide)
    have hnm : isVarName t := by
      have hfeed : dropFeed t = t := by
        rw [dropFeed, if_neg]
        intro hlast
        exact absurd (hvar '\n' (mem_of_getLast? (by simpa using hlast))) (by decide)
      simp [isVarName, hfeed, hne]
      exact hvar
    simp only [text, hqt, textValue?_name hne hchr hdg htrue hfalse, hnm]
    rfl
  | quoted mark t =>
    rw [isQuotedOrQuote_quoted h.1, inner_quoted]
    rfl

end Literal
end BlockScript
