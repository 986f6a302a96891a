import BlockScript.Proofs.Lowering
import BlockScript.Proofs.CallLines

/-!
# Conditions

Of the options of a condition on texts, the first seven are compared with (`Condition.compileText_take`).
-/

open List
namespace BlockScript
namespace Condition
open Text (trim)

def sampleLibrary : Library where
  api := .obj [("if_value", .obj [
    ("number_2", Arithmetic.shippedAction "Сравнить число"
      [⟨"num", "NUMBER", 13⟩, ⟨"num2", "NUMBER", 28⟩, ⟨"num3", "NUMBER", 34⟩] []),
    ("text", Arithmetic.shippedAction "Текст равен"
      [⟨"text", "TEXT", 4⟩, ⟨"text2", "TEXT", 27⟩, ⟨"text3", "TEXT", 28⟩] [])])]
  values := []

/-- Signs that go different ways are no chain, and what stands behind the first sign becomes a variable. -/
theorem compile_mixed_directions : ((compile sampleLibrary "1 < x > 3").result.toOption.bind id).map Placed.pieces
    = some (texts ["slot(13)=num(1)", "slot(34)=var(x > 3)"]) := by
  decide +kernel

section Options
variable {lib : Library} {text text' target : Text} {opts opts' : List Text}

/-- The target of a condition on texts and its options. -/
def optionsOf? (text : Text) : Option (Text × List Text) := (textPattern.match? (trim text)).map fun m =>
  (trim (m.group 1), ((orPattern.split (trim (m.group 2))).map trim).filter (!·.isEmpty))

lemma compileText_eq (h : optionsOf? text = some (target, opts)) :
    compileText lib text = if (opts.take 7).isEmpty then throw .noTextOptions else (do
      let target ← Operand.textToken target
      let opts ← (opts.take 7).mapM Operand.textToken
      lib.call "if_value" "text" (("text=" ++ target) :: optionArgs 2 opts)) := by
  obtain ⟨m, hm, heq⟩ := Option.map_eq_some_iff.mp h
  cases heq
  have hne : (trim text).isEmpty = false := by
    cases ht : trim text with
    | nil =>
      rw [ht] at hm
      contradiction
    | cons => rfl
  simp only [compileText, hne, hm]
  generalize filter _ _ = opts
  cases opts with
  | nil => rfl
  | cons => rfl

/-- A name of a variable, which is no number. -/
def IsName (t : Text) : Prop := t ≠ [] ∧ t.all isVarChar ∧ Operand.isNumber t = false
deriving Decidable

lemma textToken_of_isName (h : IsName text) : Operand.textToken text = pure (Value.wrap "var" text) := by
  obtain ⟨hne, hall, hnum⟩ := h
  have hchars := all_eq_true.mp hall
  have hquote : Text.isQuotedOrQuote text = false := Text.isQuotedOrQuote_of_notMem fun c hc hmem => by
    rcases hc with rfl | rfl <;> exact absurd (hchars _ hmem) (by decide)
  obtain ⟨c, hc⟩ : ∃ c, text.getLast? = some c := Option.ne_none_iff_exists'.mp (by simpa using hne)
  have hvar := hchars c (mem_of_getLast? hc)
  have hlast : ')' ≠ c := by
    rintro rfl
    exact absurd hvar (by decide)
  have hwrap : Operand.wrappedPattern.fits text = false := by
    rw [Pattern.fits, Operand.wrappedPattern, Assignment.match?_none_of_getLast? hc (isBlank_of_varChar hvar) rfl
      (by simpa [Pattern.lit, Pattern.ofChars, Pattern.admits] using hlast) fun g g' h => by
        simp [Pattern.spells_lit] at h]
    rfl
  simp [Operand.textToken, Text.trim_of_not_blank fun c hc => isBlank_of_varChar (hchars c hc), hne, hquote,
    hnum, hwrap]

/-- Options behind the seventh are passed over without an error. Names up to there are all compared with, in order. -/
theorem compileText_take (h : optionsOf? text = some (target, opts)) :
    (∀ text' opts', optionsOf? text' = some (target, opts') → opts.take 7 = opts'.take 7 →
      compileText lib text = compileText lib text')
    ∧ (opts ≠ [] → (∀ t ∈ target :: opts, IsName t) → (compileText lib text).result = (lib.call "if_value" "text"
      (("text=" ++ Value.wrap "var" target) :: optionArgs 2 ((opts.take 7).map (Value.wrap "var")))).result) := by
  refine ⟨fun text' opts' h' htake => by rw [compileText_eq h, compileText_eq h', htake], fun hne hnames => ?_⟩
  have hopts :
    ((opts.take 7).mapM fun o => (Operand.textToken o).result) = .ok ((opts.take 7).map (Value.wrap "var")) := by
    rw [mapM_ok_iff, forall₂_map_right_iff, forall₂_same]
    exact fun o ho => by rw [textToken_of_isName (hnames o (mem_cons_of_mem _ (mem_of_mem_take ho)))]; rfl
  have htake : (opts.take 7).isEmpty = false := by simpa using hne
  rw [compileText_eq h, htake]
  simp only [Bool.false_eq_true, if_false, Script.Compile.result_bind, result_mapM,
    textToken_of_isName (hnames target (by simp)), hopts]
  rfl

theorem compileText_take_eight :
    compileText sampleLibrary "t=a||b||c||d||e||f||g||h" = compileText sampleLibrary "t=a||b||c||d||e||f||g"
    ∧ (compileText sampleLibrary "t=a||b||c||d||e||f||g").result = (sampleLibrary.call "if_value" "text"
      (("text=var(t)" : Text) :: optionArgs 2
        (texts ["var(a)", "var(b)", "var(c)", "var(d)", "var(e)", "var(f)", "var(g)"]))).result := by
  have h : optionsOf? "t=a||b||c||d||e||f||g||h" = some (['t'], ("abcdefgh" : Text).map ([·])) := by decide +kernel
  have h' : optionsOf? "t=a||b||c||d||e||f||g" = some (['t'], ("abcdefg" : Text).map ([·])) := by decide +kernel
  exact ⟨(compileText_take h).1 _ _ h' rfl, (compileText_take h').2 (by decide) (by decide)⟩

end Options

/-- A quoted text is parted at the word `or` in it. -/
theorem compileText_parted : (compileText sampleLibrary "t == \"a or b\"").result.toOption.map Placed.pieces
    = some (texts ["slot(4)=var(t)", "slot(27)=var(\"a), text3=var(b\")"]) := by
  decide +kernel

end Condition
end BlockScript
