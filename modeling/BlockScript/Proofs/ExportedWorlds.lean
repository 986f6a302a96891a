import BlockScript.Proofs.NamedArguments
import BlockScript.Proofs.Outcomes
import BlockScript.Proofs.Searching
import BlockScript.World.Listing

/-!
# Exported worlds

What is read from an exported world: the texts of items, their lore, the blocks of a row, and the options picked.
A text keeps the escapes put into it, an escaped quote ends a line of lore, a row leaves out the blocks beside its
places and the braces of scopes that no piston closes, and options are told apart by their letters and digits only.
-/

open Except Option
open List hiding replace any
namespace BlockScript
open Value Json Text Table

/-! ### Texts of items -/

namespace Json
variable {t : Text}

lemma escape_cases (c : Char) : escape c = [c] ∨ ∃ u, escape c = '\\' :: u ∧ '&' ∉ u := by
  have hhex : ∀ n < 32, '&' ∉ hexText 4 n := by decide
  unfold escape
  split
  case h_8 =>
    split
    next hc => exact .inr ⟨'u' :: hexText 4 c.toNat, rfl, by simpa using hhex _ hc⟩
    · exact .inl rfl
  all_goals exact .inr ⟨_, rfl, by decide⟩

lemma notMem_flatMap_escape (h : '&' ∉ t) : '&' ∉ t.flatMap escape := by
  simp only [mem_flatMap, not_exists, not_and]
  intro c hc
  rcases escape_cases c with heq | ⟨u, heq, hamp⟩
  · rw [heq, mem_singleton]
    exact fun h' => h (h' ▸ hc)
  rw [heq, mem_cons]
  exact fun h' => h'.elim (by decide) hamp

end Json

lemma Value.ampersands_of_notMem {t : Text} (h : '&' ∉ t) : ampersands t = t := by
  fun_induction ampersands t <;> simp_all

lemma wrapValue_quote (values : GameValues) {t : Text} (h : '&' ∉ t) :
    wrapValue values .text (quote t) = pure (wrap "text" (t.flatMap escape)) := by
  have hlast : (quote t).getLast? = some '"' := getLast?_concat
  have htrim : trim (quote t) = quote t := trim_self rfl hlast rfl rfl
  have htok : values.token? (quote t) = none := by
    rw [GameValues.token?, GameValues.resolve?, htrim]
    rfl
  have hhead : wrapperHead? (quote t) = none := rfl
  have hcall : callPattern.fits (quote t) = false := rfl
  have hquot : isQuoted (quote t) = true := by
    rw [isQuoted, hlast]
    simp [quote]
  have hinn : unquote (quote t) = t.flatMap escape := by
    rw [unquote, if_pos hquot]
    simp [Text.inner, quote]
  have hne : (quote t).isEmpty = false := rfl
  simp [wrapValue, htrim, hne, htok, hhead, hcall, plain, hinn, hquot, ampersands_of_notMem (notMem_flatMap_escape h)]

namespace World
section Items
variable {item : Json} {n id : Text}

lemma exists_loreLines {k : Text} {v : Json} (h : item.get k = .ok v) : ∃ ls, loreLines item = .ok ls := by
  cases item with
  | obj fs =>
    have hlore : ∃ v, lore (.obj fs) = .ok v := by
      by_cases hv : ((get? "lore" fs).getD .null).isTruthy
      · exact ⟨_, if_pos hv⟩
      · exact ⟨_, if_neg hv⟩
    obtain ⟨v, hv⟩ := hlore
    rw [loreLines, hv]
    exact ⟨_, rfl⟩
  | _ => contradiction

lemma restore_text (hname : item.get "displayName" = .ok (.str n)) (hid : item.get "id" = .ok (.str id))
    (hkind : endsWith (trim (lower id)) "magma_cream" = false) (hne : n ≠ []) (htrim : trim n = n)
    (hcolors : dropColors n = n) (hvar : isVariableLike n = false) : restore "TEXT" item = .ok (.plain (quote n)) := by
  obtain ⟨ls, hls⟩ := exists_loreLines hname
  have hfull : n.isEmpty = false := by simpa using hne
  have hview : ItemView.ofItem item
      = .ok ⟨item, n, n, ls.map fun l => trim (dropColors l), trim (lower id)⟩ := by
    simp only [ItemView.ofItem, rawName, spelt, identifier, hname, hid, hls, isTruthy, spell, hfull, hcolors,
      htrim, bind, Except.bind, pure, Except.pure, Bool.not_false, if_true, Bool.false_eq_true, if_false]
  rw [restore, hview]
  change ok (ItemView.text _) = _
  simp only [ItemView.text, ItemView.reference?, hfull, hvar, hkind, Bool.false_eq_true, if_false,
    Bool.not_false, if_true]

/-- A named item is written as its name in quotes, and read back with the escapes put into it. -/
theorem restore_text_read_back (values : GameValues) (hname : item.get "displayName" = .ok (.str n))
    (hid : item.get "id" = .ok (.str id)) (hkind : Text.endsWith (Text.trim (Text.lower id)) "magma_cream" = false)
    (hne : n ≠ []) (htrim : Text.trim n = n) (hcolors : dropColors n = n) (hvar : isVariableLike n = false)
    (hamp : '&' ∉ n) : restore "TEXT" item = .ok (.plain (Json.quote n)) ∧
      wrapValue values .text (Json.quote n) = pure (Value.wrap "text" (n.flatMap Json.escape)) :=
  ⟨restore_text hname hid hkind hne htrim hcolors hvar, wrapValue_quote values hamp⟩

def sampleItem : Json := .obj [("id", .str "minecraft:book"), ("displayName", .str "a\"b")]

theorem restore_text_read_back_sampleItem : restore "TEXT" sampleItem = .ok (.plain (Json.quote "a\"b")) ∧
    wrapValue [] .text (Json.quote "a\"b") = pure "text(a\\\"b)" :=
  restore_text_read_back [] rfl rfl rfl (by decide) rfl rfl rfl (by decide)

theorem exists_text_escaped : ∃ v : Text, restore "TEXT" sampleItem = .ok (.plain v) ∧
    (wrapValue [] .text v).result ≠ .ok "text(a\"b)" := by
  refine ⟨quote "a\"b", rfl, ?_⟩
  exact fun h => absurd (ok.inj h) (by decide)

end Items

/-! ### Lines of lore -/

section Lore
open Pattern
variable {l t rest : Text} {ls : List Text} {n fuel : Nat} {last : Option Char}

/-- A line of lore as stored tags have it, if nothing in it is escaped. -/
def tagLine (l : Text) : Text := '"' :: (l ++ ['"'])

/-- The text has no quotes and no backslashes. -/
def isDirect (t : Text) : Bool := t.all fun c => c != '"' && c != '\\'

lemma isDirect_cons {c : Char} : isDirect (c :: t) ↔ (c ≠ '"' ∧ c ≠ '\\') ∧ isDirect t := by
  simp [isDirect]

lemma unescapeTag_self (h : isDirect t) : unescapeTag t = t := by
  have hspl : ∀ b part, splitOnLoop ['\\', b] part 0 t = [part.reverse ++ t] := by
    induction t with
    | nil => simp [splitOnLoop]
    | cons c t ih =>
      obtain ⟨hc, ht⟩ := isDirect_cons.mp h
      simp [splitOnLoop, Ne.symm hc.2, ih ht]
  change replace ['\\', '"'] _ (replace ['\\', '\\'] _ t) = t
  simp [replace, Text.splitOn, hspl, joinWith]

lemma tagList_tagLine (h : isDirect l) (rest : Text) :
    tagList ⟨false, false, 0⟩ (tagLine l ++ rest) = tagLine l ++ tagList ⟨false, false, 0⟩ rest := by
  have hin : tagList ⟨true, false, 0⟩ (l ++ '"' :: rest) = l ++ '"' :: tagList ⟨false, false, 0⟩ rest := by
    induction l with
    | nil => simp [tagList]
    | cons c l ih =>
      obtain ⟨hc, hl⟩ := isDirect_cons.mp h
      simp [tagList, hc, ih hl]
  simpa [tagLine, tagList] using hin

lemma tagList_lines (h : ∀ l ∈ ls, isDirect l) (rest : Text) :
    tagList ⟨false, false, 0⟩ (ls.flatMap (fun l => ',' :: tagLine l) ++ ']' :: rest)
      = ls.flatMap fun l => ',' :: tagLine l := by
  induction ls with
  | nil => simp [tagList]
  | cons l ls ih =>
    obtain ⟨hl, hls⟩ := forall_mem_cons.mp h
    simp [tagList, tagList_tagLine hl, ih hls]

def tagPart : Pattern := .alt (lit "\\\\" ++ any) (noneOf "\"\\")

-- a quote is the first character that the pattern cannot pass
lemma repeatLong_tagPart {α : Type} {k : Place → Groups → Option α} {g : Groups} {r : α} (h : isDirect t)
    (hk : ∀ last, k ⟨n + t.length, last, '"' :: rest⟩ g = some r) (hfuel : t.length ≤ fuel) :
    repeatLong tagPart.run k fuel ⟨n, last, t ++ '"' :: rest⟩ g = some r := by
  induction t generalizing n last fuel with
  | nil => cases fuel <;> exact hk last
  | cons c t ih =>
    obtain ⟨hc, ht⟩ := isDirect_cons.mp h
    obtain ⟨m, rfl⟩ := Nat.exists_eq_add_one_of_ne_zero (Nat.ne_zero_of_lt hfuel)
    have hpart : ∀ k : Place → Groups → Option α,
        tagPart.run ⟨n, last, c :: (t ++ '"' :: rest)⟩ g k = k ⟨n + 1, some c, t ++ '"' :: rest⟩ g := by
      intro k
      have hlit : (lit "\\\\" ++ any).run ⟨n, last, c :: (t ++ '"' :: rest)⟩ g k = none := by
        change (if ('\\' == c) = true then _ else none) = none
        rw [if_neg (by simpa using Ne.symm hc.2)]
      rw [tagPart, run, hlit]
      simp [noneOf, run, hc]
    have hrest : repeatLong tagPart.run k m ⟨n + 1, some c, t ++ '"' :: rest⟩ g = some r :=
      ih ht (fun l => by simpa [Nat.add_assoc, Nat.add_comm 1] using hk l) (by simpa using hfuel)
    rw [cons_append, repeatLong_succ, again?, hpart]
    simp [hrest]

lemma matchAt?_tagLine (h : isDirect l) (rest : Text) : quotedTag.matchAt? ⟨n, last, tagLine l ++ rest⟩
    = some ⟨⟨n, last, tagLine l ++ rest⟩, ⟨n + l.length + 2, some '"', rest⟩, [(1, l)]⟩ := by
  rw [tagLine, cons_append, append_assoc]
  refine repeatLong_tagPart h (fun l => ?_) (by simp)
  simp [run, lit, ofChars, Nat.add_right_comm]

lemma map_findAllFrom_tagLine (h : isDirect l) (rest : Text) :
    (quotedTag.findAllFrom (fuel + 1) false ⟨n, last, tagLine l ++ rest⟩).map (fun m => unescapeTag (m.group 1)) =
      l :: (quotedTag.findAllFrom fuel false ⟨n + l.length + 2, some '"', rest⟩).map fun m =>
        unescapeTag (m.group 1) := by
  have hsrch : quotedTag.searchFrom false n last (tagLine l ++ rest) = _ := searchFrom_some (matchAt?_tagLine h rest)
  have hmoves : (n == n + l.length + 2) = false := by simp [Nat.add_assoc]
  rw [findAllFrom, hsrch]
  dsimp only
  rw [Match.isEmpty, hmoves]
  exact congrArg (· :: _) (unescapeTag_self h)

lemma map_findAllFrom_lines (hl : isDirect l) (hls : ∀ l ∈ ls, isDirect l)
    (hfuel : (ls.flatMap fun l => ',' :: tagLine l).length < fuel) :
    (quotedTag.findAllFrom fuel false ⟨n, last, tagLine l ++ ls.flatMap fun l => ',' :: tagLine l⟩).map
      (fun m => unescapeTag (m.group 1)) = l :: ls := by
  induction ls generalizing l n last fuel with
  | nil =>
    obtain ⟨m, rfl⟩ := Nat.exists_eq_add_one_of_ne_zero (Nat.ne_zero_of_lt hfuel)
    rw [map_findAllFrom_tagLine hl]
    cases m <;> rfl
  | cons l' ls ih =>
    obtain ⟨hl', hls⟩ := forall_mem_cons.mp hls
    obtain ⟨_ | m, rfl⟩ := Nat.exists_eq_add_one_of_ne_zero (Nat.ne_zero_of_lt hfuel)
    · simp at hfuel
    rw [map_findAllFrom_tagLine hl]
    rw [flatMap_cons, length_append, length_cons] at hfuel
    have hrest : (ls.flatMap fun l => ',' :: tagLine l).length < m + 1 := by omega
    -- the comma between two lines is passed over
    exact congrArg (l :: ·) (ih hl' hls hrest)

/-- Lines of lore without escapes are read as they were written. -/
theorem tagLore_lines {tags before : Text} (h : ∀ l ∈ ls, isDirect l)
    (hcut : Text.cutAt? "Lore:[" tags = some (before, Text.joinWith "," (ls.map tagLine) ++ ']' :: rest)) :
    tagLore tags = ls := by
  rw [tagLore, hcut]
  cases ls with
  | nil =>
    dsimp only
    rfl
  | cons l ls =>
    obtain ⟨hl, hls⟩ := forall_mem_cons.mp h
    have hjoin : joinWith "," ((l :: ls).map tagLine) = tagLine l ++ ls.flatMap fun l => ',' :: tagLine l := by
      rw [map_cons, joinWith_cons, flatMap_map]
      rfl
    dsimp only
    rw [hjoin, append_assoc, tagList_tagLine hl, tagList_lines hls]
    exact map_findAllFrom_lines hl hls (by rw [length_append]; omega)

theorem tagLore_lines_bracket : tagLore ("Lore:[" ++ (tagLine "a]" ++ "," ++ tagLine "," ++ "]")) = texts ["a]", ","] :=
  @tagLore_lines [] ["a]", ","] _ [] (List.all_eq_true.mp rfl) rfl

/-- A quote that is escaped ends the text before it. -/
theorem tagLore_cut_at_quote : tagLore "Lore:[\"a\\\"b\"]" = ["b"] := rfl

end Lore

/-! ### Lines of blocks -/

section Lines
variable {ε α β : Type} {x : Except ε α} {f : α → Except ε β} {P : α → Prop} {Q : β → Prop}

/-- Whatever the step gives has the property. -/
def OnlyGives (x : Except ε α) (P : α → Prop) : Prop := ∀ a, x = .ok a → P a

lemma OnlyGives.pure {a : α} (h : P a) : OnlyGives (Pure.pure a : Except ε α) P := by
  rintro _ ⟨⟩
  exact h

lemma OnlyGives.bind (hx : OnlyGives x P) (hf : ∀ a, P a → OnlyGives (f a) Q) : OnlyGives (x >>= f) Q := by
  intro b hb
  obtain ⟨a, ha, hb⟩ := bind_eq_ok.mp hb
  exact hf a (hx a ha) b hb

lemma OnlyGives.after (hf : ∀ a, OnlyGives (f a) Q) : OnlyGives (x >>= f) Q :=
  OnlyGives.bind (P := fun _ => True) (fun _ _ => .intro) fun a _ => hf a

variable {idx : Index} {p : Placement} {a : Known} {args : Text} {ws : List Text} {level : Nat}

/-- What a line adds to the number of open braces, if it is a brace. -/
def shift (l : Text) : Int :=
  match l.dropWhile (· == ' ') with
  | ['\x7b'] => 1
  | ['\x7d'] => -1
  | _ => 0

lemma shift_margin (n : Nat) (t : Text) : shift (margin n ++ t) = shift t := by
  rw [shift, shift, dropWhile_append_of_pos (by simp [margin])]

lemma shift_paren (t : Text) : shift (t ++ ")") = 0 := by
  have hlast : ∀ c, (t ++ ")" : Text).dropWhile (· == ' ') = [c] → c = ')' := by
    intro c hc
    have heq := takeWhile_append_dropWhile (p := (· == ' ')) (l := (t ++ ")" : Text))
    rw [hc] at heq
    simpa using (append_inj_right' heq rfl)
  rw [shift]
  split
  next heq => exact absurd (hlast _ heq) (by decide)
  next heq => exact absurd (hlast _ heq) (by decide)
  · rfl

lemma unknownText_shift : OnlyGives (unknownText p >>= fun t => (pure ⟨t, ws⟩ : Except Fault Written))
    fun w => shift w.line = 0 := by
  refine OnlyGives.bind (P := fun t => shift t = 0) ?_ fun _ h => .pure h
  exact .after fun _ => .pure (shift_paren _)

lemma callText_shift : OnlyGives (callText a args >>= fun t => (pure ⟨t, ws⟩ : Except Fault Written))
    fun w => shift w.line = 0 := by
  refine OnlyGives.bind (P := fun t => shift t = 0) ?_ fun _ h => .pure h
  unfold callText
  repeat' first | exact .pure (shift_paren _) | refine .after fun _ => ?_ | split | dsimp only

lemma functionCall?_shift : OnlyGives (functionCall? p) fun t? => ∀ t ∈ t?, shift t = 0 := by
  have hcall (u : Text) : ∀ t ∈ some (u ++ (")" : Text)), shift t = 0 := by
    rintro _ ⟨⟩
    exact shift_paren u
  have hnone : ∀ t ∈ (none : Option Text), shift t = 0 := by simp
  unfold functionCall?
  repeat' first | exact .pure (hcall _) | exact .pure hnone | refine .after fun _ => ?_ | split | dsimp only

lemma writeBlock_shift (block : Json) : OnlyGives (writeBlock idx block) fun w => shift w.line = 0 := by
  unfold writeBlock
  refine .after fun p => ?_
  split
  · exact unknownText_shift
  refine functionCall?_shift.bind fun t? ht => ?_
  split
  · exact .pure (ht _ rfl)
  split
  · unfold unmatched
    split
    next h =>
      rw [emptySign?] at h
      split at h
      · obtain ⟨e, he, rfl⟩ := map_eq_some_iff.mp h
        have hall : ∀ e ∈ emptySigns, shift e.2 = 0 := by decide
        exact .pure (hall e (mem_of_find?_eq_some he))
      · cases h
    next => exact unknownText_shift
  · unfold matched callWithItems
    repeat' first | exact callText_shift | refine .after fun _ => ?_ | split | dsimp only

lemma entryLines_shift (b : Json) : OnlyGives (entryLines idx level b) fun e => ∀ l ∈ e, shift l = 0 := by
  unfold entryLines
  refine .after fun _ => .after fun _ => ?_
  split
  · exact .pure (forall_mem_singleton.mpr (shift_margin level _))
  refine (writeBlock_shift b).bind fun w hw => .pure (forall_mem_append.mpr ⟨forall_mem_map.mpr fun t _ => ?_, ?_⟩)
  · rw [append_assoc, shift_margin]
    rfl
  · exact forall_mem_singleton.mpr ((shift_margin level _).trans hw)

end Lines

/-! ### Rows -/

variable {idx : Index} {blocks : List (Int × Json)} {steps level final n : Nat} {x start last : Int} {row first : Json}
  {bs : List Json} {ls : List Text} {l : Text}

/-- The block written at a place: the first one there that is no piston, unless it is air. -/
def entryAt (blocks : List (Int × Json)) (x : Int) : Option Json :=
  (((blocks.filter fun b => b.1 == x).map (·.2)).find? fun b => !isPiston b).filter fun b => !isAir b

def brace (blocks : List (Int × Json)) (level : Nat) (x : Int) : List Text × Nat :=
  match ((blocks.filter fun b => b.1 == x - 1).map (·.2)).find? isPiston with
  | some p => pistonLines level p
  | none => ([], level)

/-- From a level to a level, blocks are listed by lines: each block by its own, with what pistons add between them. -/
inductive Lists (idx : Index) : Nat → List Json → List Text → Nat → Prop
  | done {level : Nat} : Lists idx level [] [] level
  | entry {level final : Nat} {b : Json} {bs : List Json} {e ls : List Text} (lines : entryLines idx level b = .ok e)
    (rest : Lists idx level bs ls final) : Lists idx level (b :: bs) (e ++ ls) final
  | piston {level final : Nat} (p : Json) {bs : List Json} {ls : List Text}
    (rest : Lists idx (pistonLines level p).2 bs ls final) : Lists idx level bs ((pistonLines level p).1 ++ ls) final

/-- Along the lines the number of open braces goes from `d` to `d'`, and before each of them some brace is open. -/
def Nests : Int → List Text → Int → Prop
  | d, [], d' => d' = d
  | d, l :: ls, d' => 0 < d ∧ Nests (d + shift l) ls d'

lemma nests_append {d d' : Int} {e : List Text} (he : ∀ l ∈ e, shift l = 0) (hd : 0 < d) (h : Nests d ls d') :
    Nests d (e ++ ls) d' := by
  induction e with
  | nil => exact h
  | cons l e ih =>
    refine ⟨hd, ?_⟩
    rw [he l (by simp), Int.add_zero]
    exact ih fun l hl => he l (by simp [hl])

/-- The brace of the header is not closed by pistons. -/
lemma Lists.nests (h : Lists idx level bs ls final) (hlv : 0 < level) :
    0 < final ∧ Nests level (ls ++ [['\x7d']]) (final - 1) := by
  induction h with
  | done => exact ⟨hlv, by omega, rfl⟩
  | entry lines _ ih =>
    rw [append_assoc]
    exact ⟨(ih hlv).1, nests_append (entryLines_shift _ _ lines) (by omega) (ih hlv).2⟩
  | @piston level _ p _ _ _ ih =>
    unfold pistonLines at ih ⊢
    dsimp only at ih ⊢
    split at ih
    next hw =>
      rw [if_pos hw]
      refine ⟨(ih (Nat.succ_pos _)).1, by omega, ?_⟩
      rw [shift_margin]
      exact (ih (Nat.succ_pos _)).2
    next hw =>
      rw [if_neg hw]
      split at ih
      next he =>
        have hlv' : 1 < level := by simpa using (Bool.and_eq_true_iff.mp he).2
        rw [if_pos he]
        refine ⟨(ih (by omega)).1, by omega, ?_⟩
        have hdown : (level : Int) + shift (margin (level - 1) ++ "\x7d") = (level - 1 : Nat) := by
          rw [shift_margin, Int.natCast_sub (by omega)]
          rfl
        rw [hdown]
        exact (ih (by omega)).2
      next he =>
        rw [if_neg he]
        exact ih hlv

lemma lists_placeLines (h : placeLines idx blocks steps x level = .ok ls) :
    ∃ final, Lists idx level ((List.range steps).filterMap fun p : Nat => entryAt blocks (x - 2 * p)) ls final := by
  induction steps generalizing x level ls with
  | zero =>
    cases h
    exact ⟨level, .done⟩
  | succ steps ih =>
    have hplcs : (fun p => entryAt blocks (x - 2 * (p.succ : Int)))
        = fun p : Nat => entryAt blocks (x - 2 - 2 * p) := funext fun p => congrArg _ (by omega)
    have hwalk {rest} : placeLines idx blocks steps (x - 2) (brace blocks level x).2 = .ok rest → ∃ final,
        Lists idx level ((List.range steps).filterMap fun p : Nat => entryAt blocks (x - 2 - 2 * p))
          ((brace blocks level x).1 ++ rest) final := by
      intro hrest
      obtain ⟨final, hlist⟩ := ih hrest
      unfold brace at hlist ⊢
      split at hlist
      next p _ => exact ⟨final, .piston p hlist⟩
      · exact ⟨final, hlist⟩
    rw [range_succ_eq_map, filterMap_cons, filterMap_map, Function.comp_def, hplcs, Int.natCast_zero,
      Int.mul_zero, Int.sub_zero]
    rw [placeLines] at h
    split at h
    next b hb =>
      obtain ⟨e, he, h⟩ := bind_eq_ok.mp h
      obtain ⟨rest, hrest, h⟩ := bind_eq_ok.mp h
      obtain rfl : e ++ (brace blocks level x).1 ++ rest = ls := ok.inj h
      rw [show entryAt blocks x = some b from hb, append_assoc]
      exact (hwalk hrest).imp fun _ => .entry he
    next hb =>
      obtain ⟨_, ⟨⟩, h⟩ := bind_eq_ok.mp h
      obtain ⟨rest, hrest, h⟩ := bind_eq_ok.mp h
      obtain rfl : (brace blocks level x).1 ++ rest = ls := ok.inj h
      rw [show entryAt blocks x = none from hb]
      exact hwalk hrest

/-- A row with its header at the place `start` and the others that have a place, down to the place `last`. -/
structure Laid (row first : Json) (start last : Int) (placed : List (Int × Json)) : Prop where
  sorted : ∃ all rest, (row.get "blocks" >>= Json.asItems) = .ok all ∧
    sortBlocks (all.filter fun b => b.fields?.isSome) = .ok (first :: rest) ∧
      placed = rest.filterMap fun b => (placeOf b).int?.map fun x => (x, b)
  start : (placeOf first).int? = some start
  last : (placed.map (·.1)).min? = some last

lemma Laid.entryAt_none (hrow : Laid row first start last blocks) (h : x < last) : entryAt blocks x = none := by
  by_contra hne
  obtain ⟨b, hb⟩ := ne_none_iff_exists'.mp hne
  obtain ⟨⟨y, c⟩, hmem, -⟩ := List.mem_map.mp (mem_of_find?_eq_some (filter_eq_some_iff.mp hb).1)
  obtain ⟨hmem, hy⟩ := mem_filter.mp hmem
  have hlast : last ≤ y := (min?_eq_some_iff.mp hrow.last).2 y (List.mem_map_of_mem hmem)
  rw [beq_iff_eq] at hy
  omega

lemma ok_of_mapError {α ε ε' : Type} {f : ε → ε'} {x : Except ε α} {a : α} (h : x.mapError f = .ok a) : x = .ok a := by
  cases x with
  | error e => cases h
  | ok b =>
    cases h
    rfl

lemma exists_laid (h : rowLines idx n row = .ok (l :: ls)) : ∃ first start last placed body,
    Laid row first start last placed ∧ header first n = .ok l ∧
      placeLines idx placed ((start - last) / 2 + 4).toNat (start - 2) 1 = .ok body ∧ ls = body ++ [['\x7d'], []] := by
  rw [rowLines, bind_eq_ok] at h
  obtain ⟨all, hall, h⟩ := h
  rw [bind_eq_ok] at h
  obtain ⟨sorted, hsort, h⟩ := h
  split at h
  · cases h
  next first rest =>
    rw [bind_eq_ok] at h
    obtain ⟨head, hhead, h⟩ := h
    dsimp only at h
    split at h
    next start last hst hlast =>
      rw [bind_eq_ok] at h
      obtain ⟨body, hbd, h⟩ := h
      cases h
      exact ⟨first, start, last, _, body, ⟨⟨all, rest, ok_of_mapError hall, ok_of_mapError hsort, rfl⟩, hst, hlast⟩,
        ok_of_mapError hhead, ok_of_mapError hbd, rfl⟩
    · contradiction

/-- What a row lists are the blocks at the places `start - 2`, `start - 4`, …, one at each, in this order. -/
theorem lists_rowLines (h : rowLines idx n row = .ok (l :: ls)) : ∃ first start last placed body final, ∃ steps : Nat,
    Laid row first start last placed ∧ header first n = .ok l ∧ ls = body ++ [['\x7d'], []] ∧
      Lists idx 1 ((List.range steps).filterMap fun p : Nat => entryAt placed (start - 2 - 2 * p)) body final ∧
        ∀ p : Nat, steps ≤ p → entryAt placed (start - 2 - 2 * p) = none := by
  obtain ⟨first, start, last, placed, body, hrow, hhead, hbd, hls⟩ := exists_laid h
  obtain ⟨final, hlist⟩ := lists_placeLines hbd
  exact ⟨first, start, last, placed, body, final, _, hrow, hhead, hls, hlist,
    fun p hp => hrow.entryAt_none (by omega)⟩

/-- The brace of the header stays open up to the end of the row. There one brace is closed, out of the `final` that are
open then. -/
theorem levels_rowLines (h : rowLines idx n row = .ok (l :: ls)) : ∃ bs body final, ls = body ++ [['\x7d'], []] ∧
    Lists idx 1 bs body final ∧ 0 < final ∧ Nests 1 (body ++ [['\x7d']]) (final - 1) := by
  obtain ⟨_, _, _, _, body, _, _, hbd, hls⟩ := exists_laid h
  obtain ⟨final, hlist⟩ := lists_placeLines hbd
  exact ⟨_, body, final, hls, hlist, hlist.nests Nat.one_pos⟩

/-- A header, a block with a piston at its side that opens a scope, and a block between the places. -/
def sampleBlocks : List Json :=
  let block (x : Int) (kind sign facing : String) : Json :=
    .obj [("pos", .obj [("x", .int x)]), ("block", .str kind), ("sign", .arr [.str sign]), ("facing", .str facing)]
  [block 10 "stone" "" "", block 8 "stone" "иначе" "", block 7 "minecraft:piston" "" "west", block 5 "stone" "иначе" ""]

lemma rowLines_sampleBlocks : rowLines [] 0 (.obj [("blocks", .arr sampleBlocks)]) =
    .ok ("row(\"row_0\") \x7b" :: ["    else", "    \x7b", "\x7d", ""]) := by
  have hsort : sortBlocks sampleBlocks = .ok sampleBlocks := by
    change ok (List.map _ (List.mergeSort _ _)) = _
    rw [mergeSort_of_pairwise (by decide)]
    rfl
  refine bind_eq_ok.mpr ⟨sampleBlocks, rfl, bind_eq_ok.mpr ⟨sampleBlocks, ?_, rfl⟩⟩
  exact congrArg (Except.mapError ListingError.data) hsort

theorem lists_rowLines_sampleBlocks : ∃ first start last placed body final, ∃ steps : Nat,
    Laid (.obj [("blocks", .arr sampleBlocks)]) first start last placed ∧ header first 0 = .ok "row(\"row_0\") \x7b" ∧
      (["    else", "    \x7b", "\x7d", ""] : List Text) = body ++ [['\x7d'], []] ∧
      Lists [] 1 ((List.range steps).filterMap fun p : Nat => entryAt placed (start - 2 - 2 * p)) body final ∧
        ∀ p : Nat, steps ≤ p → entryAt placed (start - 2 - 2 * p) = none :=
  lists_rowLines rowLines_sampleBlocks

/-- Of two blocks behind the header that are neither pistons nor air only one has a line. -/
theorem exists_block_left_out : (sampleBlocks.tail.filter fun b => !isPiston b && !isAir b).length = 2 ∧
    rowLines [] 0 (.obj [("blocks", .arr sampleBlocks)]) =
      .ok ["row(\"row_0\") \x7b", "    else", "    \x7b", "\x7d", ""] :=
  ⟨by decide, rowLines_sampleBlocks⟩

theorem levels_rowLines_sampleBlocks : ∃ bs body final,
    (["    else", "    \x7b", "\x7d", ""] : List Text) = body ++ [['\x7d'], []] ∧ Lists [] 1 bs body final ∧ 0 < final ∧
      Nests 1 (body ++ [['\x7d']]) (final - 1) :=
  levels_rowLines rowLines_sampleBlocks

/-- Two braces are opened, and one is closed. -/
theorem exists_scope_left_open : ∃ ls, rowLines [] 0 (.obj [("blocks", .arr sampleBlocks)]) = .ok ls ∧
    (ls.filter fun l => l.getLast? == some '\x7b').length = 2 ∧ (ls.filter fun l => l.getLast? == some '\x7d').length
      = 1 :=
  ⟨_, rowLines_sampleBlocks, by decide⟩

/-! ### Options picked -/

section Options
variable {fs : Json.Fields} {before after : List Text} {name n : Text}

/-- Two names have a key in common, each in one of the spellings it may have had. -/
def ShareKey (n name : Text) : Prop := ∃ k ∈ optionKeys n, k ∈ optionKeys name
deriving Decidable

lemma shareKey_iff : (optionKeys n).any (optionKeys name).contains ↔ ShareKey n name := by
  simp [ShareKey]

lemma shareKey_self (h : optionKeys name ≠ []) : ShareKey name name := by
  obtain ⟨k, ks, hk⟩ := exists_cons_of_ne_nil h
  exact ⟨k, by simp [hk], by simp [hk]⟩

lemma matchOption?_of_noKeys (h : optionKeys name = []) : matchOption? (.obj fs) name = none := by
  have hequal : (names fs).find? (fun n => (optionKeys n).any (optionKeys name).contains) = none := by
    simp [h]
  have hcl : ∀ n ∈ names fs, ((optionKeys name).flatMap fun w =>
      (optionKeys n).filterMap (closeness? w)).min?.map (fun d => (d, n)) = none := by
    simp [h]
  rw [matchOption?, hequal]
  simp [filterMap_eq_nil_iff.mpr hcl]

/-- The search for an equal key stops at the option itself, if it gets there. -/
lemma matchOption?_of_keys (hfs : names fs = before ++ name :: after) (h : optionKeys name ≠ []) :
    matchOption? (.obj fs) name = (before.find? (ShareKey · name)).or (some name) := by
  have hfind : (names fs).find? (fun n => (optionKeys n).any (optionKeys name).contains)
      = (before.find? (ShareKey · name)).or (some name) := by
    have hkey : (fun n => (optionKeys n).any (optionKeys name).contains) = fun n => decide (ShareKey n name) := by
      funext n
      rw [Bool.eq_iff_iff, shareKey_iff, decide_eq_true_iff]
    rw [hkey, hfs, find?_append, find?_cons, decide_eq_true (shareKey_self h)]
  rw [matchOption?, hfind]
  cases before.find? (ShareKey · name) <;> rfl

/-- A name of an option stands for the first option that has a key in common with it, and for none if nothing in it
counts. So it is read as the option itself just if it has a key and no option before it has the same one. -/
theorem matchOption?_name (hfs : Table.names fs = before ++ name :: after) (hfirst : name ∉ before) :
    matchOption? (.obj fs) name
        = (if optionKeys name = [] then none else (before.find? (ShareKey · name)).or (some name))
      ∧ (matchOption? (.obj fs) name = some name ↔ optionKeys name ≠ [] ∧ ∀ n ∈ before, ¬ ShareKey n name) := by
  by_cases h : optionKeys name = []
  · simp [h, matchOption?_of_noKeys h]
  · rw [matchOption?_of_keys hfs h, if_neg h]
    refine ⟨rfl, ?_⟩
    cases hfind : before.find? (ShareKey · name) with
    | none => simpa [h] using hfind
    | some n =>
      have hn := mem_of_find?_eq_some hfind
      refine iff_of_false ?_ fun hkeys => hkeys.2 n hn (by simpa using find?_some hfind)
      rintro ⟨⟩
      exact hfirst hn

/-- Options of which two are told apart by a point only, and two have no letter and no digit. -/
def marks : Json.Fields := [("1.5", .int 0), ("15", .int 1), ("+", .int 2), ("-", .int 3)]

theorem matchOption?_name_marks : matchOption? (.obj marks) "1.5" = some ("1.5" : Text) :=
  (matchOption?_name (show names marks = [] ++ ("1.5" : Text) :: _ from rfl) (by simp)).2.mpr ⟨by decide, by simp⟩

/-- Of two options that a point tells apart the second one is read as the first, and one without letters and digits is
not read at all. -/
theorem exists_option_misread : matchOption? (.obj marks) "15" = some ("1.5" : Text)
    ∧ matchOption? (.obj marks) "+" = none :=
  ⟨by decide, matchOption?_of_noKeys (by decide)⟩

end Options
end World
end BlockScript
