import BlockScript.Proofs.Passing

/-!
# Lists that fill arrays

The line `x = [a, b, c]` makes an array and fills it: one action makes it, with the first items, and others append the
rest, nine at a time. Put one behind the other, the items of the actions are the items of the list
(`Statement.compile_listLine`).
-/

open List
namespace BlockScript
open Value Text Arithmetic
open Script (Compile)
open Passing (Offers)
namespace Literal
variable {a : Literal}

lemma Simple.fits_any (h : a.Simple) (hbraces : '\x7b' ∉ a.text ∧ '\x7d' ∉ a.text) : Fits .any a.token := by
  cases a with
  | number k => exact .of_isPlain isHead_num rfl (isPlain_ofInt k)
  | name t =>
    refine .of_isPlain isHead_var rfl (all_eq_true.mpr fun c hc => ?_)
    exact isPlainChar_of_varChar (isVarChar_of_nameChar (h.2.1 c hc))
  | quoted mark t =>
    refine .of_isPlain isHead_text rfl (all_eq_true.mpr fun c hc => ?_)
    have hspc := h.2 c hc
    have hmem : c ∈ text (.quoted mark t) := by simp [text, hc]
    have hleft : c ≠ '\x7b' := fun heq => hbraces.1 (heq ▸ hmem)
    have hright : c ≠ '\x7d' := fun heq => hbraces.2 (heq ▸ hmem)
    simp_all [isPlainChar, specialChars]

end Literal
namespace Assignment

/-- The name under which an action takes its `n`-th item; the first has no number. -/
def itemName (n : Nat) : Text := "value" ++ if n ≤ 1 then [] else Text.ofNat n

def itemNames : List Text := (List.range' 1 maxItems).map itemName

/-- The items that an action puts into an array. -/
def itemsOf (p : Placed) : List Text := itemNames.filterMap (item? p)

/-- Actions set an array to a list: one makes the array and the others append to it. None has more than nine items, and
together they have the items of the list. -/
structure Fills (create append : Spec) (x : Text) (items : List Text) (ps : List Placed) : Prop where
  specs : ∃ p rest, ps = p :: rest ∧ p.spec = create ∧ ∀ q ∈ rest, q.spec = append ∧ itemsOf q ≠ []
  array : ∀ p ∈ ps, item? p "arr" = some (Value.wrap "arr" x) ∧ (itemsOf p).length ≤ maxItems
  items : ps.flatMap itemsOf = items

/-- The line that sets an array to a list. -/
def listLine (x : Text) (items : List Text) : Text := x ++ " = " ++ ("[" ++ joinWith ", " items ++ "]")

lemma flatten_chunks {α : Type} {n fuel : Nat} {xs : List α} (hn : 0 < n) (h : xs.length ≤ fuel) :
    (chunks n fuel xs).flatten = xs ∧ ∀ c ∈ chunks n fuel xs, c ≠ [] ∧ c.length ≤ n := by
  induction fuel generalizing xs with
  | zero => simp_all [chunks]
  | succ fuel ih =>
    cases xs with
    | nil => simp [chunks]
    | cons x xs =>
      obtain ⟨hflat, hall⟩ := @ih ((x :: xs).drop n) (by simp at h ⊢; omega)
      rw [chunks, flatten_cons, hflat, take_append_drop, forall_mem_cons]
      · exact ⟨rfl, ⟨by simp; omega, by simp⟩, hall⟩
      · simp

variable {lib : Library} {spec create append : Spec} {func x : Text} {vs : List Text}

lemma call_items (h : Offers lib func (("arr", .array) :: itemNames.map (·, .any)) spec)
    (hfn : Text.lower (trim func) ≠ "noaction") (hx : isPlain x) (hvs : ∀ v ∈ vs, Fits .any v)
    (hlen : vs.length ≤ maxItems) :
    ∃ p, (lib.call "array" func (("arr=" ++ Value.wrap "arr" x) :: itemArgs 1 vs)).result = .ok p ∧ p.spec = spec
      ∧ item? p "arr" = some (Value.wrap "arr" x) ∧ itemsOf p = vs := by
  obtain ⟨canon, hfind⟩ := h.found
  obtain ⟨fs, hpar, hsl, hfs⟩ := h.params
  obtain ⟨p, hp, hspec, harr, hitems⟩ := call_zip _ _ Placed.isPlainModule_array hfn hfind hpar hsl hfs
    rfl (by decide) (Passing.fits_arr hx) hvs (by simpa [itemNames] using hlen)
  refine ⟨p, ?_, hspec, harr, hitems⟩
  rw [numbered_eq_zip itemArgs itemName (fun _ => rfl) (fun _ _ _ => rfl) 1 hlen]
  exact hp

lemma append_chunks (happend : Offers lib "add_array" (("arr", .array) :: itemNames.map (·, .any)) append)
    (hx : isPlain x) {cs : List (List Text)} (hcs : ∀ c ∈ cs, c.length ≤ maxItems ∧ ∀ v ∈ c, Fits .any v) :
    ∃ ps, cs.mapM (fun c => (lib.call "array" "add_array" (("arr=" ++ Value.wrap "arr" x) :: itemArgs 1 c)).result)
      = .ok ps
      ∧ ps.map itemsOf = cs ∧ ∀ p ∈ ps, p.spec = append ∧ item? p "arr" = some (Value.wrap "arr" x) := by
  induction cs with
  | nil => exact ⟨[], rfl, rfl, by simp⟩
  | cons c cs ih =>
    obtain ⟨hlen, hfits⟩ := hcs c (by simp)
    obtain ⟨p, hp, hspec, harr, hitems⟩ := call_items happend (by decide) hx hfits hlen
    obtain ⟨ps, hps, hmap, hall⟩ := ih fun c hc => hcs c (by simp [hc])
    refine ⟨p :: ps, mapM_cons_ok_iff.mpr ⟨p, ps, hp, hps, rfl⟩, by rw [map_cons, hitems, hmap], ?_⟩
    rw [forall_mem_cons]
    exact ⟨⟨hspec, harr⟩, hall⟩

lemma listActions_items
    (hcreate : Offers lib "ochistit_sozdat_massiv" (("arr", .array) :: itemNames.map (·, .any)) create)
    (happend : Offers lib "add_array" (("arr", .array) :: itemNames.map (·, .any)) append) (hx : isPlain x)
    {raws : List Text} (hraws : IsArguments raws)
      (hvs : raws.mapM (fun raw => (itemToken lib.values raw).result) = .ok vs)
    (hfits : ∀ v ∈ vs, Fits .any v) :
    ∃ ps, (listActions lib ⟨x, false, none, "[" ++ joinWith ", " raws ++ "]"⟩).result = .ok ps
      ∧ Fills create append x vs ps := by
  have hin : Text.inner ("[" ++ joinWith ", " raws ++ "]") = joinWith ", " raws := by simp [Text.inner]
  obtain ⟨hflat, hchunks⟩ := flatten_chunks (n := maxItems) (by decide) (le_refl (vs.drop maxItems).length)
  obtain ⟨p, hp, hspec, harr, hitems⟩ := call_items hcreate (by decide) hx
    (fun v (hv : v ∈ vs.take maxItems) => hfits v (mem_of_mem_take hv)) (by simp)
  obtain ⟨ps, hps, hmap, hall⟩ := append_chunks happend hx
    fun c hc => ⟨(hchunks c hc).2, fun v hv => hfits v
      (mem_of_mem_drop (hflat ▸ mem_flatten_of_mem hc hv))⟩
  have hchunk : ∀ q ∈ ps, itemsOf q ≠ [] ∧ (itemsOf q).length ≤ maxItems := fun q hq =>
    hchunks _ (hmap ▸ mem_map_of_mem hq)
  refine ⟨p :: ps, ?_, ⟨p, ps, rfl, hspec, fun q hq => ⟨(hall q hq).1, (hchunk q hq).1⟩⟩, ?_, ?_⟩
  · simp only [listActions, hin, hraws.splitTop_joinWith, Compile.result_bind, result_mapM, hvs, arrayTarget]
    simp only [Except.bind, Bool.false_eq_true, if_false, hp, hps]
    rfl
  · rw [forall_mem_cons]
    exact ⟨⟨harr, by simp [hitems]⟩, fun q hq => ⟨(hall q hq).2, (hchunk q hq).2⟩⟩
  · rw [flatMap_cons, hitems, flatMap_def, hmap, hflat, take_append_drop]

end Assignment

/-! ### The statement -/

namespace Statement
open Assignment
variable {lib : Library} {create append : Spec} {x : Text} {items : List Literal}

/-- A list is put into the array to the last item and in order. -/
theorem compile_listLine (sigs : Signatures) (trace : Bool)
    (hcreate : Offers lib "ochistit_sozdat_massiv" (("arr", .array) :: itemNames.map (·, .any)) create)
    (happend : Offers lib "add_array" (("arr", .array) :: itemNames.map (·, .any)) append)
    (hne : x ≠ []) (hx : ∀ c ∈ x, isVarChar c) (hitems : ∀ a ∈ items, a.Simple)
    (hbraces : ∀ a ∈ items, '\x7b' ∉ a.text ∧ '\x7d' ∉ a.text) :
    ∃ ps, (compile lib sigs trace (listLine x (items.map Literal.text))).result = .ok (some ps)
      ∧ Fills create append x (items.map Literal.token) ps := by
  have hargs := Literal.isArguments_text hitems
  have htoks :
    (items.map Literal.text).mapM (fun raw => (itemToken lib.values raw).result) = .ok (items.map Literal.token) := by
    rw [mapM_ok_iff, forall₂_map_left_iff, forall₂_map_right_iff, forall₂_same]
    exact fun a ha => Literal.result_itemToken (hitems a ha) lib.values
  have hfits : ∀ v ∈ items.map Literal.token, Fits .any v := by
    rw [forall_mem_map]
    exact fun a ha => (hitems a ha).fits_any (hbraces a ha)
  obtain ⟨ps, hacts, hfills⟩ := listActions_items hcreate happend
    (all_eq_true.mpr fun c hc => isPlainChar_of_varChar (hx c hc)) hargs htoks hfits
  refine ⟨ps, ?_, hfills⟩
  obtain ⟨hcall, hbare⟩ := notCall_resultLine ("[" ++ joinWith ", " (items.map Literal.text) ++ "]") hx hne
  have hlast : ("[" ++ joinWith ", " (items.map Literal.text) ++ "]").getLast? = some ']' := getLast?_concat
  have hassign := ofLine?_resultLine hne hx hlast (by decide) (by decide)
    (trim_self rfl hlast (by decide) (by decide)) (by simpa using hargs.notMem_joinWith)
  rw [listLine, compile, hcall, hbare, hassign]
  have hlist : Assignment.compile lib sigs trace ⟨x, false, none, "[" ++ joinWith ", " (items.map Literal.text) ++ "]"⟩
      = listActions lib ⟨x, false, none, "[" ++ joinWith ", " (items.map Literal.text) ++ "]"⟩ := by
    rw [Assignment.compile, hlast]
    rfl
  simp only [Option.isSome_none, Bool.false_eq_true, if_false, hlist, Compile.result_bind, hacts]
  rfl

def listAction (sign2 : Text) : Spec :=
  Arithmetic.shippedAction sign2
    (⟨"arr", "ARRAY", 13⟩ :: ⟨"value", "ANY", 27⟩ :: Arithmetic.numberedParams "value" "ANY" 2 28 8) []

def listLibrary : Library where
  api := .obj [("array", .obj [("ochistit_sozdat_massiv", listAction "Создать массив"),
    ("add_array", listAction "Добавить в массив")])]
  values := []

lemma offers_listLibrary :
    Offers listLibrary "ochistit_sozdat_massiv" (("arr", .array) :: itemNames.map (·, .any))
      (listAction "Создать массив") ∧
    Offers listLibrary "add_array" (("arr", .array) :: itemNames.map (·, .any)) (listAction "Добавить в массив") :=
  ⟨⟨⟨_, rfl⟩, _, hasParams_shipped (by simp) (by simp) (by decide) (by decide), by decide, by decide⟩,
    ⟨⟨_, rfl⟩, _, hasParams_shipped (by simp) (by simp) (by decide) (by decide), by decide, by decide⟩⟩

def eleven : List Literal :=
  [.name "b", .quoted '"' "x = %y", .name "None"] ++ (List.range 8).map fun k => .number (k - 4)

/-- The theorem at work on a list of eleven items: the last two are appended. -/
theorem compile_listLine_eleven : (∀ a ∈ eleven, a.Simple ∧ '\x7b' ∉ a.text ∧ '\x7d' ∉ a.text) ∧
    ∃ ps, (compile listLibrary [] false "%a = [b, \"x = %y\", None, -4, -3, -2, -1, 0, 1, 2, 3]").result = .ok (some ps)
      ∧ Fills (listAction "Создать массив") (listAction "Добавить в массив") "%a" (texts ["var(b)", "text(x = %y)",
        "var(None)", "num(-4)", "num(-3)", "num(-2)", "num(-1)", "num(0)", "num(1)", "num(2)", "num(3)"]) ps := by
  have hsimp : ∀ a ∈ eleven, a.Simple ∧ '\x7b' ∉ a.text ∧ '\x7d' ∉ a.text := by decide
  have hln : "%a = [b, \"x = %y\", None, -4, -3, -2, -1, 0, 1, 2, 3]" = listLine "%a" (eleven.map Literal.text) := by
    decide
  have htoks : eleven.map Literal.token = texts ["var(b)", "text(x = %y)", "var(None)", "num(-4)", "num(-3)", "num(-2)",
      "num(-1)", "num(0)", "num(1)", "num(2)", "num(3)"] := by decide
  rw [hln, ← htoks]
  exact ⟨hsimp, compile_listLine [] false offers_listLibrary.1 offers_listLibrary.2 (by decide)
    (all_eq_true.mp (by decide)) (fun a ha => (hsimp a ha).1) fun a ha => (hsimp a ha).2⟩

end Statement
end BlockScript
