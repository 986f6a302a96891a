import BlockScript.Api.Build
import BlockScript.Proofs.Outcomes
import BlockScript.Proofs.Tables

/-!
# Actions of a catalog

The library reads an action of the catalog field by field. `isAction` says of which kind each field has to be where it
is there; every such action can be entered in the library (`gives_request`), whatever its texts are.
-/

open List Except
namespace BlockScript.Api
open Json Table
open Parameter (fallback? numberFrom rename slot? slotNumber)
open Bool (false_ne_true)

/-! ### Kinds of values -/

def isText : Json → Bool
  | .str _ => true
  | _ => false

def isNumber : Json → Bool
  | .int _ => true
  | _ => false

def isListOf (p : Json → Bool) : Json → Bool
  | .arr xs => xs.all p
  | _ => false

/-- The value is a record whose fields, where they are there, are of the kinds given. -/
def isRecordOf (kinds : List (String × (Json → Bool))) : Json → Bool
  | .obj fs => kinds.all fun k => ((get? k.1 fs).map k.2).getD true
  | _ => false

def isSigns : Json → Bool
  | .arr [] => true
  | .arr (a :: b :: rest) => (a :: b :: rest).all isText
  | _ => false

def isArgument : Json → Bool := isRecordOf [("glassName", isText), ("mode", isText), ("argSlot", isNumber)]

def isSwitch : Json → Bool :=
  isRecordOf [("name", isText), ("variant", isRecordOf [("options", isListOf isText)])]

def isAction : Json → Bool := isRecordOf [("id", isText), ("signs", isSigns), ("gui", isText), ("subitem", isText),
  ("category", isText), ("args", isListOf isArgument), ("enums", isListOf isSwitch)]

def isNaming : Json → Bool := isRecordOf [("name", isText), ("aliases", isListOf isText)]

def isNames : Json → Bool
  | .obj fs => fs.all fun f => isNaming f.2
  | _ => false

/-! ### Fields -/

section Fields
variable {kinds : List (String × (Json → Bool))} {v : Json} {k : String} {p : Json → Bool}

lemma gives_getOr (h : isRecordOf kinds v) (hk : (k, p) ∈ kinds) (d : Json) :
    Gives (v.getOr k d) fun w => w = d ∨ p w := by
  cases v with
  | obj fs =>
    refine ⟨_, rfl, ?_⟩
    have hkind := all_eq_true.mp h (k, p) hk
    cases hget : get? k fs with
    | none => exact .inl rfl
    | some w =>
      rw [hget] at hkind
      exact .inr hkind
  | _ => exact absurd h false_ne_true

lemma gives_get (h : isRecordOf kinds v) (hk : (k, p) ∈ kinds) : Gives (v.get k) fun w => w = .null ∨ p w := by
  have hget := gives_getOr h hk .null
  cases v <;> exact hget

lemma gives_get_any (h : isRecordOf kinds v) (key : Text) : Gives (v.get key) fun _ => True := by
  cases v with
  | obj fs => exact ⟨_, rfl, trivial⟩
  | _ => exact absurd h false_ne_true

lemma eq_str_of_text (h : isText v) : ∃ t, v = .str t := by
  cases v with
  | str t => exact ⟨t, rfl⟩
  | _ => exact absurd h false_ne_true

lemma gives_textOr (h : isText v) (fault : Fault) : Gives (v.textOr fault) fun _ => True := by
  obtain ⟨t, rfl⟩ := eq_str_of_text h
  exact ⟨t, rfl, trivial⟩

lemma gives_asText (h : v = .null ∨ isText v) : Gives v.asText fun _ => True := by
  rcases h with rfl | h
  · exact ⟨[], rfl, trivial⟩
  obtain ⟨t, rfl⟩ := eq_str_of_text h
  cases t <;> exact ⟨_, rfl, trivial⟩

lemma gives_loop (h : isListOf p v) : Gives v.loop fun xs => ∀ x ∈ xs, p x := by
  cases v with
  | arr xs => exact ⟨xs, rfl, all_eq_true.mp h⟩
  | _ => exact absurd h false_ne_true

lemma gives_asItems_arr (xs : List Json) : Gives (arr xs).asItems (xs = ·) := by
  cases xs <;> exact ⟨_, rfl, rfl⟩

lemma gives_asItems (h : v = .null ∨ isListOf p v) : Gives v.asItems fun xs => ∀ x ∈ xs, p x := by
  rcases h with rfl | h
  · exact ⟨[], rfl, by simp⟩
  cases v with
  | arr xs => exact (gives_asItems_arr xs).mono fun _ hxs => hxs ▸ all_eq_true.mp h
  | _ => exact absurd h false_ne_true

lemma orElse_of {a b : Json} (ha : a = .null ∨ p a) (hb : p b) : p (a.orElse b) := by
  rcases ha with rfl | ha
  · exact hb
  rw [orElse]
  split
  · exact ha
  · exact hb

end Fields
variable {names action : Json}
  {ps : List Json} {given : Json}

/-! ### Labels -/

lemma gives_menuItem (h : isAction action) : Gives (menuItem action) fun w => isText w := by
  refine (gives_get h (p := isText) (by simp)).bind fun a ha => ?_
  refine (gives_get h (p := isText) (by simp)).bind fun b hb => .pure ?_
  refine orElse_of ?_ rfl
  rcases hb with rfl | hb
  · rw [orElse]
    split
    · exact ha
    · exact .inl rfl
  · exact .inr (orElse_of ha hb)

lemma gives_item {signs : Json} (h : isSigns signs) (hne : signs ≠ .arr []) {n : Nat} (hn : n < 2) :
    Gives (signs.item n) fun a => isText a := by
  cases signs with
  | arr xs =>
    match xs, h, n, hn with
    | [], _, _, _ => exact absurd rfl hne
    | a :: b :: rest, h, 0, _ => exact ⟨a, rfl, all_eq_true.mp h a (by simp)⟩
    | a :: b :: rest, h, 1, _ => exact ⟨b, rfl, all_eq_true.mp h b (by simp)⟩
  | _ => exact absurd h false_ne_true

lemma gives_labels (h : isAction action) : Gives (Labels.ofAction action) fun _ => True := by
  have hshow : ∀ w, w = .null ∨ isText w →
      Gives (do return Text.trim (Label.legible (← w.asText))) fun _ => True :=
    fun w hw => (gives_asText hw).bind fun _ _ => .pure trivial
  refine (gives_get h (p := isSigns) (by simp)).bind fun w hw => ?_
  have hsigns : isSigns (w.orElse (.texts [[], [], [], []])) := orElse_of hw rfl
  have hne : w.orElse (.texts [[], [], [], []]) ≠ .arr [] := by
    rw [orElse]
    split
    next hw => rintro rfl; exact absurd hw false_ne_true
    · exact nofun
  refine (gives_item hsigns hne Nat.zero_lt_two).bind fun a ha => ?_
  refine (hshow a (.inr ha)).bind fun _ _ => ?_
  refine (gives_item hsigns hne Nat.one_lt_two).bind fun b hb => ?_
  refine (hshow b (.inr hb)).bind fun _ _ => ?_
  refine (gives_getOr h (p := isText) (by simp) (.str [])).bind fun g hg => ?_
  refine (hshow g (.inr (hg.elim (fun hg => hg ▸ rfl) id))).bind fun _ _ => ?_
  refine (gives_menuItem h).bind fun m hm => ?_
  exact (gives_asText (.inr hm)).bind fun _ _ => .pure trivial

/-! ### Parameters -/

def slotOf (p : Json) : Json := (p.field? "slot").getD .null

def argSlots (action : Json) : List Json :=
  (((action.field? "args").bind Json.items?).getD []).map fun arg => (arg.field? "argSlot").getD .null

def IsParameter (p : Json) : Prop := p.fields?.isSome ∧ (slotOf p = .null ∨ isNumber (slotOf p))

lemma IsParameter.eq_obj {p : Json} (h : IsParameter p) : ∃ fs, p = .obj fs := by
  cases p with
  | obj fs => exact ⟨fs, rfl⟩
  | _ => exact absurd h.1 false_ne_true

lemma gives_slot {p : Json} (h : IsParameter p) : Gives (slot? p) fun _ => True := by
  obtain ⟨fs, rfl⟩ := h.eq_obj
  have hslot := h.2
  rw [slotOf, field?] at hslot
  rw [slot?]
  cases hv : (get? "slot" fs).getD .null with
  | arr xs =>
    rw [hv] at hslot
    exact absurd hslot (by simp [isNumber])
  | obj gs =>
    rw [hv] at hslot
    exact absurd hslot (by simp [isNumber])
  | _ => exact ⟨_, rfl, trivial⟩

lemma gives_slotNumber {fs : Json.Fields} (h : IsParameter (.obj fs)) (d : Int) :
    Gives (slotNumber d fs) fun _ => True := by
  have hnum : isNumber (((get? "slot" fs).getD .null).orElse (.int d)) := orElse_of h.2 rfl
  rw [slotNumber]
  cases hv : ((get? "slot" fs).getD .null).orElse (.int d) with
  | int n => exact ⟨n, rfl, trivial⟩
  | _ => rw [hv] at hnum; exact absurd hnum false_ne_true

lemma gives_modeKey {arg : Json} (h : isArgument arg) : Gives (Parameter.modeKey arg) fun _ => True := by
  refine (gives_get h (p := isText) (by simp)).bind fun mode hmode => ?_
  split
  next htrue =>
    rcases hmode with rfl | hmode
    · exact absurd htrue false_ne_true
    · exact (gives_textOr hmode _).bind fun _ _ => .pure trivial
  · exact .pure trivial

lemma numberFrom_map {α : Type} (seen : List Text) (xs : List (Text × α)) :
    (numberFrom seen xs).map (fun x => (x.1, x.2.2)) = xs := by
  induction xs generalizing seen with
  | nil => rfl
  | cons x xs ih => rw [numberFrom, map_cons, ih]

lemma exists_args (h : isAction action) : ∃ args, action.getOr "args" (.arr []) = .ok (.arr args)
    ∧ (∀ arg ∈ args, isArgument arg) ∧ argSlots action = args.map fun arg => (arg.field? "argSlot").getD .null := by
  obtain ⟨w, hw, hkind⟩ := gives_getOr h (k := "args") (p := isListOf isArgument) (by simp) (.arr [])
  cases action with
  | obj fs =>
    have hlist : isListOf isArgument w := hkind.elim (fun hw => hw ▸ rfl) id
    cases w with
    | arr args =>
      refine ⟨args, hw, all_eq_true.mp hlist, ?_⟩
      have hget : (get? "args" fs).getD (.arr []) = .arr args := ok.inj hw
      rw [argSlots, field?]
      cases hfld : get? "args" fs with
      | none =>
        rw [hfld] at hget
        obtain rfl : [] = args := arr.inj hget
        rfl
      | some v =>
        rw [hfld] at hget
        obtain rfl : v = .arr args := hget
        rfl
    | _ => exact absurd hlist false_ne_true
  | _ => exact absurd h false_ne_true

lemma gives_parameters (h : isAction action) :
    Gives (Parameter.ofAction action) fun ps => (∀ p ∈ ps, IsParameter p) ∧ ps.map slotOf = argSlots action := by
  obtain ⟨args, hargs, hkind, hsl⟩ := exists_args h
  refine Gives.bind ⟨_, hargs, rfl⟩ ?_
  rintro _ rfl
  refine Gives.bind ⟨_, rfl, rfl⟩ ?_
  rintro _ rfl
  refine (Gives.forall₂_mapM (R := fun arg a => a.2.2.1 = (arg.field? "argSlot").getD .null
    ∧ (a.2.2.1 = .null ∨ isNumber a.2.2.1)) fun arg harg => ?_).bind fun stems hstems => .pure ?_
  · have harg := hkind arg harg
    refine Gives.bind (P := fun _ => True) ?_ fun pane _ => ?_
    · refine (gives_getOr harg (p := isText) (by simp) (.str [])).bind fun w hw => ?_
      exact (gives_asText (.inr (hw.elim (fun hw => hw ▸ rfl) id))).bind fun _ _ => .pure trivial
    refine (gives_modeKey harg).bind fun _ _ => ?_
    refine (gives_get_any harg "mode").bind fun _ _ => ?_
    obtain ⟨slot, hget, hslot⟩ := gives_get harg (k := "argSlot") (p := isNumber) (by simp)
    refine Gives.bind ⟨_, hget, rfl⟩ ?_
    rintro _ rfl
    cases arg with
    | obj fs => exact .pure ⟨(ok.inj hget).symm, hslot⟩
    | _ => exact absurd harg false_ne_true
  -- Names are given last, so the slots are those of the named ones.
  have hmap := congrArg (List.map fun a => a.2.2.1) (numberFrom_map [] stems)
  rw [map_map] at hmap
  have hpar : (∀ a ∈ stems, a.2.2.1 = .null ∨ isNumber a.2.2.1)
      ∧ stems.map (fun a => a.2.2.1) = argSlots action := by
    rw [hsl]
    clear hargs hkind hsl hmap
    induction hstems with
    | nil => exact ⟨nofun, rfl⟩
    | cons harg _ ih => exact ⟨forall_mem_cons.mpr ⟨harg.2, ih.1⟩, by rw [map_cons, harg.1, ih.2]; rfl⟩
  constructor
  · refine forall_mem_map.mpr fun a ha => ?_
    have hmem := mem_map_of_mem (f := fun x => (x.1, x.2.2)) ha
    rw [numberFrom_map] at hmem
    exact ⟨rfl, hpar.1 _ hmem⟩
  rw [← hpar.2, ← hmap, map_map]
  rfl

lemma fallback_isParameter {sign1 sign2 : Text} (h : fallback? sign1 sign2 = some ps) : ∀ p ∈ ps, IsParameter p := by
  have hkn : ∀ name mode slot label, IsParameter (Parameter.known name mode slot label) :=
    fun _ _ _ _ => ⟨rfl, .inr rfl⟩
  rw [fallback?] at h
  split at h
  · cases h
    exact forall_mem_map.mpr fun _ _ => hkn _ _ _ _
  split at h
  · cases h
    intro p hp
    simp only [mem_cons, not_mem_nil, or_false] at hp
    rcases hp with rfl | rfl | rfl | rfl <;> exact hkn _ _ _ _
  · contradiction

lemma gives_merge {xs ys : List Json} (hxs : ∀ p ∈ xs, IsParameter p) (hys : ∀ p ∈ ys, IsParameter p) :
    Gives (Parameter.merge (.arr xs) (.arr ys)) fun ps => ∃ extra ⊆ ys, ps = xs ++ extra := by
  refine (gives_asItems_arr xs).bind ?_
  rintro _ rfl
  refine (Gives.filterMapM fun p hp => gives_slot (hxs p hp)).bind fun used _ => ?_
  refine (gives_asItems_arr ys).bind ?_
  rintro _ rfl
  refine Gives.bind ?_ fun a ha => .pure ha
  refine Gives.foldlM ⟨[], by simp, by simp⟩ fun p hp a ha => ?_
  refine (gives_slot (hys p hp)).bind fun s _ => ?_
  cases s with
  | none => exact .pure ha
  | some s =>
    refine .pure ?_
    split
    · exact ha
    obtain ⟨extra, hext, heq⟩ := ha
    refine ⟨extra ++ [p], ?_, ?_⟩
    · exact append_subset.mpr ⟨hext, by simpa using hp⟩
    · rw [← append_assoc, ← heq]

lemma gives_keepVariable {ps : List Json.Fields} (h : ∀ p ∈ ps, IsParameter (.obj p)) :
    Gives (Parameter.keepVariable ps) fun kept => kept.Sublist ps := by
  have hleast : Gives (Parameter.leastVariable ps) fun p => ∀ q ∈ p, IsParameter (.obj q) := by
    refine (Gives.mapM (Q := fun a => IsParameter (.obj a.2)) fun p hp => ?_).bind fun keyed hkeyed => ?_
    · have hslot := h p (mem_filter.mp hp).1
      exact (gives_slotNumber hslot _).bind fun _ _ => .pure hslot
    split
    · exact .pure nofun
    · exact .pure nofun
    refine .pure fun q hq => ?_
    obtain ⟨a, ha, rfl⟩ := Option.map_eq_some_iff.mp hq
    exact hkeyed a (mem_mergeSort.mp (mem_of_mem_head? ha))
  refine hleast.bind fun p hp => ?_
  cases p with
  | none => exact .pure (List.Sublist.refl ps)
  | some least =>
    refine (gives_slotNumber (hp least rfl) 0).bind fun slot _ => ?_
    refine Gives.filterM fun p hp => ?_
    split
    · exact (gives_slotNumber (h p hp) 0).bind fun _ _ => .pure trivial
    · exact .pure trivial

lemma slots_rename (ps : List Json.Fields) : ((rename ps).map .obj).map slotOf = ps.map fun p => slotOf (.obj p) := by
  have hmap := congrArg (List.map fun x => slotOf (.obj x.2))
    (numberFrom_map [] (ps.map fun p => (Parameter.modeStem (Parameter.modeText p), p)))
  rw [map_map, map_map] at hmap
  rw [rename, map_map, map_map]
  refine Eq.trans (map_congr_left fun x _ => ?_) hmap
  have hget : get? "slot" (set "name" (.str (Parameter.numbered x.1 x.2.1)) x.2.2)
      = get? "slot" x.2.2 := get?_set_of_ne (by decide)
  exact congrArg (Option.getD · null) hget

/-- Parameters may be dropped in the end, and then the action says so; the slots of the others are not changed. -/
lemma gives_normalize (h : ∀ p ∈ ps, IsParameter p) (fs : Json.Fields) :
    Gives (Parameter.normalize (.obj fs) ps) fun r => (r.1.map slotOf).Sublist (ps.map slotOf)
      ∧ (r.2 = false → r.1.map slotOf = ps.map slotOf) := by
  have hctx : ∀ key, Gives (Parameter.contextKey key (.obj fs)) fun _ => True := fun key => ⟨_, rfl, trivial⟩
  have hsl : (ps.filterMap fields?).map (fun p => slotOf (.obj p)) = ps.map slotOf := by
    induction ps with
    | nil => rfl
    | cons p ps ih =>
      obtain ⟨gs, rfl⟩ := (h p (by simp)).eq_obj
      exact congrArg _ (ih fun q hq => h q (by simp [hq]))
  refine Gives.bind (P := fun _ => True) ?_ fun asks _ => ?_
  · refine (hctx _).bind fun _ _ => (hctx _).bind fun _ _ => (hctx _).bind fun _ _ => ?_
    exact (hctx _).bind fun _ _ => .pure trivial
  rw [← hsl]
  cases asks with
  | false => exact .pure ⟨by rw [slots_rename], fun _ => slots_rename _⟩
  | true =>
    refine (gives_keepVariable fun p hp => ?_).bind fun kept hkept => .pure ?_
    · obtain ⟨q, hq, hp⟩ := mem_filterMap.mp hp
      obtain ⟨gs, rfl⟩ := (h q hq).eq_obj
      exact Option.some.inj hp ▸ h _ hq
    rw [slots_rename]
    refine ⟨hkept.map _, fun hsame => ?_⟩
    rw [decide_eq_false_iff_not, Nat.not_lt] at hsame
    rw [hkept.eq_of_length_le hsame]

/-- The parameters of an action in the library have the slots of its arguments, with those of a window known to
be recorded wrongly behind them. -/
def Slots (action : Json) (sign1 sign2 : Text) (params : List Json) (isNormalized : Bool) : Prop :=
  ∃ extra ⊆ (fallback? sign1 sign2).getD [],
    (params.map slotOf).Sublist (argSlots action ++ extra.map slotOf)
    ∧ (isNormalized = false → params.map slotOf = argSlots action ++ extra.map slotOf)

lemma gives_params (h : isAction action) (l : Labels) :
    Gives (l.params action) fun r => Slots action l.sign1 l.sign2 r.1 r.2 := by
  refine (gives_parameters h).bind fun ps hps => ?_
  have hfall : ∀ p ∈ (fallback? l.sign1 l.sign2).getD [], IsParameter p := by
    cases hsome : fallback? l.sign1 l.sign2 with
    | none => exact nofun
    | some extra => exact fallback_isParameter hsome
  refine (gives_merge hps.1 hfall).bind ?_
  rintro _ ⟨extra, hext, rfl⟩
  refine (gives_normalize (fun p hp => ?_) _).mono fun r hr => ?_
  · exact (mem_append.mp hp).elim (hps.1 p) fun hp => hfall p (hext hp)
  rw [map_append, hps.2] at hr
  exact ⟨extra, hext, hr⟩

/-! ### Names and switches -/

lemma gives_given (hnms : isNames names) {id : Json} (hid : isText id) (path : Text) :
    Gives (givenNames names id path) fun given => isNaming given := by
  have hget key : Gives (names.get key) fun w => w = .null ∨ isNaming w := by
    cases names with
    | obj fs =>
      refine ⟨_, rfl, ?_⟩
      cases hf : get? key fs with
      | none => exact .inl rfl
      | some w => exact .inr (all_eq_true.mp hnms _ (mem_of_get? hf))
    | _ => exact absurd hnms false_ne_true
  obtain ⟨t, rfl⟩ := eq_str_of_text hid
  refine (hget t).bind fun a ha => (hget path).bind fun b hb => .pure ?_
  refine orElse_of ?_ rfl
  rcases hb with rfl | hb
  · rw [orElse]
    split
    · exact ha
    · exact .inl rfl
  · exact .inr (orElse_of ha hb)

lemma gives_givenName (h : isNaming given) : Gives (givenName given) fun _ => True := by
  refine (gives_get h (p := isText) (by simp)).bind fun name hnm => ?_
  split
  · exact .pure trivial
  rcases hnm with rfl | hnm
  · contradiction
  · exact (gives_textOr hnm _).bind fun _ _ => .pure trivial

lemma gives_givenAliases (h : isNaming given) : Gives (givenAliases given) fun _ => True := by
  refine (gives_get h (p := isListOf isText) (by simp)).bind fun w hw => ?_
  refine (gives_asItems hw).bind fun xs hxs => ?_
  exact (Gives.mapM fun x hx => gives_textOr (hxs x hx) _).mono fun _ _ => trivial

lemma gives_choices (h : isAction action) : Gives (choices action) fun _ => True := by
  refine (gives_getOr h (p := isListOf isSwitch) (by simp) (.arr [])).bind fun w hw => ?_
  refine (gives_loop (hw.elim (fun hw => hw ▸ rfl) id)).bind fun items hit => ?_
  refine (Gives.mapM (Q := fun _ => True) fun item hitem => ?_).mono fun _ _ => trivial
  have hsw := hit item hitem
  refine (gives_get hsw (p := isRecordOf [("options", isListOf isText)]) (by simp)).bind
    fun shown hshow => ?_
  have hshow : isRecordOf [("options", isListOf isText)] (shown.orElse (.obj [])) := orElse_of hshow rfl
  refine (gives_get hshow (p := isListOf isText) (by simp)).bind fun labels hlab => ?_
  have hlab : isListOf isText (labels.orElse (.arr [])) := orElse_of hlab rfl
  refine (gives_loop hlab).bind fun labels hlab => ?_
  refine Gives.bind (P := fun _ => True) ?_ fun name _ => ?_
  · refine (gives_getOr hsw (p := isText) (by simp) (.str [])).bind fun w hw => ?_
    exact (gives_asText (.inr (hw.elim (fun hw => hw ▸ rfl) id))).bind fun _ _ => .pure trivial
  refine (gives_get_any hsw _).bind fun slot _ => ?_
  exact (Gives.mapM fun x hx => gives_asText (.inr (hlab x hx))).bind fun _ _ => .pure trivial

lemma gives_request (hnms : isNames names) (h : isAction action) :
    Gives (Request.ofAction names action) fun _ => True := by
  refine (gives_labels h).bind fun l _ => ?_
  refine (gives_getOr h (p := isText) (by simp) (.str [])).bind fun w hw => ?_
  refine (gives_given hnms (hw.elim (fun hw => hw ▸ rfl) id) _).bind fun given hgiv => ?_
  refine (gives_givenName hgiv).bind fun own _ => (gives_givenAliases hgiv).bind fun others _ => ?_
  refine (gives_params h l).bind fun ps _ => (gives_get_any h "id").bind fun _ _ => ?_
  refine Gives.bind (P := fun _ => True) ?_ fun shown _ => ?_
  · exact (gives_menuItem h).bind fun m hm => (gives_asText (.inr hm)).bind fun _ _ => .pure trivial
  refine Gives.bind (P := fun _ => True) ?_ fun raw _ => ?_
  · exact (gives_menuItem h).bind fun m hm => (gives_textOr hm _).bind fun _ _ => .pure trivial
  exact (gives_choices h).bind fun _ _ => .pure trivial

/-! ### Entries -/

/-- The entry is that of an action: it has its id, its labels and its slots. -/
structure Entry.Describes (e : Entry) (action : Json) : Prop where
  id_eq : action.get "id" = .ok e.id
  labels_eq : Labels.ofAction action = .ok ⟨e.sign1, e.sign2, e.gui, e.menu⟩
  slots : isAction action → Slots action e.sign1 e.sign2 e.params e.isNormalized

lemma describes_of_request {r : Request} (h : Request.ofAction names action = .ok r) (name : Text) :
    (r.entry name).Describes action := by
  simp only [Request.ofAction, bind_eq_ok] at h
  obtain ⟨l, hl, _, -, given, -, own, -, others, -, ps, hps, ident, hident, shown, -, raw, -, switches, -, h⟩ := h
  cases h
  refine ⟨hident, hl, fun hact => ?_⟩
  obtain ⟨ps', hps', hsl⟩ := gives_params hact l
  obtain rfl := ok.inj (hps.symm.trans hps')
  exact hsl

end BlockScript.Api
