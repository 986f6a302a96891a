import BlockScript.Action.GameValueList
import BlockScript.Proofs.LetterCase
import BlockScript.Proofs.Literals
import BlockScript.Proofs.Searching

/-!
# Names of game values

The list of game values keeps the location name of a value under the key of the name it is shown under, and a reference
to a value by its shown name is looked up there. The two sides have different keys: the list drops white space,
underscores and hyphens (`isSeparator_of_mem_key`), a reference only closes up white space. So a value is found by a
shown name of one word and never by a name of several words (`resolve?_shown`).
-/

open List Except
namespace BlockScript
open GameValues
open Pattern Text Label
open Table (get? setNew)
namespace GameValueList

/-! ### What a list registers -/

lemma Index.of_append (vs : List Value) (v : Value) : Index.of (vs ++ [v]) = (Index.of vs).add v := by
  rw [Index.of, foldl_append]
  rfl

/-- The value can be looked up under the key. -/
def Value.hasKey (k : Text) (v : Value) : Bool := !(v.display.isEmpty || (key v.display).isEmpty) && key v.display == k

lemma get?_setNew (t : Table Text) (k k' name : Text) :
    get? k (setNew k' name t) = (get? k t).or (if k' = k then some name else none) := by
  rw [setNew]
  cases hhas : Table.has k' t with
  | true =>
    rw [if_pos rfl]
    rw [← Table.isSome_get?] at hhas
    split
    next hk =>
      subst hk
      obtain ⟨v, hv⟩ := Option.isSome_iff_exists.mp hhas
      rw [hv, Option.some_or]
    · rw [Option.or_none]
  | false =>
    rw [if_neg Bool.false_ne_true, get?, lookup_append, get?]
    by_cases hk : k' = k
    · simp [hk]
    have hbeq : (k == k') = false := beq_eq_false_iff_ne.mpr (Ne.symm hk)
    simp [hbeq, hk]

lemma get?_keys_of (vs : List Value) (k : Text) :
    get? k (Index.of vs).keys = (vs.find? (Value.hasKey k)).map Value.name := by
  induction vs using List.reverseRecOn with
  | nil => rfl
  | append_singleton vs v ih =>
    have hadd : get? k ((Index.of vs).add v).keys
        = (get? k (Index.of vs).keys).or (if v.hasKey k then some v.name else none) := by
      rw [Index.add, Value.hasKey]
      cases hemp : v.display.isEmpty || (key v.display).isEmpty with
      | true => simp
      | false =>
        rw [if_neg Bool.false_ne_true, get?_setNew]
        simp
    rw [Index.of_append, hadd, ih, find?_append, find?_singleton]
    cases vs.find? (Value.hasKey k) with
    | some w => rfl
    | none => cases v.hasKey k <;> rfl

variable {v : Value} {item : Json} {vs : List Value}

lemma name_of_valueOf {name display : Text} (h : valueOf name display item = .ok v) : v.name = name := by
  simp only [valueOf, bind_eq_ok] at h
  obtain ⟨_, -, _, -, _, -, _, -, _, -, h⟩ := h
  exact (ok.inj h) ▸ rfl

lemma name_of_cleanValue? (h : cleanValue? item = .ok (some v)) : v.name ≠ [] := by
  cases item with
  | obj fs =>
    obtain ⟨loc, -, h⟩ := bind_eq_ok.mp h
    cases hnm : trim (loc.orElse (.str [])).spell with
    | nil =>
      simp only [hnm] at h
      exact absurd (ok.inj h) nofun
    | cons c name =>
      simp only [hnm, isEmpty_cons, if_neg Bool.false_ne_true, bind_eq_ok] at h
      obtain ⟨_, -, _, -, v', hv, h⟩ := h
      obtain rfl := Option.some.inj (ok.inj h)
      rw [name_of_valueOf hv]
      exact cons_ne_nil c name
  | _ => exact absurd (ok.inj h) nofun

lemma group_ne_nil {a : Pattern} {t : Text} {m : Pattern.Match}
    (h : (a ++ .group 1 (Pattern.many1 (.char isNameChar)) ++ .lit t).Takes m.start [] m.stop m.groups) :
      m.group 1 ≠ [] := by
  obtain ⟨s₂, g₂, ⟨s₁, g₁, -, hgrp⟩, hend⟩ := h
  obtain ⟨u, -, _, hu, rfl⟩ := (takes_iff (w := false) rfl nofun).mp hgrp
  obtain ⟨_, -, hend⟩ := (takes_iff (isFree_ofChars _ t) nofun).mp hend
  rw [Pattern.Match.group, Pattern.Match.group?, (spells_lit.mp hend).2]
  exact (spells_many1.mp hu).1

lemma name_of_slotValue? (h : slotValue? item = .ok (some v)) : v.name ≠ [] := by
  cases item with
  | obj fs =>
    obtain ⟨nbt, -, h⟩ := bind_eq_ok.mp h
    obtain ⟨tags, -, h⟩ := bind_eq_ok.mp h
    cases hm : (tagPattern.search? tags).or (quotedTagPattern.search? tags) with
    | none =>
      simp only [hm] at h
      exact absurd (ok.inj h) nofun
    | some m =>
      simp only [hm, bind_eq_ok] at h
      obtain ⟨_, -, _, -, _, -, v', hv, h⟩ := h
      obtain rfl := Option.some.inj (ok.inj h)
      rw [name_of_valueOf hv]
      rcases Option.or_eq_some_iff.mp hm with hm | ⟨-, hm⟩ <;> exact group_ne_nil (takes_of_search? hm)
  | _ => exact absurd (ok.inj h) nofun

lemma exists_of_mem_filterMap {items : List Json} {f : Json → Except Fault (Option Value)} {vs : List (Option Value)}
    (h : items.mapM f = .ok vs) (hv : v ∈ vs.filterMap id) : ∃ item, f item = .ok (some v) := by
  obtain ⟨item, -, hitem⟩ := exists_of_mapM_ok h (some v) (by simpa using hv)
  exact ⟨item, hitem⟩

lemma mem_foldl_addFound {ms : List Pattern.Match} (h : v ∈ ms.foldl addFound vs) :
    v ∈ vs ∨ ∃ m ∈ ms, v = foundValue m := by
  induction ms generalizing vs with
  | nil => exact .inl h
  | cons m ms ih =>
    rcases ih h with h | ⟨m', hm', rfl⟩
    · rw [addFound] at h
      split at h
      · exact .inl h
      rcases mem_append.mp h with h | h
      · exact .inl h
      · exact .inr ⟨m, by simp, mem_singleton.mp h⟩
    · exact .inr ⟨m', by simp [hm'], rfl⟩

lemma name_of_mem_registered {list : Text} (h : registered list = .ok vs) (hv : v ∈ vs) : v.name ≠ [] := by
  rw [registered] at h
  split at h
  · obtain ⟨found, hfnd, h⟩ := bind_eq_ok.mp h
    cases h
    obtain ⟨item, hitem⟩ := exists_of_mem_filterMap hfnd hv
    exact name_of_cleanValue? hitem
  obtain ⟨found, hfnd, h⟩ := bind_eq_ok.mp h
  cases h
  rcases mem_foldl_addFound hv with hv | ⟨m, hm, rfl⟩
  · obtain ⟨item, hitem⟩ := exists_of_mem_filterMap hfnd hv
    exact name_of_slotValue? hitem
  · exact group_ne_nil (takes_of_mem_findAll hm)

lemma mem_keys_add {x : Index} {e : Text × Text} (he : e ∈ (x.add v).keys) : e ∈ x.keys ∨ e.2 = v.name := by
  rw [Index.add] at he
  split at he
  · exact .inl he
  rw [setNew] at he
  split at he
  · exact .inl he
  rcases mem_append.mp he with he | he
  · exact .inl he
  · exact .inr (by rw [mem_singleton.mp he])

lemma ofJson_payload (h : ∀ v ∈ vs, v.name ≠ []) : ofJson (Index.of vs).payload = (Index.of vs).keys := by
  have hkeys : ∀ e ∈ (Index.of vs).keys, e.2 ≠ [] := by
    induction vs using List.reverseRecOn with
    | nil => exact nofun
    | append_singleton vs v ih =>
      intro e he
      rw [Index.of_append] at he
      rcases mem_keys_add he with he | he
      · exact ih (fun w hw => h w (by simp [hw])) e he
      rw [he]
      exact h v (by simp)
  have hfld : (Index.of vs).payload.field? "byKey" = some (.obj ((Index.of vs).keys.map fun k => (k.1, .str k.2))) :=
    rfl
  rw [ofJson, hfld]
  simp only [filterMap_map]
  generalize (Index.of vs).keys = keys at hkeys
  induction keys with
  | nil => rfl
  | cons e keys ih =>
    rw [filterMap_cons_some (b := e) (by simp [hkeys e (by simp)]), ih fun e' he' => hkeys e' (by simp [he'])]

end GameValueList

/-! ### References to values -/

namespace GameValues
variable {head d : Text}

def called (head d : Text) : Text := head ++ "(\"" ++ d ++ "\")"

def member (head d : Text) : Text := head ++ "." ++ d

/-- The characters that a name in a reference may not have. -/
def marks : List Char := ['"', '\'', '(', ')', '\n']

lemma heads_spec : heads.all fun head => !head.isEmpty && head.all isHeadChar && lower head == head := by
  rfl

section Heads
variable (hhead : head ∈ heads)
include hhead

lemma head_ne_nil : head ≠ [] := by
  have h := all_eq_true.mp heads_spec head hhead
  simp only [Bool.and_eq_true] at h
  simpa using h.1.1

lemma isHeadChar_head : ∀ c ∈ head, isHeadChar c := by
  have h := all_eq_true.mp heads_spec head hhead
  simp only [Bool.and_eq_true, all_eq_true] at h
  exact h.1.2

lemma contains_lower_head : heads.contains (lower head) := by
  have h := all_eq_true.mp heads_spec head hhead
  simp only [Bool.and_eq_true, beq_iff_eq] at h
  rw [h.2]
  exact contains_iff_mem.mpr hhead

end Heads
section Calls
variable {q : Text} (hhead : head ∈ heads) (hne : q ≠ []) (hq : ∀ c ∈ q, c ≠ ')' ∧ c ≠ '\n') (htrim : trim q = q)
include hhead hne hq

lemma fits_callPattern : callPattern.fits (head ++ ("(" ++ (q ++ [')']))) := by
  have hchr : ∀ c ∈ q, (c != '\n') = true := fun c hc => by simpa using (hq c hc).2
  refine fits_of_spells (g := [(2, q), (1, head)]) rfl ?_
  simp only [Pattern.blanks, spells_seq]
  exact ⟨head, _, _, rfl, spells_many1.mpr ⟨head_ne_nil hhead, isHeadChar_head hhead, rfl⟩, [], _, rfl, by simp, _, rfl,
    [], _, rfl, by simp, q, _, _, rfl, spells_many1Lazy.mpr ⟨hne, hchr, rfl⟩, [], _, rfl, by simp,
      [], rfl, by simp, rfl⟩

include htrim

lemma match?_callPattern : ∃ m, callPattern.match? (head ++ ("(" ++ (q ++ [')']))) = some m
    ∧ m.group 1 = head ∧ m.group 2 = q := by
  obtain ⟨m, hm⟩ := Option.isSome_iff_exists.mp (fits_callPattern hhead hne hq)
  obtain ⟨w, b, e, b', b'', b₃, r, heq, hw, hb, hb', hb'', hgrp1, hgrp2⟩ := callPattern_inv hm
  refine ⟨m, hm, ?_⟩
  rw [hgrp1, hgrp2]
  obtain ⟨hfirst, hlast⟩ := trim_self_iff.mp htrim
  have hpar : isHeadChar '(' = false := rfl
  -- The word stands before the first parenthesis.
  obtain ⟨rfl, hcut⟩ : w = head ∧ b ++ '(' :: (b' ++ (e ++ (b'' ++ ')' :: (b₃ ++ r)))) = '(' :: (q ++ [')']) := by
    refine append_inj_of_head hw (isHeadChar_head hhead) ?_ ?_ heq.symm
    · cases b with
      | nil => simpa using hpar
      | cons c b => simpa using not_isHeadChar_of_blank (hb c (by simp))
    · simpa using hpar
  obtain rfl : b = [] := by
    cases b with
    | nil => rfl
    | cons c b =>
      obtain ⟨rfl, -⟩ := cons.inj hcut
      exact absurd (hb '(' (by simp)) (by decide)
  -- There is one closing parenthesis, so the part before it has none.
  have hcld : (b' ++ (e ++ b'')) ++ ')' :: (b₃ ++ r) = q ++ [')'] := by simpa using (cons.inj hcut).2
  have hopen : ')' ∉ b' ++ (e ++ b'') := by
    have hcnt := congrArg (List.count ')') hcld
    rw [count_append, count_cons_self, @count_append Char _ ')' q, count_singleton_self,
      count_eq_zero_of_not_mem fun hmem => (hq _ hmem).1 rfl] at hcnt
    exact count_eq_zero.mp (by omega)
  obtain ⟨rfl, -⟩ := append_inj_of_head (p := (· != ')')) (fun c hc => by simpa using ne_of_mem_of_not_mem hc hopen)
    (fun c hc => by simpa using (hq c hc).1) (by simp) (by simp) hcld
  obtain rfl : b' = [] := by
    cases b' with
    | nil => rfl
    | cons c b' => simpa [hb' c (by simp)] using hfirst c rfl
  obtain rfl : b'' = [] := by
    rcases eq_nil_or_concat b'' with rfl | ⟨init, c, rfl⟩
    · rfl
    · simpa [hb'' c (by simp)] using hlast c (by simp)
  exact ⟨rfl, by simp⟩

end Calls

lemma nameIn?_called (hhead : head ∈ heads) (hd : ∀ c ∈ d, c ∉ marks) : nameIn? (called head d) = some d := by
  have heq : called head d = head ++ ("(" ++ (('"' :: (d ++ ['"'])) ++ [')'])) := by simp [called]
  have hlast : ('"' :: (d ++ ['"'])).getLast? = some '"' := by rw [← cons_append, getLast?_concat]
  have htrim : trim ('"' :: (d ++ ['"'])) = '"' :: (d ++ ['"']) :=
    trim_self rfl hlast rfl rfl
  have hchr : ∀ c ∈ '"' :: (d ++ ['"']), c ≠ ')' ∧ c ≠ '\n' := by
    intro c hc
    rcases mem_cons.mp hc with rfl | hc
    · decide
    rcases mem_append.mp hc with hc | hc
    · constructor
      · rintro rfl; exact hd _ hc (by decide)
      · rintro rfl; exact hd _ hc (by decide)
    rw [mem_singleton.mp hc]
    decide
  obtain ⟨m, hm, hgrp1, hgrp2⟩ := match?_callPattern hhead (by simp) hchr htrim
  have hquot : isQuotedOrQuote ('"' :: (d ++ ['"'])) := by
    rw [isQuotedOrQuote, hlast]
    rfl
  rw [nameIn?, heq, hm]
  simp only [hgrp1, hgrp2, contains_lower_head hhead, htrim, hquot]
  simp [Text.inner]

lemma fits_memberPattern (hhead : head ∈ heads) (hne : d ≠ []) (hd : ∀ c ∈ d, c ≠ '\n') :
    memberPattern.fits (head ++ ("." ++ d)) := by
  have hchr : ∀ c ∈ d, (c != '\n') = true := fun c hc => by simpa using hd c hc
  refine fits_of_spells (g := [(2, d), (1, head)]) rfl ?_
  simp only [spells_seq]
  exact ⟨head, _, _, rfl, spells_many1.mpr ⟨head_ne_nil hhead, isHeadChar_head hhead, rfl⟩, d, rfl,
    _, spells_many1.mpr ⟨hne, hchr, rfl⟩, rfl⟩

lemma match?_memberPattern (hhead : head ∈ heads) (hne : d ≠ []) (hd : ∀ c ∈ d, c ≠ '\n') :
    ∃ m, memberPattern.match? (head ++ ("." ++ d)) = some m ∧ m.group 1 = head ∧ m.group 2 = d := by
  obtain ⟨m, hm⟩ := Option.isSome_iff_exists.mp (fits_memberPattern hhead hne hd)
  obtain ⟨w, e, r, hrest, -, hchr, hend, hgrp1, hgrp2⟩ := memberPattern_inv hm
  have hpt : isHeadChar '.' = false := rfl
  obtain ⟨rfl, hcut⟩ := append_inj_of_head (isHeadChar_head hhead) hchr (by simpa using hpt)
    (by simpa using hpt) hrest
  obtain rfl : d = e := by
    have hcut : d = e ++ r := (cons.inj hcut).2
    rcases hend with hend | hend
    · simpa [hend] using hcut
    · exact absurd rfl (hd '\n' (by simp [hcut, hend]))
  exact ⟨m, hm, hgrp1, hgrp2⟩

lemma nameIn?_member (hhead : head ∈ heads) (hne : d ≠ []) (hd : ∀ c ∈ d, c ∉ marks) (hpt : '.' ∉ d) :
    nameIn? (member head d) = some (trim d) := by
  have heq : member head d = head ++ ("." ++ d) := by simp [member]
  have hcall : callPattern.match? (head ++ ("." ++ d)) = none := by
    rw [← Option.not_isSome_iff_eq_none]
    intro h
    have hmem := mem_of_callPattern h
    rcases mem_append.mp hmem with hmem | hmem
    · exact absurd (isHeadChar_head hhead '(' hmem) (by decide)
    rcases mem_append.mp hmem with hmem | hmem
    · exact absurd hmem (by decide)
    · exact hd '(' hmem (by decide)
  obtain ⟨m, hm, hgrp1, hgrp2⟩ := match?_memberPattern hhead hne fun c hc h => hd c hc (h ▸ by decide)
  have hspl : splitChar '.' d = [d] := splitChar_joinWith (cons_ne_nil d []) (by simpa using hpt)
  rw [nameIn?, heq, hcall, hm]
  simp only [hgrp1, hgrp2, contains_lower_head hhead, hspl]
  rfl

lemma isBlank_head (hhead : head ∈ heads) {u : Text} : ∀ c, (head ++ u).head? = some c → isBlank c = false := by
  intro c hc
  obtain ⟨c', head', rfl⟩ := exists_cons_of_ne_nil (head_ne_nil hhead)
  obtain rfl : c' = c := by simpa using hc
  exact isBlank_of_headChar (isHeadChar_head hhead c' (by simp))

lemma resolve?_called (values : GameValues) (hhead : head ∈ heads) (hd : ∀ c ∈ d, c ∉ marks) :
    values.resolve? (called head d) = if isLocName d then some d else values.lookup (Label.key d) := by
  have htrim : trim (called head d) = called head d := by
    refine trim_self_iff.mpr ⟨?_, ?_⟩
    · rw [called, append_assoc, append_assoc]
      exact isBlank_head hhead
    intro c hc
    have hlast : called head d = (head ++ "(\"" ++ d ++ ['"']) ++ [')'] := by simp [called]
    rw [hlast, getLast?_concat] at hc
    exact Option.some.inj hc ▸ rfl
  rw [resolve?, htrim, nameIn?_called hhead hd]

lemma resolve?_member (values : GameValues) (hhead : head ∈ heads) (hne : trim d ≠ []) (hd : ∀ c ∈ d, c ∉ marks)
    (hpt : '.' ∉ d) : values.resolve? (member head d)
      = if isLocName (trim d) then some (trim d) else values.lookup (Label.key (trim d)) := by
  obtain ⟨pre, post, hpre, hpost, heq⟩ := exists_padding d
  have htrim : trim (member head d) = member head (pre ++ trim d) := by
    have hmember : member head d = member head (pre ++ trim d) ++ post := by
      conv_lhs => rw [heq]
      simp [member]
    rw [hmember, trim_append_right hpost, trim_self_iff]
    constructor
    · rw [member, append_assoc]
      exact isBlank_head hhead
    intro c hc
    obtain ⟨init, l, hl⟩ := (eq_nil_or_concat (trim d)).resolve_left hne
    have hlast : (trim d).getLast? = some c := by
      rw [hl, concat_eq_append] at hc ⊢
      rw [member, ← append_assoc, ← append_assoc, getLast?_concat] at hc
      rw [getLast?_concat, hc]
    exact (isBlank_ends_trim d).2 c hlast
  have hsubset : ∀ c ∈ pre ++ trim d, c ∈ d := fun c hc => by
    rw [heq]
    exact mem_append_left _ hc
  rw [resolve?, htrim, nameIn?_member hhead (by simp [hne]) (fun c hc => hd c (hsubset c hc))
    (fun hc => hpt (hsubset _ hc)), trim_append_left hpre, trim_trim]

end GameValues

/-! ### Names of one word and of several -/

namespace GameValueList
variable {d : Text} {vs : List Value}

/-- The name is one word: it has no separator but white space around it. -/
def isOneWord (d : Text) : Bool := !(trim d).any isSeparator

lemma isSeparator_of_mem_key {t : Text} {c : Char} (h : c ∈ key t) : isSeparator c = false := by
  have hmem := (isInfix_trim _).subset h
  simpa [isSeparator] using (mem_filter.mp hmem).2

lemma find?_none_of_separator {k : Text} (h : k.any isSeparator) (vs : List Value) :
    vs.find? (Value.hasKey k) = none := by
  rw [find?_eq_none]
  intro v _ hv
  simp only [Value.hasKey, Bool.and_eq_true, beq_iff_eq] at hv
  obtain ⟨c, hc, hsep⟩ := any_eq_true.mp h
  rw [← hv.2] at hc
  simp [isSeparator_of_mem_key hc] at hsep

lemma plain_of_shown (h : shown d = d) : plain d = d := by
  have hchr : ∀ c ∈ d, 32 ≤ c.toNat := by
    intro c hc
    rw [← h, shown, plain] at hc
    simpa using (mem_filter.mp hc).2
  have hsame : replaceChar '\x15' '§' d = d := by
    refine (map_congr_left fun c hc => if_neg ?_).trans (map_id' d)
    simp only [beq_iff_eq]
    rintro rfl
    exact absurd (hchr _ hc) (by decide)
  rwa [shown, hsame] at h

lemma key_of_oneWord (h : shown d = d) (hword : isOneWord d) : key d = lower (trim d) := by
  obtain ⟨pre, post, hpre, hpost, heq⟩ := exists_padding d
  have hnone : ∀ c ∈ lower (trim d), isSeparator c = false := by
    have := any_isSeparator_lower (trim d)
    rw [isOneWord, Bool.not_eq_true'] at hword
    rw [hword] at this
    simpa using this
  have hdrop (t : Text) : (∀ c ∈ t, isBlank c) → t.filter (fun c => !isSeparator c) = [] := by
    intro ht
    simpa using fun c hc => isSeparator_of_blank (ht c hc)
  have hkp : (lower (trim d)).filter (fun c => !isSeparator c) = lower (trim d) := by
    simpa using hnone
  calc key d = trim ((lower d).filter fun c => !isSeparator c) := by rw [key, h]; rfl
    _ = trim ((pre ++ lower (trim d) ++ post).filter fun c => !isSeparator c) := by
      rw [← lower_padded hpre hpost, ← heq]
    _ = trim (lower (trim d)) := by
      rw [filter_append, filter_append, hdrop pre hpre, hdrop post hpost, hkp, append_nil, nil_append]
    _ = lower (trim d) := by
      exact trim_of_not_blank fun c hc => isBlank_of_separator (hnone c hc)

lemma labelKey_of_oneWord (h : plain d = d) (hword : isOneWord d) : Label.key d = lower (repair (trim d)) := by
  have hbl : ∀ c ∈ repair (trim d), isBlank c = false := by
    rw [isOneWord, Bool.not_eq_true', ← any_isSeparator_repair, any_eq_false] at hword
    exact fun c hc => isBlank_of_separator (by simpa using hword c hc)
  rw [key_eq h, collapse, collapseFrom_of_not_blank hbl]

lemma isSeparator_labelKey (h : plain d = d) (hwords : isOneWord d = false) : (Label.key d).any isSeparator := by
  rw [key_eq h, any_isSeparator_lower, any_isSeparator_collapse, any_isSeparator_repair]
  simpa [isOneWord] using hwords

/-- The name can be written in a reference: it has no colours, no quotes and no parentheses, and is no location name. -/
structure Quotable (d : Text) : Prop where
  plain : shown d = d
  marks : ∀ c ∈ d, c ∉ GameValues.marks
  notLocName : GameValues.isLocName d = false

open GameValues in
lemma lookup_labelKey (hnms : ∀ v ∈ vs, v.name ≠ []) (hpl : plain d = d) :
    (ofJson (Index.of vs).payload).lookup (Label.key d) = if isOneWord d then
      (vs.find? (Value.hasKey (lower (repair (trim d))))).map Value.name else none := by
  rw [ofJson_payload hnms]
  refine (get?_keys_of vs (Label.key d)).trans ?_
  cases hword : isOneWord d with
  | true => rw [labelKey_of_oneWord hpl hword, if_pos rfl]
  | false => rw [find?_none_of_separator (isSeparator_labelKey hpl hword), if_neg Bool.false_ne_true, Option.map_none]

/-- The name with underscores for blanks, as it is written behind a point. -/
def underscored (d : Text) : Text := replaceChar ' ' '_' d

lemma underscored_self (h : ' ' ∉ d) : underscored d = d := by
  refine (map_congr_left fun c hc => if_neg ?_).trans (map_id' d)
  simp only [beq_iff_eq]
  rintro rfl
  exact h hc

lemma mem_underscored {c : Char} (h : c ∈ underscored d) : c = '_' ∨ c ∈ d := by
  obtain ⟨c', hc', rfl⟩ := mem_map.mp h
  split
  · exact .inl rfl
  · exact .inr hc'

lemma plain_underscored (h : plain d = d) : plain (underscored d) = underscored d := by
  obtain ⟨hchr, hsign⟩ := plain_self_iff.mp h
  refine plain_self_iff.mpr ⟨fun c hc => ?_, ?_⟩
  · rcases mem_underscored hc with rfl | hc
    · decide
    · exact hchr c hc
  rw [underscored, replaceChar, ← map_dropLast]
  intro hmem
  rcases mem_underscored hmem with heq | hmem
  · exact absurd heq (by decide)
  · exact hsign hmem

lemma not_mem_of_oneWord_underscored (h : isOneWord (underscored d)) : ' ' ∉ d := by
  intro hmem
  obtain ⟨pre, post, hpre, hpost, heq⟩ := exists_padding (underscored d)
  have hund : '_' ∈ underscored d := mem_map.mpr ⟨' ', hmem, rfl⟩
  rw [heq] at hund
  have hbl : isBlank '_' = false := rfl
  rcases mem_append.mp hund with hund | hund
  · rcases mem_append.mp hund with hund | hund
    · exact absurd (hpre _ hund) (by simp [hbl])
    rw [isOneWord, Bool.not_eq_true', any_eq_false] at h
    exact h '_' hund rfl
  · exact absurd (hpost _ hund) (by simp [hbl])

lemma trim_underscored_ne_nil {v : Value} {k : Text} (hpl : shown v.display = v.display) (h : v.hasKey k) :
    trim (underscored v.display) ≠ [] := by
  intro hnil
  have hone : isOneWord (underscored v.display) := by simp [isOneWord, hnil]
  rw [underscored_self (not_mem_of_oneWord_underscored hone)] at hnil hone
  have hkey := key_of_oneWord hpl hone
  rw [hnil] at hkey
  simp [Value.hasKey, hkey, lower, lowerFrom] at h

open GameValues in
/-- The table that a list is turned into gives the location name of a value for a name of one word, written in quotes or
behind a point, and nothing for a name of several words. A name that becomes a location name when it is written behind a
point stands for itself. -/
theorem resolve?_shown {list : Text} {vs : List Value} (hlist : registered list = .ok vs) {v : Value}
    (hfirst : vs.find? (Value.hasKey (key v.display)) = some v) (hquotable : Quotable v.display) {head : Text}
    (hhead : head ∈ heads) : let found := (ofJson (Index.of vs).payload).resolve?
    (found (called head v.display) = if isOneWord v.display then
        (vs.find? (Value.hasKey (Text.lower (Label.repair (Text.trim v.display))))).map Value.name else none)
    ∧ (isOneWord v.display → Label.repair v.display = v.display → found (called head v.display) = some v.name)
    ∧ ('.' ∉ v.display → found (member head (underscored v.display)) =
      if isLocName (Text.trim (underscored v.display)) then some (Text.trim (underscored v.display))
      else if isOneWord (underscored v.display) then found (called head v.display) else none) := by
  have hnms : ∀ v ∈ vs, v.name ≠ [] := fun v hv => name_of_mem_registered hlist hv
  have hpl := plain_of_shown hquotable.plain
  have hcalled : (ofJson (Index.of vs).payload).resolve? (called head v.display) = if isOneWord v.display then
      (vs.find? (Value.hasKey (lower (repair (trim v.display))))).map Value.name else none := by
    rw [resolve?_called _ hhead hquotable.marks, hquotable.notLocName, if_neg Bool.false_ne_true,
      lookup_labelKey hnms hpl]
  refine ⟨hcalled, ?_, ?_⟩
  · intro hword hrepair
    rw [hcalled, if_pos hword, ← trim_repair, hrepair, ← key_of_oneWord hquotable.plain hword, hfirst, Option.map_some]
  · intro hpt
    have hmark : ∀ c ∈ underscored v.display, c ∉ marks := by
      intro c hc
      rcases mem_underscored hc with rfl | hc
      · decide
      · exact hquotable.marks c hc
    have hpt' : '.' ∉ underscored v.display := fun hc => (mem_underscored hc).elim (by decide) hpt
    have hne : trim (underscored v.display) ≠ [] := trim_underscored_ne_nil hquotable.plain (find?_some hfirst)
    have hpl' : plain (trim (underscored v.display)) = trim (underscored v.display) :=
      plain_self_of_infix (isInfix_trim _) (plain_underscored hpl)
    have hword : isOneWord (trim (underscored v.display)) = isOneWord (underscored v.display) := by
      rw [isOneWord, trim_trim, isOneWord]
    rw [resolve?_member _ hhead hne hmark hpt', lookup_labelKey hnms hpl', hword, trim_trim]
    split
    · rfl
    · split
      next hone =>
        have hsame := underscored_self (not_mem_of_oneWord_underscored hone)
        rw [hsame] at hone ⊢
        rw [hcalled, if_pos hone]
      next => rfl

def listOf (name display : Text) : Text :=
  "\x7b\"values\": [\x7b\"locName\": \"" ++ name ++ "\", \"display\": \"" ++ display ++ "\"\x7d]\x7d"

/-- The names of the values of a list with the names they are shown under. -/
def names? (list : Text) : Option (List (Text × Text)) :=
  (registered list).toOption.map (List.map fun v => (v.name, v.display))

lemma registered_of_names? {list name display : Text} (h : names? list = some [(name, display)]) :
    ∃ v, registered list = .ok [v] ∧ v.name = name ∧ v.display = display := by
  rw [names?] at h
  cases hlist : registered list with
  | error e => simp [hlist, Except.toOption] at h
  | ok vs =>
    simp only [hlist, Except.toOption, Option.map_some, Option.some.injEq] at h
    obtain ⟨v, rfl, hv⟩ := map_eq_singleton_iff.mp h
    cases hv
    exact ⟨v, rfl, rfl, rfl⟩

open GameValues in
/-- A name of one word is found in quotes and behind a point. -/
theorem resolve?_shown_health : ∃ v, registered (listOf "HEALTH" "Здоровье") = .ok [v] ∧
    let found := (ofJson (Index.of [v]).payload).resolve?
    found "gamevalue(\"Здоровье\")" = some ("HEALTH" : Text) ∧ found "gamevalue.Здоровье" = some ("HEALTH" : Text) := by
  have hnms : names? (listOf "HEALTH" "Здоровье") = some [(("HEALTH" : Text), ("Здоровье" : Text))] := by
    decide +kernel
  obtain ⟨v, hlist, hnm, hdisp⟩ := registered_of_names? hnms
  refine ⟨v, hlist, ?_⟩
  have hfirst : [v].find? (Value.hasKey (key v.display)) = some v := by
    refine find?_cons_of_pos ?_
    rw [Value.hasKey, hdisp]
    decide +kernel
  have hquotable : Quotable v.display := by
    rw [hdisp]
    exact ⟨by decide +kernel, forall_iff_forall_mem.mp (by decide +kernel), by decide +kernel⟩
  obtain ⟨-, hcalled, hmember⟩ := resolve?_shown hlist hfirst hquotable (mem_cons_self : ("gamevalue" : Text) ∈ heads)
  rw [hdisp] at hcalled hmember
  have hfnd := hcalled (by decide +kernel) (by decide +kernel)
  rw [hnm] at hfnd
  refine ⟨hfnd, (hmember (by decide +kernel)).trans ?_⟩
  rw [if_neg (by decide +kernel), if_pos (by decide +kernel)]
  exact hfnd

open GameValues in
/-- A name of two words is found neither in quotes nor behind a point. -/
theorem resolve?_misses_two_words : let list := listOf "CURRENT_HEALTH" "Текущее здоровье"
    let found := fun t => ((registered list).map fun vs => (ofJson (Index.of vs).payload).resolve? t).toOption
    names? list = some [(("CURRENT_HEALTH" : Text), ("Текущее здоровье" : Text))]
    ∧ found "gamevalue(\"Текущее здоровье\")" = some none ∧ found "gamevalue.Текущее_здоровье" = some none := by
  decide +kernel

def shownTwice : Text :=
  "\x7b\"slots\":[\x7b\"nbt\":\"LocName:\\\"A\\\"\",\"display\":\"x\"\x7d,"
    ++ "\x7b\"nbt\":\"LocName:\\\"A\\\"\",\"display\":\"y\"\x7d]\x7d"

/-- The clean list has the last of the names only, so the table built from it lacks the first. -/
theorem build_cleaned_loses_name : ((build shownTwice true).bind fun b =>
    (build ((b.cleaned.map (·.1)).getD []) true).map fun b' => b'.table == b.table).toOption = some false := by
  decide +kernel

/-- An apostrophe outside the documents opens a text, so that the document behind it is not found. -/
theorem documents_apostrophe : documents ['\x7b', '\x7d'] = [.obj []] ∧ documents ['\'', '\x7b', '\x7d'] = [] :=
  ⟨rfl, rfl⟩

end GameValueList
end BlockScript
