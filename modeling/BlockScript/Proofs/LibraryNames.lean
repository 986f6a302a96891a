import Mathlib.Algebra.GroupWithZero.Nat
import BlockScript.Api.AliasTable
import BlockScript.Api.EnglishName
import BlockScript.Proofs.CatalogActions
import BlockScript.Proofs.Spelling

/-!
# Names in the library

Every action of the catalog asks for a name in its module, and a name taken there gets a number. The number of a name
only grows, so two numbered names are never the same (`numberedName_inj`). But nobody asks whether the numbered name is
free: an action whose numbered name was asked for before takes the place of the action that is there
(`Draft.Follows.isSome_action?_iff`). The library holds all actions iff this never happens (`ofCatalog_size_iff`).
-/

open List hiding getD
namespace BlockScript
open Table Text
namespace Api

/-! ### Looking into the library -/

namespace Modules
variable {m : Modules} {module module' name name' : Text} {e : Entry}

def action? (m : Modules) (module name : Text) : Option Entry := (get? module m).bind (get? name)

/-- The number of actions in all modules. -/
def size (m : Modules) : Nat := (m.map fun f => f.2.length).sum

lemma action?_eq (m : Modules) (module name : Text) : m.action? module name = get? name (getD module m []) := by
  rw [action?, getD]
  cases get? module m with
  | none => rfl
  | some t => rfl

lemma isSome_action? (m : Modules) (module name : Text) :
    (m.action? module name).isSome = has name (getD module m []) := by
  rw [action?_eq, isSome_get?]

lemma action?_put_self (m : Modules) (module name : Text) (e : Entry) :
    (m.put module name e).action? module name = some e := by
  rw [action?, put, get?_set_self]
  exact get?_set_self _ name e

lemma action?_put_of_ne (h : module' ≠ module ∨ name' ≠ name) :
    (m.put module name e).action? module' name' = m.action? module' name' := by
  rw [action?_eq, action?_eq, put, getD]
  by_cases hmod : module' = module
  · subst hmod
    rw [get?_set_self]
    exact get?_set_of_ne (h.resolve_left fun hne => hne rfl)
  · rw [get?_set_of_ne hmod, ← getD]

lemma isSome_action?_put (h : (m.action? module' name').isSome) :
    ((m.put module name e).action? module' name').isSome := by
  by_cases hsame : module' = module ∧ name' = name
  · obtain ⟨rfl, rfl⟩ := hsame
    rw [action?_put_self]
    rfl
  · rwa [action?_put_of_ne (not_and_or.mp hsame)]

lemma size_put (m : Modules) (module name : Text) (e : Entry) :
    (m.put module name e).size = m.size + if (m.action? module name).isSome then 0 else 1 := by
  rw [isSome_action?, put, size, size]
  induction m with
  | nil => simp [Table.set, getD, get?, has]
  | cons f m ih =>
    obtain ⟨k, t⟩ := f
    by_cases hk : k = module
    · subst hk
      have hfst : getD k ((k, t) :: m) [] = t := by simp [getD, get?]
      rw [hfst, Table.set, if_pos (beq_self_eq_true k), map_cons, map_cons, Table.length_set]
      exact Nat.add_right_comm _ _ _
    have hrest : getD module ((k, t) :: m) [] = getD module m [] := by
      simp [getD, get?, lookup_cons, beq_false_of_ne fun heq => hk heq.symm]
    rw [hrest, Table.set, if_neg (by simpa using hk), map_cons, map_cons, sum_cons, sum_cons]
    omega

end Modules

/-! ### Numbered names -/

lemma numberedName_inj {a b : Text} {m n : Nat} (h : numberedName a m = numberedName b n) : a = b ∧ m = n := by
  have hrev := congrArg List.reverse h
  simp only [numberedName, reverse_append] at hrev
  have hdg : ∀ n, ∀ c ∈ (ofNat n).reverse, c.isDigit := fun n c hc => isDigit_ofNat (mem_reverse.mp hc)
  have hstop u : ∀ c, (("_" : Text).reverse ++ u).head? = some c → c.isDigit = false := by
    intro c hc
    obtain rfl : '_' = c := by simpa using hc
    decide
  obtain ⟨hnumber, hnm⟩ := append_inj_of_head (hdg m) (hdg n) (hstop _) (hstop _) hrev
  exact ⟨reverse_injective (append_cancel_left hnm),
    ofNat_injective (reverse_injective hnumber)⟩

lemma numberedName_ne (name : Text) (n : Nat) : numberedName name n ≠ name := by
  intro h
  have hlen := congrArg List.length h
  simp [numberedName] at hlen

namespace Draft
variable {d : Draft} {r : Request} {rs : List Request}

def nameFor (d : Draft) (r : Request) : Text := (d.free r.module r.name).1

def numbered (d : Draft) (r : Request) : Nat := d.taken.getD (r.module ++ "." ++ r.name) 0

lemma free_of_taken (h : (d.modules.action? r.module r.name).isSome) : d.free r.module r.name
      = (numberedName r.name (d.numbered r + 1), d.taken.set (r.module ++ "." ++ r.name) (d.numbered r + 1)) := by
  rw [Modules.isSome_action?] at h
  rw [free, if_pos h]
  rfl

lemma free_of_free (h : (d.modules.action? r.module r.name).isSome = false) :
    d.free r.module r.name = (r.name, d.taken) := by
  rw [Modules.isSome_action?] at h
  rw [free, if_neg (by rw [h]; exact Bool.false_ne_true)]

lemma modules_enter (d : Draft) (r : Request) :
    (d.enter r).modules = d.modules.put r.module (d.nameFor r) (r.entry (d.nameFor r)) := rfl

lemma taken_enter (d : Draft) (r : Request) : (d.enter r).taken = (d.free r.module r.name).2 := rfl

lemma nameFor_eq_iff : d.nameFor r = r.name ↔ (d.modules.action? r.module r.name).isSome = false := by
  cases h : (d.modules.action? r.module r.name).isSome with
  | true =>
    rw [nameFor, free_of_taken h]
    simpa using numberedName_ne r.name (d.numbered r + 1)
  | false => simp [nameFor, free_of_free h]

lemma numbered_le_enter (d : Draft) (r q : Request) : d.numbered q ≤ (d.enter r).numbered q := by
  rw [numbered, numbered, taken_enter]
  cases h : (d.modules.action? r.module r.name).isSome with
  | false => exact Nat.le_of_eq (by rw [free_of_free h])
  | true =>
    rw [free_of_taken h]
    by_cases hpath : q.module ++ "." ++ q.name = r.module ++ "." ++ r.name
    · simp only [getD, hpath, get?_set_self]
      exact Nat.le_succ _
    · simp only [getD, get?_set_of_ne hpath, Nat.le_refl]

/-! ### The library of some actions -/

/-- What the library of some actions holds: every name asked for, and beside these only numbered names. -/
structure Follows (d : Draft) (rs : List Request) : Prop where
  asked : ∀ r ∈ rs, (d.modules.action? r.module r.name).isSome
  held : ∀ module name, (d.modules.action? module name).isSome → ∃ r ∈ rs, r.module = module
    ∧ (r.name = name ∨ ∃ n ≤ d.numbered r, numberedName r.name n = name)

lemma follows_nil : Follows {} [] where
  asked := by simp
  held := by simp [Modules.action?, get?]

lemma Follows.enter (h : d.Follows rs) (r : Request) : (d.enter r).Follows (rs ++ [r]) where
  asked := by
    intro q hq
    rcases mem_append.mp hq with hq | hq
    · exact Modules.isSome_action?_put (h.asked q hq)
    obtain rfl := mem_singleton.mp hq
    rw [modules_enter]
    by_cases hnm : d.nameFor q = q.name
    · rw [hnm, Modules.action?_put_self]
      rfl
    refine Modules.isSome_action?_put ?_
    rwa [nameFor_eq_iff, Bool.not_eq_false] at hnm
  held := by
    intro module name hsome
    by_cases hsame : module = r.module ∧ name = d.nameFor r
    · obtain ⟨rfl, rfl⟩ := hsame
      refine ⟨r, by simp, rfl, ?_⟩
      cases htk : (d.modules.action? r.module r.name).isSome with
      | false => exact .inl (nameFor_eq_iff.mpr htk).symm
      | true =>
        refine .inr ⟨d.numbered r + 1, ?_, ?_⟩
        · simp [numbered, taken_enter, free_of_taken htk, getD, get?_set_self]
        · rw [nameFor, free_of_taken htk]
    rw [modules_enter, Modules.action?_put_of_ne (not_and_or.mp hsame)] at hsome
    obtain ⟨q, hq, hmod, hnm⟩ := h.held module name hsome
    refine ⟨q, by simp [hq], hmod, hnm.imp id ?_⟩
    rintro ⟨n, hn, rfl⟩
    exact ⟨n, Nat.le_trans hn (numbered_le_enter d r q), rfl⟩

def of (rs : List Request) : Draft := rs.foldl enter {}

@[simp] lemma of_append (rs : List Request) (r : Request) : of (rs ++ [r]) = (of rs).enter r := by simp [of]

lemma follows_of (rs : List Request) : (of rs).Follows rs := by
  induction rs using List.reverseRecOn with
  | nil => exact follows_nil
  | append_singleton rs r ih =>
    rw [of_append]
    exact ih.enter r

/-- The name that an action gets is taken iff it is numbered and was asked for before. -/
theorem Follows.isSome_action?_iff (h : d.Follows rs) : (d.modules.action? r.module (d.nameFor r)).isSome
    ↔ d.nameFor r ≠ r.name ∧ ∃ q ∈ rs, q.module = r.module ∧ q.name = d.nameFor r := by
  constructor
  · intro hsome
    have hnum : d.nameFor r ≠ r.name := by
      intro heq
      rw [heq, nameFor_eq_iff.mp heq] at hsome
      exact Bool.false_ne_true hsome
    obtain ⟨q, hq, hmod, hnm | ⟨n, hn, hnm⟩⟩ := h.held _ _ hsome
    · exact ⟨hnum, q, hq, hmod, hnm⟩
    -- two numbered names are the same only if the numbers are, but the new number is larger than all before
    exfalso
    rw [Ne, nameFor_eq_iff, Bool.not_eq_false] at hnum
    rw [nameFor, free_of_taken hnum] at hnm
    obtain ⟨heq, rfl⟩ := numberedName_inj hnm
    have hsame : d.numbered q = d.numbered r := by rw [numbered, numbered, hmod, heq]
    rw [hsame] at hn
    exact Nat.not_succ_le_self _ hn
  rintro ⟨-, q, hq, hmod, hnm⟩
  rw [← hmod, ← hnm]
  exact h.asked q hq

end Draft

/-! ### Actions lost -/

section Lost
variable {rs before after : List Request} {r : Request}

/-- The name that an action gets behind others. -/
def nameBehind (before : List Request) (r : Request) : Text := (Draft.of before).nameFor r

/-- An action takes the place of another one: its name is numbered, and an action before it asked for the numbered name
in the same module. -/
def Overwrites (before : List Request) (r : Request) : Prop :=
  nameBehind before r ≠ r.name ∧ ∃ q ∈ before, q.module = r.module ∧ q.name = nameBehind before r

lemma isSome_action?_iff_overwrites (before : List Request) (r : Request) :
    ((Draft.of before).modules.action? r.module (nameBehind before r)).isSome ↔ Overwrites before r :=
  (Draft.follows_of before).isSome_action?_iff

lemma size_of_append (rs : List Request) (r : Request) : (Draft.of (rs ++ [r])).modules.size
      = (Draft.of rs).modules.size
        + if ((Draft.of rs).modules.action? r.module (nameBehind rs r)).isSome then 0 else 1 := by
  rw [Draft.of_append, Draft.modules_enter, Modules.size_put]
  rfl

lemma size_le_length (rs : List Request) : (Draft.of rs).modules.size ≤ rs.length := by
  induction rs using List.reverseRecOn with
  | nil => exact Nat.le_refl 0
  | append_singleton rs r ih =>
    rw [size_of_append, length_append, length_singleton]
    split <;> omega

/-- No action of a list takes the place of another one. -/
def NoneOverwrites (rs : List Request) : Prop :=
  ∀ before r after, rs = before ++ r :: after → ¬ Overwrites before r

lemma noneOverwrites_append (rs : List Request) (r : Request) :
    NoneOverwrites (rs ++ [r]) ↔ NoneOverwrites rs ∧ ¬ Overwrites rs r := by
  constructor
  · intro h
    refine ⟨fun before q after hrs => ?_, h rs r [] rfl⟩
    exact h before q (after ++ [r]) (by rw [hrs, append_assoc, cons_append])
  rintro ⟨hrs, hr⟩ before q after heq
  rcases eq_nil_or_concat after with rfl | ⟨after, last, rfl⟩
  · obtain ⟨rfl, hlast⟩ := append_inj' heq rfl
    obtain rfl := singleton_inj.mp hlast
    exact hr
  rw [concat_eq_append, ← cons_append, ← append_assoc] at heq
  exact hrs before q after (append_inj_left' heq rfl)

lemma size_eq_length_iff (rs : List Request) : (Draft.of rs).modules.size = rs.length ↔ NoneOverwrites rs := by
  induction rs using List.reverseRecOn with
  | nil => simp [Draft.of, Modules.size, NoneOverwrites]
  | append_singleton rs r ih =>
    have hle := size_le_length rs
    rw [size_of_append, noneOverwrites_append, ← ih, ← isSome_action?_iff_overwrites, length_append, length_singleton]
    split
    next hsome => simp only [hsome, not_true_eq_false, and_false, iff_false]; omega
    next hnone => simp [hnone]

/-- A later action of the same module gets the name of an action only if it takes its place. -/
lemma overwrites_of_nameBehind_eq {mid : List Request} {q : Request} (hmod : q.module = r.module)
    (hnm : nameBehind (before ++ r :: mid) q = nameBehind before r) : Overwrites (before ++ r :: mid) q := by
  have hkept : ((Draft.of (before ++ r :: mid)).modules.action? r.module (nameBehind before r)).isSome := by
    clear hnm
    induction mid using List.reverseRecOn with
    | nil =>
      rw [Draft.of_append]
      exact Option.isSome_of_eq_some (Modules.action?_put_self _ _ _ _)
    | append_singleton mid p ih =>
      rw [← cons_append, ← append_assoc, Draft.of_append]
      exact Modules.isSome_action?_put ih
  rw [← isSome_action?_iff_overwrites, hmod, hnm]
  exact hkept

lemma action?_of_kept (h : ∀ mid q rest, after = mid ++ q :: rest → q.module = r.module →
      nameBehind (before ++ r :: mid) q ≠ nameBehind before r) :
    (Draft.of (before ++ r :: after)).modules.action? r.module (nameBehind before r)
      = some (r.entry (nameBehind before r)) := by
  induction after using List.reverseRecOn with
  | nil =>
    rw [Draft.of_append]
    exact Modules.action?_put_self _ _ _ _
  | append_singleton after q ih =>
    rw [← cons_append, ← append_assoc, Draft.of_append, Draft.modules_enter, Modules.action?_put_of_ne]
    · refine ih fun mid p rest haft => ?_
      exact h mid p (rest ++ [q]) (by rw [haft, append_assoc, cons_append])
    by_cases hmod : r.module = q.module
    · exact .inr (h after q [] rfl hmod.symm).symm
    · exact .inl hmod

end Lost

/-! ### Catalogs -/

/-- No action asks for a numbered form of the name that another one asks for. -/
def NamesApart (rs : List Request) : Prop :=
  ∀ q ∈ rs, ∀ r ∈ rs, q.module = r.module → ∀ n, q.name ≠ numberedName r.name n

lemma noneOverwrites_of_namesApart {rs : List Request} (h : NamesApart rs) : NoneOverwrites rs := by
  rintro before r after rfl ⟨hnum, q, hq, hmod, hnm⟩
  have htk : ((Draft.of before).modules.action? r.module r.name).isSome := by
    rwa [nameBehind, Ne, Draft.nameFor_eq_iff, Bool.not_eq_false] at hnum
  rw [nameBehind, Draft.nameFor, Draft.free_of_taken htk] at hnm
  exact h q (by simp [hq]) r (by simp) hmod _ hnm

/-- A later action takes the place of an action: it gets the same name in the same module. -/
def OverwrittenBy (before : List Request) (r : Request) (after : List Request) (q : Request) : Prop :=
  ∃ mid rest, after = mid ++ q :: rest ∧ q.module = r.module
    ∧ nameBehind (before ++ r :: mid) q = nameBehind before r ∧ Overwrites (before ++ r :: mid) q

lemma action?_or_overwrittenBy (before : List Request) (r : Request) (after : List Request) :
    (Draft.of (before ++ r :: after)).modules.action? r.module (nameBehind before r)
      = some (r.entry (nameBehind before r)) ∨ ∃ q, OverwrittenBy before r after q := by
  by_cases h : ∃ mid q rest, after = mid ++ q :: rest ∧ q.module = r.module
      ∧ nameBehind (before ++ r :: mid) q = nameBehind before r
  · obtain ⟨mid, q, rest, haft, hmod, hnm⟩ := h
    exact .inr ⟨q, mid, rest, haft, hmod, hnm, overwrites_of_nameBehind_eq hmod hnm⟩
  refine .inl (action?_of_kept fun mid q rest haft hmod hnm => ?_)
  exact h ⟨mid, q, rest, haft, hmod, hnm⟩

variable {names : Json} {actions : List Json}

lemma foldlM_add_ok_iff {d d' : Draft} : actions.foldlM (Draft.add names) d = .ok d'
      ↔ ∃ rs, List.Forall₂ (fun a r => Request.ofAction names a = .ok r) actions rs ∧ d' = rs.foldl Draft.enter d := by
  induction actions generalizing d with
  | nil =>
    constructor
    · intro h
      exact ⟨[], .nil, (Except.ok.inj h).symm⟩
    rintro ⟨_, ⟨⟩, rfl⟩
    rfl
  | cons a actions ih =>
    rw [foldlM_cons, Draft.add]
    constructor
    · intro h
      obtain ⟨d₁, hd₁, h⟩ := bind_eq_ok.mp h
      obtain ⟨r, hr, hd₁⟩ := bind_eq_ok.mp hd₁
      cases hd₁
      obtain ⟨rs, hrs, rfl⟩ := ih.mp h
      exact ⟨r :: rs, .cons hr hrs, rfl⟩
    rintro ⟨_, hrs, rfl⟩
    cases hrs with
    | cons hr hrs =>
      rw [hr]
      exact ih.mpr ⟨_, hrs, rfl⟩

lemma ofCatalog_ok_iff {m : Modules} : ofCatalog (.arr actions) names = .ok m
      ↔ ∃ rs, List.Forall₂ (fun a r => Request.ofAction (names.orElse (.obj [])) a = .ok r) actions rs
        ∧ m = (Draft.of rs).modules := by
  constructor
  · intro h
    obtain ⟨_, hloop, h⟩ := bind_eq_ok.mp h
    cases hloop
    obtain ⟨d, hd, h⟩ := bind_eq_ok.mp h
    obtain ⟨rs, hrs, rfl⟩ := foldlM_add_ok_iff.mp hd
    exact ⟨rs, hrs, (Except.ok.inj h).symm⟩
  rintro ⟨rs, hrs, rfl⟩
  exact bind_eq_ok.mpr ⟨_, rfl, bind_eq_ok.mpr ⟨_, foldlM_add_ok_iff.mpr ⟨rs, hrs, rfl⟩, rfl⟩⟩

lemma ofCatalog_of_action (hacts : ∀ a ∈ actions, isAction a)
    (hnms : isNames names) : ∃ m, ofCatalog (.arr actions) names = .ok m := by
  have hgiv : isNames (names.orElse (.obj [])) := orElse_of (.inr hnms) rfl
  obtain ⟨rs, -, hrs⟩ := Gives.forall₂_mapM
    fun a ha => by
      obtain ⟨r, hr, -⟩ := gives_request hgiv (hacts a ha)
      exact ⟨r, hr, hr⟩
  exact ⟨_, ofCatalog_ok_iff.mpr ⟨rs, hrs, rfl⟩⟩

def Asks (names action : Json) (r : Request) : Prop :=
  Request.ofAction names action = .ok r ∧ ∀ name, (r.entry name).Describes action

/-- A catalog of actions and a table of names give a library. It has as many actions as the catalog iff none
takes the place of another one, in particular if no action asks for a numbered form of another one's name. Each action
is found there under the name it got, with its own id, labels and slots, unless a later one took its place. -/
theorem ofCatalog_size_iff (actions : List Json) (names : Json) :
    ((∀ a ∈ actions, isAction a) → isNames names → ∃ m, ofCatalog (.arr actions) names = .ok m)
    ∧ ∀ m, ofCatalog (.arr actions) names = .ok m →
      ∃ rs, List.Forall₂ (Asks (names.orElse (.obj []))) actions rs
        ∧ (m.size = actions.length ↔ NoneOverwrites rs)
        ∧ (NamesApart rs → NoneOverwrites rs)
        ∧ ∀ before r after, rs = before ++ r :: after →
            m.action? r.module (nameBehind before r) = some (r.entry (nameBehind before r))
              ∨ ∃ q, OverwrittenBy before r after q := by
  refine ⟨ofCatalog_of_action, fun m hm => ?_⟩
  obtain ⟨rs, hrs, rfl⟩ := ofCatalog_ok_iff.mp hm
  refine ⟨rs, hrs.imp fun a r hr => ⟨hr, describes_of_request hr⟩, ?_, noneOverwrites_of_namesApart, ?_⟩
  · rw [hrs.length_eq]
    exact size_eq_length_iff rs
  · rintro before r after rfl
    exact action?_or_overwrittenBy before r after

def signed (lines : List String) : List Json :=
  lines.map fun t => .obj [("id", .str t), ("signs", .texts ["x", t])]

/-- A name that comes up three times is numbered twice. -/
theorem ofCatalog_size_iff_repeated : (∀ a ∈ signed ["foo", "foo", "foo"], isAction a) ∧ isNames (.obj []) ∧
    ∃ m rs, ofCatalog (.arr (signed ["foo", "foo", "foo"])) (.obj []) = .ok m
      ∧ List.Forall₂ (Asks (.obj [])) (signed ["foo", "foo", "foo"]) rs ∧ (m.size = 3 ↔ NoneOverwrites rs) := by
  have hacts : ∀ a ∈ signed ["foo", "foo", "foo"], isAction a := by decide
  have hnms : isNames (.obj []) := rfl
  obtain ⟨hok, hlibrary⟩ := ofCatalog_size_iff (signed ["foo", "foo", "foo"]) (.obj [])
  obtain ⟨m, hm⟩ := hok hacts hnms
  obtain ⟨rs, hrs, hsize, -⟩ := hlibrary m hm
  exact ⟨hacts, hnms, m, rs, hm, hrs, hsize⟩

/-- A name is numbered although its numbered form was asked for, and an action is lost. -/
theorem ofCatalog_loses_an_action : ((ofCatalog (.arr (signed ["foo", "foo 1", "foo"])) (.obj [])).map fun m =>
      (m.size, (m.action? "misc" "foo_1").map (·.sign2))).toOption = some (2, some "foo".toList) := by
  decide

def separated : Json := .obj [("signs", .texts ["x", "foo"]),
  ("enums", .arr [.obj [("name", .str "раздел"), ("slot", .int 1)], .obj [("name", .str "раздел"), ("slot", .int 2)]])]

/-- Both switches of the action get the same name, where a parameter would get a number. -/
theorem ofCatalog_repeats_choice : ((ofCatalog (.arr [separated]) (.obj [])).map fun m =>
    (m.action? "misc" "foo").map fun e => e.choices.map (·.name)).toOption
      = some (some (texts ["separator", "separator"])) := by
  decide +kernel

def labelled (es : List (String × String)) : Json :=
  .arr (es.map fun e => .obj [("id", .str e.1), ("signs", .texts ["x", e.2])])

end Api
namespace EnglishName
open Api (numberedName)

lemma mem_numberFrom {seen : List (Text × Text)} {as : List Named} {p : Named × Text} (h : p ∈ numberFrom seen as) :
    ∃ n, seen.count (p.1.module, p.1.stem) < n ∧ p.2 = if n == 1 then p.1.stem else numberedName p.1.stem n := by
  induction as generalizing seen with
  | nil => contradiction
  | cons a as ih =>
    rcases mem_cons.mp h with rfl | h
    · exact ⟨_, Nat.lt_succ_self _, rfl⟩
    obtain ⟨n, hn, hnm⟩ := ih h
    exact ⟨n, Nat.lt_of_le_of_lt count_le_count_cons hn, hnm⟩

/-- Two actions of a module get the same name only if one asks for a numbered form of the other one's name. -/
theorem numberFrom_apart (seen : List (Text × Text)) (as : List Named) : (numberFrom seen as).Pairwise fun p q =>
    p.1.module = q.1.module → p.2 = q.2 → ∃ n, p.1.stem = numberedName q.1.stem n ∨ q.1.stem
      = numberedName p.1.stem n := by
  induction as generalizing seen with
  | nil => exact .nil
  | cons a as ih =>
    refine pairwise_cons.mpr ⟨fun q hq hmod hnm => ?_, ih _⟩
    obtain ⟨n, hn, hq⟩ := mem_numberFrom hq
    -- a later action with the same stem has a greater number
    have hlt : a.stem = q.1.stem → seen.count (a.module, a.stem) + 1 < n := by
      intro hstem
      rwa [← hstem, ← hmod, count_cons_self] at hn
    simp only [hq, beq_iff_eq] at hnm
    split at hnm <;> split at hnm
    next => exact absurd (hlt hnm) (by omega)
    next => exact ⟨n, .inl hnm⟩
    next => exact ⟨_, .inr hnm.symm⟩
    next =>
      obtain ⟨hstem, hnumber⟩ := Api.numberedName_inj hnm
      exact absurd (hlt hstem) (by omega)

/-- A numbered name is the name of another action. -/
theorem ofCatalog_repeats_name : ((ofCatalog (Api.labelled [("1", "a"), ("2", "a"), ("3", "a 2")])).map fun t =>
    (t.fields?.getD []).map fun e => (e.2.field? "name").bind Json.text?).toOption
      = some ((texts ["a", "a_2", "a_2"]).map some) := by
  decide +kernel

end EnglishName

/-- Of three actions with one name and ids that begin alike, two are in the table. -/
theorem AliasTable.ofCatalog_drops_an_action :
    ((ofCatalog (Api.labelled [("12345678a", "t"), ("12345678b", "t"), ("12345678c", "t")])).map fun t =>
      (t.fields?.getD []).map fun g => (g.2.fields?.getD []).map (·.1)).toOption
        = some [texts ["t", "t_12345678"]] := by
  decide +kernel

end BlockScript
