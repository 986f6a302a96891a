import BlockScript.Proofs.Nested

/-!
# What a command says

A command lists the blocks of an event. Names and arguments stand in quotes, but a quote inside them is not marked in
any way, so that the end of a text is seen only if no quote in it stands before a blank or at its end (`isQuotable`).
Where the texts are such, a command says which blocks are placed, under which names and with which arguments
(`Data.commands_eq_iff`), and nothing else: whether a condition is negated is in the plan and not in the command
(`Data.exists_negation_lost`).
-/

open List
namespace BlockScript
open Script (Settings)
namespace Command

/-! ### Words -/

def menuOf (name : Text) : Text :=
  match Text.cutAt? "||" name with
  | some (menu, _) => menu
  | none => name

/-- What a command says about an entry: its block, the name clicked, and its arguments. -/
def seen (e : Entry) : Text × Text × Text := (e.block, menuOf e.label, e.args.getD [])

/-- The end of the text is seen where it stands in quotes: a quote in it is followed by something else than a blank. -/
def isQuotable : Text → Bool
  | [] => true
  | c :: rest => (c != '"' || rest.head?.any (· != ' ')) && isQuotable rest

/-- The texts of an entry are told apart in a command. -/
def isClear (e : Entry) : Bool := !e.block.contains ' ' && isQuotable (menuOf e.label) && isQuotable (e.args.getD [])

def argsWord (args : Text) : Text := if args.isEmpty then "no" else quoted args

def textOf (e : Entry) : Text :=
  ' ' :: (e.block ++ ' ' :: '"' :: (menuOf e.label ++ '"' :: ' ' :: argsWord (e.args.getD [])))

lemma flatMap_words (e : Entry) : (Block.ofEntry e).words.flatMap ((" " : Text) ++ ·) = textOf e := by
  have hwords : (Block.ofEntry e).words = [e.block, quoted (menuOf e.label), argsWord (e.args.getD [])] := rfl
  simp [hwords, textOf, quoted]

lemma build_eq (name : Text) (es : List Entry) : build "diamond_block" name (es.map Block.ofEntry)
    = "/placeadvanced diamond_block \"" ++ (name ++ '"' :: (" no" ++ es.flatMap textOf)) := by
  have hblks : ((es.map Block.ofEntry).flatMap Block.words).flatMap ((" " : Text) ++ ·) = es.flatMap textOf := by
    rw [flatMap_map, flatMap_assoc]
    simp only [flatMap_words]
  rw [build, cons_append, Text.joinWith_cons, flatMap_append, hblks]
  simp [quoted]

/-! ### Reading a command -/

variable {t t' u r r' name name' cmd : Text} {e e' h : Entry} {es es' : List Entry}

def AtEnd (r : Text) : Prop := ∀ c, r.head? = some c → c = ' '

lemma atEnd_flatMap (es : List Entry) : AtEnd (es.flatMap textOf) := by
  cases es with
  | nil => nofun
  | cons e es =>
    rintro c hc
    exact (Option.some.inj hc).symm

lemma isQuotable_append (h : isQuotable (t ++ '"' :: u)) : ∃ c v, u = c :: v ∧ c ≠ ' ' := by
  induction t with
  | nil =>
    cases u with
    | nil => contradiction
    | cons c v => exact ⟨c, v, rfl, by simpa using (Bool.and_eq_true_iff.mp h).1⟩
  | cons d t ih => exact ih (Bool.and_eq_true_iff.mp h).2

lemma quoted_inj (ht : isQuotable t) (ht' : isQuotable t') (hr : AtEnd r) (hr' : AtEnd r')
    (h : t ++ '"' :: r = t' ++ '"' :: r') : t = t' ∧ r = r' := by
  -- of two different texts the longer one would go on behind a quote with a blank
  have hlong {a b x y : Text} {v : Text} : isQuotable b → AtEnd x → b = a ++ v → '"' :: x = v ++ '"' :: y → v = [] := by
    intro hb hx hab hxy
    cases v with
    | nil => rfl
    | cons c w =>
      obtain ⟨rfl, rfl⟩ := cons.inj hxy
      obtain ⟨d, w', rfl, hd⟩ := isQuotable_append (hab ▸ hb)
      exact absurd (hx d rfl) hd
  rcases append_eq_append_iff.mp h with ⟨v, hv, hv'⟩ | ⟨v, hv, hv'⟩
  · obtain rfl := hlong ht' hr hv hv'
    rw [append_nil] at hv
    exact ⟨hv.symm, (cons.inj hv').2⟩
  obtain rfl := hlong ht hr' hv hv'
  rw [append_nil] at hv
  exact ⟨hv, (cons.inj hv').2.symm⟩

lemma argsWord_inj (ht : isQuotable t) (ht' : isQuotable t') (hr : AtEnd r) (hr' : AtEnd r')
    (h : argsWord t ++ r = argsWord t' ++ r') : t = t' ∧ r = r' := by
  have hfill : ∀ c w, argsWord (c :: w) = '"' :: (c :: w ++ ['"']) := fun _ _ => by simp [argsWord, quoted]
  cases t with
  | nil =>
    cases t' with
    | nil => exact ⟨rfl, append_cancel_left h⟩
    | cons c w =>
      exact absurd (cons.inj h).1 (by decide)
  | cons c w =>
    cases t' with
    | nil =>
      exact absurd (cons.inj h).1 (by decide)
    | cons d w' =>
      rw [hfill, hfill] at h
      exact quoted_inj ht ht' hr hr' (by simpa using h)

lemma textOf_inj (he : isClear e) (he' : isClear e') (hr : AtEnd r) (hr' : AtEnd r')
    (h : textOf e ++ r = textOf e' ++ r') : seen e = seen e' ∧ r = r' := by
  simp only [isClear, Bool.and_eq_true, Bool.not_eq_true', contains_eq_mem, decide_eq_false_iff_not] at he he'
  obtain ⟨⟨hbl, hmenu⟩, hargs⟩ := he
  obtain ⟨⟨hbl', hmenu'⟩, hargs'⟩ := he'
  have hne : ∀ {w : Text}, ' ' ∉ w → ∀ c ∈ w, (c != ' ') = true := fun hw c hc => by
    rw [bne_iff_ne]
    rintro rfl
    exact hw hc
  simp only [textOf, cons_append, append_assoc, List.cons.injEq, true_and] at h
  obtain ⟨hblk, h⟩ := Text.append_inj_of_head (hne hbl) (hne hbl') (by simp) (by simp) h
  obtain ⟨hname, h⟩ := quoted_inj hmenu hmenu' (by rintro c hc; exact (Option.some.inj hc).symm)
    (by rintro c hc; exact (Option.some.inj hc).symm) (cons.inj (cons.inj h).2).2
  obtain ⟨hsame, hrest⟩ := argsWord_inj hargs hargs' hr hr' (cons.inj h).2
  exact ⟨by rw [seen, seen, hblk, hname, hsame], hrest⟩

lemma map_seen_of_flatMap (hes : ∀ e ∈ es, isClear e) (hes' : ∀ e ∈ es', isClear e)
    (h : es.flatMap textOf = es'.flatMap textOf) : es.map seen = es'.map seen := by
  induction es generalizing es' with
  | nil =>
    cases es' with
    | nil => rfl
    | cons e' es' => exact absurd h (by simp [textOf])
  | cons e es ih =>
    cases es' with
    | nil => exact absurd h (by simp [textOf])
    | cons e' es' =>
      obtain ⟨hseen, hrest⟩ := textOf_inj (hes e (by simp)) (hes' e' (by simp)) (atEnd_flatMap es) (atEnd_flatMap es') h
      rw [map_cons, map_cons, hseen, ih (fun a ha => hes a (by simp [ha])) (fun a ha => hes' a (by simp [ha])) hrest]

lemma textOf_congr (h : seen e = seen e') : textOf e = textOf e' := by
  obtain ⟨hblk, hrest⟩ := Prod.mk.inj h
  obtain ⟨hmenu, hargs⟩ := Prod.mk.inj hrest
  rw [textOf, textOf, hblk, hmenu, hargs]

lemma flatMap_textOf_congr (h : es.map seen = es'.map seen) : es.flatMap textOf = es'.flatMap textOf := by
  induction es generalizing es' with
  | nil =>
    cases es' with
    | nil => rfl
    | cons e' es' => contradiction
  | cons e es ih =>
    cases es' with
    | nil => contradiction
    | cons e' es' =>
      obtain ⟨hhead, htail⟩ := cons.inj h
      rw [flatMap_cons, flatMap_cons, textOf_congr hhead, ih htail]

/-- Two events have the same command just if they have the same name and the same is seen of their blocks. -/
lemma build_eq_iff (hname : isQuotable name) (hname' : isQuotable name') (hes : ∀ e ∈ es, isClear e)
    (hes' : ∀ e ∈ es', isClear e) : build "diamond_block" name (es.map Block.ofEntry)
      = build "diamond_block" name' (es'.map Block.ofEntry) ↔ name = name' ∧ es.map seen = es'.map seen := by
  rw [build_eq, build_eq]
  constructor
  · intro h
    obtain ⟨hsame, hrest⟩ := quoted_inj hname hname' (by rintro c hc; exact (Option.some.inj hc).symm)
      (by rintro c hc; exact (Option.some.inj hc).symm) (append_cancel_left h)
    exact ⟨hsame, map_seen_of_flatMap hes hes' (append_cancel_left hrest)⟩
  rintro ⟨rfl, h⟩
  rw [flatMap_textOf_congr h]

/-! ### Commands of plans -/

lemma ofEntries_of_no_events (hes : ∀ e ∈ es, isEvent e = false) : ofEntries es = .ok [] := by
  induction es with
  | nil => rfl
  | cons e es ih =>
    rw [ofEntries, if_neg (by simp [hes e (by simp)]), ih fun a ha => hes a (by simp [ha])]

lemma eq_build_of_ofEntries (hes : ∀ e ∈ es, isEvent e = false)
    (h : ofEntries (.ofBlock "diamond_block" name "no" :: es) = .ok [cmd]) :
    cmd = build "diamond_block" name (es.map Block.ofEntry) := by
  have hrow : es.takeWhile (!isEvent ·) = es := takeWhile_eq_self_iff.mpr fun e he => by simp [hes e he]
  have hev : isEvent (.ofBlock "diamond_block" name "no") = true := by simp [isEvent, Entry.ofBlock]
  rw [ofEntries, if_pos hev, hrow, bind_eq_ok] at h
  obtain ⟨cmd₁, hchk, h⟩ := h
  rw [ofEntries_of_no_events hes] at h
  obtain ⟨rfl, -⟩ := cons.inj (Except.ok.inj h)
  rw [checked] at hchk
  split at hchk
  · contradiction
  · exact (Except.ok.inj hchk).symm

end Command
namespace Data
open Command
variable {cfg cfg' : Settings} {d d' : Data} {files files' : Files} {entry entry' : Path} {shown shown' : Text}
  {name name' cmd cmd' : Text} {es es' : List Entry}

lemma result_commands (hes : (d.compile cfg files entry shown).result = .ok es) :
    (d.commands cfg files entry shown).result = ofEntries es := by
  rw [commands, Script.Compile.result_bind, hes]
  exact Script.Compile.result_ofExcept _

/-- Two scripts that each are one event have the same command iff their events have the same name and their
actions have, one by one, the same blocks, names clicked and arguments. -/
theorem commands_eq_iff
    (hes : (d.compile cfg files entry shown).result = .ok (.ofBlock "diamond_block" name "no" :: es))
    (hes' : (d'.compile cfg' files' entry' shown').result = .ok (.ofBlock "diamond_block" name' "no" :: es'))
    (hrow : ∀ e ∈ es, isEvent e = false) (hrow' : ∀ e ∈ es', isEvent e = false)
    (hname : isQuotable name) (hname' : isQuotable name') (hclear : ∀ e ∈ es, isClear e)
      (hclear' : ∀ e ∈ es', isClear e)
    (hcmd : (d.commands cfg files entry shown).result = .ok [cmd])
    (hcmd' : (d'.commands cfg' files' entry' shown').result = .ok [cmd']) :
    cmd = cmd' ↔ name = name' ∧ es.map seen = es'.map seen := by
  rw [result_commands hes] at hcmd
  rw [result_commands hes'] at hcmd'
  rw [eq_build_of_ofEntries hrow hcmd, eq_build_of_ofEntries hrow' hcmd']
  exact build_eq_iff hname hname' hclear hclear'

/-! ### A negated condition -/

/-- The small library with a condition, an action at a place and one with a text. -/
def walkSample : Data :=
  { sample with
    api := .value (.obj [
      sampleSelect [],
      ("if_player", .obj [("c", sampleSpec "Если" "c" [])]),
      ("a", .obj [("go", sampleSpec "Игра" "go" [sampleParam "loc" "LOCATION" 9]),
        ("say", sampleSpec "Игра" "say" [sampleParam "text" "TEXT" 9])])])
    blocks := some "[(select) Выбрать объект][(game) Игра][(if) Если]" }

/-- An event with a condition, negated or not, and an action at a place. -/
def walkEvent (negated : Bool) : Files :=
  script ("event(x) \x7b\n" ++ (if negated then "NOT " else "") ++ "if_player.c()\na.go(\"home\")\n\x7d\n")

def walkRow (negated : Bool) : List Entry :=
  [⟨"if", some "c||c", some "no", negated⟩,
    .ofBlock "game" "go||go" "slot(9)=item(minecraft:paper, name=\"home\")"]

def walkCommand : Text := build "diamond_block" "x" ((walkRow false).map Block.ofEntry)

lemma compile_walkEvent (negated : Bool) :
    (walkSample.plan (walkEvent negated)).result
      = .ok (.ofBlock "diamond_block" "x" "no" :: walkRow negated) := by
  apply ok_of_toOption
  revert negated
  decide +kernel

lemma commands_walkEvent (negated : Bool) :
    (walkSample.commands (.ofVariables []) (walkEvent negated) (.ofText "/main") "main").result = .ok
      [walkCommand] := by
  rw [result_commands (compile_walkEvent negated)]
  cases negated <;> rfl

theorem commands_eq_iff_walkEvent : (∀ e ∈ walkRow true, isClear e)
    ∧ (walkSample.commands (.ofVariables []) (walkEvent true) (.ofText "/main") "main").result = .ok [walkCommand]
    ∧ (walkCommand = walkCommand ↔ ("x" : Text) = "x" ∧ (walkRow true).map seen = (walkRow false).map seen) := by
  have hclear : ∀ negated, ∀ e ∈ walkRow negated, isClear e := by decide
  have hrow : ∀ negated, ∀ e ∈ walkRow negated, isEvent e = false := by decide
  refine ⟨hclear true, commands_walkEvent true, ?_⟩
  exact commands_eq_iff (compile_walkEvent true) (compile_walkEvent false) (hrow true) (hrow false) rfl rfl
    (hclear true) (hclear false) (commands_walkEvent true) (commands_walkEvent false)

/-- A negated condition and the condition itself have the same command. -/
theorem exists_negation_lost : ∃ cmd es es',
    (walkSample.commands (.ofVariables []) (walkEvent true) (.ofText "/main") "main").result = .ok [cmd]
      ∧ (walkSample.commands (.ofVariables []) (walkEvent false) (.ofText "/main") "main").result = .ok [cmd]
      ∧ (walkSample.plan (walkEvent true)).result = .ok es
      ∧ (walkSample.plan (walkEvent false)).result = .ok es'
      ∧ es.map Entry.negated ≠ es'.map Entry.negated :=
  ⟨walkCommand, _, _, commands_walkEvent true, commands_walkEvent false, compile_walkEvent true,
    compile_walkEvent false,
    by decide⟩

end Data
end BlockScript
