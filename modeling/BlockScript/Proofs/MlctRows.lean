import Mathlib.Data.List.Basic
import BlockScript.Mlct.Compilation

/-!
# Rows of the older language

The blocks of a program are laid in rows, one for each activator, in order, and each row begins with its activator:
`Mlct.Block.head?_rows`. A level may be lost, since the parser steps over what stands behind a word that begins no
statement (`Mlct.condition_lost`).
-/

namespace BlockScript.Mlct

lemma Work.exists_of_bind {α β : Type} {x : Work α} {f : α → Work β} {b : β} {o o' : Output}
    (h : (x >>= f) o = (.ok b, o')) : ∃ a o₁, x o = (.ok a, o₁) ∧ f a o₁ = (.ok b, o') := by
  have hbind : (x >>= f) o = ExceptT.bindCont f (x o).1 (x o).2 := rfl
  rw [hbind] at h
  rcases hx : x o with ⟨e | a, o₁⟩
  · rw [hx] at h
    cases h
  rw [hx] at h
  exact ⟨a, o₁, rfl, h⟩

def smallLanguage : Language where
  handlers :=
    [("FUNCTION", ⟨.str "Function", .str "activator", .bool true⟩), ("PLAYER", ⟨.str "Player", .str "action", .null⟩),
    ("ELSE", ⟨.str "Else", .str "condition", .bool true⟩)]
  custom := [("CODE_NAMES", [("env", "ENVIRONMENT_SHELL")])]
  env := .obj []
  variants := [("HEAL", [("customName", .str "Heal"), ("handler", .str "PLAYER")])]

namespace Block
variable {l : Language} {nodes : List Node} {o o' : Output} {blocks : List Block}

lemma rows_cons (b : Block) (bs : List Block) :
    (rows (b :: bs)).flatten = b :: bs ∧ (rows (b :: bs)).map List.head? = some b ::
      (bs.filter isActivator).map some := by
  induction bs generalizing b with
  | nil => exact ⟨rfl, rfl⟩
  | cons c bs ih =>
    obtain ⟨hflat, hhd⟩ := ih c
    cases hrows : rows (c :: bs) with
    | nil => simp [hrows] at hflat
    | cons row more =>
      have hstep : rows (b :: c :: bs) = if c.isActivator then [b] :: row :: more else (b :: row) :: more := by
        rw [rows.eq_def]
        simp [hrows]
      rw [hrows, List.flatten_cons] at hflat
      rw [hrows] at hhd
      obtain ⟨hhead, hmore⟩ := List.cons.inj hhd
      cases hc : c.isActivator <;> simp [hstep, hc, hflat, hhead, hmore]

lemma isActivator_of_collect {level : Int} (h : collect l false level nodes o = (.ok blocks, o')) :
    ∀ b ∈ blocks.head?, b.isActivator := by
  induction nodes with
  | nil =>
    rw [collect] at h
    cases h
    simp
  | cons n nodes ih =>
    cases n with
    | activator handler variant delay =>
      rw [collect.eq_def] at h
      simp only [Bool.false_eq_true, if_false] at h
      split at h
      next rest =>
        obtain ⟨bs, o₁, -, hret⟩ := Work.exists_of_bind h
        cases hret
        simp [isActivator]
      · cases h
    | _ =>
      rw [collect.eq_def] at h
      exact ih h

/-- The blocks of a program are laid in rows, one for each activator and beginning with it. -/
theorem head?_rows (h : ofNodes l nodes o = (.ok blocks, o')) :
    (rows blocks).flatten = blocks ∧ (rows blocks).map List.head? = (blocks.filter isActivator).map some := by
  cases blocks with
  | nil => exact ⟨rfl, rfl⟩
  | cons b bs =>
    obtain ⟨hflat, hhd⟩ := rows_cons b bs
    refine ⟨hflat, hhd.trans ?_⟩
    rw [List.filter_cons_of_pos (isActivator_of_collect h b rfl), List.map_cons]

def twoFunctions : List Block := [activator "FUNCTION" "f" none 0, action "PLAYER" (some "HEAL") none none none 1,
  activator "FUNCTION" "g" none 0]

theorem head?_rows_twoFunctions : (rows twoFunctions).flatten = twoFunctions
    ∧ (rows twoFunctions).map List.head? = (twoFunctions.filter isActivator).map some := by
  have h : ofNodes smallLanguage [.activator "FUNCTION" "f" none, .openLine, .openLevel,
      .action "PLAYER" (some "HEAL") none, .closeAction, .closeLevel, .closeLine, .activator "FUNCTION" "g" none,
      .openLine, .closeLine] ⟨[], [], true⟩ = (.ok twoFunctions, ⟨[], [], true⟩) := by
    simp [ofNodes, collect, afterAction, modifierName?]
    rfl
  exact head?_rows h

end Block

/-- A condition behind a word that begins no statement is lost, and with it the level of the action in it. -/
theorem condition_lost :
    (stages ⟨smallLanguage, [], .ofText "/"⟩ "main.mlct" "Function(f) \x7b env Else \x7b Player.Heal(); \x7d \x7d"
        ⟨[], [], true⟩).1.blocks
      = some (texts ["Unit(ACTIVATOR, FUNCTION, f, level=0)", "Unit(ACTION, PLAYER, HEAL, level=0)"]) := by
  decide +kernel

end BlockScript.Mlct
