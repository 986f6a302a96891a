import BlockScript.Proofs.Literals
import BlockScript.Proofs.Lowering
import BlockScript.Script.FormulaCall
import BlockScript.Script.Statement

/-!
# What is written and what is read

A call is compiled without the arguments by position that no parameter is left for (`Placed.ofSpec_take`). An argument
in quotes keeps them if it is given by name and loses them if it is given by position (`Placed.ofCall_unquote`), so that
a quoted word may be a variable in one call and a text in the other. The line `x += e` is meant as `x = x + (e)`; if `e`
is an operation applied to formulas, the operator is passed over (`Statement.compile_update`).
-/

open List
namespace BlockScript
open Script (Compile)
namespace Value

def IsUnquoted (s : Text) : Prop := ∀ c ∈ s, c ∉ ['"', '\'', '\\']

structure IsQuotable (s : Text) : Prop where
  ne : s ≠ []
  unquoted : IsUnquoted s
  line : '\n' ∉ s

end Value

/-- An integer, an identifier or a text between quotes. -/
def Literal.IsToken : Literal → Prop
  | .quoted mark t => (mark = '"' ∨ mark = '\'') ∧ Value.IsQuotable t
  | .name t => t ≠ [] ∧ ∀ c ∈ t, isNameChar c
  | .number _ => True

def Table.mapValues {α β : Type} (g : α → β) (t : Table α) : Table β := t.map fun e => (e.1, g e.2)

namespace Placed

def assigned (fs : List Param) (ts : List Literal) : Table Literal := (fs.map Param.name).zip ts

def positionalLine (module func : Text) (ts : List Literal) : Text :=
  Call.toLine ⟨module, func, Text.joinWith ", " (ts.map Literal.text)⟩

def namedLine (module func : Text) (named : Table Literal) : Text :=
  Call.toLine ⟨module, func, Text.joinWith ", " ((Table.mapValues Literal.text named).map Arguments.written)⟩

def messageParams : List Param := [⟨"text", "TEXT", 9⟩, ⟨"num", "NUMBER", 18⟩]

def messageSpec : Spec := .obj [("sign1", .str "Действие игрока"), ("sign2", .str "Сообщение"),
  ("params", .arr (messageParams.map Param.record)), ("enums", .arr [])]

def messageLibrary : Library := ⟨.obj [("player", .obj [("message", messageSpec)])], []⟩

section Quotes
variable {lib : Library} {module func args args' : Text}

/-- The argument is given by position. -/
abbrev IsPositional (t : Text) : Prop := t.isQuoted ∨ Text.cutTop? '=' t = none

lemma ofText_positional (h : ∀ t ∈ Text.splitTop ',' args, IsPositional t) :
    Arguments.ofText args = ⟨[], (Text.splitTop ',' args).map Text.unquote⟩ := by
  rw [Arguments.ofText]
  generalize Text.splitTop ',' args = ts at h
  suffices hfold : ∀ pos, ts.foldl Arguments.add ⟨[], pos⟩ = ⟨[], pos ++ ts.map Text.unquote⟩ from hfold []
  induction ts with
  | nil => simp
  | cons t ts ih =>
    rw [forall_mem_cons] at h
    intro pos
    have hadd : Arguments.add ⟨[], pos⟩ t = ⟨[], pos ++ [t.unquote]⟩ := by
      rcases h.1 with hq | hnone
      · simp [Arguments.add, Text.unquote, hq]
      · cases hq : t.isQuoted <;> simp [Arguments.add, Text.unquote, hq, hnone]
    rw [foldl_cons, hadd, ih h.2, map_cons, append_assoc, singleton_append]

/-- Quotes around arguments by position do not matter, so that a quoted word is what the bare word is. -/
theorem ofCall_unquote (h : ∀ t ∈ Text.splitTop ',' args, IsPositional t)
    (h' : ∀ t ∈ Text.splitTop ',' args', IsPositional t)
    (hsame : (Text.splitTop ',' args).map Text.unquote = (Text.splitTop ',' args').map Text.unquote) :
    ofCall lib ⟨module, func, args⟩ = ofCall lib ⟨module, func, args'⟩ := by
  simp only [ofCall, ofSpec, checkNames, ofText_positional h, ofText_positional h', hsame]

theorem ofCall_unquote_word :
    ofCall messageLibrary ⟨"player", "message", "\"luck\", 5"⟩
      = ofCall messageLibrary ⟨"player", "message", "luck, '5'"⟩ :=
  ofCall_unquote (by decide) (by decide) (by decide)

end Quotes

/-- A quoted word is a variable if it is given by position, and a text if it is given by name. -/
theorem exists_word_ne : ∃ ts p q, (∀ a ∈ ts, Literal.IsToken a)
    ∧ (placeLine messageLibrary (positionalLine "player" "message" ts)).result = .ok (some p)
    ∧ (placeLine messageLibrary (namedLine "player" "message" (assigned messageParams ts))).result = .ok (some q)
    ∧ p.pieces = ["slot(9)=var(luck)".toList] ∧ q.pieces = ["slot(9)=text(luck)".toList] := by
  have hpcs : ∀ line ws,
      (placeLine messageLibrary line).result.toOption.bind (Option.map Placed.pieces) = some ws →
      ∃ p, (placeLine messageLibrary line).result = .ok (some p) ∧ p.pieces = ws := by
    intro line ws h
    obtain ⟨r, hr, hws⟩ := Option.bind_eq_some_iff.mp h
    obtain ⟨p, rfl, hp⟩ := Option.map_eq_some_iff.mp hws
    exact ⟨p, ok_of_toOption hr, hp⟩
  have hquot : Value.IsQuotable "luck" := ⟨by decide, by simp [Value.IsUnquoted], by decide⟩
  have htoks : ∀ a ∈ [Literal.quoted '"' "luck"], Literal.IsToken a :=
    forall_mem_singleton.mpr ⟨.inl rfl, hquot⟩
  obtain ⟨p, hp, hpos⟩ := hpcs (positionalLine "player" "message" [.quoted '"' "luck"])
    ["slot(9)=var(luck)"] (by decide +kernel)
  obtain ⟨q, hq, hnm⟩ := hpcs (namedLine "player" "message" (assigned messageParams [.quoted '"' "luck"]))
    ["slot(9)=text(luck)"] (by decide +kernel)
  exact ⟨_, p, q, htoks, hp, hq, hpos, hnm⟩

section Surplus
variable {lib : Library} {spec : Spec} {ps : List Json} {module func canon args args' : Text} {named : Table Text}
  {ts ts' : List Text}

lemma bindPositional_take (ps : List Json) (ts : List Text) (b : Binding) :
    bindPositional ps (ts.take ps.length) b = bindPositional ps ts b := by
  induction ps generalizing ts b with
  | nil => cases ts <;> rfl
  | cons p ps ih =>
    cases ts with
    | nil => rfl
    | cons t ts => simp [bindPositional, ih]

/-- Calls are compiled alike if they differ only in arguments by position behind those for the last parameter. -/
theorem ofSpec_take (hps : params spec = .ok ps) (hne : ps ≠ [])
    (hargs : (Arguments.ofText args).dropEmpty = ⟨named, ts⟩)
    (hargs' : (Arguments.ofText args').dropEmpty = ⟨named, ts'⟩) (htake : ts.take ps.length = ts'.take ps.length) :
    (ofSpec lib ⟨module, func, args⟩ canon spec).result = (ofSpec lib ⟨module, func, args'⟩ canon spec).result := by
  have hps_ne : ps.isEmpty = false := by simpa using hne
  have hbind : ∀ b, bindPositional ps ts b = bindPositional ps ts' b := fun b => by
    rw [← bindPositional_take, htake, bindPositional_take]
  simp only [ofSpec, hargs, hargs', Compile.result_bind, Compile.result_liftM, hps, hps_ne, hbind, checkNames,
    Except.mapError,
    Except.bind, Bool.false_eq_true, if_false]

theorem ofSpec_take_extra :
    (ofSpec messageLibrary ⟨"player", "message", "\"a\", 5, \"extra\""⟩ "message" messageSpec).result
      = (ofSpec messageLibrary ⟨"player", "message", "\"a\", 5"⟩ "message" messageSpec).result :=
  have hargs : (Arguments.ofText "\"a\", 5, \"extra\"").dropEmpty = ⟨[], texts ["a", "5", "extra"]⟩ := by decide
  have hargs' : (Arguments.ofText "\"a\", 5").dropEmpty = ⟨[], texts ["a", "5"]⟩ := by decide
  ofSpec_take rfl (cons_ne_nil _ _) hargs hargs' rfl

end Surplus

/-- An argument by position for which there is no parameter is passed over. -/
theorem extra_argument_dropped :
    (placeLine messageLibrary "player.message(\"a\", 5, \"extra\")").result.toOption.bind (Option.map Placed.pieces)
      = some (texts ["slot(9)=var(a)", "slot(18)=num(5)"]) := by
  decide +kernel

def messageAndSum : Library := ⟨.obj [("player", .obj [("message", messageSpec)]),
  ("var", .obj [("set_sum", Arithmetic.shippedAction "+" Arithmetic.shippedOperands [])])], []⟩

/-- A text given by position becomes two arguments if the argument behind it is computed first. -/
theorem text_parted_by_formula :
    ((FormulaCall.compile messageAndSum 0 "player.message(\"a, b\", x + 1)").result.toOption.bind id).map
        (fun r => r.1.getLast?.map Placed.pieces) = some (some (texts ["slot(9)=var(a)", "slot(18)=var(b)"]))
      ∧ (placeLine messageAndSum "player.message(\"a, b\", var(__mldsl_tmpargf1))").result.toOption.bind
        (Option.map Placed.pieces) = some (texts ["slot(9)=text(a, b)", "slot(18)=var(__mldsl_tmpargf1)"]) := by
  decide +kernel

end Placed

def BinOp.char : BinOp → Char
  | .add => '+'
  | .sub => '-'
  | .mul => '*'
  | .div => '/'

def BinOp.level : BinOp → Nat
  | .add | .sub => 9
  | .mul | .div => 10

def Sign.char : Sign → Char
  | .plus => '+'
  | .minus => '-'

namespace Formula

def IsGap (g : Text) : Prop := ∀ c ∈ g, c = ' ' ∨ c = '\t'

/-- The ways to write a formula: `Written d l t f` says that the text `t` is a way to write the formula `f` of operators
that bind at least as tightly as the level `l`, with at most `d` parentheses open at once. -/
inductive Written : Nat → Nat → Text → Formula → Prop
  | int {d n w} (h : Token.token? w = some (.int n, [])) : Written d 11 w (.int n)
  | real {d x w} (h : Token.token? w = some (.real x, [])) : Written d 11 w (.real x)
  | truth {d} (b : Bool) : Written d 11 (if b then "True" else "False") (.truth b)
  | var {d w} (h : isIdentifier w) (hkey : w ∉ Token.keywords) : Written d 11 w (.var w)
  | paren {d t f g g'} (hg : IsGap g) (hg' : IsGap g') (h : Written d 9 t f) :
    Written (d + 1) 11 ('(' :: (g ++ (t ++ (g' ++ [')'])))) f
  | sign {d t f g} (s : Sign) (hg : IsGap g) (h : Written d 11 t f) : Written d 11 (s.char :: (g ++ t)) (.sign s f)
  | bin {d t u f f' g g'} (op : BinOp) (h : Written d op.level t f) (hg : IsGap g) (hg' : IsGap g')
    (h' : Written d (op.level + 1) u f') : Written d op.level (t ++ (g ++ op.char :: (g' ++ u))) (.bin op f f')
  | loosen {d l t f} (h : Written d (l + 1) t f) : Written d l t f

end Formula
namespace Assignment

/-- The line that assigns a value to a variable, with the operator of an update or without one. -/
def valueLine (x sign v : Text) : Text := x ++ ' ' :: (sign ++ '=' :: ' ' :: v)

/-- A variable that formulas can name. -/
structure IsVariable (x : Text) : Prop where
  identifier : isIdentifier x
  chars : ∀ c ∈ x, isNameChar c
  word : x ∉ Formula.Token.keywords

/-- What an update adds up to. -/
def operation (x : Text) (op : BinOp) (v : Text) : Text := x ++ [' ', op.char, ' '] ++ "(" ++ v ++ ")"

end Assignment
namespace Statement
open Assignment Formula

section Updates
variable {lib : Library} {sigs : Signatures} {trace : Bool} {a : Assignment} {f : Formula} {names : Names}
  {line line' : Text}

/-- A line is read as an assignment. -/
structure IsAssignment (line : Text) (a : Assignment) : Prop where
  call : Call.ofLine? line = none
  bare : bareCall? line = none
  reads : ofLine? line = some a

/-- The operator of an update is passed over if a sign or an operation applied to formulas stands behind it. -/
theorem compile_update (h : IsAssignment line a) (h' : IsAssignment line' { a with op := none })
    (hf : formula? a.rhs = (some f, names)) (harith : f.isArithmetic) (hcomp : f.isCompound) :
    compile lib sigs trace line = compile lib sigs trace line' := by
  have hplain : plainActions lib a = plainActions lib { a with op := none } := by
    obtain ⟨name, saved, op, rhs⟩ := a
    dsimp only at hf
    simp only [plainActions, hf, Option.filter_some, harith, hcomp, Bool.and_self, if_true]
    rfl
  have hsame : a.compile lib sigs trace = Assignment.compile lib sigs trace { a with op := none } := by
    rw [Assignment.compile, hplain]
    rfl
  simp only [compile, h.call, h'.call, h.bare, h'.bare, h.reads, h'.reads, hsame]

theorem compile_update_product : compile Arithmetic.shippedLibrary [] false "x += y * 2"
    = compile Arithmetic.shippedLibrary [] false "x = y * 2" :=
  compile_update (a := ⟨"x", false, some '+', "y * 2"⟩) ⟨rfl, rfl, rfl⟩ ⟨rfl, rfl, rfl⟩ rfl rfl rfl

end Updates

lemma isVariable_x : IsVariable "x" := ⟨by decide, all_eq_true.mp (by decide), by decide⟩

lemma written_product : Written 199 9 "y * 2" (.bin .mul (.var "y") (.int 2)) := by
  have hgap : IsGap [' '] := fun c hc => .inl (mem_singleton.mp hc)
  have hvar : Written 199 11 "y" (.var "y") := .var rfl (by decide)
  exact .loosen (.bin .mul (.loosen hvar) hgap hgap (.int rfl))

/-- An update that loses the old value of its variable. -/
theorem exists_update_ne : ∃ x op e f, IsVariable x ∧ Written 199 9 e f
    ∧ compile Arithmetic.shippedLibrary [] false (valueLine x [op.char] e)
      ≠ compile Arithmetic.shippedLibrary [] false (valueLine x [] (operation x op e)) := by
  refine ⟨"x", .add, "y * 2", _, isVariable_x, written_product, fun h => ?_⟩
  -- one action against two
  have hcnt := congrArg (fun c => (c.result.toOption.bind id).map List.length) h
  exact absurd hcnt (by decide +kernel)

/-- A text assigned is cut at a comma behind a parenthesis that closes too much. -/
theorem text_cut_at_comma :
    ((compile Arithmetic.shippedLibrary [] false (valueLine "x" [] "\"a), b\"")).result.toOption.bind id).map
      (List.map Placed.pieces) = some [texts ["slot(13)=var(x)", "slot(27)=text(a)"]] := by
  decide +kernel

end Statement
end BlockScript
