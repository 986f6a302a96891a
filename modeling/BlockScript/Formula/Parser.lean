import BlockScript.Formula.Token

/-!
# Reading formulas

A recursive-descent reader of the expression language. Operators bind as usual: `or`, `and`, `not`, comparisons,
the bit operators, sums, products, signs, powers. Every function takes the tokens left and gives an
expression with the tokens after it; the functions call each other with less fuel.
-/

namespace BlockScript.Formula
namespace Parser
open Token

abbrev Result := Option (Formula × List Token)

/-- An operator between two operands: how tightly it binds, what it makes of its operands, and what follows it. -/
structure Operator where
  level : Nat
  apply : Formula → Formula → Formula
  rest : List Token

/-- The operator tokens with their levels, but for the four operations. -/
def symbolLevels : List (Text × Nat) :=
  [("==", 4), ("!=", 4), ("<=", 4), (">=", 4), ("<", 4), (">", 4), ("|", 5), ("^", 6), ("&", 7),
   ("<<", 8), (">>", 8), ("//", 10), ("%", 10), ("@", 10)]

def notArithmetic : Formula → Formula → Formula := fun _ _ => .other

def operator? : List Token → Option Operator
  | .op ['+'] :: rest => some ⟨9, .bin .add, rest⟩
  | .op ['-'] :: rest => some ⟨9, .bin .sub, rest⟩
  | .op ['*'] :: rest => some ⟨10, .bin .mul, rest⟩
  | .op ['/'] :: rest => some ⟨10, .bin .div, rest⟩
  | .op o :: rest => (symbolLevels.lookup o).map fun l => ⟨l, notArithmetic, rest⟩
  | .keyword k :: rest =>
    if k == "or" then some ⟨1, notArithmetic, rest⟩
    else if k == "and" then some ⟨2, notArithmetic, rest⟩
    else if k == "in" then some ⟨4, notArithmetic, rest⟩
    else if k == "is" then
      match rest with
      | .keyword n :: more => some ⟨4, notArithmetic, if n == "not" then more else rest⟩
      | _ => some ⟨4, notArithmetic, rest⟩
    else if k == "not" then
      match rest with
      | .keyword n :: more => if n == "in" then some ⟨4, notArithmetic, more⟩ else none
      | _ => none
    else none
  | _ => none

def startsOp (o : Text) : List Token → Bool
  | .op p :: _ => p == o
  | _ => false

def afterOp? (o : Text) : List Token → Option (List Token)
  | .op p :: rest => if p == o then some rest else none
  | _ => none

def afterKeyword? (k : Text) : List Token → Option (List Token)
  | .keyword w :: rest => if w == k then some rest else none
  | _ => none

def afterFor? (ts : List Token) : Option (List Token) :=
  match afterKeyword? "async" ts with
  | some rest => afterKeyword? "for" rest
  | none => afterKeyword? "for" ts

/-- The tokens after adjacent quoted texts, which are all of one kind. -/
def afterQuoted? (bytes : Bool) : List Token → Option (List Token)
  | .quoted b :: rest => if b == bytes then afterQuoted? bytes rest else none
  | rest => some rest

def other (r : Option (List Token)) : Result := r.map (.other, ·)

def hide (r : Result) : Result := r.map fun r => (.other, r.2)

/-- What was read of the parameters of a `lambda`. -/
structure LambdaState where
  defaulted : Bool
  starred : Bool
  bare : Bool
  slashed : Bool
  named : Bool

mutual

/-- An expression: a choice, a `lambda`, or operators. -/
def expression : Nat → List Token → Result
  | 0, _ => none
  | fuel + 1, ts =>
    match afterKeyword? "lambda" ts with
    | some rest => lambda fuel ⟨false, false, false, false, false⟩ rest
    | none => do
      let (a, rest) ← operators fuel 1 ts
      match afterKeyword? "if" rest with
      | none => return (a, rest)
      | some rest =>
        let (_, rest) ← operators fuel 1 rest
        hide (expression fuel (← afterKeyword? "else" rest))

def lambda : Nat → LambdaState → List Token → Result
  | 0, _, _ => none
  | fuel + 1, st, ts =>
    let body (st : LambdaState) (ts : List Token) : Result := if st.bare then none else hide (expression fuel ts)
    -- after a parameter: a comma and more, or the colon and the body
    let next (st : LambdaState) (ts : List Token) : Result :=
      match ts with
      | .op [','] :: rest => lambda fuel st rest
      | .op [':'] :: rest => body st rest
      | _ => none
    match ts with
    | .op [':'] :: rest => body st rest
    | .name _ :: rest =>
      if st.named then none
      else match afterOp? ['='] rest with
        | some rest => do next { st with defaulted := true, bare := false } (← expression fuel rest).2
        | none => if st.defaulted && !st.starred then none else next { st with bare := false } rest
    | .op ['/'] :: rest =>
      if st.starred || st.slashed || st.named then none else next { st with bare := false, slashed := true } rest
    | .op ['*'] :: rest =>
      if st.starred || st.named then none
      else match rest with
        | .name _ :: rest => next { st with starred := true, bare := false } rest
        | _ => next { st with starred := true, bare := true } rest
    | .op ['*', '*'] :: .name _ :: rest => if st.named || st.bare then none else next { st with named := true } rest
    | _ => none

/-- Operands joined by operators of at least the given level. -/
def operators : Nat → Nat → List Token → Result
  | 0, _, _ => none
  | fuel + 1, level, ts =>
    match afterKeyword? "not" ts with
    | some rest => if 3 < level then none else do climb fuel level .other (← operators fuel 3 rest).2
    | none => do
      let (a, rest) ← signed fuel ts
      climb fuel level a rest

/-- Go on with operators of at least the given level behind `a`. -/
def climb : Nat → Nat → Formula → List Token → Result
  | 0, _, _, _ => none
  | fuel + 1, level, a, ts =>
    match operator? ts with
    | none => some (a, ts)
    | some i =>
      if i.level < level then some (a, ts)
      else do
        let (b, rest) ← operators fuel (i.level + 1) i.rest
        climb fuel level (i.apply a b) rest

/-- An operand with signs in front, or a power. -/
def signed : Nat → List Token → Result
  | 0, _ => none
  | fuel + 1, ts =>
    match ts with
    | .op ['+'] :: rest => (signed fuel rest).map fun r => (.sign .plus r.1, r.2)
    | .op ['-'] :: rest => (signed fuel rest).map fun r => (.sign .minus r.1, r.2)
    | .op ['~'] :: rest => hide (signed fuel rest)
    | ts => do
      let (a, rest) ← primary fuel ts
      match afterOp? "**" rest with
      | some rest => hide (signed fuel rest)
      | none => return (a, rest)

def primary : Nat → List Token → Result
  | 0, _ => none
  | fuel + 1, ts =>
    match afterKeyword? "await" ts with
    | some rest => do
      let (a, rest) ← atom fuel rest
      hide (trailers fuel a rest)
    | none => do
      let (a, rest) ← atom fuel ts
      trailers fuel a rest

def trailers : Nat → Formula → List Token → Result
  | 0, _, _ => none
  | fuel + 1, a, ts =>
    match ts with
    | .op ['.'] :: .name _ :: rest => trailers fuel .other rest
    | .op ['.'] :: _ => none
    | .op ['('] :: rest => do trailers fuel .other (← arguments fuel false false rest)
    | .op ['['] :: rest => if startsOp [']'] rest then none else do trailers fuel .other (← subscripts fuel rest)
    | ts => some (a, ts)

/-- A name, a number, a text, or something in brackets. -/
def atom : Nat → List Token → Result
  | 0, _ => none
  | fuel + 1, ts =>
    match ts with
    | .name n :: rest => some (.var n, rest)
    | .int n :: rest => some (.int n, rest)
    | .real x :: rest => some (.real x, rest)
    | .imaginary :: rest => some (.other, rest)
    | .quoted b :: rest => other (afterQuoted? b rest)
    | .keyword k :: rest =>
      if k == "True" then some (.truth true, rest)
      else if k == "False" then some (.truth false, rest)
      else if k == "None" then some (.other, rest)
      else none
    | .op ['.', '.', '.'] :: rest => some (.other, rest)
    | .op ['('] :: rest => parenthesized fuel rest
    | .op ['['] :: rest => if startsOp [']'] rest then some (.other, rest.drop 1) else other (elements fuel [']'] rest)
    | .op ['\x7b'] :: rest => if startsOp ['\x7d'] rest then some (.other, rest.drop 1) else other
      (setOrRecord fuel rest)
    | _ => none

/-- What stands between parentheses, after the opening one. -/
def parenthesized : Nat → List Token → Result
  | 0, _ => none
  | fuel + 1, ts =>
    match ts with
    | .op [')'] :: rest => some (.other, rest)
    | .keyword k :: rest => if k == "yield" then other (yielded fuel rest) else group fuel ts
    | ts => group fuel ts

/-- A grouped expression, a generator or a tuple, after the opening parenthesis. -/
def group : Nat → List Token → Result
  | 0, _ => none
  | fuel + 1, ts =>
    if startsOp ['*'] ts then do
      -- a starred item needs a comma behind it
      let rest ← item fuel ts
      if startsOp [','] rest then other (elements fuel [')'] rest) else none
    else do
      let (a, rest) ← named fuel ts
      if startsOp [')'] rest then return (a, rest.drop 1)
      else if startsOp [','] rest then other (elements fuel [')'] rest)
      else other (afterOp? [')'] (← clauses fuel rest))

def yielded : Nat → List Token → Option (List Token)
  | 0, _ => none
  | fuel + 1, ts =>
    match afterKeyword? "from" ts with
    | some rest => do afterOp? [')'] (← expression fuel rest).2
    | none => if startsOp [')'] ts then some (ts.drop 1) else elements fuel [')'] ts

def named : Nat → List Token → Result
  | 0, _ => none
  | fuel + 1, ts =>
    match ts with
    | .name _ :: .op [':', '='] :: rest => hide (expression fuel rest)
    | ts => expression fuel ts

/-- An item of a list: starred, or an expression that may give itself a name. -/
def item : Nat → List Token → Option (List Token)
  | 0, _ => none
  | fuel + 1, ts =>
    match ts with
    | .op ['*'] :: rest => (operators fuel 5 rest).map (·.2)
    | ts => (named fuel ts).map (·.2)

/-- Items parted by commas, or one item with `for` clauses, up to the closing bracket. A leading comma
stands for an item that was already read. -/
def elements : Nat → Text → List Token → Option (List Token)
  | 0, _, _ => none
  | fuel + 1, close, ts =>
    match ts with
    | .op [','] :: rest =>
      if startsOp close rest then some (rest.drop 1)
      else do
        let rest ← item fuel rest
        if startsOp [','] rest then elements fuel close rest else afterOp? close rest
    | ts => do
      let rest ← item fuel ts
      if startsOp [','] rest then elements fuel close rest
      else if startsOp close rest then return rest.drop 1
      else if startsOp ['*'] ts then none
      else afterOp? close (← clauses fuel rest)

def clauses : Nat → List Token → Option (List Token)
  | 0, _ => none
  | fuel + 1, ts => do conditions fuel (← operators fuel 1 (← targets fuel (← afterFor? ts))).2

def targets : Nat → List Token → Option (List Token)
  | 0, _ => none
  | fuel + 1, ts => do
    match (← primary fuel ((afterOp? ['*'] ts).getD ts)).2 with
    | .op [','] :: .keyword k :: rest => if k == "in" then some rest else none
    | .op [','] :: rest => targets fuel rest
    | rest => afterKeyword? "in" rest

def conditions : Nat → List Token → Option (List Token)
  | 0, _ => none
  | fuel + 1, ts =>
    match afterKeyword? "if" ts with
    | some rest => do conditions fuel (← operators fuel 1 rest).2
    | none => if (afterFor? ts).isSome then clauses fuel ts else some ts

def setOrRecord : Nat → List Token → Option (List Token)
  | 0, _ => none
  | fuel + 1, ts =>
    if startsOp "**" ts then entries fuel ts
    else if startsOp ['*'] ts then elements fuel ['\x7d'] ts
    else match expression fuel ts with
      | some (_, .op [':'] :: rest) => do
        let (_, rest) ← expression fuel rest
        match rest with
        | .op [','] :: rest => if startsOp ['\x7d'] rest then return rest.drop 1 else entries fuel rest
        | .op ['\x7d'] :: rest => return rest
        | rest => afterOp? ['\x7d'] (← clauses fuel rest)
      | _ => elements fuel ['\x7d'] ts

def entries : Nat → List Token → Option (List Token)
  | 0, _ => none
  | fuel + 1, ts =>
    let next (rest : List Token) : Option (List Token) :=
      match rest with
      | .op ['\x7d'] :: rest => some rest
      | .op [','] :: rest => if startsOp ['\x7d'] rest then some (rest.drop 1) else entries fuel rest
      | _ => none
    match afterOp? "**" ts with
    | some rest => do next (← operators fuel 5 rest).2
    | none => do
      let rest ← afterOp? [':'] (← expression fuel ts).2
      next (← expression fuel rest).2

/-- The arguments of a call, up to the closing parenthesis. `keyed` says that an argument was given by name,
`spread` that a record was spread into named arguments. -/
def arguments : Nat → Bool → Bool → List Token → Option (List Token)
  | 0, _, _, _ => none
  | fuel + 1, keyed, spread, ts =>
    let next (keyed spread : Bool) (rest : List Token) : Option (List Token) :=
      match rest with
      | .op [')'] :: rest => some rest
      | .op [','] :: rest => arguments fuel keyed spread rest
      | _ => none
    match ts with
    | .op [')'] :: rest => some rest
    | .op ['*', '*'] :: rest => do next keyed true (← expression fuel rest).2
    | .op ['*'] :: rest => if spread then none else do next keyed spread (← expression fuel rest).2
    | .name _ :: .op ['='] :: rest => do next true spread (← expression fuel rest).2
    | ts =>
      if keyed || spread then none
      else do
        let (_, rest) ← named fuel ts
        if (afterFor? rest).isSome then afterOp? [')'] (← clauses fuel rest) else next keyed spread rest

def subscripts : Nat → List Token → Option (List Token)
  | 0, _ => none
  | fuel + 1, ts =>
    let next (rest : List Token) : Option (List Token) :=
      match rest with
      | .op [']'] :: rest => some rest
      | .op [','] :: rest => if startsOp [']'] rest then some (rest.drop 1) else subscripts fuel rest
      | _ => none
    if startsOp [':'] ts then (sliceRest fuel 2 ts).bind next
    else if startsOp ['*'] ts then (item fuel ts).bind next
    else match ts with
      | .name _ :: .op [':', '='] :: _ => (item fuel ts).bind next
      | ts => do
        let (_, rest) ← expression fuel ts
        if startsOp [':'] rest then next (← sliceRest fuel 2 rest) else next rest

/-- The bounds of a slice from a colon on, with at most `n` colons. -/
def sliceRest : Nat → Nat → List Token → Option (List Token)
  | 0, _, _ => none
  | fuel + 1, n, ts =>
    match afterOp? [':'] ts with
    | none => some ts
    | some rest =>
      if n = 0 then none
      else if startsOp [':'] rest || startsOp [']'] rest || startsOp [','] rest then sliceRest fuel (n - 1) rest
      else do sliceRest fuel (n - 1) (← expression fuel rest).2

end

/-- Expressions parted by commas, up to the end of the tokens. -/
def topLevel (fuel : Nat) : Nat → Bool → List Token → Option Formula
  | 0, _, _ => none
  | n + 1, first, ts =>
    match expression fuel ts with
    | none => none
    | some (a, rest) =>
      match rest.dropWhile (· == .newline) with
      | [] => some (if first then a else .other)
      | .op [','] :: more =>
        if rest.head? == some .newline then none
        else if (more.dropWhile (· == .newline)).isEmpty then some .other
        else (topLevel fuel n false more).map fun _ => .other
      | _ => none

end Parser

def parse? (t : Text) : Option Formula :=
  match Token.lex t with
  | none => none
  | some ts => Parser.topLevel (30 * (ts.length + 2)) (ts.length + 1) true ts

end BlockScript.Formula
