import BlockScript.Plan.Entry

/-!
# Scopes in a list of actions

An action that opens a scope and the skip that closes it belong together, and a row may not end between them. The
places of a list at which no scope is open are its *boundaries*. A scope with a body of at least two actions can be
shortened by moving its body into a function of its own.
-/

namespace BlockScript.Plan

/-- A place at which a list of actions may be cut: how many actions stand before it, and the selection in force
there, if one was made. -/
structure Boundary where
  pos : Nat
  selection : Option Action
deriving DecidableEq

/-- The boundaries of a list of actions. `n` counts the actions before, `depth` the scopes that are open. -/
def boundariesFrom (n depth : Nat) : List Action → List Boundary
  | [] => []
  | a :: rest =>
    let inside := if a.opens then depth + 1 else depth
    let after := if a.closes then inside - 1 else inside
    let more := boundariesFrom (n + 1) after rest
    if inside = 0 then ⟨n + 1, none⟩ :: more else more

/-- The boundaries of a list of actions: behind every action that stands in no scope. -/
def boundaries (actions : List Action) : List Boundary := boundariesFrom 0 0 actions

/-- A scope: the places of the action that opens it and of the skip that closes it. -/
structure Scope where
  first : Nat
  last : Nat
deriving DecidableEq

namespace Scope

def size (s : Scope) : Nat := s.last - s.first - 1

/-- The scopes of a list of actions that have a body of at least two actions, in the order they close.
`n` counts the actions before, and `stack` holds the places of the open scopes, the innermost first. -/
def allFrom (n : Nat) (stack : List Nat) : List Action → List Scope
  | [] => []
  | a :: rest =>
    if a.opens then allFrom (n + 1) (n :: stack) rest
    else if a.closes then
      match stack with
      | [] => allFrom (n + 1) [] rest
      | first :: outer =>
        let more := allFrom (n + 1) outer rest
        if 3 ≤ n - first then ⟨first, n⟩ :: more else more
    else allFrom (n + 1) stack rest

def all (actions : List Action) : List Scope := allFrom 0 [] actions

/-- One scope is a better one to shorten than another: its body fits into a row and the other's does not, or else
its body is longer, or else it stands further to the left. -/
def isBetter (limit : Nat) (a b : Scope) : Bool :=
  let fits (s : Scope) : Bool := s.size ≤ limit
  if fits a != fits b then fits a
  else if a.size != b.size then b.size < a.size
  else a.first < b.first

/-- The best of some scopes to shorten; of equally good ones the first. -/
def best? (limit : Nat) : List Scope → Option Scope
  | [] => none
  | s :: rest => some (rest.foldl (fun a b => if isBetter limit b a then b else a) s)

end Scope

/-- A list of actions in which the body of one scope was replaced, and that body. -/
structure Extraction where
  rest : List Action
  body : List Action
deriving DecidableEq

/-- Replace the body of the best scope to shorten by one action. -/
def extract? (limit : Nat) (call : Action) (actions : List Action) : Option Extraction :=
  (Scope.best? limit (Scope.all actions)).map fun s =>
    ⟨actions.take (s.first + 1) ++ [call] ++ actions.drop s.last, (actions.take s.last).drop (s.first + 1)⟩

end BlockScript.Plan
