import BlockScript.Text.Basic

/-!
# Runs that print

A command prints lines as it goes, and what it printed before it failed stays printed.
-/

namespace BlockScript

/-- A run that prints lines, oldest first, and may fail with an `ε`. -/
abbrev Run (ε α : Type) := ExceptT ε (StateM (List Text)) α

namespace Run
variable {ε α : Type}

def say (line : Text) : Run ε Unit := modify (· ++ [line])

def ofExcept : Except ε α → Run ε α
  | .ok a => pure a
  | .error e => throw e

def finish (r : Run ε α) : Except ε α × Text :=
  let (result, lines) := (ExceptT.run r).run []
  (result, lines.flatMap (· ++ ['\n']))

end Run
end BlockScript
