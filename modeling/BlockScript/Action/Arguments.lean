import BlockScript.Table
import BlockScript.Text.Nesting

/-!
# Arguments of a call

Arguments are parted by the commas outside quotes and brackets. An argument is given by name if it has an equals
sign outside quotes and brackets, unless the whole of it is in quotes; all others are given by position. A quoted
argument given by position loses its quotes, one given by name keeps them.
-/

namespace BlockScript

structure Arguments where
  /-- Arguments given by name, in the order the names came up first. -/
  named : Table Text
  positional : List Text
deriving DecidableEq

namespace Arguments

def add (as : Arguments) (token : Text) : Arguments :=
  if token.isQuoted then { as with positional := as.positional ++ [token.inner] }
  else match Text.cutTop? '=' token with
    | some (k, v) => { as with named := as.named.set k.trim v.trim }
    | none => { as with positional := as.positional ++ [token] }

def ofText (t : Text) : Arguments := (Text.splitTop ',' t).foldl add ⟨[], []⟩

def dropEmpty (as : Arguments) : Arguments :=
  { as with named := as.named.filter fun e => !(Text.trim e.2).isEmpty }

end Arguments
end BlockScript
