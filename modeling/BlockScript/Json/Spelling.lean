import BlockScript.Text.Quoted
import BlockScript.Json.Basic

/-!
# Values in messages

How a value is spelt inside a message or an argument: a text as it is, anything else as it is shown in a list.
-/

namespace BlockScript.Json

mutual

def shown : Json → Text
  | .null => "None"
  | .bool b => if b then "True" else "False"
  | .int n => Text.ofInt n
  | .real x => x.render
  | .str t => t.shown
  | .arr xs => "[" ++ shownItems xs ++ "]"
  | .obj fs => ['\x7b'] ++ shownFields fs ++ ['\x7d']

def shownItems : List Json → Text
  | [] => []
  | [x] => shown x
  | x :: xs => shown x ++ ", " ++ shownItems xs

def shownFields : List (Text × Json) → Text
  | [] => []
  | [(k, v)] => k.shown ++ ": " ++ shown v
  | (k, v) :: rest => k.shown ++ ": " ++ shown v ++ ", " ++ shownFields rest

end

/-- A value as it is spelt: a text as it is, anything else as shown. -/
def spell : Json → Text
  | .str t => t
  | v => shown v

end BlockScript.Json
