import BlockScript.Label
import BlockScript.Json.Basic
import BlockScript.Text.CodePage

/-!
# Labels of a world

Signs and items of an exported world carry colour codes of two kinds, and some of their text was read in the wrong code
page. Labels are compared by all spellings they may have had.
-/

namespace BlockScript.World

/-- Drop colour codes: a section sign or an ampersand with the character after it, and a section sign read in
the wrong code page. A code is not cut by the end of a line. -/
def dropColors : Text → Text
  | [] => []
  | [c] => [c]
  | [c, d] => if isCode c d then [] else [c, d]
  | c :: d :: e :: rest =>
    if isCode c d then dropColors (e :: rest)
    else if c == 'В' && d == '§' && e != '\n' then dropColors rest
    else c :: dropColors (d :: e :: rest)
where
  isCode (c d : Char) : Bool := (c == '§' || c == '&') && d != '\n'

variable (t : Text)

def key : Text := Label.collapse (Text.lower (Text.trim (dropColors t)))

def keys : List Text := keepFirst (((CodePage.variants t).map key).filter (!·.isEmpty))

def keysOf (v : Json) : List Text := (v.text?.map keys).getD []

def isOptionChar (c : Char) : Bool :=
  let d := looseChar c
  ('a' ≤ d && d ≤ 'z') || ('а' ≤ d && d ≤ 'я') || ('0' ≤ d && d ≤ '9')

/-- The form in which options are compared: letters and digits only. -/
def optionKey : Text := (Text.replaceChar 'ё' 'е' (key t)).filter isOptionChar

def optionKeys : List Text := keepFirst (((CodePage.variants t).map optionKey).filter (!·.isEmpty))

end BlockScript.World
