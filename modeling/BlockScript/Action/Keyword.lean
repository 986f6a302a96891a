import BlockScript.Text.Case
import BlockScript.Table

/-!
# Keywords in Cyrillic

A named argument may be written with a Cyrillic keyword; it then also counts under the Latin spelling of the keyword.
-/

namespace BlockScript.Keyword

def latin : List (Char × String) :=
  [('а', "a"), ('б', "b"), ('в', "v"), ('г', "g"), ('д', "d"), ('е', "e"), ('ё', "yo"), ('ж', "zh"),
   ('з', "z"), ('и', "i"), ('й', "y"), ('к', "k"), ('л', "l"), ('м', "m"), ('н', "n"), ('о', "o"),
   ('п', "p"), ('р', "r"), ('с', "s"), ('т', "t"), ('у', "u"), ('ф', "f"), ('х', "h"), ('ц', "ts"),
   ('ч', "ch"), ('ш', "sh"), ('щ', "sch"), ('ы', "y"), ('э', "e"), ('ю', "yu"), ('я', "ya"),
   ('ь', ""), ('ъ', "")]

def latinChar (c : Char) : Text :=
  let low := lowerChar c
  match latin.lookup low with
  | some t => if c == low then t.toList else t.toList.map Char.toUpper
  | none => [c]

def toLatin (t : Text) : Text := t.flatMap latinChar

def isRussian (c : Char) : Bool :=
  let low := lowerChar c
  ('а' ≤ low && low ≤ 'я') || low == 'ё'

/-- The Latin spellings of Cyrillic keywords that are not keywords themselves, each with the value and the keyword
it comes from. -/
def spellings (named : Table Text) : List (Text × Text × Text) :=
  named.foldl (fun extra (k, v) =>
    let l := toLatin k
    if k.any isRussian && !l.isEmpty && !named.has l && !extra.any (·.1 == l) then extra ++ [(l, v, k)]
    else extra) []

end BlockScript.Keyword
