import BlockScript.Action.Name
import BlockScript.Label
import BlockScript.Table
import BlockScript.Text.Pattern

/-!
# Names for actions

Actions are named after the labels of the game, which are Russian. A name is the label in Latin letters with
underscores, the label itself in lower case with underscores, or the label with some words put into English first.
-/

namespace BlockScript
open Text (cutAt? hasInfix lower trim)
namespace Label

def ungarbleChar (c : Char) : Char :=
  if c == '¨' then 'Ё'
  else if 0xC0 ≤ c.toNat && c.toNat ≤ 0xDF then Char.ofNat (c.toNat - 0xC0 + 0x410)
  else repairChar c

/-- A label is garbled if it has at least two characters that stand for others, and no Cyrillic letter and no division
sign. -/
def isGarbled (t : Text) : Bool :=
  !t.contains '÷' && !t.any isCyrillic && 2 ≤ t.countP fun c => ungarbleChar c != c

/-- The label without colours and controls, and legible if it was garbled. -/
def legible (t : Text) : Text :=
  let shown := plain t
  if isGarbled shown then shown.map ungarbleChar else shown

def legibleKey (t : Text) : Text := lower (trim (legible t))

end Label
namespace Naming

/-! ### Forms of names -/

def letters : List (Char × String) :=
  [('а', "a"), ('б', "b"), ('в', "v"), ('г', "g"), ('д', "d"), ('е', "e"), ('ё', "e"), ('ж', "zh"), ('з', "z"),
   ('и', "i"), ('й', "y"), ('к', "k"), ('л', "l"), ('м', "m"), ('н', "n"), ('о', "o"), ('п', "p"), ('р', "r"),
   ('с', "s"), ('т', "t"), ('у', "u"), ('ф', "f"), ('х', "h"), ('ц', "ts"), ('ч', "ch"), ('ш', "sh"), ('щ', "sch"),
   ('ъ', ""), ('ы', "y"), ('ь', ""), ('э', "e"), ('ю', "yu"), ('я', "ya")]

variable (t : Text)

def respell : Text := t.flatMap fun c => ((letters.lookup c).map String.toList).getD [c]

def latin : Text := respell (lower t)

/-- Write every run of characters that are not kept as one character. `gap` says that the run has begun. -/
def fillGapsFrom (keep : Char → Bool) (fill : Char) (gap : Bool) : Text → Text
  | [] => []
  | c :: rest =>
    if keep c then c :: fillGapsFrom keep fill false rest
    else if gap then fillGapsFrom keep fill true rest
    else fill :: fillGapsFrom keep fill true rest

/-- Write every run of characters that are not kept as one character. -/
def fillGaps (keep : Char → Bool) (fill : Char) (t : Text) : Text := fillGapsFrom keep fill false t

def trimUnderscores : Text := Text.trimBy (· == '_') t

def isSnakeChar (c : Char) : Bool := ('a' ≤ c && c ≤ 'z') || ('0' ≤ c && c ≤ '9')

def unnamed : Text := "unnamed"

/-- A name of small Latin letters, digits and underscores that starts with a letter. -/
def toSnake : Text :=
  match trimUnderscores (fillGaps isSnakeChar '_' t) with
  | [] => unnamed
  | c :: rest => if c.isDigit then "a_" ++ c :: rest else c :: rest

variable (label : Text)

def snake : Text := toSnake (latin (Label.legible label))

def native : Text :=
  let t := trimUnderscores (fillGaps (fun c => isNameChar c && c != '_') '_' (Label.legibleKey label))
  if t.isEmpty then unnamed else t

/-- The form in which labels are compared: white space, underscores, hyphens and backslashes count as one blank. -/
def labelKey : Text :=
  fillGaps (fun c => !(isBlank c || c == '_' || c == '\\' || c == '-')) ' '
    (trim (lower (Label.legible label)))

/-- Parts of Russian words and the English words put in their place. -/
def englishWords : List (Text × Text) := Table.ofStrings
  [("сообщение", "message"), ("выдать", "give"), ("установить", "set"), ("присв", "set"), ("удалить", "remove"),
   ("телепорт", "teleport"), ("урон", "damage"), ("исцел", "heal"), ("предмет", "item"), ("инвентарь", "inventory"),
   ("брон", "armor"), ("функц", "function")]

def english : Text :=
  snake (englishWords.foldl (fun t w => Text.replace w.1 w.2 t) (Label.legibleKey label))

/-! ### Menu titles -/

def pagePattern : Pattern :=
  .lit "(" ++ .blanks ++ .many1 .digit ++ .blanks1 ++ .word "из"
    ++ .blanks1 ++ .many1 .digit ++ .blanks ++ .lit ")" ++ .blanks ++ .atEnd

def dropPage (title : Text) : Text := trim (pagePattern.replaceAll [] (trim (Label.legible title)))

/-- The names that a menu title gives: from the whole title, and from what stands before a slash. -/
def menuNames (title : Text) : List Text :=
  let base := dropPage title
  if base.isEmpty then []
  else
    let left := ((cutAt? "/" base).map fun p => trim p.1).getD []
    [native base, english base] ++ if left.isEmpty then [] else [native left, english left]

/-- The title of an item in a menu: what stands after the bracketed id and before the first bar. -/
def menuTitle (raw : Text) : Text :=
  let s := Label.legible raw
  let s := trim (((cutAt? "]" s).map (·.2)).getD s)
  ((cutAt? "|" s).map fun p => trim p.1).getD s

/-! ### Modules -/

/-- The module of an action by the first line of its sign. `others` are words for the same modules that only some tables
know: of selections, beings and values. -/
def moduleWith (selects beings values : List Text) (key : Text) : Text :=
  let has (w : Text) : Bool := hasInfix key w
  if has "действие игрока" then "player"
  else if has "игровое действие" then "game"
  else if selects.any has then "select"
  else if has "массив" then "array"
  else if has "присв" || has "установить переменную" || key == "переменную" then "var"
  else if key.startsWith "если " then
    if has "игра" then "if_game"
    else if has "игрок" then "if_player"
    else if beings.any has then "if_entity"
    else if values.any has then "if_value"
    else "if"
  else "misc"

def moduleOf (sign1 : Text) : Text :=
  moduleWith (texts ["выбрать объект", "выбрать обьект"]) (texts ["сущ", "моб"]) (texts ["значен", "перемен"])
    (Label.legibleKey sign1)

/-- What a selection with a condition selects, by the second line of its sign. -/
def scope? (sign2 : Text) : Option Text :=
  let key := Label.legibleKey sign2
  if !hasInfix key "по условию" then none
  else if hasInfix key "игрок" then some "ifplayer"
  else if hasInfix key "моб" then some "ifmob"
  else if hasInfix key "сущност" then some "ifentity"
  else none

end Naming
end BlockScript
