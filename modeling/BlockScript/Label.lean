import BlockScript.Text.Case

/-!
# Labels

The text on signs and items carries colour codes (the section sign and one character) and control characters.
Some of it was stored in the wrong code page, so that Cyrillic letters appear as accented Latin ones.

A label is compared by its `key`: colours gone, letters repaired, white space collapsed, lower case.
-/

namespace BlockScript.Label

/-- Drop every section sign together with the character after it. A section sign at the end of a line stays. -/
def dropColorCodes : Text → Text
  | [] => []
  | [c] => [c]
  | c :: d :: rest =>
    if c == '§' && d != '\n' then dropColorCodes rest else c :: dropColorCodes (d :: rest)

variable (t : Text)

def dropControls : Text := t.filter fun c => 32 ≤ c.toNat

def plain : Text := dropControls (dropColorCodes t)

def repairTable : List (Char × Char) :=
  [('à', 'а'), ('á', 'б'), ('â', 'в'), ('ã', 'г'), ('ä', 'д'), ('å', 'е'), ('¸', 'ё'), ('æ', 'ж'),
   ('ç', 'з'), ('è', 'и'), ('é', 'й'), ('ê', 'к'), ('ë', 'л'), ('ì', 'м'), ('í', 'н'), ('î', 'о'),
   ('ï', 'п'), ('ð', 'р'), ('ñ', 'с'), ('ò', 'т'), ('ó', 'у'), ('ô', 'ф'), ('õ', 'х'), ('ö', 'ц'),
   ('ø', 'ш'), ('ù', 'щ'), ('ú', 'ъ'), ('û', 'ы'), ('ü', 'ь'), ('ý', 'э'), ('þ', 'ю'), ('ÿ', 'я')]

/-- The letter an accented letter stands for; other characters stand for themselves. -/
def repairChar (c : Char) : Char := (repairTable.lookup c).getD c

def repair : Text := t.map repairChar

/-- The text as it is shown: without colours and controls, letters repaired. -/
def display : Text := repair (plain t)

/-- Write every run of white space as one blank. `gap` says that the character before was white space. -/
def collapseFrom (gap : Bool) : Text → Text
  | [] => []
  | c :: rest =>
    if isBlank c then (if gap then collapseFrom true rest else ' ' :: collapseFrom true rest)
    else c :: collapseFrom false rest

def collapse : Text := collapseFrom false t

def key : Text := Text.lower (Text.trim (collapse (display t)))

/-- The form in which stored labels are compared: as `key`, with the letters as they are. -/
def plainKey : Text := Text.lower (Text.trim (collapse (plain t)))

/-- The form in which names are compared that may be spelt with or without gaps: as shown, in lower case, without
white space, underscores, hyphens and backslashes. -/
def tight : Text :=
  (Text.lower (display t)).filter fun c => !(isBlank c || c == '_' || c == '\\' || c == '-')

/-- The title of an item in a menu: what stands after the bracketed item id and before the first bar. -/
def title : Text :=
  let s := display t
  let s := match Text.cutAt? "]" s with
    | some (_, after) => after
    | none => s
  let s := s.trim
  match Text.cutAt? "|" s with
  | some (before, _) => before.trim
  | none => s

end BlockScript.Label
