import BlockScript.Json.Basic

/-!
# Printing JSON

Files are written with some blanks of indentation per level, mostly two, one item or field per line, and characters as
they are but for quotes, backslashes and control characters.
-/

namespace BlockScript.Json

/-- The hexadecimal digits of a number, at least `width` of them. -/
def hexText (width n : Nat) : Text :=
  let ds := Nat.toDigits 16 n
  List.replicate (width - ds.length) '0' ++ ds

def escape (c : Char) : Text :=
  match c with
  | '"' => "\\\""
  | '\\' => "\\\\"
  | '\n' => "\\n"
  | '\r' => "\\r"
  | '\t' => "\\t"
  | '\x08' => "\\b"
  | '\x0c' => "\\f"
  | c => if c.toNat < 32 then "\\u" ++ hexText 4 c.toNat else [c]

def quote (t : Text) : Text := '"' :: t.flatMap escape ++ ['"']

def realText : Binary64 → Text
  | .nan => "NaN"
  | .inf s => if s then "-Infinity" else "Infinity"
  | x => x.render

def newLine (width level : Nat) : Text := '\n' :: List.replicate (width * level) ' '

mutual

def renderAt (width level : Nat) : Json → Text
  | .null => "null"
  | .bool b => if b then "true" else "false"
  | .int n => Text.ofInt n
  | .real x => realText x
  | .str t => quote t
  | .arr [] => "[]"
  | .arr (x :: xs) => "[" ++ renderItems width (level + 1) (x :: xs) ++ newLine width level ++ "]"
  | .obj [] => ['\x7b', '\x7d']
  | .obj (f :: fs) => ['\x7b'] ++ renderFields width (level + 1) (f :: fs) ++ newLine width level ++ ['\x7d']

def renderItems (width level : Nat) : List Json → Text
  | [] => []
  | [x] => newLine width level ++ renderAt width level x
  | x :: xs => newLine width level ++ renderAt width level x ++ "," ++ renderItems width level xs

def renderFields (width level : Nat) : List (Text × Json) → Text
  | [] => []
  | [(k, v)] => newLine width level ++ quote k ++ ": " ++ renderAt width level v
  | (k, v) :: rest =>
    newLine width level ++ quote k ++ ": " ++ renderAt width level v ++ "," ++ renderFields width level rest

end
variable (v : Json)

def render : Text := renderAt 2 0 v

/-! ### On one line -/

def endsLine (c : Char) : Bool := c == '\u0085' || c == '\u2028' || c == '\u2029'

/-- A text in quotes, without any character that ends a line. -/
def quoteLine (t : Text) : Text :=
  '"' :: t.flatMap (fun c => if endsLine c then "\\u" ++ hexText 4 c.toNat else escape c) ++ ['"']

mutual

/-- The value on one line, with texts quoted in a given way. -/
def inlineWith (q : Text → Text) : Json → Text
  | .null => "null"
  | .bool b => if b then "true" else "false"
  | .int n => Text.ofInt n
  | .real x => realText x
  | .str t => q t
  | .arr xs => "[" ++ inlineItems q xs ++ "]"
  | .obj fs => ['\x7b'] ++ inlineFields q fs ++ ['\x7d']

def inlineItems (q : Text → Text) : List Json → Text
  | [] => []
  | [x] => inlineWith q x
  | x :: xs => inlineWith q x ++ ", " ++ inlineItems q xs

def inlineFields (q : Text → Text) : List (Text × Json) → Text
  | [] => []
  | [(k, v)] => q k ++ ": " ++ inlineWith q v
  | (k, v) :: rest => q k ++ ": " ++ inlineWith q v ++ ", " ++ inlineFields q rest

end

def inline : Text := inlineWith quote v

/-- The value on one line, for readers that take more characters for the end of a line. -/
def renderLine : Text := inlineWith quoteLine v

def fileText : Text := render v ++ "\n"

end BlockScript.Json
