import BlockScript.Json.Basic

/-!
# Reading JSON

A reader per kind of value; each takes the text left and gives a value with the text after it. The
readers of lists and records call each other with less fuel; a text never needs more fuel than it has
characters.
-/

namespace BlockScript.Json

def isGap (c : Char) : Bool := c == ' ' || c == '\t' || c == '\n' || c == '\r'

variable (t : Text)

def dropGaps : Text := t.dropWhile isGap

def hexDigit? (c : Char) : Option Nat :=
  if '0' ≤ c ∧ c ≤ '9' then some (c.toNat - 48)
  else if 'a' ≤ c ∧ c ≤ 'f' then some (c.toNat - 87)
  else if 'A' ≤ c ∧ c ≤ 'F' then some (c.toNat - 55)
  else none

def hexUnit? : Text → Option (Nat × Text)
  | a :: b :: c :: d :: rest => do
    let a ← hexDigit? a
    let b ← hexDigit? b
    let c ← hexDigit? c
    let d ← hexDigit? d
    some (a * 4096 + b * 256 + c * 16 + d, rest)
  | _ => none

def escapeChar? : Char → Option Char
  | '"' => some '"'
  | '\\' => some '\\'
  | '/' => some '/'
  | 'b' => some '\x08'
  | 'f' => some '\x0c'
  | 'n' => some '\n'
  | 'r' => some '\r'
  | 't' => some '\t'
  | _ => none

/-- The character of one code unit and the second unit of a pair, if the first begins a pair. -/
def unitChar? (u : Nat) (rest : Text) : Option (Char × Text) :=
  if 0xD800 ≤ u ∧ u < 0xDC00 then
    match rest with
    | '\\' :: 'u' :: more =>
      match hexUnit? more with
      | some (v, after) =>
        if 0xDC00 ≤ v ∧ v < 0xE000 then
          some (Char.ofNat (0x10000 + (u - 0xD800) * 1024 + (v - 0xDC00)), after)
        else some ('�', rest)
      | none => none
    | _ => some ('�', rest)
  else if 0xDC00 ≤ u ∧ u < 0xE000 then some ('�', rest)
  else some (Char.ofNat u, rest)

/-- The characters of a text up to its closing quote. With `strict`, control characters are refused. -/
def readChars (strict : Bool) : Nat → Text → Text → Option (Text × Text)
  | 0, _, _ => none
  | fuel + 1, acc, t =>
    match t with
    | [] => none
    | '"' :: rest => some (acc.reverse, rest)
    | '\\' :: 'u' :: rest => do
      let (u, rest) ← hexUnit? rest
      let (c, rest) ← unitChar? u rest
      readChars strict fuel (c :: acc) rest
    | '\\' :: e :: rest => do
      let c ← escapeChar? e
      readChars strict fuel (c :: acc) rest
    | c :: rest =>
      if c == '\\' || (strict && c.toNat < 32) then none else readChars strict fuel (c :: acc) rest

def readText : Option (Text × Text) := readChars true (t.length + 1) [] t

def natOfDigits (ds : Text) : Nat := ds.foldl (fun n c => n * 10 + (c.toNat - 48)) 0

def readDigits : Text × Text := t.span Char.isDigit

def readExponent? : Option (Int × Text) :=
  match t with
  | e :: rest =>
    if e == 'e' || e == 'E' then
      let (neg, rest) := match rest with
        | '-' :: r => (true, r)
        | '+' :: r => (false, r)
        | r => (false, r)
      let (ds, after) := readDigits rest
      if ds.isEmpty then none
      else some (if neg then -(natOfDigits ds : Int) else natOfDigits ds, after)
    else none
  | [] => none

def readFraction? : Text → Option (Text × Text)
  | '.' :: rest =>
    let (ds, after) := readDigits rest
    if ds.isEmpty then none else some (ds, after)
  | _ => none

def readNumber? : Option (Json × Text) :=
  let (neg, t) := match t with
    | '-' :: r => (true, r)
    | r => (false, r)
  let (whole, t) := match t with
    | '0' :: r => (['0'], r)
    | r => readDigits r
  if whole.isEmpty then none
  else
    match readFraction? t, readExponent? t with
    | none, none =>
      let n : Int := natOfDigits whole
      some (.int (if neg then -n else n), t)
    | none, some (e, after) => some (.real (.ofDecimal neg (natOfDigits whole) e), after)
    | some (frac, after), _ =>
      let digits := natOfDigits (whole ++ frac)
      match readExponent? after with
      | some (e, after) => some (.real (.ofDecimal neg digits (e - frac.length)), after)
      | none => some (.real (.ofDecimal neg digits (-(frac.length : Int))), after)

def wordValues : List (Text × Json) :=
  [("null", .null), ("true", .bool true), ("false", .bool false), ("NaN", .real .nan),
    ("Infinity", .real (.inf false)), ("-Infinity", .real (.inf true))]

def readScalar? : Option (Json × Text) :=
  match wordValues.find? fun w => w.1.isPrefixOf t with
  | some (w, v) => some (v, t.drop w.length)
  | none => readNumber? t

mutual

def readValue : Nat → Text → Option (Json × Text)
  | 0, _ => none
  | fuel + 1, t =>
    match t with
    | '"' :: rest => (readText rest).map fun (s, after) => (.str s, after)
    | '[' :: rest =>
      match dropGaps rest with
      | ']' :: after => some (.arr [], after)
      | inner => (readItems fuel inner).map fun (xs, after) => (.arr xs, after)
    | '\x7b' :: rest =>
      match dropGaps rest with
      | '\x7d' :: after => some (.obj [], after)
      | inner => (readFields fuel inner).map fun (fs, after) => (.obj (Table.ofList fs), after)
    | t => readScalar? t

def readItems : Nat → Text → Option (List Json × Text)
  | 0, _ => none
  | fuel + 1, t =>
    match readValue fuel (dropGaps t) with
    | none => none
    | some (x, after) =>
      match dropGaps after with
      | ']' :: rest => some ([x], rest)
      | ',' :: rest => (readItems fuel rest).map fun (xs, rest) => (x :: xs, rest)
      | _ => none

def readFields : Nat → Text → Option (List (Text × Json) × Text)
  | 0, _ => none
  | fuel + 1, t =>
    match dropGaps t with
    | '"' :: rest =>
      match readText rest with
      | none => none
      | some (key, after) =>
        match dropGaps after with
        | ':' :: rest =>
          match readValue fuel (dropGaps rest) with
          | none => none
          | some (v, after) =>
            match dropGaps after with
            | '\x7d' :: rest => some ([(key, v)], rest)
            | ',' :: rest => (readFields fuel rest).map fun (fs, rest) => ((key, v) :: fs, rest)
            | _ => none
        | _ => none
    | _ => none

end

def readFirst? : Option (Json × Text) := readValue (2 * t.length + 2) t

def read? : Option Json :=
  match readFirst? (dropGaps t) with
  | some (v, rest) => if (dropGaps rest).isEmpty then some v else none
  | none => none

end BlockScript.Json
