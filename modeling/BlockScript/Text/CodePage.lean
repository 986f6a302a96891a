import BlockScript.Text.Basic

/-!
# Code pages

Text stored in one code page and read in another can be recovered by going back to the bytes. `latin1` gives
every byte the character with its number, `cyrillic` is the code page for Windows in Cyrillic script, and `utf8` has one
to four bytes per character.
-/

namespace BlockScript

abbrev Bytes := List UInt8

namespace CodePage

/-! ### One byte per character -/

/-- The code points of the upper half of the Cyrillic code page; zero where there is none. -/
def cyrillicUpper : List Nat :=
  [0x0402, 0x0403, 0x201A, 0x0453, 0x201E, 0x2026, 0x2020, 0x2021, 0x20AC, 0x2030, 0x0409, 0x2039, 0x040A, 0x040C,
   0x040B, 0x040F, 0x0452, 0x2018, 0x2019, 0x201C, 0x201D, 0x2022, 0x2013, 0x2014, 0, 0x2122, 0x0459, 0x203A, 0x045A,
   0x045C, 0x045B, 0x045F, 0x00A0, 0x040E, 0x045E, 0x0408, 0x00A4, 0x0490, 0x00A6, 0x00A7, 0x0401, 0x00A9, 0x0404,
   0x00AB, 0x00AC, 0x00AD, 0x00AE, 0x0407, 0x00B0, 0x00B1, 0x0406, 0x0456, 0x0491, 0x00B5, 0x00B6, 0x00B7, 0x0451,
   0x2116, 0x0454, 0x00BB, 0x0458, 0x0405, 0x0455, 0x0457] ++ (List.range 64).map (0x0410 + ·)

def cyrillicChar? (b : UInt8) : Option Char :=
  if b.toNat < 128 then some (Char.ofNat b.toNat)
  else match cyrillicUpper.drop (b.toNat - 128) with
    | 0 :: _ | [] => none
    | n :: _ => some (Char.ofNat n)

def cyrillicByte? (c : Char) : Option UInt8 :=
  if c.toNat < 128 then some c.toNat.toUInt8
  else (cyrillicUpper.findIdx? (· == c.toNat)).map fun i => (i + 128).toUInt8

def latin1Byte? (c : Char) : Option UInt8 := if c.toNat < 256 then some c.toNat.toUInt8 else none

def cyrillic? (bs : Bytes) : Option Text := bs.mapM cyrillicChar?

/-! ### One to four bytes per character -/

/-- The first bytes of a text: a character, or bytes that begin no character, with their number. -/
structure Utf8Step where
  char : Option Char
  size : Nat

def isTail (b : UInt8) : Bool := 0x80 ≤ b && b ≤ 0xBF

/-- The second byte of a character may follow its first. -/
def isSecond (first b : UInt8) : Bool :=
  if first == 0xE0 then 0xA0 ≤ b && b ≤ 0xBF
  else if first == 0xED then 0x80 ≤ b && b ≤ 0x9F
  else if first == 0xF0 then 0x90 ≤ b && b ≤ 0xBF
  else if first == 0xF4 then 0x80 ≤ b && b ≤ 0x8F
  else isTail b

variable (first : UInt8)

/-- How many bytes follow the first byte of a character; none if it begins no character. -/
def tailLength? : Option Nat :=
  if first < 0x80 then some 0
  else if first < 0xC2 then none
  else if first < 0xE0 then some 1
  else if first < 0xF0 then some 2
  else if first < 0xF5 then some 3
  else none

def headValue : Nat :=
  if first < 0x80 then first.toNat
  else if first < 0xE0 then first.toNat % 32
  else if first < 0xF0 then first.toNat % 16
  else first.toNat % 8

/-- The bytes that go on a character, as many as are there and at most `n`. -/
def tailOf (n : Nat) (rest : Bytes) : Bytes :=
  match rest.take n with
  | [] => []
  | b :: more => if isSecond first b then b :: more.takeWhile isTail else []

def utf8Step (rest : Bytes) : Utf8Step :=
  match tailLength? first with
  | none => ⟨none, 1⟩
  | some n =>
    let tail := tailOf first n rest
    if tail.length == n then
      ⟨some (Char.ofNat (tail.foldl (fun v b => v * 64 + b.toNat % 64) (headValue first))), n + 1⟩
    else ⟨none, tail.length + 1⟩

/-- The text of bytes, where bytes that begin no character are written as `replacement`, at most `fuel` characters. -/
def utf8From (replacement : Option Char) : Nat → Bytes → Option Text
  | 0, _ => some []
  | _, [] => some []
  | fuel + 1, first :: rest =>
    let step := utf8Step first rest
    match step.char.or replacement with
    | none => none
    | some c => (utf8From replacement fuel (rest.drop (step.size - 1))).map (c :: ·)

def utf8? (bs : Bytes) : Option Text := utf8From none bs.length bs

/-- The text of bytes; bytes that begin no character are written as the replacement character. -/
def utf8 (bs : Bytes) : Text := (utf8From (some '\uFFFD') bs.length bs).getD []

def utf8Bytes (c : Char) : Bytes :=
  let n := c.toNat
  let tail (k : Nat) : UInt8 := (0x80 + n / Nat.pow 64 k % 64).toUInt8
  if n < 0x80 then [n.toUInt8]
  else if n < 0x800 then [(0xC0 + n / 64).toUInt8, tail 0]
  else if n < 0x10000 then [(0xE0 + n / 4096).toUInt8, tail 1, tail 0]
  else [(0xF0 + n / 262144).toUInt8, tail 2, tail 1, tail 0]

def fromLatin1? (t : Text) : Option Text := (t.mapM latin1Byte?).bind cyrillic?

/-- Text of several bytes per character read in the Cyrillic code page. -/
def fromCyrillic? (t : Text) : Option Text := (t.mapM cyrillicByte?).bind utf8?

/-- A text and what it may have been before it was read in the wrong code page. -/
def variants (t : Text) : List Text :=
  keepFirst ([t] ++ (fromLatin1? t).toList ++ (fromCyrillic? t).toList)

end CodePage
end BlockScript
