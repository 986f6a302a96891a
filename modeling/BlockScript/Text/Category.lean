import BlockScript.Text.Basic

/-!
# Character categories

Which characters are letters, digits, printable. The tables list the ranges above ASCII by their distances; the ASCII
part of each category is written out as a test.
-/

namespace BlockScript

/-! ### Range tables -/

/-- Increasing closed ranges by distances: how far each begins behind the end of the one before it, and how far it
goes. -/
def rangesOf (last : Nat) : List Nat → List (Nat × Nat)
  | gap :: length :: rest => (last + gap, last + gap + length) :: rangesOf (last + gap + length) rest
  | _ => []

/-- Membership in an increasing list of closed ranges. -/
def inRanges (n : Nat) : List (Nat × Nat) → Bool
  | [] => false
  | (lo, hi) :: rest => if n < lo then false else if n ≤ hi then true else inRanges n rest

/-- The start of the range that holds `n`, in an increasing list of closed ranges. -/
def rangeStart? (n : Nat) : List (Nat × Nat) → Option Nat
  | [] => none
  | (lo, hi) :: rest => if n < lo then none else if n ≤ hi then some lo else rangeStart? n rest

def alphanumericRanges : List (Nat × Nat) := rangesOf 0
  [170,0,8,1,2,0,4,1,2,2,2,22,2,30,2,457,5,11,15,4,8,0,2,0,130,4,2,1,3,3,2,0,7,0,2,2,2,0,2,19,2,82,2,138,9,165,2,37,3,
   0,7,40,72,26,5,3,46,42,22,9,5,1,2,98,2,0,16,1,8,14,3,0,17,0,2,29,30,88,12,0,15,42,10,1,5,0,6,21,5,0,10,0,4,0,24,24,
   8,10,6,23,2,5,18,41,59,53,4,0,19,0,8,9,5,9,2,15,5,7,3,1,3,21,2,6,2,0,4,3,4,0,17,0,14,1,2,2,5,11,3,5,3,0,9,5,5,1,3,
   21,2,6,2,1,2,1,2,1,32,3,2,0,8,9,3,2,17,8,2,2,2,21,2,6,2,1,2,4,4,0,19,0,16,1,5,9,10,0,12,7,3,1,3,21,2,6,2,1,2,4,4,0,
   31,1,2,2,5,9,2,6,12,0,2,5,4,2,2,3,4,1,2,0,2,1,4,1,4,2,4,11,23,0,22,12,19,7,2,2,2,22,2,15,4,0,27,2,3,0,3,1,5,9,9,6,2,
   0,5,7,2,2,2,22,2,9,2,4,4,0,32,1,2,1,5,9,2,1,18,8,2,2,2,40,3,0,17,0,6,2,2,9,5,18,2,5,6,17,4,23,2,8,2,0,3,6,32,9,18,
   47,2,1,13,6,10,9,40,1,2,0,2,4,2,23,2,0,2,9,2,1,10,0,3,4,2,0,10,9,3,3,33,0,32,19,13,7,2,35,28,4,116,42,21,10,7,5,5,3,
   4,0,4,1,8,2,5,12,13,0,2,9,7,37,2,0,6,0,3,42,2,332,2,3,3,6,2,0,2,3,3,40,2,3,3,32,2,3,3,6,2,0,2,3,3,14,2,56,2,3,3,66,
   15,19,4,15,17,85,3,5,4,619,3,16,2,25,6,74,4,10,8,17,14,18,15,17,15,12,2,2,16,51,36,0,5,0,4,9,7,9,23,9,7,88,8,4,3,33,
   2,0,6,69,11,30,40,39,3,4,12,43,5,25,7,10,38,22,10,52,44,9,7,9,14,0,94,46,18,7,4,9,42,29,14,55,27,35,29,9,4,48,3,8,8,
   42,3,2,42,3,2,5,2,1,4,0,6,191,65,277,3,5,3,37,3,5,3,7,2,0,2,0,2,0,2,30,3,52,2,6,2,0,4,2,2,6,4,3,3,5,5,12,6,2,2,6,
   116,1,3,5,6,10,7,12,102,0,5,0,3,9,2,0,4,4,7,0,2,0,2,0,2,3,2,10,3,3,6,4,5,0,2,57,727,59,79,21,631,29,1133,228,7,3,4,
   1,10,0,3,37,2,0,6,0,3,55,8,0,17,22,10,6,2,6,2,6,2,6,2,6,2,6,2,6,2,6,81,0,470,2,26,8,8,4,3,4,5,85,7,2,2,89,2,3,6,42,
   2,93,4,3,11,31,49,15,33,9,31,7,2,14,33,9,40,14,321,6591,65,22156,68,45,3,268,4,27,21,46,17,30,3,79,40,8,3,102,3,63,
   6,1,2,0,2,4,25,15,2,2,2,3,2,22,14,5,11,51,15,49,29,9,25,5,4,0,2,1,2,37,11,22,26,28,8,46,29,10,7,4,2,24,2,40,24,2,2,
   7,5,9,7,22,4,0,4,49,2,0,4,1,3,4,3,0,2,0,25,2,3,10,8,2,13,5,3,5,3,5,10,6,2,6,2,42,2,13,7,114,14,9,7,11171,13,22,5,48,
   8453,365,3,105,39,6,13,4,6,0,2,9,2,12,2,4,2,0,2,1,2,1,2,107,34,362,19,63,3,53,41,11,117,4,2,134,20,9,8,25,7,25,12,
   88,4,5,3,5,3,5,3,2,36,11,2,25,2,18,2,1,2,14,3,13,35,122,13,44,13,56,18,1,245,28,4,48,17,26,5,35,10,29,6,37,11,29,3,
   35,5,7,2,4,43,157,3,9,7,35,5,35,5,39,9,51,13,10,2,14,2,6,2,1,2,10,2,14,2,6,2,1,68,310,10,21,11,7,25,5,2,41,2,8,70,5,
   3,0,2,43,2,1,4,0,3,22,3,30,3,37,9,8,49,18,2,1,6,32,5,25,71,55,5,19,3,46,16,3,2,2,2,28,11,8,24,30,2,31,33,7,2,27,7,4,
   17,53,11,21,3,26,6,25,24,6,81,72,56,50,14,50,8,41,13,9,295,30,2,41,7,1,79,39,9,21,12,3,28,17,47,27,21,22,13,52,27,
   29,2,1,3,0,14,44,33,24,8,9,10,35,16,9,5,0,3,0,9,34,4,0,13,47,15,3,12,10,2,0,5,19,12,17,2,24,85,6,2,0,2,3,2,14,2,9,8,
   46,18,9,12,7,3,1,3,21,2,6,2,1,2,4,4,0,19,0,13,4,159,52,19,3,6,9,6,2,31,47,21,1,2,0,9,9,167,46,42,3,37,47,21,0,12,9,
   39,42,14,0,8,9,55,26,22,11,5,6,186,43,117,82,13,7,3,0,3,7,2,1,2,23,16,0,2,0,15,9,71,7,3,38,17,0,2,0,29,0,11,39,8,0,
   22,0,12,45,20,0,19,72,264,8,2,36,18,0,16,28,6,29,113,6,2,1,2,37,22,0,10,9,7,5,2,1,2,31,15,0,8,9,311,18,190,0,16,20,
   44,921,103,110,18,195,2637,96,16,1070,4050,582,8634,568,8,30,2,9,7,78,2,9,7,29,19,47,17,3,13,9,2,6,2,20,6,18,689,86,
   106,74,6,0,67,12,65,1,2,0,29,6135,9,1237,43,8,8936,3,2,6,2,1,2,290,46,2,18,3,9,395,2309,106,6,12,4,8,8,9,5703,19,
   109,24,136,84,2,70,2,1,3,0,3,1,3,3,2,11,2,0,2,6,2,64,2,3,3,7,2,6,2,27,2,3,2,4,2,0,4,6,2,339,3,24,2,24,2,30,2,24,2,
   30,2,24,2,30,2,24,2,30,2,24,2,7,3,49,1793,30,482,44,11,6,3,9,5,0,322,29,19,43,5,9,1255,6,2,3,2,1,2,14,2,196,3,8,49,
   67,8,0,5,9,792,58,2,2,2,3,77,44,2,14,195,3,2,26,2,1,2,0,3,0,2,9,2,3,2,0,2,0,7,0,5,0,2,0,2,0,2,2,2,1,2,0,3,0,2,0,2,0,
   2,0,2,0,2,1,2,0,3,3,2,6,2,3,2,3,2,0,2,9,2,16,6,2,2,4,2,16,581,12,2788,9,1031,42719,33,4152,8,221,3,5761,15,7472,
   3104,541,1507,4938]

/-- Decimal digits above ASCII. Each range is a whole number of runs from zero to nine. -/
def decimalRanges : List (Nat × Nat) := rangesOf 0
  [1632,9,135,9,199,9,413,9,119,9,119,9,119,9,119,9,119,9,119,9,119,9,119,9,119,9,97,9,119,9,71,9,279,9,71,9,1863,9,39,
   9,301,9,129,9,167,9,7,9,183,9,87,9,135,9,7,9,35271,9,679,9,39,9,199,9,23,9,87,9,407,9,21271,9,1415,9,2183,9,813,9,
   129,9,61,9,145,9,279,9,343,9,119,9,375,9,103,9,103,9,423,9,103,9,759,9,247,9,71,9,19639,9,87,9,135,9,27765,49,2369,
   9,423,9,1623,9,4759,9]

/-- Digits that have a value but no place in a decimal numeral, such as superscripts. -/
def digitMarkRanges : List (Nat × Nat) := rangesOf 0
  [178,1,6,0,4784,8,1641,0,1686,0,4,5,7,9,983,8,12,8,12,8,90,0,11,8,2,0,631,8,2,8,2,8,58030,3,1053,8,490,8,57510,10]

/-- Ranges above ASCII in which only letters and numerals are printed as themselves: separators other than the space,
controls, private and unassigned code points. -/
def unprintableRanges : List (Nat × Nat) := rangesOf 0
  [128,32,13,0,715,1,7,3,8,23,398,40,51,1,4,0,56,38,7,16,23,0,193,0,49,1,60,1,102,13,60,1,50,1,16,0,29,1,2,16,32,8,75,
   0,162,55,10,1,3,1,5,7,2,6,6,1,26,1,4,55,2,0,6,3,3,1,4,2,2,19,18,9,4,55,11,0,4,0,4,17,5,1,13,6,8,0,4,55,10,1,3,1,4,
   6,4,6,6,1,19,9,3,57,6,2,4,0,5,8,2,13,22,4,14,46,10,0,4,0,5,6,3,8,5,18,23,46,10,0,4,0,5,6,3,8,5,27,14,4,52,0,4,0,7,
   3,17,1,27,0,4,69,2,3,7,0,2,0,9,17,4,11,59,3,30,74,24,9,7,49,73,40,40,0,37,0,16,0,14,36,199,9,378,275,33,2,27,101,
   641,0,29,2,90,6,23,8,25,8,21,29,3,11,95,33,15,0,12,101,44,116,13,3,13,3,2,2,43,111,63,1,66,0,30,1,12,21,15,1,32,48,
   78,2,48,0,117,7,61,2,16,2,61,51,12,7,44,4,535,159,16,0,15,8,20,5,10,16,25,7,48,20,28,16,34,14,34,14,141,3,664,24,
   12,20,1813,1,33,0,350,4,46,72,3,13,25,72,127,33,27,0,90,11,215,25,13,4,64,88,104,143,85,11,48,0,29294,2,56,8,349,
   19,185,7,204,38,60,2,11,5,57,7,71,7,13,5,117,10,31,2,79,15,34,0,56,8,15,13,104,23,29,56,61,3,127,20270,27,14,126,
   15,446,62,2,31,43,5,52,0,20,0,5,148,191,32,8,0,8,12,3,257,4,51,89,0,14,2,2,46,47,225,29,83,44,35,38,3,15,408,13,
   731,73,127,28,4,2,145,51,0,3,4,9,35,4,3,11,6,10,6,65,31,40,3,13,65,30,66,5,348,47,386,4,129,43,21,27,117,79,3,37,8,
   63,0,6,60,54,0,19,7,40,8,97,50,45,95,12,5,60,20,5,54,11,1,3,1,4,8,2,4,8,1,8,2,6,138,93,0,6,29,73,183,55,1,39,33,70,
   26,14,18,59,98,16,3,24,184,61,219,31,0,3,1,13,98,47,1,12,26,73,7,84,358,46,0,15,41,33,1,23,0,15,83,45,2,2,0,3,0,10,
   33,38,0,3,0,7,326,26,198,51,12,924,213,6,2842,100,14970,82,48,7,9,71,761,92,179,58,6,18,63,6,10,3,19625,5,4703,47,
   1,24,8,117,59,247,9,40,1,75,7,113,20,71,185,88,848,293,1,703,14,6,0,16,1359,8,0,18,1,8,0,3,0,6,260,15,15,3,319,32,
   16,59,4,2,1478,17,40,77,17,3,784,69,75,62,433,3,269,45,3,101,11,16,1,16,0,16,0,38,9,175,55,30,12,45,3,10,6,3,13,7,
   153,985,4,17,2,14,2,117,11,90,6,13,3,2,14,13,3,57,7,11,5,41,7,31,1,3,77,341,11,15,1,6,2,6,2,8,8,30,2,12,4,7,9,11,5,
   9,7,8,8,148,0,56,787764,241,196111]

/-- Ranges above ASCII without letters that hold the numerals other than decimal digits. -/
def numeralRanges : List (Nat × Nat) := rangesOf 0
  [178,1,6,0,3,2,2358,5,377,5,121,2,134,6,218,6,18,8,434,9,1078,19,882,2,256,9,481,0,1686,0,4,5,7,9,199,50,3,1550,
   1386,0,778,34,15,2,344,3,139,159,29735,9,321,5,22738,132,342,26,37,3,30,0,9,0,135,4,1155,7,26,6,40,8,76,4,23,5,161,
   1,3,63,65,8,53,1,31,2,76,4,105,7,25,7,42,6,331,5,353,30,159,9,43,3,113,6,135,19,380,19,1350,1,431,8,872,18,852,20,
   1068,110,18157,6,799,22,25674,152,5455,8,930,204,963,12]

/-! ### Categories -/

variable (c : Char)

def isAlphanumeric : Bool :=
  if c.toNat < 128 then c.isAlphanum else inRanges c.toNat alphanumericRanges

/-- A character of a word: a letter, a numeral or the underscore. -/
def isWordChar : Bool := isAlphanumeric c || c == '_'

def decimalValue? : Option Nat :=
  if c.toNat < 128 then
    if c.isDigit then some (c.toNat - 48) else none
  else (rangeStart? c.toNat decimalRanges).map fun lo => (c.toNat - lo) % 10

def isDecimal : Bool := (decimalValue? c).isSome

def isLetter : Bool :=
  if c.toNat < 128 then c.isAlpha else isAlphanumeric c && !isDecimal c && !inRanges c.toNat numeralRanges

/-- A digit of any script, superscripts and other digit marks included. -/
def isDigitMark : Bool := isDecimal c || inRanges c.toNat digitMarkRanges

def isPrintable : Bool :=
  if c.toNat < 128 then 32 ≤ c.toNat && c.toNat < 127
  else isAlphanumeric c || !inRanges c.toNat unprintableRanges

def isCyrillic : Bool := 0x400 ≤ c.toNat && c.toNat ≤ 0x4FF

end BlockScript
