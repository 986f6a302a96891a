import BlockScript.Text.Category

/-!
# Identifiers

An identifier begins with a letter or the underscore and goes on with letters, digits, marks and underscores of any
script. Above ASCII the two classes are given by how they differ from the letters and numerals.
-/

namespace BlockScript

/-- Ranges without letters and numerals that go on an identifier. -/
def nonContinuingRanges : List (Nat × Nat) := rangesOf 0
  [178,1,6,0,3,2,700,0,1658,5,377,5,121,2,134,6,218,6,18,8,434,9,1087,10,1140,9,2167,0,4,5,7,9,199,15,42,1546,1386,0,
   306,0,867,3,139,159,30065,5,21545,5,407,118,2,0,2,2,2,0,2,0,2,0,2,0,649,44,66,22,342,26,37,3,1333,7,26,6,40,8,76,4,
   23,5,161,1,3,63,65,8,53,1,31,2,76,4,105,7,25,7,42,6,331,5,353,30,159,9,43,3,113,6,135,19,380,19,1350,1,431,8,872,
   18,852,20,19335,6,799,22,25674,152,5455,8,930,204,963,12]

/-- Ranges with the marks that go on an identifier; what else is in them goes on one, too. -/
def continuingMarkRanges : List (Nat × Nat) := rangesOf 0
  [183,0,585,111,24,0,252,4,266,44,2,0,2,1,2,1,2,0,73,10,49,20,17,0,102,6,3,9,2,3,36,57,92,10,59,8,10,0,25,23,44,2,61,
   73,2,128,30,2,57,8,3,1,3,2,10,0,11,1,27,0,3,2,57,0,2,4,5,1,3,2,4,0,31,5,12,2,57,9,2,2,2,2,21,1,23,5,2,2,57,8,3,1,3,
   2,8,2,11,1,31,0,60,4,4,2,2,3,10,0,41,4,56,8,2,2,2,3,8,1,12,1,30,2,57,8,2,2,2,3,8,1,12,1,29,3,56,9,2,2,2,3,10,0,11,
   1,30,2,71,0,5,5,2,0,2,7,19,1,62,9,13,7,99,11,12,5,75,1,28,0,2,0,2,0,5,1,50,19,2,17,2,35,10,0,101,19,24,71,704,2,
   947,3,29,2,30,1,31,1,65,31,10,0,46,2,2,0,118,36,119,11,5,11,220,4,58,9,2,28,3,0,49,13,2,15,50,68,39,8,13,115,49,19,
   153,2,2,37,199,63,576,1,20,0,124,12,5,0,4,11,40,0,22,0,3009,2,142,0,97,31,555,5,106,1,30165,0,5,9,33,83,273,37,5,0,
   84,69,27,17,14,46,26,12,45,64,37,0,68,13,13,10,46,70,42,4,6,1,237,7,2,1,20273,0,738,15,17,15,4,1,25,2,240,0,702,0,
   227,0,150,4,1671,2,2,1,6,3,41,2,5,0,166,1,574,3,388,1,154,10,50,3,123,70,42,4,11,59,8,0,62,52,17,1,45,0,13,64,9,3,
   2,1,93,11,7,0,161,11,22,3,56,9,3,1,3,2,10,0,11,1,3,6,4,4,193,17,24,0,82,19,236,6,3,8,28,1,83,16,107,12,102,14,257,
   14,246,5,2,1,3,8,142,6,3,6,4,0,29,61,9,0,10,72,406,7,2,7,83,21,2,13,123,5,4,0,2,1,2,8,67,4,2,1,2,4,348,3,19450,4,
   60,6,1049,56,8,3,82,0,12,1,19628,1,4706,45,3,22,543,4,4,5,9,7,3,6,31,3,149,2,1980,54,5,49,9,0,15,0,23,4,2,14,1361,
   6,2,16,3,6,2,1,2,4,262,6,376,0,62,3,1505,6,110,6,792502,239]

/-- Letters and numerals other than decimal digits that go on an identifier and cannot begin one. -/
def nonStartingRanges : List (Nat × Nat) := rangesOf 0
  [3635,0,128,0,1206,8,1641,0,58820,1]

def isIdentContinue (c : Char) : Bool :=
  if c.toNat < 128 then c.isAlphanum || c == '_'
  else (isAlphanumeric c && !inRanges c.toNat nonContinuingRanges)
    || inRanges c.toNat continuingMarkRanges

def isIdentStart (c : Char) : Bool :=
  if c.toNat < 128 then c.isAlpha || c == '_'
  else (isAlphanumeric c && isIdentContinue c && !isDecimal c && !inRanges c.toNat nonStartingRanges)
    || [6277, 6278, 8472, 8494].contains c.toNat

def isIdentifier : Text → Bool
  | [] => false
  | c :: rest => isIdentStart c && rest.all isIdentContinue

end BlockScript
