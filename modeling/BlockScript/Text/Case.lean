import BlockScript.Text.Category

/-!
# Letter case

Lower and upper case of texts in every script. A letter may have several letters as its upper case, one
letter (`İ`) has two as its lower case, and a capital sigma at the end of a word has a small form of its own.
-/

namespace BlockScript

/-- A run of letters `first, first + step, …, last` whose other case lies `shift` code points away. -/
structure CaseRun where
  first : Nat
  last : Nat
  step : Nat
  shift : Int

namespace CaseRun

/-- Increasing runs by numbers: how far each begins behind the end of the one before it, how far it goes, step and
shift. -/
def listOf (last : Nat) : List Int → List CaseRun
  | gap :: length :: step :: shift :: rest =>
    let first := last + gap.toNat
    ⟨first, first + length.toNat, step.toNat, shift⟩ :: listOf (first + length.toNat) rest
  | _ => []

/-- The other case of the code point `n`, where an increasing list of runs has it. -/
def find? (n : Nat) : List CaseRun → Option Nat
  | [] => none
  | r :: rest =>
    if n < r.first then none
    else if n ≤ r.last ∧ (n - r.first) % r.step = 0 then some ((n : Int) + r.shift).toNat
    else find? n rest

/-- The first code point of the runs that has the other case `n`. -/
def source? (n : Nat) (runs : List CaseRun) : Option Nat :=
  runs.findSome? fun r =>
    let m := ((n : Int) - r.shift).toNat
    if r.first ≤ m ∧ m ≤ r.last ∧ (m - r.first) % r.step = 0 then some m else none

end CaseRun

def lowerRuns : List CaseRun := CaseRun.listOf 0
  [192,22,1,32,2,6,1,32,34,46,2,1,4,4,2,1,3,14,2,1,3,44,2,1,2,0,1,-121,1,4,2,1,4,0,1,210,1,2,2,1,2,0,1,206,1,0,1,1,2,1,
   1,205,1,0,1,1,3,0,1,79,1,0,1,202,1,0,1,203,1,0,1,1,2,0,1,205,1,0,1,207,2,0,1,211,1,0,1,209,1,0,1,1,4,0,1,211,1,0,1,
   213,2,0,1,214,1,4,2,1,2,0,1,218,1,0,1,1,2,0,1,218,3,0,1,1,2,0,1,218,1,0,1,1,2,1,1,217,1,2,2,1,2,0,1,219,1,0,1,1,4,0,
   1,1,8,0,1,2,1,0,1,1,2,0,1,2,1,0,1,1,2,0,1,2,1,16,2,1,3,16,2,1,3,0,1,2,1,2,2,1,2,0,1,-97,1,0,1,-56,1,38,2,1,2,0,1,
   -130,2,16,2,1,8,0,1,10795,1,0,1,1,2,0,1,-163,1,0,1,10792,3,0,1,1,2,0,1,-195,1,0,1,69,1,0,1,71,1,8,2,1,290,2,2,1,4,0,
   1,1,9,0,1,116,7,0,1,38,2,2,1,37,2,0,1,64,2,1,1,63,2,16,1,32,2,8,1,32,36,0,1,8,9,22,2,1,6,0,1,-60,3,0,1,1,2,0,1,-7,1,
   0,1,1,3,2,1,-130,1,15,1,80,1,31,1,32,49,32,2,1,10,52,2,1,2,0,1,15,1,12,2,1,3,94,2,1,3,37,1,48,2890,37,1,7264,2,0,1,
   7264,6,0,1,7264,723,79,1,38864,1,5,1,8,2203,42,1,-3008,3,2,1,-3008,321,148,2,1,10,0,1,-7615,2,94,2,1,10,7,1,-8,9,5,
   1,-8,11,7,1,-8,9,7,1,-8,9,5,1,-8,12,6,2,-8,9,7,1,-8,25,7,1,-8,9,7,1,-8,9,7,1,-8,9,1,1,-8,1,1,1,-74,1,0,1,-9,12,3,1,
   -86,1,0,1,-9,12,1,1,-8,1,1,1,-100,13,1,1,-8,1,1,1,-112,1,0,1,-7,12,1,1,-128,1,1,1,-126,1,0,1,-9,298,0,1,-7517,4,0,1,
   -8383,1,0,1,-8262,7,0,1,28,46,15,1,16,20,0,1,1,819,25,1,26,1841,47,1,48,49,0,1,1,2,0,1,-10743,1,0,1,-3814,1,0,1,
   -10727,3,4,2,1,2,0,1,-10780,1,0,1,-10749,1,0,1,-10783,1,0,1,-10782,2,0,1,1,3,0,1,1,9,1,1,-10815,1,98,2,1,9,2,2,1,5,
   0,1,1,31054,44,2,1,20,26,2,1,136,12,2,1,4,60,2,1,11,2,2,1,2,0,1,-35332,1,8,2,1,5,0,1,1,2,0,1,-42280,3,2,2,1,4,18,2,
   1,2,0,1,-42308,1,0,1,-42319,1,0,1,-42315,1,0,1,-42305,1,0,1,-42308,2,0,1,-42258,1,0,1,-42282,1,0,1,-42261,1,0,1,928,
   1,14,2,1,2,0,1,-48,1,0,1,-42307,1,0,1,-35384,1,2,2,1,7,0,1,1,6,2,2,1,29,0,1,1,22316,25,1,32,1222,39,1,40,137,35,1,
   40,157,10,1,39,2,14,1,39,2,6,1,39,2,1,1,39,1771,50,1,64,3054,31,1,32,21889,31,1,32,31393,33,1,34]

/-- Sixteen small letters with an iota below, in two rows of the same eight capitals. -/
def iotaForms (first capital : Nat) : List (Nat × List Nat) :=
  (List.range 16).map fun i => (first + i, [capital + i % 8, 921])

/-- Letters that are not the small form of one capital, by what stands for them in upper case. -/
def upperExpansions : List (Nat × List Nat) :=
  iotaForms 8064 7944 ++ iotaForms 8080 7976 ++ iotaForms 8096 8040 ++
  [(181, [924]), (223, [83, 83]), (305, [73]), (329, [700, 78]), (383, [83]), (453, [452]), (456, [455]),
   (459, [458]), (496, [74, 780]), (498, [497]), (837, [921]), (912, [921, 776, 769]), (944, [933, 776, 769]),
   (962, [931]), (976, [914]), (977, [920]), (981, [934]), (982, [928]), (1008, [922]), (1009, [929]), (1013, [917]),
   (1415, [1333, 1362]), (7296, [1042]), (7297, [1044]), (7298, [1054]), (7299, [1057]), (7300, [1058]),
   (7301, [1058]), (7302, [1066]), (7303, [1122]), (7304, [42570]), (7830, [72, 817]), (7831, [84, 776]),
   (7832, [87, 778]), (7833, [89, 778]), (7834, [65, 702]), (7835, [7776]), (8016, [933, 787]),
   (8018, [933, 787, 768]), (8020, [933, 787, 769]), (8022, [933, 787, 834]), (8114, [8122, 921]), (8115, [913, 921]),
   (8116, [902, 921]), (8118, [913, 834]), (8119, [913, 834, 921]), (8124, [913, 921]), (8126, [921]),
   (8130, [8138, 921]), (8131, [919, 921]), (8132, [905, 921]), (8134, [919, 834]), (8135, [919, 834, 921]),
   (8140, [919, 921]), (8146, [921, 776, 768]), (8147, [921, 776, 769]), (8150, [921, 834]), (8151, [921, 776, 834]),
   (8162, [933, 776, 768]), (8163, [933, 776, 769]), (8164, [929, 787]), (8166, [933, 834]), (8167, [933, 776, 834]),
   (8178, [8186, 921]), (8179, [937, 921]), (8180, [911, 921]), (8182, [937, 834]), (8183, [937, 834, 921]),
   (8188, [937, 921]), (64256, [70, 70]), (64257, [70, 73]), (64258, [70, 76]), (64259, [70, 70, 73]),
   (64260, [70, 70, 76]), (64261, [83, 84]), (64262, [83, 84]), (64275, [1348, 1350]), (64276, [1348, 1333]),
   (64277, [1348, 1339]), (64278, [1358, 1350]), (64279, [1348, 1341])]

/-- Ranges of letters that have case, with those that have no other case. -/
def casedRanges : List (Nat × Nat) := rangesOf 0
  [170,0,16,0,118,138,4,0,99,114,2,26,291,2,40,0,356,40,6008,43,64,12,3,32,258,3,611,0,5,0,3,9,2,0,4,4,7,0,4,0,4,1,2,
   5,5,0,3,3,6,4,2856,10,105,0,31308,1,64,7,22,0,7,26,36,0,2,0,37,0,822,42,6,8,75928,84,2,70,2,1,3,0,3,1,3,3,2,11,2,0,
   2,6,2,64,2,3,3,7,2,6,2,27,2,3,2,4,2,0,4,6,2,339,3,24,2,24,2,30,2,24,2,30,2,24,2,30,2,24,2,30,2,24,2,7,1845,9,2,19,
   4626,25,7,25,7,25]

/-- Marks and signs passed over when a word is searched for a letter with case. -/
def caseIgnorableRanges : List (Nat × Nat) := rangesOf 0
  [39,0,7,0,12,0,36,0,2,0,72,0,5,0,2,0,5,0,3,1,504,191,5,1,5,0,10,1,2,0,252,6,208,0,6,0,50,44,2,0,2,1,2,1,2,0,45,0,12,
   5,11,10,2,0,36,0,11,20,17,0,102,7,2,9,2,3,34,0,2,0,31,26,92,10,59,10,5,0,3,0,25,23,44,2,45,0,8,1,7,7,42,57,56,0,2,0,
   5,7,5,0,4,6,11,1,14,0,16,0,59,0,5,3,9,0,21,1,27,0,3,1,58,0,5,1,5,1,3,2,4,0,31,1,4,0,12,1,58,0,5,4,2,1,5,0,21,1,23,5,
   2,0,59,0,3,0,2,3,9,0,8,1,12,1,31,0,62,0,13,0,51,0,4,0,56,0,2,2,6,2,2,3,8,1,12,1,30,0,59,0,3,0,7,0,6,1,21,1,29,1,58,
   1,5,3,9,0,21,1,30,0,73,0,8,2,2,0,91,0,3,6,12,8,99,0,3,8,10,0,2,5,75,1,28,0,2,0,2,0,56,13,2,4,2,1,6,10,2,35,10,0,103,
   3,2,5,2,1,3,1,26,1,5,2,17,3,14,0,3,1,7,0,16,0,95,0,609,2,947,2,30,1,31,1,31,1,65,1,2,6,9,0,3,10,4,0,6,0,46,4,52,0,
   66,1,35,0,119,2,5,1,10,0,7,2,220,1,3,0,59,0,2,6,2,0,2,0,3,7,7,9,3,0,40,0,9,30,50,3,49,0,2,4,2,0,6,0,41,8,13,1,33,3,
   3,1,2,2,57,0,2,1,4,0,2,2,59,7,3,1,65,5,83,2,2,12,2,6,5,0,7,0,4,1,51,62,14,0,35,100,446,0,2,2,12,2,14,2,14,2,14,1,13,
   4,9,1,11,0,3,0,3,4,50,4,2,9,2,0,14,0,17,12,52,32,2956,1,114,2,126,0,16,0,97,31,48,0,470,0,37,3,4,4,6,0,94,5,94,2,
   28439,0,1251,5,271,0,99,3,2,9,2,0,29,3,81,1,15,33,79,0,24,2,104,2,4,1,9,0,4,0,5,0,26,1,6,0,152,1,27,17,14,0,39,7,26,
   10,47,2,49,0,3,3,3,1,18,0,22,1,67,5,3,1,3,1,13,0,9,0,36,0,12,0,52,0,2,2,3,1,6,1,2,0,28,0,15,1,6,1,2,0,101,4,10,2,
   122,0,3,0,5,0,20273,0,148,16,574,15,4,0,13,15,35,0,3,0,170,0,8,0,7,0,12,0,36,0,2,0,48,0,46,1,68,0,22,2,514,0,227,0,
   150,4,1030,5,2,41,2,8,583,2,2,1,6,3,41,2,5,0,166,1,574,3,388,1,154,10,50,3,124,0,55,14,42,0,3,1,11,2,50,3,3,1,3,0,5,
   0,11,0,51,2,37,4,2,7,63,0,13,1,53,8,11,3,3,0,96,2,3,0,2,1,7,0,161,0,4,7,22,1,58,1,4,0,38,6,4,4,196,7,3,2,2,0,24,0,
   85,5,2,0,5,1,2,1,239,3,7,1,2,1,28,1,86,7,3,0,2,1,107,0,2,0,3,5,2,0,102,2,3,3,2,4,260,8,2,1,257,1,2,0,5,0,145,3,3,1,
   5,0,33,9,41,5,3,3,9,0,10,5,3,2,47,12,2,1,407,6,2,5,2,0,83,21,3,6,2,1,2,1,123,5,4,0,2,1,2,6,2,0,73,1,4,0,2,0,348,1,
   5436,8,14008,4,60,6,10,3,1036,0,64,16,65,1,2,1,16396,3,2,6,2,1,3231,1,2,3,4701,45,3,22,545,2,10,15,3,6,31,3,149,2,
   1980,54,5,49,9,0,15,0,23,4,2,14,1361,6,2,16,3,6,2,1,2,4,262,13,369,0,62,3,1505,6,110,7,2736,4,789506,0,31,95,129,239]

/-! ### Characters -/

variable (c : Char)

/-- The small form of a letter that has exactly one; other characters stay. -/
def lowerChar : Char :=
  if c.toNat < 128 then c.toLower
  else match CaseRun.find? c.toNat lowerRuns with
    | some n => Char.ofNat n
    | none => c

def upperChar : Text :=
  if c.toNat < 128 then [c.toUpper]
  else match upperExpansions.lookup c.toNat with
    | some ns => ns.map Char.ofNat
    | none =>
      match CaseRun.source? c.toNat lowerRuns with
      | some n => [Char.ofNat n]
      | none => [c]

/-- The folded form of a letter, in which letters that differ in case only are the same. Letters of the Cherokee
script fold to their capital form, all others to small letters. -/
def foldChar : Text :=
  let n := c.toNat
  if n < 128 then [c.toLower]
  else if (0x13A0 ≤ n ∧ n ≤ 0x13FD) ∨ (0xAB70 ≤ n ∧ n ≤ 0xABBF) then upperChar c
  else if c == 'ı' then [c]
  else if c == 'İ' then ['i', Char.ofNat 0x307]
  else (upperChar (lowerChar c)).map lowerChar

def isCased : Bool := lowerChar c != c || upperChar c != [c] || inRanges c.toNat casedRanges

def isCaseIgnorable : Bool := inRanges c.toNat caseIgnorableRanges

/-- The first character that is not passed over has case. -/
def nextIsCased (t : Text) : Bool :=
  match t.dropWhile isCaseIgnorable with
  | c :: _ => isCased c
  | [] => false

/-- Letters that go with another small letter when case does not matter: the dotless `ı`, the long `ſ`, and old forms
of Cyrillic letters. -/
def looseForms : List (Char × Char) :=
  [('ı', 'i'), ('İ', 'i'), ('ſ', 's'), ('\u1c80', 'в'), ('\u1c81', 'д'), ('\u1c82', 'о'), ('\u1c83', 'с'),
   ('\u1c84', 'т'), ('\u1c85', 'т'), ('\u1c86', 'ъ')]

/-- The letter that stands for all letters that differ from it at most in case. -/
def looseChar : Char := (looseForms.lookup c).getD (lowerChar c)

def sameLetter (a b : Char) : Bool := looseChar a == looseChar b

namespace Text

/-- Lower case of a text of which `seen` was already read, last character first. -/
def lowerFrom (seen : Text) : Text → Text
  | [] => []
  | c :: rest =>
    if c == 'Σ' then
      (if nextIsCased seen && !nextIsCased rest then 'ς' else 'σ') :: lowerFrom (c :: seen) rest
    else if c == 'İ' then 'i' :: Char.ofNat 0x307 :: lowerFrom (c :: seen) rest
    else lowerChar c :: lowerFrom (c :: seen) rest

def lower (t : Text) : Text := lowerFrom [] t

def fold (t : Text) : Text := t.flatMap foldChar

def upper (t : Text) : Text := t.flatMap upperChar

end Text
end BlockScript
