/-!
# Texts

A text is a list of characters, so that every function on it is a recursion on a list and facts about it are
facts about lists. String literals stand for texts wherever a text is expected.

The module holds white space, trimming, splitting, joining and replacing.
-/

namespace BlockScript

abbrev Text := List Char

instance : Coe String Text := ⟨String.toList⟩

def texts (ss : List String) : List Text := ss.map String.toList

/-! ### White space -/

/-- White space of every script: the ASCII blanks and separators, the next-line control, the no-break space
and the space separators. -/
def isBlank (c : Char) : Bool :=
  let n := c.toNat
  (9 ≤ n && n ≤ 13) || (28 ≤ n && n ≤ 32) || n == 0x85 || n == 0xA0 || n == 0x1680
    || (0x2000 ≤ n && n ≤ 0x200A) || n == 0x2028 || n == 0x2029 || n == 0x202F || n == 0x205F
    || n == 0x3000

namespace Text

def dropEndWhile (p : Char → Bool) (t : Text) : Text := (t.reverse.dropWhile p).reverse

def trimBy (p : Char → Bool) (t : Text) : Text := dropEndWhile p (t.dropWhile p)

variable (t : Text)

def trimStart : Text := t.dropWhile isBlank

def trimEnd : Text := dropEndWhile isBlank t

def trim : Text := trimBy isBlank t

def allBlank : Bool := t.all isBlank

/-! ### Parts -/

def startsWith (t p : Text) : Bool := p.isPrefixOf t

def endsWith (t s : Text) : Bool := s.isSuffixOf t

def hasInfix (t part : Text) : Bool :=
  match t with
  | [] => part.isEmpty
  | _ :: rest => part.isPrefixOf t || hasInfix rest part

/-- The number of characters before the first occurrence of `part`. -/
def findInfix? (t part : Text) : Option Nat :=
  if part.isPrefixOf t then some 0
  else match t with
    | [] => none
    | _ :: rest => (findInfix? rest part).map (· + 1)

def dropLead? (p t : Text) : Option Text :=
  if p.isPrefixOf t then some (t.drop p.length) else none

def slice (i j : Nat) : Text := (t.drop i).take (j - i)

/-- Cut at the first occurrence of `sep`: what stands before it and what follows it. -/
def cutAt? (sep t : Text) : Option (Text × Text) :=
  (findInfix? t sep).map fun i => (t.take i, t.drop (i + sep.length))

/-! ### Splitting, joining, replacing -/

/-- Cut at every character that satisfies `p`; neighbouring cuts give empty parts. -/
def splitBy (p : Char → Bool) : Text → List Text
  | [] => [[]]
  | c :: rest =>
    if p c then [] :: splitBy p rest
    else match splitBy p rest with
      | [] => [[c]]
      | part :: parts => (c :: part) :: parts

def splitChar (c : Char) (t : Text) : List Text := splitBy (· == c) t

/-- The words of a text: the maximal runs without white space. -/
def words : List Text := (splitBy isBlank t).filter (!·.isEmpty)

/-- The loop of `splitOn`: `part` is the part being read, last character first, and `skip` counts the
characters of a separator that are still to be passed over. -/
def splitOnLoop (sep : Text) (part : Text) : Nat → Text → List Text
  | _, [] => [part.reverse]
  | skip + 1, _ :: rest => splitOnLoop sep part skip rest
  | 0, c :: rest =>
    if sep.isPrefixOf (c :: rest) then part.reverse :: splitOnLoop sep [] (sep.length - 1) rest
    else splitOnLoop sep (c :: part) 0 rest

/-- Cut at every occurrence of the non-empty text `sep`, from left to right. -/
def splitOn (sep t : Text) : List Text :=
  if sep.isEmpty then [t] else splitOnLoop sep [] 0 t

def joinWith (sep : Text) : List Text → Text
  | [] => []
  | [t] => t
  | t :: rest => t ++ sep ++ joinWith sep rest

/-- Replace every occurrence of the non-empty text `old` by `new`, from left to right. -/
def replace (old new t : Text) : Text := joinWith new (splitOn old t)

def replaceChar (a b : Char) (t : Text) : Text := t.map fun c => if c == a then b else c

def without (a : Char) (t : Text) : Text := t.filter (· != a)

def le : Text → Text → Bool
  | [], _ => true
  | _ :: _, [] => false
  | a :: s, b :: t => if a.toNat < b.toNat then true else if b.toNat < a.toNat then false else le s t

def sort (ts : List Text) : List Text := ts.mergeSort le

def ofNat (n : Nat) : Text := Nat.toDigits 10 n

def ofInt : Int → Text
  | .ofNat n => ofNat n
  | .negSucc n => '-' :: ofNat (n + 1)

end Text

def keepFirst {α : Type} [BEq α] (xs : List α) : List α :=
  xs.foldl (fun seen x => if seen.contains x then seen else seen ++ [x]) []

end BlockScript
