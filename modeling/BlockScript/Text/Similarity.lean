import BlockScript.Number.Binary64

/-!
# Similarity of texts

How alike two texts are: find the longest part that they share, then look for shared parts on its left and on its
right, and so on; twice the number of characters found, over the lengths of both texts. In a long second text,
characters that make up more than a hundredth of it do not begin a shared part.
-/

namespace BlockScript.Similarity

/-- A part shared by two texts: where it begins in each, and its length. -/
structure Shared where
  left : Nat
  right : Nat
  size : Nat

/-- The characters of the second text that are too frequent to begin a shared part. -/
def isFrequent (b : Array Char) (c : Char) : Bool :=
  200 ≤ b.size && b.size / 100 + 1 < b.count c

/-- One row of the search: for every place `j` of the second text, the length of the shared part that ends with
the character `c` there. `prev` is the row of the character before. -/
def row (b : Array Char) (c : Char) (prev : Nat → Nat) (lo hi : Nat) : List (Nat × Nat) :=
  if isFrequent b c then []
  else ((List.range' lo (hi - lo)).filter fun j => b[j]? == some c).map fun j =>
    (j, (if j = 0 then 0 else prev (j - 1)) + 1)

/-- The best shared part after one more row; of equal ones the earlier. -/
def better (i : Nat) (best : Shared) (cells : List (Nat × Nat)) : Shared :=
  cells.foldl (fun best (j, k) => if best.size < k then ⟨i + 1 - k, j + 1 - k, k⟩ else best) best

/-- The rows from place `i` of the first text on. -/
def rows (a b : Array Char) (blo bhi : Nat) : Nat → Nat → List (Nat × Nat) → Shared → Shared
  | 0, _, _, best => best
  | n + 1, i, prev, best =>
    match a[i]? with
    | none => best
    | some c =>
      let cells := row b c (fun j => (prev.lookup j).getD 0) blo bhi
      rows a b blo bhi n (i + 1) cells (better i best cells)

def extendLeft (a b : Array Char) (alo blo : Nat) : Nat → Shared → Shared
  | 0, s => s
  | n + 1, s =>
    if alo < s.left && blo < s.right && a[s.left - 1]? == b[s.right - 1]? then
      extendLeft a b alo blo n ⟨s.left - 1, s.right - 1, s.size + 1⟩
    else s

def extendRight (a b : Array Char) (ahi bhi : Nat) : Nat → Shared → Shared
  | 0, s => s
  | n + 1, s =>
    if s.left + s.size < ahi && s.right + s.size < bhi
        && a[s.left + s.size]? == b[s.right + s.size]? then
      extendRight a b ahi bhi n ⟨s.left, s.right, s.size + 1⟩
    else s

def longest (a b : Array Char) (alo ahi blo bhi : Nat) : Shared :=
  let s := rows a b blo bhi (ahi - alo) alo [] ⟨alo, blo, 0⟩
  let s := extendLeft a b alo blo (ahi - alo) s
  extendRight a b ahi bhi (ahi - alo) s

/-- The number of characters in shared parts of two stretches. -/
def sharedCount (a b : Array Char) : Nat → Nat → Nat → Nat → Nat → Nat
  | 0, _, _, _, _ => 0
  | n + 1, alo, ahi, blo, bhi =>
    let s := longest a b alo ahi blo bhi
    if s.size = 0 then 0
    else s.size + sharedCount a b n alo s.left blo s.right
      + sharedCount a b n (s.left + s.size) ahi (s.right + s.size) bhi

def ratio (s t : Text) : Binary64 :=
  let a := s.toArray
  let b := t.toArray
  if a.size + b.size = 0 then Binary64.round false 1 1
  else Binary64.round false (2 * sharedCount a b (a.size + 1) 0 a.size 0 b.size) (a.size + b.size)

end BlockScript.Similarity
