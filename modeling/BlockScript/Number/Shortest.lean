import BlockScript.Number.Binary64

/-!
# Shortest decimal text of a number

The text of a number has the fewest digits that read back as the number, and of those the nearest. It is
positional from a ten-thousandth up to sixteen digits before the point, and scientific outside.
-/

namespace BlockScript.Binary64

/-- The power of ten `k` with `10 ^ k ≤ n / d < 10 ^ (k + 1)`, searched upward from `k` by `fuel` steps. -/
def decimalExponentFrom (n d : Nat) : Nat → Int → Int
  | 0, k => k
  | fuel + 1, k =>
    let next := k + 1
    let above := if 0 ≤ next then Nat.pow 10 next.toNat * d ≤ n else d ≤ n * Nat.pow 10 (-next).toNat
    if above then decimalExponentFrom n d fuel next else k

def decimalExponent (n d : Nat) : Int :=
  -- a lower bound from the number of bits: 10 ^ 3 lies below 2 ^ 10
  let bits : Int := (Nat.log2 n : Int) - (Nat.log2 d : Int) - 1
  let guess : Int := if 0 ≤ bits then bits * 3 / 10 - 1 else bits * 31 / 100 - 2
  decimalExponentFrom n d 64 guess

/-- A decimal numeral: the digits as one natural, and the power of ten of the last digit. -/
structure Decimal where
  digits : Nat
  exp : Int

/-- The decimals with `count` digits next to `n / d`, the nearer one first. -/
def neighbours (n d : Nat) (k : Int) (count : Nat) : List Decimal :=
  let e : Int := k - count + 1
  let (num, den) := if 0 ≤ e then (n, d * Nat.pow 10 e.toNat) else (n * Nat.pow 10 (-e).toNat, d)
  let low := num / den
  let r := num % den
  if 2 * r < den then [⟨low, e⟩, ⟨low + 1, e⟩]
  else if den < 2 * r then [⟨low + 1, e⟩, ⟨low, e⟩]
  else if low % 2 = 0 then [⟨low, e⟩, ⟨low + 1, e⟩] else [⟨low + 1, e⟩, ⟨low, e⟩]

/-- The first decimal that reads back, with `count` digits or more. -/
def shortestFrom (x : Binary64) (n d : Nat) (k : Int) : Nat → Nat → Decimal
  | 0, count => (neighbours n d k count).headD ⟨0, 0⟩
  | fuel + 1, count =>
    match (neighbours n d k count).find? fun c => ofDecimal false c.digits c.exp == x with
    | some c => c
    | none => shortestFrom x n d k fuel (count + 1)

def shortest (m : Nat) (e : Int) : Decimal :=
  let (n, d) := fraction m e
  shortestFrom (.finite false m e) n d (decimalExponent n d) 16 1

def dropZeros (ds : Text) : Text := Text.dropEndWhile (· == '0') ds

/-- The text of a positive number from its digits and the decimal exponent `k` of the first of them. -/
def layout (ds : Text) (k : Int) : Text :=
  if -4 ≤ k ∧ k < 16 then
    if k < 0 then "0." ++ List.replicate (-k - 1).toNat '0' ++ ds
    else
      let whole := k.toNat + 1
      if ds.length ≤ whole then ds ++ List.replicate (whole - ds.length) '0' ++ ".0"
      else ds.take whole ++ "." ++ ds.drop whole
  else
    let e := Text.ofNat k.natAbs
    let e := if e.length < 2 then '0' :: e else e
    let mantissa := if ds.length ≤ 1 then ds else ds.take 1 ++ "." ++ ds.drop 1
    mantissa ++ "e" ++ (if k < 0 then ['-'] else ['+']) ++ e

def render : Binary64 → Text
  | .nan => "nan"
  | .inf s => if s then "-inf" else "inf"
  | .finite s m e =>
    let sign : Text := if s then ['-'] else []
    if m = 0 then sign ++ "0.0"
    else
      let c := shortest m e
      let ds := Text.ofNat c.digits
      sign ++ layout (dropZeros ds) (c.exp + ds.length - 1)

end BlockScript.Binary64
