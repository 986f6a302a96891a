import BlockScript.Text.Category
import BlockScript.Number.Binary64

/-!
# Reading numbers

An integer is written with an optional sign and decimal digits of any script, which single underscores may part;
white space around it does not matter. A number may have a point and an exponent as well.
-/

namespace BlockScript.Text

/-- The values of a run of digits, which single underscores may part; none if something else stands there. -/
def digitValues? : Text → Option (List Nat)
  | [] => none
  | [c] => (decimalValue? c).map ([·])
  | c :: '_' :: d :: rest => do
    let v ← decimalValue? c
    let vs ← digitValues? (d :: rest)
    some (v :: vs)
  | c :: rest => do
    let v ← decimalValue? c
    let vs ← digitValues? rest
    some (v :: vs)

def ofDigitValues (vs : List Nat) : Nat := vs.foldl (fun n v => 10 * n + v) 0

def readSign : Text → Bool × Text
  | '-' :: rest => (true, rest)
  | '+' :: rest => (false, rest)
  | t => (false, t)

def toInt? (t : Text) : Option Int :=
  let (neg, ds) := readSign (trim t)
  match digitValues? ds with
  | none => none
  | some vs =>
    if 4300 < vs.length then none
    else
      let n : Int := ofDigitValues vs
      some (if neg then -n else n)

def digitsOrNone? (t : Text) : Option (List Nat) := if t.isEmpty then some [] else digitValues? t

def toReal? (t : Text) : Option Binary64 :=
  let (neg, body) := readSign (trim t)
  let low := body.map Char.toLower
  if low == "inf" || low == "infinity" then some (.inf neg)
  else if low == "nan" then some .nan
  else
    let mantissa := body.takeWhile fun c => c != 'e' && c != 'E'
    let expText := body.drop mantissa.length
    let exp? : Option Int := match expText with
      | [] => some 0
      | _ :: e =>
        let (eneg, ds) := readSign e
        (digitValues? ds).map fun vs => if eneg then -(ofDigitValues vs : Int) else ofDigitValues vs
    let whole := mantissa.takeWhile (· != '.')
    let frac := (mantissa.drop whole.length).drop 1
    match exp?, digitsOrNone? whole, digitsOrNone? frac with
    | some e, some ws, some fs =>
      if ws.isEmpty && fs.isEmpty then none
      else some (.ofDecimal neg (ofDigitValues (ws ++ fs)) (e - fs.length))
    | _, _, _ => none

end BlockScript.Text
