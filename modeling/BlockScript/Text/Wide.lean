import BlockScript.Text.CodePage

/-!
# Two-byte text

Text in units of two bytes, the low or the high byte first. Two units of the surrogate ranges together are one
character. What is no text is read as the replacement character: a unit that lacks its partner, or an odd byte at the
end.
-/

namespace BlockScript.CodePage

def wideUnit (lowFirst : Bool) (a b : UInt8) : Nat :=
  if lowFirst then a.toNat + 256 * b.toNat else b.toNat + 256 * a.toNat

def isHighUnit (u : Nat) : Bool := 0xD800 ≤ u && u < 0xDC00

def isLowUnit (u : Nat) : Bool := 0xDC00 ≤ u && u < 0xE000

/-- Two-byte text. A pair that breaks off at the end is replaced together with what is left of it. -/
def wide (lowFirst : Bool) : Bytes → Text
  | [] => []
  | [_] => ['�']
  | a :: b :: rest =>
    let u := wideUnit lowFirst a b
    if isLowUnit u then '�' :: wide lowFirst rest
    else if isHighUnit u then
      match rest with
      | c :: d :: more =>
        let v := wideUnit lowFirst c d
        if isLowUnit v then Char.ofNat (0x10000 + (u - 0xD800) * 1024 + (v - 0xDC00)) :: wide lowFirst more
        else '�' :: wide lowFirst (c :: d :: more)
      | _ => ['�']
    else Char.ofNat u :: wide lowFirst rest

end BlockScript.CodePage
