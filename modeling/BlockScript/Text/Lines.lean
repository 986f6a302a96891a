import BlockScript.Text.Basic

/-!
# Lines

A file's text has its line ends unified when it is read. Two ways of cutting lines are in use: at the line
feed alone, and at every character that any convention takes for a line end.
-/

namespace BlockScript.Text

/-- Write every line end, `\r\n` or `\r`, as a line feed. -/
def unifyLineEnds : Text → Text
  | [] => []
  | '\r' :: '\n' :: rest => '\n' :: unifyLineEnds rest
  | '\r' :: rest => '\n' :: unifyLineEnds rest
  | c :: rest => c :: unifyLineEnds rest

def isLineEnd (c : Char) : Bool :=
  let n := c.toNat
  (10 ≤ n && n ≤ 13) || (28 ≤ n && n ≤ 30) || n == 0x85 || n == 0x2028 || n == 0x2029

/-- The loop of `lines`: `line` is the line being read, last character first. -/
def linesFrom (line : Text) : Text → List Text
  | [] => if line.isEmpty then [] else [line.reverse]
  | '\r' :: '\n' :: rest => line.reverse :: linesFrom [] rest
  | c :: rest =>
    if isLineEnd c then line.reverse :: linesFrom [] rest else linesFrom (c :: line) rest

/-- Cut at every line end. A line end closes its line, so the text after the last one is a line only if
it is not empty. -/
def lines (t : Text) : List Text := linesFrom [] t

def feedLines (t : Text) : List Text := splitChar '\n' t

def joinLines (ls : List Text) : Text := joinWith ['\n'] ls

end BlockScript.Text
