import BlockScript.Session

/-!
# Samples of the list of blocks

Two reports on the list of blocks: one finds its entries, the other looks for entries in a shape that the list does not
have.
-/

namespace BlockScript.Sample
open Act (say)
open Text (hasInfix ofNat trim)

def blockList (w : Workspace) : Path := w.install.child "allactions.txt"

/-- An entry of the list: a block in parentheses and its label, in square brackets. -/
def entryPattern : Pattern :=
  let inner := .many1 (.char (· != ']'))
  .lit "[(" ++ .group 1 inner ++ .lit ")" ++ .blanks1 ++ .group 2 inner ++ .lit "]"

/-- An entry in another shape: on lines of its own, in parentheses. -/
def linePattern : Pattern :=
  let inner := .many1 (.char (· != ']'))
  .notBehind (· != '\n') ++ .lit "((" ++ .group 1 inner ++ .lit ")" ++ .blanks1 ++ .group 2 inner ++ .lit ")"
    ++ .notAhead (.char (· != '\n'))

def entryOf (m : Pattern.Match) : Text × Text :=
  (trim (Label.plain (trim (m.group 2))), trim (m.group 1))

def entryReport : Act Unit := do
  let w ← Act.space
  let entries := (entryPattern.findAll (← Act.read (blockList w))).map entryOf
  say ("Всего совпадений: " ++ ofNat entries.length)
  match entries.find? fun e => hasInfix e.1 "Если игрок" with
  | some (label, block) =>
    say ("Найдено: '" ++ label ++ "' -> '" ++ block ++ "'")
    say ("  Нормализованный ключ: '" ++ Label.plainKey label ++ "'")
  | none => pure ()
  say []
  say "Первые 5 записей:"
  for ((label, block), n) in (entries.take 5).zipIdx 1 do
    say ("  " ++ ofNat n ++ ". '" ++ label ++ "' -> '" ++ block ++ "'")
    say ("     Нормализованный: '" ++ Label.plainKey label ++ "'")

/-- The blocks by label, read in the other shape. -/
def linedBlocks (t : Text) : Table Text :=
  (linePattern.findAll t).foldl (fun (b : Table Text) m =>
    b.set (Label.plainKey (trim (Label.plain (m.group 2)))) (trim (m.group 1))) []

def lineReport : Act Unit := do
  let w ← Act.space
  let blocks ← if w.holds (blockList w) then do pure (linedBlocks (← Act.read (blockList w))) else pure []
  let key := Label.plainKey "Если игрок"
  say ("Всего блоков: " ++ ofNat blocks.length)
  say ("Ищем ключ: '" ++ key ++ "'")
  match blocks.get? key with
  | some b => say ("Найдено: blocks['" ++ key ++ "'] = '" ++ b ++ "'")
  | none =>
    say "Не найдено в blocks"
    let similar := blocks.filter fun e => hasInfix e.1 "игрок" || hasInfix e.1 "если"
    say ("Похожие ключи (" ++ ofNat similar.length ++ "):")
    for (k, b) in similar.take 10 do
      say ("  '" ++ k ++ "' -> '" ++ b ++ "'")

end BlockScript.Sample
