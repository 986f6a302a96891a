import BlockScript.Session

/-!
# Samples of line shapes

Short reports that show which lines fit the shapes of headers: of events, of conditions on players, and of selections.
-/

namespace BlockScript.Sample
open Pattern (Match)

/-! ### Shapes -/

def namePattern : Pattern := .many1 (.char fun c => isWordChar c || isCyrillic c)

def braceEnd : Pattern := .blanks ++ .lit "\x7b" ++ .blanks ++ .atEnd

def eventHead : Pattern :=
  .blanks ++ .word "event" ++ .blanks ++ .lit "(" ++ .blanks ++ .group 1 namePattern ++ .blanks ++ .lit ")" ++ braceEnd

/-- The header of a condition on players; `link` stands before its name. -/
def conditionHead (link : Pattern) : Pattern :=
  .blanks ++ .word "if" ++ .opt (.lit "_") ++ .word "player" ++ link ++ .group 1 namePattern ++ .blanks ++ .lit "("
    ++ .group 2 .rest ++ .lit ")" ++ braceEnd

def selectionHead : Pattern := .blanks ++ .word "SelectObject.player.IfPlayer." ++ .group 1 namePattern ++ braceEnd

/-- A match as it is shown, at most fifty characters of its text. -/
def shownMatch : Option Match → Text
  | none => "None"
  | some m => "<re.Match object; span=(" ++ Text.ofNat m.start.pos ++ ", " ++ Text.ofNat m.stop.pos ++ "), match="
      ++ (Text.shown m.text).take 50 ++ ">"

def fitLine (line : Text) (m : Option Match) : Text :=
  "  '" ++ line ++ "' -> " ++ (if m.isSome then "Совпадает" else "Нет").toList

def details (f : Match → Text) (m : Option Match) : List Text := (m.map f).toList

variable (m : Match)

def callDetails : Text :=
  "Функция: '" ++ m.group 1 ++ "', Аргументы: '" ++ m.group 2 ++ "'"

def nameDetails : Text := "Функция: '" ++ m.group 1 ++ "'"

def eventDetails : Text := "Имя события: '" ++ m.group 1 ++ "'"

def indent (n : Nat) (t : Text) : Text := List.replicate n ' ' ++ t

def pointCondition : Text := "if_player.issprinting() \x7b"

def selection : Text := "SelectObject.player.IfPlayer.IsSprinting \x7b"

def wrongEvent : Text := "event join() \x7b"

/-! ### Reports -/

/-- Lines against the shape of a condition, and a selection against its shape. -/
def conditionReport : List Text :=
  let lines : List Text := [pointCondition, indent 4 pointCondition, pointCondition, "ifplayer.issprinting() \x7b",
    "if_player.IsSprinting() \x7b", selection]
  let found := selectionHead.match? selection
  let fits := lines.flatMap fun l =>
    let m := (conditionHead (.lit ".")).match? l
    fitLine l m :: details (fun m => indent 4 (callDetails m)) m
  texts ["Тестирование регулярных выражений:"] ++ fits
    ++ texts ["", "Тестирование SelectObject синтаксиса:"] ++ [fitLine selection found]
    ++ details (fun m => indent 4 (nameDetails m)) found

def headReport : List Text :=
  let one (title : Text) (line : Text) (p : Pattern) (f : Match → Text) : List Text :=
    let m := p.match? line
    [title ++ " тест: '" ++ line ++ "'", "  Совпадение: " ++ shownMatch m] ++ details (fun m => indent 2 (f m)) m
  one "EVENT_RE" wrongEvent eventHead eventDetails
    ++ [[]] ++ one "IFPLAYER_RE" (indent 4 pointCondition) (conditionHead (.lit ".")) callDetails
    ++ [[]] ++ one "SELECTOBJECT_IFPLAYER_RE" (indent 4 selection) selectionHead nameDetails

/-- Lines against the shape of an event, character by character. -/
def eventReport : List Text :=
  let lines : List Text := [wrongEvent, "event(join) \x7b", "event ( join ) \x7b", "event(join)\x7b", wrongEvent,
    "event join () \x7b"]
  let character (e : Char × Nat) : Text :=
    "  [" ++ Text.ofNat e.2 ++ "] '" ++ [e.1] ++ "' (ord=" ++ Text.ofNat e.1.toNat ++ ")"
  let verdict (line : Text) : Text := "  Совпадает с '" ++ line ++ "': " ++ shownMatch (eventHead.match? line)
  let fits := lines.flatMap fun l =>
    let m := eventHead.match? l
    fitLine l m :: details (fun m => indent 4 (eventDetails m)) m
  let title : Text := "Отладка '" ++ wrongEvent ++ "':"
  texts ["Тестирование EVENT_RE:"] ++ fits ++ [[], title] ++ wrongEvent.zipIdx.map character
    ++ texts ["", "Проверка по частям:",
      "  ^\\s*event\\s*\\(\\s*([\\w\\u0400-\\u04FF]+)\\s*\\)\\s*\\\x7b\\s*$"]
    ++ [verdict wrongEvent, verdict "event(join)\x7b"]

/-- The signs of the conditions in the library, and lines against an older shape. -/
def libraryReport : Act Unit := do
  let library ← Act.ofExcept (Document.ofText (← Act.read (.ofText "out/api_aliases.json"))).need
  let module ← Act.ofExcept (library.getOr "if_player" (.obj []))
  Act.say "if_player модуль:"
  for (name, spec) in ← Act.ofExcept module.record do
    Act.say ("  " ++ name ++ ": sign1='" ++ (← Act.ofExcept (spec.get "sign1")).spell ++ "', sign2='"
      ++ (← Act.ofExcept (spec.get "sign2")).spell ++ "'")
  for line in [indent 4 pointCondition, indent 4 selection] do
    let m := (conditionHead .blanks1).match? line
    Act.sayAll [[], "Тест регулярного выражения: '" ++ line ++ "'", "  Совпадение: " ++ shownMatch m]

end BlockScript.Sample
