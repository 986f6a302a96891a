import BlockScript.Text.Case

/-!
# Patterns

Patterns describe the shape of a text: character classes, sequences, ordered choices, repetitions, captured
groups and conditions on what stands around a place. A pattern is matched by trying its alternatives in
order, the longer repetition first unless it is lazy, and the first way that lets the whole pattern succeed
gives the match.

The matcher `Pattern.run` recurses on the pattern and hands the place it reached to a continuation; a
repetition goes round only while it makes progress, at most once per character left.
-/

namespace BlockScript

inductive Pattern where
  | empty
  | char (p : Char → Bool)
  | seq (a b : Pattern)
  /-- The first pattern, or else the second. -/
  | alt (a b : Pattern)
  /-- Any number of repetitions, as many as possible. -/
  | many (a : Pattern)
  /-- Any number of repetitions, as few as possible. -/
  | manyLazy (a : Pattern)
  /-- The pattern if possible, else nothing. -/
  | opt (a : Pattern)
  /-- Keep the text the pattern takes as group `i`. -/
  | group (i : Nat) (a : Pattern)
  | again (i : Nat)
  | atStart
  /-- The place is the end of the text, or the line feed that ends it. -/
  | atEnd
  | wordEdge
  /-- The pattern could go on from here. -/
  | ahead (a : Pattern)
  /-- The pattern could not go on from here. -/
  | notAhead (a : Pattern)
  | notBehind (p : Char → Bool)

namespace Pattern

/-! ### Places and matches -/

/-- A place in a text: how many characters were read, the last of them, and what is left. -/
structure Place where
  pos : Nat
  last : Option Char
  rest : Text

variable (t : Text)

def Place.start : Place := ⟨0, none, t⟩

abbrev Groups := List (Nat × Text)

/-- The character at which a word could begin or end. -/
def isWordSide : Option Char → Bool
  | some c => isWordChar c
  | none => false

/-- Repeat `step` while it makes progress, as often as possible, at most `fuel` times. -/
def repeatLong {α : Type} (step : Place → Groups → (Place → Groups → Option α) → Option α)
    (k : Place → Groups → Option α) : Nat → Place → Groups → Option α
  | 0, s, g => k s g
  | fuel + 1, s, g =>
    match step s g fun s' g' => if s.pos < s'.pos then repeatLong step k fuel s' g' else none with
    | some r => some r
    | none => k s g

/-- Repeat `step` while it makes progress, as seldom as possible, at most `fuel` times. -/
def repeatShort {α : Type} (step : Place → Groups → (Place → Groups → Option α) → Option α)
    (k : Place → Groups → Option α) : Nat → Place → Groups → Option α
  | 0, s, g => k s g
  | fuel + 1, s, g =>
    match k s g with
    | some r => some r
    | none => step s g fun s' g' => if s.pos < s'.pos then repeatShort step k fuel s' g' else none

def readText : Text → Place → Option Place
  | [], s => some s
  | c :: t, s =>
    match s.rest with
    | d :: rest => if c == d then readText t ⟨s.pos + 1, some d, rest⟩ else none
    | [] => none

/-- Match from a place and go on with `k`; the first way that lets `k` succeed wins. -/
def run {α : Type} : Pattern → Place → Groups → (Place → Groups → Option α) → Option α
  | .empty, s, g, k => k s g
  | .char p, s, g, k =>
    match s.rest with
    | c :: rest => if p c then k ⟨s.pos + 1, some c, rest⟩ g else none
    | [] => none
  | .seq a b, s, g, k => a.run s g fun s' g' => b.run s' g' k
  | .alt a b, s, g, k =>
    match a.run s g k with
    | some r => some r
    | none => b.run s g k
  | .many a, s, g, k => repeatLong a.run k s.rest.length s g
  | .manyLazy a, s, g, k => repeatShort a.run k s.rest.length s g
  | .opt a, s, g, k =>
    match a.run s g k with
    | some r => some r
    | none => k s g
  | .group i a, s, g, k => a.run s g fun s' g' => k s' ((i, s.rest.take (s'.pos - s.pos)) :: g')
  | .again i, s, g, k =>
    match g.lookup i with
    | some t => (readText t s).bind fun s' => k s' g
    | none => none
  | .atStart, s, g, k => if s.pos = 0 then k s g else none
  | .atEnd, s, g, k => if s.rest.isEmpty || s.rest == ['\n'] then k s g else none
  | .wordEdge, s, g, k => if isWordSide s.last != isWordSide s.rest.head? then k s g else none
  | .ahead a, s, g, k => if (a.run s g fun _ _ => some ()).isSome then k s g else none
  | .notAhead a, s, g, k => if (a.run s g fun _ _ => some ()).isSome then none else k s g
  | .notBehind p, s, g, k =>
    match s.last with
    | some c => if p c then none else k s g
    | none => k s g

/-- A match: the places where it begins and ends, and its groups. -/
structure Match where
  start : Place
  stop : Place
  groups : Groups

namespace Match
variable (m : Match)

def text : Text := m.start.rest.take (m.stop.pos - m.start.pos)

/-- The text of group `i`, if the group took part in the match. -/
def group? (i : Nat) : Option Text := m.groups.lookup i

/-- The text of group `i`; empty if the group took no part in the match. -/
def group (i : Nat) : Text := (m.group? i).getD []

def isEmpty : Bool := m.start.pos == m.stop.pos

end Match

/-! ### Matching and searching -/

variable (a : Pattern)

def matchAt? (s : Place) : Option Match :=
  a.run s [] fun s' g => some ⟨s, s', g⟩

/-- Match at a place, taking at least one character. -/
def matchSomeAt? (s : Place) : Option Match :=
  a.run s [] fun s' g => if s.pos < s'.pos then some ⟨s, s', g⟩ else none

def match? (t : Text) : Option Match := a.matchAt? (.start t)

def fullMatch? (t : Text) : Option Match :=
  a.run (.start t) [] fun s g => if s.rest.isEmpty then some ⟨.start t, s, g⟩ else none

def fits (t : Text) : Bool := (a.match? t).isSome

/-- The first match at or after a place. With `advance`, a match at the place itself takes at least one
character. -/
def searchFrom (a : Pattern) (advance : Bool) : Nat → Option Char → Text → Option Match
  | pos, last, [] => (if advance then a.matchSomeAt? else a.matchAt?) ⟨pos, last, []⟩
  | pos, last, c :: rest =>
    match (if advance then a.matchSomeAt? else a.matchAt?) ⟨pos, last, c :: rest⟩ with
    | some m => some m
    | none => a.searchFrom false (pos + 1) (some c) rest

def search? (t : Text) : Option Match := a.searchFrom false 0 none t

def occurs (t : Text) : Bool := (a.search? t).isSome

/-- The matches from a place on, from left to right and without overlap, at most `fuel` of them. -/
def findAllFrom (a : Pattern) : Nat → Bool → Place → List Match
  | 0, _, _ => []
  | fuel + 1, advance, s =>
    match a.searchFrom advance s.pos s.last s.rest with
    | none => []
    | some m => m :: a.findAllFrom fuel m.isEmpty m.stop

/-- All matches from left to right, without overlap. An empty match may follow a match directly, but not an
empty one at the same place. -/
def findAll (t : Text) : List Match :=
  a.findAllFrom (2 * t.length + 2) false (.start t)

def substituteFrom (f : Match → Text) (s : Place) : List Match → Text
  | [] => s.rest
  | m :: ms => s.rest.take (m.start.pos - s.pos) ++ f m ++ substituteFrom f m.stop ms

def substitute (f : Match → Text) (t : Text) : Text :=
  substituteFrom f (.start t) (a.findAll t)

def replaceAll (new t : Text) : Text := a.substitute (fun _ => new) t

def substituteFirst (f : Match → Text) (t : Text) : Text :=
  substituteFrom f (.start t) (a.search? t).toList

/-- The parts of the text between the given matches, from a place on. -/
def splitFrom (s : Place) : List Match → List Text
  | [] => [s.rest]
  | m :: ms => s.rest.take (m.start.pos - s.pos) :: splitFrom m.stop ms

def split (t : Text) : List Text := splitFrom (.start t) (a.findAll t)

/-! ### Building patterns -/

instance : HAppend Pattern Pattern Pattern := ⟨.seq⟩
instance : Append Pattern := ⟨.seq⟩
instance : OrElse Pattern := ⟨fun a b => .alt a (b ())⟩

/-- The characters of `t` one after another, each up to `same`. -/
def ofChars (same : Char → Char → Bool) : Text → Pattern
  | [] => .empty
  | [c] => .char (same c)
  | c :: t => .seq (.char (same c)) (ofChars same t)

def lit : Pattern := ofChars (· == ·) t

def word : Pattern := ofChars sameLetter t

def oneOf : List Pattern → Pattern
  | [] => .char fun _ => false
  | [a] => a
  | a :: rest => .alt a (oneOf rest)

def many1 : Pattern := .seq a (.many a)

def many1Lazy : Pattern := .seq a (.manyLazy a)

def exactly : Nat → Pattern → Pattern
  | 0, _ => .empty
  | n + 1, a => .seq a (exactly n a)

def atMost : Nat → Pattern → Pattern
  | 0, _ => .empty
  | n + 1, a => .opt (.seq a (atMost n a))

def anyOf : Pattern := .char fun c => t.contains c

def noneOf : Pattern := .char fun c => !t.contains c

def blanks : Pattern := .many (.char isBlank)

def blanks1 : Pattern := many1 (.char isBlank)

def any : Pattern := .char (· != '\n')

def anyChar : Pattern := .char fun _ => true

def rest : Pattern := .many any

def restLazy : Pattern := .manyLazy any

def digit : Pattern := .char isDecimal

def between (a z : Char) : Pattern := .char fun c => a.toNat ≤ c.toNat && c.toNat ≤ z.toNat

end Pattern
end BlockScript
