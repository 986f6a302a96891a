import BlockScript.Table

/-!
# Paths of files

A path is a list of names, from the root of the file system or from the directory one is in. Two dots stand for the
directory above; `Path.resolve` carries them out.
-/

namespace BlockScript

structure Path where
  absolute : Bool
  parts : List Text
deriving DecidableEq

namespace Path

/-- The path that a text spells. Empty names and single dots do not matter. -/
def ofText (t : Text) : Path :=
  ⟨t.head? == some '/', (Text.splitChar '/' t).filter fun p => !p.isEmpty && p != "."⟩

variable (p : Path)

def toText : Text :=
  let body := Text.joinWith "/" p.parts
  if p.absolute then '/' :: body else if body.isEmpty then "." else body

/-- A path from another one on; an absolute path stands for itself. -/
def join (p q : Path) : Path := if q.absolute then q else ⟨p.absolute, p.parts ++ q.parts⟩

/-- Carry out the steps to the directory above. `done` holds the names before, the last one first. -/
def climb (done : List Text) : List Text → List Text
  | [] => done.reverse
  | p :: rest => if p == ".." then climb (done.drop 1) rest else climb (p :: done) rest

/-- The absolute path that a path from the directory `here` leads to. -/
def resolve (here p : Path) : Path := ⟨true, climb [] (here.join p).parts⟩

def parent : Path := ⟨p.absolute, p.parts.dropLast⟩

def name : Text := p.parts.getLastD []

/-- The name of a file cut before its last point, unless the point is its first or its last character. -/
def splitName (name : Text) : Text × Text :=
  let suffix := (name.reverse.takeWhile (· != '.')).reverse
  let stem := name.take (name.length - suffix.length - 1)
  if stem.isEmpty || suffix.isEmpty || suffix.length == name.length then (name, []) else (stem, '.' :: suffix)

def stem : Text := (splitName p.name).1

def suffix : Text := (splitName p.name).2

def child (name : Text) : Path := p.join (ofText name)

end Path

abbrev Files := Table Text

end BlockScript
