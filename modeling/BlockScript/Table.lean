import BlockScript.Text.Basic

/-!
# Tables

A table gives values to names and keeps the order in which the names came up first. Giving a name a new value leaves
it in its place.
-/

namespace BlockScript

abbrev Table (α : Type) := List (Text × α)

namespace Table
variable {α : Type}
variable (name : Text)
variable (t : Table α)

def get? : Option α := t.lookup name

def has : Bool := t.any fun e => e.1 == name

/-- Give a name a value: in its place if it is there, else at the end. -/
def set (name : Text) (v : α) : Table α → Table α
  | [] => [(name, v)]
  | (k, w) :: rest => if k == name then (k, v) :: rest else (k, w) :: set name v rest

def setNew (v : α) (t : Table α) : Table α := if has name t then t else t ++ [(name, v)]

def remove : Table α := t.filter fun e => e.1 != name

def names : List Text := t.map (·.1)

/-- The table of a list of entries, in which the last value of a repeated name wins. -/
def ofList (es : List (Text × α)) : Table α := es.foldl (fun t e => set e.1 e.2 t) []

def ofStrings (es : List (String × String)) : Table Text := es.map fun e => (e.1.toList, e.2.toList)

def getD (name : Text) (t : Table α) (d : α) : α := (get? name t).getD d

end Table
end BlockScript
