import BlockScript.Script.Layout

/-!
# Templates

A template is a list of lines with parameters (`vfunc name(params)` and the indented lines behind it). A line that
calls a template is replaced by the template's lines, in which the parameters are replaced by the arguments. The lines
may call other templates, but no template that is being expanded.
-/

namespace BlockScript
open Script (Error)

structure Template where
  params : List Text
  defaults : Table Text
  body : List Text

namespace Template

/-! ### Definitions -/

def headPattern : Pattern :=
  .atStart ++ .blanks
    ++ .oneOf [.word "vfunc", .word "vfunction", .word "вирт_функция"]
    ++ .blanks1 ++ .group 1 (.many1 (.char isNameChar)) ++ .blanks ++ .lit "("
    ++ .blanks ++ .group 2 (.many (.noneOf ")")) ++ .blanks ++ .lit ")"
    ++ .blanks ++ .atEnd

variable (name : Text)

def addParam (acc : List Text × Table Text) (token : Text) : Except Error (List Text × Table Text) :=
  let (param, default) := match Text.cutAt? "=" token with
    | some (p, d) => (p.trim, some d.trim)
    | none => (token, none)
  if !isVarName param then .error (.templateParam name param)
  else if acc.1.contains param then .error (.templateParamTwice name param)
  else .ok (acc.1 ++ [param], match default with
    | some d => acc.2.set param d
    | none => acc.2)

def params? (name raw : Text) : Except Error (List Text × Table Text) :=
  (Text.splitTop ',' raw).foldlM (addParam name) ([], [])

/-- A line that belongs to the body of a definition: empty or indented. -/
def inBody (line : Text) : Bool := line.allBlank || !(Layout.indent line).isEmpty

/-- The lines without the indentation they share; lines of white space are empty. -/
def unindent (lines : List Text) : List Text :=
  let filled := lines.filter fun l => !Text.allBlank l
  let margin := ((filled.map fun l => (Layout.indent l).length).min?).getD 0
  lines.map fun l => if Text.allBlank l then [] else l.drop margin

/-- Take the definitions out of a script. `fuel` bounds the number of lines. -/
def collect : Nat → Table Template → List Text → Except Error (List Text × Table Template)
  | 0, known, lines => .ok (lines, known)
  | _, known, [] => .ok ([], known)
  | fuel + 1, known, line :: rest =>
    match headPattern.match? line.trim with
    | none =>
      match collect fuel known rest with
      | .ok (out, known) => .ok (line :: out, known)
      | .error e => .error e
    | some m =>
      let name := m.group 1
      if !(Layout.indent line).isEmpty then .error .templateIndented
      else if known.has name then .error (.templateTwice name)
      else match params? name (Text.trim (m.group 2)) with
        | .error e => .error e
        | .ok (params, defaults) =>
          let body := rest.takeWhile inBody
          if body.all Text.allBlank then .error (.templateEmpty name)
          else collect fuel (known.set name ⟨params, defaults, unindent body⟩) (rest.dropWhile inBody)

/-! ### Calls -/

/-- Replace names outside quotes. `s` tells quotes and escapes. -/
def substituteFrom (values : Table Text) : Nat → Nesting → Text → Text
  | 0, _, t => t
  | fuel + 1, s, t =>
    match t with
    | [] => []
    | c :: rest =>
      if !s.escaped && s.quote.isNone && isVarChar c then
        let name := t.takeWhile isVarChar
        values.getD name name ++ substituteFrom values fuel s (t.drop name.length)
      else c :: substituteFrom values fuel (s.read c) rest

def substitute (values : Table Text) (t : Text) : Text := substituteFrom values (t.length + 1) .top t

def bindPositional : List Text → List Text → Table Text
  | p :: ps, a :: as => (p, a) :: bindPositional ps as
  | _, _ => []

variable (t : Template)

def bindNamed (bound : Table Text) (arg : Text × Text) : Except Error (Table Text) :=
  if !t.params.contains arg.1 then .error (.templateUnknownArg name arg.1)
  else if bound.has arg.1 then .error (.templateArgTwice name arg.1)
  else .ok (bound ++ [arg])

def bindDefault (bound : Table Text) (param : Text) : Except Error (Table Text) :=
  if bound.has param then .ok bound
  else match t.defaults.get? param with
    | some d => .ok (bound ++ [(param, d)])
    | none => .error (.templateMissingArg name param)

def bind (args : Arguments) : Except Error (Table Text) := do
  if t.params.length < args.positional.length then
    throw (.templateTooManyArgs name t.params.length args.positional.length)
  let bound ← args.named.foldlM (bindNamed name t) (bindPositional t.params args.positional)
  t.params.foldlM (bindDefault name t) bound

def instantiate (values : Table Text) (margin : Text) : List Text :=
  t.body.map fun l => if Text.allBlank l then [] else margin ++ substitute values l

def call? (templates : Table Template) (line : Text) : Option (Text × Template × Text) :=
  if Layout.isIdle line then none
  else match bareCall? line.trim with
    | some (name, args) => (templates.get? name).map fun t => (name, t, args)
    | none => none

/-- The greatest number of templates that call each other. -/
def maxDepth : Nat := 32

/-- Replace every call of a template, and the calls in what takes its place. `stack` holds the templates that are
being expanded, and `depth` how many more may be nested. -/
def expandLines (templates : Table Template) : Nat → List Text → List Text → Except Error (List Text)
  | 0, stack, _ => .error (.templateDepth maxDepth stack)
  | depth + 1, stack, lines => do
    let parts ← lines.mapM fun line =>
      match call? templates line with
      | none => .ok [line]
      | some (name, t, args) =>
        if stack.contains name then .error (.templateCycle (stack ++ [name]))
        else do
          let values ← bind name t (Arguments.ofText args)
          expandLines templates depth (stack ++ [name]) (instantiate t values (Layout.indent line))
    return parts.flatten

def expand (templates : Table Template) (lines : List Text) : Except Error (List Text) :=
  if templates.isEmpty then .ok lines else expandLines templates (maxDepth + 1) [] lines

end Template
end BlockScript
