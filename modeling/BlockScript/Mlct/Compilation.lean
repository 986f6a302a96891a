import BlockScript.Json.Document
import BlockScript.Json.Printer
import BlockScript.Mlct.Block
import BlockScript.Mlct.Parser

/-!
# Compiling programs

A program goes through its tokens, nodes and blocks to a document. Compiling a file writes the document beside it
and tells about all of this on the screen and in a log.
-/

namespace BlockScript.Mlct

def Language.load (words extra env : Document) : Except Fault Language := do
  let doc ← words.need
  let extra ← match extra with
    | .missing => pure none
    | d => do pure (some (← d.need))
  ofDocuments doc extra env.need

structure Stages where
  tokens : Option (List Text) := none
  nodes : Option (List Text) := none
  blocks : Option (List Text) := none
  result : Option Json := none
  halt : Option Halt := none

def Stages.fields (s : Stages) : Json.Fields :=
  let field (key : Text) (v : Option Json) : Json.Fields := (v.map (key, ·)).toList
  field "tokens" (s.tokens.map .texts) ++ field "nodes" (s.nodes.map .texts) ++ field "units" (s.blocks.map .texts)
    ++ field "result" s.result

def stages (s : Setting) (name source : Text) (o : Output) : Stages × Output :=
  match tokenize source o with
  | (.error h, o) => ({ halt := some h }, o)
  | (.ok tokens, o) =>
    let done : Stages := { tokens := some (tokens.map Token.shown) }
    match (do
      let p ← parse s name tokens
      return (p.nodes, ← Work.ofExcept (p.nodes.mapM Node.shown)) : Work _) o with
    | (.error h, o) => ({ done with halt := some h }, o)
    | (.ok (nodes, shown), o) =>
      let done := { done with nodes := some shown }
      match (do
        let blocks ← Block.ofNodes s.language nodes
        return (blocks, ← Work.ofExcept (blocks.mapM Block.shown)) : Work _) o with
      | (.error h, o) => ({ done with halt := some h }, o)
      | (.ok (blocks, shown), o) =>
        let done := { done with blocks := some shown }
        match Block.result s.language blocks o with
        | (.error h, o) => ({ done with halt := some h }, o)
        | (.ok v, o) => ({ done with result := some v }, o)

/-! ### Compiling a file -/

structure Telling where
  onScreen : Bool
  inLog : Bool
  /-- The indentation of the document; without it the document is one line. -/
  indent : Nat
  logFile : Text
  answered : Bool

def starred (ls : List Text) : Text := ls.flatMap fun (l : Text) => "* ".toList ++ l ++ "\n".toList

def sectionTitle (name : Text) : Text := "===================== " ++ name ++ " ====================="

/-- What is told about a compilation: titles and texts. -/
def sections (source : Text) (l : Language) (tokens nodes blocks : List Text) (document : Text) : List (Text × Text) :=
  [(sectionTitle "FILE", starred (Text.splitChar '\n' source)), (sectionTitle "LANG", starred l.listing),
   (sectionTitle "TOKENS", starred tokens), (sectionTitle "NODES", starred nodes),
   (sectionTitle "UNITS", starred blocks), (sectionTitle "RESULT", starred (Text.splitChar '\n' document)),
   (sectionTitle "OTHER", "* Time: 0 ms.")]

def compileFile (s : Setting) (tell : Telling) (name : Text) : Work Unit := do
  let some source := s.files.get? (s.here.resolve (.ofText name)).toText
    | Work.fail { cause := .missingFile, value := name } none
  let source := source.unifyLineEnds
  let p ← parse s name (← tokenize source)
  let blocks ← Block.ofNodes s.language p.nodes
  let result ← Block.result s.language blocks
  let document := if tell.indent = 0 then result.inline else result.renderAt tell.indent 0
  Work.write (name.take (name.length - 4) ++ ".json") document
  let told := sections source s.language (p.tokens.map Token.shown) (← Work.ofExcept (p.nodes.mapM Node.shown))
    (← Work.ofExcept (blocks.mapM Block.shown)) document
  if tell.onScreen then
    for (title, body) in told do
      Work.say ["\x1b[33m" ++ title, "\x1b[39m" ++ body]
    Work.say [[]]
  if tell.inLog then
    Work.log tell.logFile (told.flatMap fun (x : Text × Text) => x.1 ++ "\n" ++ x.2 ++ "\n")

def programFile : Text := "test_if_player.txt"

/-- Compile the file of the program, and ask before leaving. -/
def run (s : Setting) (tell : Telling) : Work Unit := do
  compileFile s tell programFile
  Work.say ["\x1b[32mКомпиляция завершена"]
  Work.print "\x1b[32mНажми ENTER для завершения"
  if !tell.answered then throw .unanswered

end BlockScript.Mlct
