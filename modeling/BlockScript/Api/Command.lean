import BlockScript.Api.Guide
import BlockScript.Session

/-!
# Commands for the library

The library is built from the catalog, and pages are written about it.
-/

namespace BlockScript.Api

def checked {α : Type} : Except Violation α → Act α
  | .ok a => pure a
  | .error (.data f) => throw (.data f)
  | .error e => throw (.library e)

def buildCommand : Act Unit := do
  let w ← Act.space
  let catalog ← Act.ofExcept (w.document w.catalog).need
  let library ← checked (build catalog ([w.namesByRecord, w.namesByHand].map fun p => (w.document p).value?))
  Act.write w.api library.fileText
  let modules := (library.fields?.getD []).length
  Act.say ("wrote " ++ w.api.toText ++ " modules=" ++ Text.ofNat modules)

def oldBuildCommand : Act Unit := do
  Act.warn "[deprecated] use `python tools/build_api_aliases.py`; legacy root entrypoint delegates to tools/"
  buildCommand

def pagesCommand : Act Unit := do
  let w ← Act.space
  let library ← Act.ofExcept (w.document w.api).need
  let pages ← Act.ofExcept (Guide.generate library (w.document w.catalog)
    (w.holds (w.install.child "docs/QUICKSTART_RU.md")) (w.holds (w.docs.child "MLDSL_GUIDE_RU.md")))
  for (name, text) in pages do
    Act.write (w.docs.child name) text
  Act.say ("wrote docs to " ++ w.docs.toText)

end BlockScript.Api
