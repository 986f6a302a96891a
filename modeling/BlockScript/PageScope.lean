import BlockScript.Session

/-!
# What pages may be about

The pages that come with the compiler must not tell about the other parts of the project. A page that mentions one of
them is reported.
-/

namespace BlockScript.PageScope

/-- What pages must not mention, as it is written in reports, and the text. -/
def topics : Table Text := Table.ofStrings
  [("forge 1\\.12\\.2", "forge 1.12.2"), ("/placeadvanced", "/placeadvanced"), ("/loadmodule", "/loadmodule"),
   ("vercel", "vercel"), ("firebase", "firebase"), ("cloudflare pages", "cloudflare pages")]

def indexPage : Text := "CROSS_PROJECT_INDEX.md"

def mentioned (page : Text) : List Text :=
  let page := page.lower
  topics.filterMap fun t => if page.hasInfix t.2 then some t.1 else none

/-- The pages below a directory, by their paths from the directory above. -/
def pages (w : Workspace) (root : Path) : Table Text :=
  w.files.filterMap fun (p, t) =>
    (Text.dropLead? (root.toText ++ "/") p).bind fun rel =>
      if rel.startsWith "docs/" && rel.endsWith ".md" && (Path.ofText rel).name != indexPage then
        some (rel, t)
      else none

/-- Check the pages that come with the program. The result is the code to end with, if there is one. -/
def command : Act (Option Nat) := do
  let w ← Act.space
  let bad := (pages w w.install).flatMap fun (rel, t) => (mentioned t.unifyLineEnds).map (rel, ·)
  if bad.isEmpty then
    Act.say "Docs scope check passed (compiler repo)."
    return none
  Act.say "Docs scope violations:"
  for (rel, topic) in bad do
    Act.say ("- " ++ rel ++ ": matches '" ++ topic ++ "'")
  return some 1

end BlockScript.PageScope
