import BlockScript.Console
import BlockScript.Window.Catalog

/-!
# The report on panes

The report counts the records of a file. It could only judge a pane that marks an argument if it knew the height of the
window, so a file with such a pane has no report.
-/

namespace BlockScript.Window

def marksArgument (r : Record) : Bool :=
  r.items.any fun (slot, x) => x.isMarker && (paneModeAmong? r.items slot x.variety x.name).isSome

/-- The report on the records of a file, which is written to `path`. -/
def paneReport (path : Text) (bytes : Bytes) : Run Fault Json := do
  let records ← Run.ofExcept (Record.all (plainLines bytes))
  if records.any marksArgument then throw .wrongKind
  let withChest := records.countP (·.hasChest)
  Run.say ("records=" ++ Text.ofNat records.length ++ " hasChestTrue=" ++ Text.ofNat withChest)
  Run.say ("issues=0 noArgs=0 noSlot=0 wrote=" ++ path)
  return .obj [
    ("recordsTotal", .int records.length),
    ("issues", .arr []),
    ("stats", .obj [("hasChestTrue", .int withChest), ("hasChestFalse", .int (records.length - withChest : Nat)),
      ("issuesCount", .int 0), ("issuesNoArgs", .int 0), ("issuesNoSlotForGlass", .int 0)])]

end BlockScript.Window
