import BlockScript.Text.Case
import BlockScript.Script.Error

/-!
# Settings of the compiler

What the user can set from outside: how lines are treated that nothing recognises, a limit for joined calls, how often
a block may be split, and which traces are written.
-/

namespace BlockScript.Script

structure Settings where
  strict : Bool
  warnUnknown : Bool
  /-- The greatest length of a call written over several lines, plus one. -/
  callLimit : Option Nat
  maxSplits : Nat
  traceSplits : Bool
  traceStages : Bool

namespace Settings

def isOn (t : Text) : Bool := (texts ["1", "true", "yes", "on"]).contains (Text.lower t.trim)

def isOff (t : Text) : Bool := (texts ["0", "false", "no", "off"]).contains (Text.lower t.trim)

def limit? (t : Text) : Option Nat :=
  match t.toInt? with
  | some n => if 0 < n then some n.toNat else none
  | none => none

def ofVariables (vars : Table Text) : Settings where
  strict := isOn (vars.getD "MLDSL_STRICT_UNKNOWN" [])
  warnUnknown := !isOff (vars.getD "MLDSL_WARN_UNKNOWN" "1")
  callLimit := limit? (vars.getD "MLDSL_NORMALIZED_CALL_LIMIT" [])
  maxSplits := ((Text.toInt? (vars.getD "MLDSL_AUTOSPLIT_MAX_ITERS" [])).getD 50000).toNat
  traceSplits := isOn (vars.getD "MLDSL_AUTOSPLIT_DEBUG" [])
  traceStages := isOn (vars.getD "MLDSL_COMPILE_DEEP_DEBUG" [])

def traceStage (cfg : Settings) (line : Text) : Compile Unit :=
  if cfg.traceStages then report ("[compile-debug] " ++ line) else pure ()

def traceSplit (cfg : Settings) (line : Text) : Compile Unit :=
  if cfg.traceSplits then report ("[autosplit-debug] " ++ line) else pure ()

end Settings
end BlockScript.Script
