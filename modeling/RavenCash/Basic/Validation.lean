import RavenCash.Basic.Primitives
import RavenCash.Lib.Checks

/-!
# Validation errors

What `CValidationState` holds after a failed check of `consensus/validation.h`: the penalty of
`DoS`, the reject code and the texts. `Invalid` is `DoS` with penalty `0`.
-/

set_option autoImplicit false

namespace RavenCash

def REJECT_INVALID : UInt8 := 0x10
def REJECT_CHECKPOINT : UInt8 := 0x43

/-- The state a rejection leaves. -/
structure CValidationError where
  nDoS : Int
  chRejectCode : UInt8
  strRejectReason : String
  strDebugMessage : String := ""
deriving DecidableEq, Repr

/-- The outcome of a check. -/
abbrev Check := Except CValidationError Unit

/-- `state.DoS(level, false, REJECT_INVALID, reason)` -/
def dos (level : Int) (reason : String) : CValidationError := ⟨level, REJECT_INVALID, reason, ""⟩

/-- `state.DoS(100, false, REJECT_INVALID, reason)` -/
def badTx (reason : String) : CValidationError := dos 100 reason

end RavenCash
