import RuntimeLog.Text.Quoted
import RuntimeLog.Trace.Point

/-!
# Anomalies

An anomaly is a record which does not fit to the records before it but does not
keep the ones after it from being decoded.
-/

namespace RuntimeLog

/-- Something odd about a log. -/
inductive Anomaly where
  | duplicateDescriptor (descriptor : UInt64) (kept : TracePoint)
  | boundsReassigned (trace : UInt64)
  | addressCollision (address previous trace : UInt64)
  | codeWithoutOperation (trace : UInt64)
  | codeReassigned (trace : UInt64) (index : Nat)
  | missingBridgeOrigin (descriptor bridge : UInt64)
  | missingRedirectOrigin (descriptor : UInt64)
  | unattributedCounter (address : UInt64) (kind : UInt8) (count : UInt64)
  | unknownAbortedTrace (trace : UInt64)
deriving DecidableEq, Repr

namespace Anomaly

/-- An address or a number in messages. -/
def shown (number : UInt64) : String :=
  Text.hex number.toNat

/-- The text of an anomaly. -/
def message : Anomaly → String
  | duplicateDescriptor descriptor kept =>
      "Descriptor " ++ shown descriptor ++
        " was registered twice, keeping the first registration at " ++ kept.description
  | boundsReassigned trace => "Trace " ++ shown trace ++ " already has address bounds"
  | addressCollision address previous trace =>
      "Trace " ++ shown trace ++ " starts at " ++ shown address ++ ", where trace " ++
        shown previous ++ " was before"
  | codeWithoutOperation trace =>
      "Trace " ++ shown trace ++ " got machine code before any operation"
  | codeReassigned trace index =>
      "Operation " ++ toString index ++ " of trace " ++ shown trace ++
        " already has machine code"
  | missingBridgeOrigin descriptor bridge =>
      "Bridge " ++ shown bridge ++ " is attached to descriptor " ++ shown descriptor ++
        ", which is unknown"
  | missingRedirectOrigin descriptor =>
      "Redirected descriptor " ++ shown descriptor ++ " is unknown"
  | unattributedCounter address kind count =>
      "Counter " ++ shown address ++ " of kind " ++
        Text.quotedCharacter (Char.ofNat kind.toNat) ++ " with count " ++ toString count ++
        " matches no trace"
  | unknownAbortedTrace trace => "Aborted trace " ++ shown trace ++ " was never started"

end Anomaly
end RuntimeLog
