import TieredStore.Request
import TieredStore.Text.Numeral

/-!
# Faults of messages

Why bytes are no message, or a message carries no value, or cannot be sent.
-/

namespace TieredStore.Wire

/-- A part of a request that its sizes announce. -/
inductive Part where
  /-- The arguments of a command as a whole. -/
  | command (type : CommandType)
  | key (type : CommandType)
  | value
  | oldValue
  | newValue
  deriving DecidableEq, Repr

def Part.label : Part → String
  | .command type => type.label
  | .key type => s!"{type.label} key"
  | .value => "SET value"
  | .oldValue => "CAS old value"
  | .newValue => "CAS new value"

inductive Fault where
  | shortRequest (expected got : Nat)
  | version (expected got : Nat)
  | unknownCommand (code : UInt16)
  /-- The sizes of a request's parts are cut short. -/
  | missingSizes (part : Part)
  /-- A part of a request is shorter than announced. -/
  | shortPart (part : Part) (expected got : Nat)
  | missingIncrement
  | shortReply (expected got : Nat)
  | missingErrorCode
  | missingValueLength
  | shortValue (expected got : Nat)
  | shortCounter (got : Nat)
  | missingCounterCount
  | shortCounters (count got : Nat)
  /-- A frame's length does not even count its own bytes. -/
  | frameTooShort (total : Nat)
  | frameTooLarge (length max : Nat)
  /-- A request that is not sent because of its keys and values. -/
  | payloadTooLarge (length max : Nat)
  /-- A request that is not sent because no datagram holds it. -/
  | noDatagram (length : Nat)
  /-- A fault that a transport words itself. -/
  | note (text : String)
  deriving DecidableEq, Repr

def Fault.message : Fault → String
  | .shortRequest expected got =>
    s!"Incomplete request header: expected {expected} bytes, got {got}"
  | .version expected got => s!"Protocol version mismatch: expected {expected}, got {got}"
  | .unknownCommand code => "Unknown command type: 0x" ++ Text.hexadecimal code.toNat
  | .missingSizes part => s!"{part.label} command: missing sizes"
  | .shortPart part expected got =>
    s!"{part.label}: incomplete (expected {expected}, got {got})"
  | .missingIncrement => "INCR command: missing increment"
  | .shortReply expected got =>
    s!"Incomplete reply header: expected {expected} bytes, got {got}"
  | .missingErrorCode => "error reply: missing error code"
  | .missingValueLength => "value reply: missing value length"
  | .shortValue expected got =>
    s!"value reply: incomplete value (expected {expected}, got {got})"
  | .shortCounter got => s!"incr reply: expected 8 bytes, got {got}"
  | .missingCounterCount => "stats reply: missing counter count"
  | .shortCounters count got => s!"stats reply: expected {count} counters, got {got} bytes"
  | .frameTooShort total => s!"Frame length {total} shorter than its prefix"
  | .frameTooLarge length max => s!"Frame too large: {length} bytes (max {max})"
  | .payloadTooLarge length max =>
    s!"Request payload of {length} bytes exceeds the limit of {max}"
  | .noDatagram length => s!"Request of {length} bytes does not fit a datagram"
  | .note text => text

end TieredStore.Wire
