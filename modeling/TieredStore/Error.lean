import TieredStore.Datum.Packed
import TieredStore.Datum.Plain
import TieredStore.Endpoint
import TieredStore.Failure
import TieredStore.IoError
import TieredStore.Wire.Fault

/-!
# Errors

Everything that an operation can fail with, by cause.  A key that is not there is no error, unless
the caller asks for it.  Every error also stands for one class of failure, which is what is left of
it where only the fate of a request counts (`Error.toFailure`).
-/

namespace TieredStore

inductive CodecFault where
  | packed (fault : Packed.Fault)
  | plain (fault : Plain.Fault)
  /-- A fault that an encoding words itself. -/
  | note (text : String)
  deriving DecidableEq, Repr

def CodecFault.message : CodecFault → String
  | .packed fault => fault.message
  | .plain fault => fault.message
  | .note text => text

inductive Error where
  | io (error : IoError)
  | network (failure : Failure)
  /-- Bytes that are no message, or a message that cannot be sent. -/
  | protocol (fault : Wire.Fault)
  /-- An endpoint that cannot be used. -/
  | config (fault : Endpoint.Fault)
  | alreadyRegistered (endpoint : Endpoint)
  | codec (fault : CodecFault)
  | keyNotFound
  /-- The value to add to is no numeral with a NUL after it. -/
  | notANumber
  deriving DecidableEq, Repr

namespace Error

def message : Error → String
  | .io error => s!"IO error: {error.text}"
  | .network failure => s!"Network failure: {failure.message}"
  | .protocol fault => s!"Protocol error: {fault.message}"
  | .config fault => s!"Configuration error: {fault.message}"
  | .alreadyRegistered endpoint => s!"Endpoint already registered: {endpoint.text}"
  | .codec fault => s!"Codec error: {fault.message}"
  | .keyNotFound => "Key not found"
  | .notANumber => "Stored value is not a NUL-terminated integer"

/-- The failure that an error reports, as opposed to one that it only stands for. -/
def failure? : Error → Option Failure
  | .network failure => some failure
  | _ => none

def isNetwork (error : Error) : Bool :=
  error.failure?.isSome

/-- The class of failure that an error stands for. -/
def toFailure : Error → Failure
  | .network failure => failure
  | .io error =>
    match error.kind with
    | .timedOut | .wouldBlock => .timeout
    | .unexpectedEof | .invalidData => .malformed
    | _ => .transport
  | .protocol _ => .malformed
  | _ => .transport

end Error

end TieredStore
