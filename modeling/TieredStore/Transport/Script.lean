import TieredStore.Transport
import TieredStore.Wire.Reply

/-!
# Scripts

A transport that plays prepared answers, one for each request, and writes down what was sent.
-/

namespace TieredStore

/-- An answer prepared beforehand. -/
inductive Cue where
  /-- The round trip fails. -/
  | fail (error : Error)
  /-- These bytes come back. -/
  | wire (bytes : Bytes)
  /-- A reply whose id is this much larger than that of the request. -/
  | reply (code : UInt32) (payload : Bytes) (idDelta : UInt32)
  deriving DecidableEq, Repr

structure Script where
  supported : List TransportKind
  /-- What preparing an endpoint fails with, if it does. -/
  prepareError : Option Error
  /-- The answers that are yet to come. -/
  cues : List Cue
  /-- The requests sent so far, with their endpoints. -/
  sent : List (Endpoint × Request)
  deriving DecidableEq, Repr

namespace Script

/-- What a cue makes of a request. -/
def Cue.play (request : Request) : Cue → Except Error Reply
  | .fail error => .error error
  | .wire bytes => (Reply.decode bytes).mapError .protocol
  | .reply code payload idDelta => .ok ⟨request.id + idDelta, code, payload⟩

def roundTrip (endpoint : Endpoint) (request : Request) (script : Script) :
    Except Error Reply × Script :=
  let sent := script.sent ++ [(endpoint, request)]
  match script.cues with
  | [] => (.error (.io ⟨.other, "no answer left"⟩), { script with sent })
  | cue :: cues => (Cue.play request cue, { script with cues, sent })

instance : Transport Script where
  supports script kind := kind ∈ script.supported
  prepare _ script := (script.prepareError.elim (.ok ()) .error, script)
  roundTrip := roundTrip

end Script

end TieredStore
