import TieredStore.Error
import TieredStore.Wire.Reply
import TieredStore.Wire.Request
import TieredStore.Wire.Stream

/-!
# Frames

Messages on a stream.  A frame is a message with its length in front, in four bytes, most
significant first, which count themselves.  Reading takes one frame and leaves the stream where the
next one begins; a length that cannot be is refused after its four bytes.
-/

namespace TieredStore.Wire

def lengthSize : Nat := 4

def frame (message : Bytes) : Bytes :=
  Bytes.bigEndian lengthSize (lengthSize + message.length) ++ message

def writeFrame (message : Bytes) (outflow : Outflow) : Except Error Unit × Outflow :=
  (outflow.write (frame message)).map (·.mapError .io) id

def writeRequest (request : Request) : Outflow → Except Error Unit × Outflow :=
  writeFrame request.encode

def writeReply (reply : Reply) : Outflow → Except Error Unit × Outflow :=
  writeFrame reply.encode

/-- The length of the message that a frame's length announces. -/
def messageLength (max total : Nat) : Except Fault Nat :=
  if total < lengthSize then .error (.frameTooShort total)
  else if max < total - lengthSize then .error (.frameTooLarge (total - lengthSize) max)
  else .ok (total - lengthSize)

/-- Reads one frame whose message has at most `max` bytes. -/
def readFrame (max : Nat) (inflow : Inflow) : Except Error Bytes × Inflow :=
  match inflow.take lengthSize with
  | (.error error, inflow) => (.error (.io error), inflow)
  | (.ok total, inflow) =>
    match messageLength max (Bytes.ofBigEndian total) with
    | .error fault => (.error (.protocol fault), inflow)
    | .ok length => (inflow.take length).map (·.mapError .io) id

def readRequest (max : Nat) (inflow : Inflow) : Except Error Request × Inflow :=
  (readFrame max inflow).map (·.bind fun message => (Request.decode message).mapError .protocol) id

def readReply (max : Nat) (inflow : Inflow) : Except Error Reply × Inflow :=
  (readFrame max inflow).map (·.bind fun message => (Reply.decode message).mapError .protocol) id

/-- Reads again and again, up to the first failure of the stream itself and at most `limit` times.
A frame whose content is refused does not end the reading. -/
def readRepeatedly {α : Type} (read : Inflow → Except Error α × Inflow) :
    (limit : Nat) → Inflow → List (Except Error α) × Inflow
  | 0, inflow => ([], inflow)
  | limit + 1, inflow =>
    match read inflow with
    | (.error (.io error), inflow) => ([.error (.io error)], inflow)
    | (result, inflow) =>
      let (results, inflow) := readRepeatedly read limit inflow
      (result :: results, inflow)

end TieredStore.Wire
