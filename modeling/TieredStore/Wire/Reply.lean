import TieredStore.Reply

/-!
# The wire form of replies

A reply is its id and its code, four bytes each, most significant first, and then its payload up to
the end of the message.  Every string of at least eight bytes is one.
-/

namespace TieredStore

/-- Id (4) and code (4). -/
def Wire.replyHeaderSize : Nat := 8

namespace Reply

open Wire

def encode (reply : Reply) : Bytes :=
  Bytes.bigEndian 4 reply.id.toNat ++ Bytes.bigEndian 4 reply.code.toNat ++ reply.payload

def decode (bs : Bytes) : Except Fault Reply :=
  match Bytes.split? replyHeaderSize bs with
  | none => .error (.shortReply replyHeaderSize bs.length)
  | some (header, payload) =>
    .ok ⟨UInt32.ofNat (Bytes.ofBigEndian (header.take 4)),
      UInt32.ofNat (Bytes.ofBigEndian (header.drop 4)), payload⟩

end Reply

end TieredStore
