import TieredStore.Wire.Fault

/-!
# The wire form of requests

A request is a header of eight bytes and its arguments, all words most significant byte first.  The
header holds the protocol version in four bits, the id in 28, the command in 16 and the flags in 16.
The arguments begin with the sizes of all keys and values, four bytes each, then follow those bytes
in the same order; an increment comes last, in eight bytes.  What follows the arguments is ignored.
-/

namespace TieredStore

namespace Wire

/-- The version of the protocol, carried by every request. -/
def version : Nat := 1

/-- How many ids travel: as many as 28 bits tell apart. -/
def ids : Nat := 0x10000000

/-- Version and id (4), command (2), flags (2). -/
def requestHeaderSize : Nat := 8

/-- A size as it is written: four bytes. -/
def size (bs : Bytes) : Bytes :=
  Bytes.bigEndian 4 bs.length

def takeSize (part : Part) (bs : Bytes) : Except Fault (Nat × Bytes) :=
  match Bytes.takeBig? 4 bs with
  | none => .error (.missingSizes part)
  | some taken => .ok taken

def takePart (part : Part) (length : Nat) (bs : Bytes) : Except Fault (Bytes × Bytes) :=
  match Bytes.split? length bs with
  | none => .error (.shortPart part length bs.length)
  | some taken => .ok taken

/-- Takes the key of a command that has no other sized argument. -/
def takeKey (type : CommandType) (bs : Bytes) : Except Fault (Bytes × Bytes) := do
  let (length, bs) ← takeSize (.key type) bs
  takePart (.key type) length bs

end Wire

open Wire

/-! ## Arguments -/

namespace Command

def encode : Command → Bytes
  | .get key | .delete key | .nextKey key => size key ++ key
  | .set key value => size key ++ size value ++ key ++ value
  | .cas key old new => size key ++ size old ++ size new ++ key ++ old ++ new
  | .incr key delta => size key ++ key ++ Bytes.bigEndian 8 delta.toUInt64.toNat
  | .stats | .firstKey => []

def decode (type : CommandType) (bs : Bytes) : Except Fault Command :=
  match type with
  | .get => do
    let (key, _) ← takeKey .get bs
    return .get key
  | .delete => do
    let (key, _) ← takeKey .delete bs
    return .delete key
  | .nextKey => do
    let (key, _) ← takeKey .nextKey bs
    return .nextKey key
  | .set => do
    let (keyLength, bs) ← takeSize (.command .set) bs
    let (valueLength, bs) ← takeSize (.command .set) bs
    let (key, bs) ← takePart (.key .set) keyLength bs
    let (value, _) ← takePart .value valueLength bs
    return .set key value
  | .cas => do
    let (keyLength, bs) ← takeSize (.command .cas) bs
    let (oldLength, bs) ← takeSize (.command .cas) bs
    let (newLength, bs) ← takeSize (.command .cas) bs
    let (key, bs) ← takePart (.key .cas) keyLength bs
    let (old, bs) ← takePart .oldValue oldLength bs
    let (new, _) ← takePart .newValue newLength bs
    return .cas key old new
  | .incr => do
    let (key, bs) ← takeKey .incr bs
    match Bytes.takeBig? 8 bs with
    | none => .error .missingIncrement
    | some (delta, _) => return .incr key (UInt64.ofNat delta).toInt64
  | .stats => .ok .stats
  | .firstKey => .ok .firstKey

end Command

/-! ## Requests -/

namespace Request

/-- The bytes of a request.  Of the id, 28 bits are written. -/
def encode (request : Request) : Bytes :=
  Bytes.bigEndian 4 (version * ids + request.id.toNat % ids)
    ++ Bytes.bigEndian 2 request.command.type.code.toNat
    ++ Bytes.bigEndian 2 request.flags.bits.toNat
    ++ request.command.encode

def decode (bs : Bytes) : Except Fault Request :=
  match Bytes.split? requestHeaderSize bs with
  | none => .error (.shortRequest requestHeaderSize bs.length)
  | some (header, arguments) =>
    let tag := Bytes.ofBigEndian (header.take 4)
    let code := UInt16.ofNat (Bytes.ofBigEndian ((header.drop 4).take 2))
    let flags := UInt16.ofNat (Bytes.ofBigEndian (header.drop 6))
    if tag / ids ≠ version then
      .error (.version version (tag / ids))
    else
      match CommandType.ofCode? code with
      | none => .error (.unknownCommand code)
      | some type => do
        let command ← Command.decode type arguments
        return ⟨UInt32.ofNat (tag % ids), ⟨flags⟩, command⟩

end Request

end TieredStore
