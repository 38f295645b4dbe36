import TieredStore.Datum.Shape
import TieredStore.Text.Utf8

/-!
# The plain encoding

An encoding that knows bytes only.  Text is written as its UTF-8 bytes, a block as itself, a single
byte and a row of bytes likewise; nothing is added, no length and no end mark.  Options and records
of one field are transparent, and what is not of this kind cannot be written.

Reading gives the whole input to the shape.  A shape that wants a row of values gets one integer for
every byte.
-/

namespace TieredStore.Plain

inductive Fault where
  /-- Data of this kind has no plain form. -/
  | unsupported (got : String)
  /-- Integers of 128 bits have no plain form. -/
  | tooWide (type : IntType)
  /-- The shape does not take a block of bytes. -/
  | unexpectedBlock (expected : String)
  /-- The shape does not take an integer. -/
  | unexpectedByte (byte : Nat) (expected : String)
  /-- The integer is too large for the shape. -/
  | byteTooLarge (byte : Nat) (expected : String)
  | notOneByte (got : Nat)
  | tooFew (got : Nat) (expected : String)
  | tooMany (got taken : Nat)
  | badText (fault : Text.Utf8.Fault)
  | refused (reason : String)
  deriving DecidableEq, Repr

def Fault.message : Fault → String
  | .unsupported got => s!"raw encoding accepts bytes and strings only, got {got}"
  | .tooWide type => s!"{type.name} is not supported"
  | .unexpectedBlock expected => s!"invalid type: byte array, expected {expected}"
  | .unexpectedByte byte expected => s!"invalid type: integer `{byte}`, expected {expected}"
  | .byteTooLarge byte expected => s!"invalid value: integer `{byte}`, expected {expected}"
  | .notOneByte got => s!"expected a single byte, got {got} bytes"
  | .tooFew got expected => s!"invalid length {got}, expected {expected}"
  | .tooMany got 1 => s!"invalid length {got}, expected 1 element in sequence"
  | .tooMany got taken => s!"invalid length {got}, expected {taken} elements in sequence"
  | .badText fault => s!"value is not UTF-8: {fault.message}"
  | .refused reason => reason

/-! ## Writing -/

/-- Refuses data that has no place inside a row of bytes. -/
def outermost (inRow : Bool) (got : String) (bs : Bytes) : Except Fault Bytes :=
  if inRow then .error (.unsupported got) else .ok bs

mutual

/-- Writes a value; `inRow` says that it is one of a row, where it has to be a single byte. -/
def encodeIn (inRow : Bool) : Datum → Except Fault Bytes
  | .int (.uint .w8) n => .ok [UInt8.ofNat n.toNat]
  | .int (.uint .w128) _ => .error (.tooWide (.uint .w128))
  | .int (.sint .w128) _ => .error (.tooWide (.sint .w128))
  | .int type _ => .error (.unsupported type.name)
  | .char c => outermost inRow "a nested string" (Text.Utf8.encodeChar c)
  | .text s => outermost inRow "a nested string" (Text.Utf8.encode s.toList)
  | .buffer bs => outermost inRow "nested bytes" bs
  | .seq _ items =>
    if inRow then .error (.unsupported "a nested sequence") else encodeRow items
  | .tuple items =>
    if inRow then .error (.unsupported "a nested sequence") else encodeRow items
  | .present d => encodeIn inRow d
  | .wrapped _ d => encodeIn inRow d
  | .unit => .error (.unsupported "unit")
  | .bool _ => .error (.unsupported "bool")
  | .float32 _ => .error (.unsupported "f32")
  | .float64 _ => .error (.unsupported "f64")
  | .absent => .error (.unsupported "None")
  | .record name _ => .error (.unsupported name)
  | .map _ => .error (.unsupported "a map")
  | .marker name => .error (.unsupported name)
  | .variant name _ _ => .error (.unsupported name)
  | .refused reason => .error (.refused reason)

def encodeRow : List Datum → Except Fault Bytes
  | [] => .ok []
  | d :: ds => do
    let front ← encodeIn true d
    let rest ← encodeRow ds
    return front ++ rest

end

def encode (d : Datum) : Except Fault Bytes :=
  encodeIn false d

/-! ## Reading -/

/-- The bits of a byte's value as a floating-point number, with `fraction` bits after the leading
one and exponents that are stored `bias` too large.  Every byte is exact in such a number.  The
leading one is not stored; here it falls on the exponent, which is set one lower for it. -/
def floatBits (fraction bias byte : Nat) : Nat :=
  if byte = 0 then
    0
  else
    let exponent := byte.log2
    ((bias + exponent - 1) <<< fraction) + (byte <<< (fraction - exponent))

/-- Reads one value of a row; `around` is the type that the row belongs to. -/
def readByte (around : Shape) : Shape → UInt8 → Except Fault Datum
  | .int type, b =>
    if type = .sint .w8 ∧ 127 < b.toNat then
      .error (.byteTooLarge b.toNat type.name)
    else
      .ok (.int type b.toNat)
  | .float32, b => .ok (.float32 (UInt32.ofNat (floatBits 23 127 b.toNat)))
  | .float64, b => .ok (.float64 (UInt64.ofNat (floatBits 52 1023 b.toNat)))
  | .ignored, _ => .ok .unit
  | .refused, _ => .error (.refused "refused to decode")
  | .self, b => .error (.unexpectedByte b.toNat around.noun)
  | shape, b => .error (.unexpectedByte b.toNat shape.noun)

/-- Reads a row with as many values as the shapes tell, of which none may be left over. -/
def readRow (around : Shape) (expected : String) (shapes : List Shape) (bs : Bytes) :
    Except Fault (List Datum) := do
  let items ← (shapes.zip bs).mapM fun (shape, b) => readByte around shape b
  if bs.length < shapes.length then
    .error (.tooFew bs.length expected)
  else if shapes.length < bs.length then
    .error (.tooMany bs.length shapes.length)
  else
    return items

/-- Reads a value from all the bytes; `around` is the type that it may contain again. -/
def read (around : Shape) : Shape → Bytes → Except Fault Datum
  | .int (.uint .w8), bs =>
    match bs with
    | [b] => .ok (.int (.uint .w8) b.toNat)
    | bs => .error (.notOneByte bs.length)
  | .text, bs =>
    match Text.Utf8.decode bs with
    | .error fault => .error (.badText fault)
    | .ok cs => .ok (.text (String.ofList cs))
  | .buffer, bs => .ok (.buffer bs)
  | .anyBuffer, bs => .ok (.buffer bs)
  | .ignored, _ => .ok .unit
  | .refused, _ => .error (.refused "refused to decode")
  | .option shape, bs => (read around shape bs).map .present
  | .wrapped name shape, bs => (read around shape bs).map (.wrapped name)
  | .seq counted shape, bs => (bs.mapM (readByte around shape)).map (.seq counted)
  | .set shape, bs => (bs.mapM (readByte around shape)).map .setOf
  | .array length shape, bs =>
    (readRow around (Shape.array length shape).noun (List.replicate length shape) bs).map .tuple
  | .tuple shapes, bs => (readRow around (Shape.tuple shapes).noun shapes bs).map .tuple
  | .recursive body, bs => read body body bs
  | .self, _ => .error (.unexpectedBlock around.noun)
  | shape, _ => .error (.unexpectedBlock shape.noun)

/-- Reads the value of a shape that the bytes are. -/
def decode (shape : Shape) (bs : Bytes) : Except Fault Datum :=
  read shape shape bs

end TieredStore.Plain
