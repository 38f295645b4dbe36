import TieredStore.Datum.Shape
import TieredStore.Text.Utf8

/-!
# The packed encoding

A compact binary form of data.  Integers take their full width, least significant byte first;
lengths of text, blocks, sequences and maps take eight bytes in front; the index of a variant takes
four, an option's tag and a boolean one; tuples, arrays and records are their parts in a row.  The
form does not tell the type: a reader follows a `Shape`, and what follows the value is left over.
-/

namespace TieredStore.Packed

inductive Fault where
  /-- The bytes end inside a word or a tag. -/
  | endOfInput
  /-- Text or a block is longer than the bytes that are left. -/
  | endOfBody
  | badBool (byte : Nat)
  | badTag (byte : Nat)
  | badChar
  | badText (fault : Text.Utf8.Fault)
  | badVariant (index : Nat) (expected : String)
  /-- The shape asks what comes, which the bytes do not tell. -/
  | typeUnknown
  /-- The shape passes over what comes, of which the bytes do not tell the length. -/
  | lengthUnknown
  /-- A sequence does not know its length before it is written. -/
  | uncounted
  | refused (reason : String)
  deriving DecidableEq, Repr

def Fault.message : Fault → String
  | .endOfInput => "io error: unexpected end of file"
  | .endOfBody => "io error: "
  | .badBool byte => s!"invalid u8 while decoding bool, expected 0 or 1, found {byte}"
  | .badTag byte => s!"tag for enum is not valid, found {byte}"
  | .badChar => "char is not valid"
  | .badText fault => s!"string is not valid utf8: {fault.message}"
  | .badVariant index expected => s!"invalid value: integer `{index}`, expected {expected}"
  | .typeUnknown =>
    "Bincode does not support the serde::Deserializer::deserialize_any method"
  | .lengthUnknown => "Bincode does not support Deserializer::deserialize_ignored_any"
  | .uncounted =>
    "Bincode can only encode sequences and maps that have a knowable size ahead of time"
  | .refused reason => reason

/-! ## Writing -/

def length (n : Nat) : Bytes :=
  Bytes.littleEndian 8 n

/-- An integer in the width of its type. -/
def word (type : IntType) (n : Int) : Bytes :=
  Bytes.littleEndian type.width.bytes (Bytes.wrapSigned type.width.bytes n)

mutual

def encode : Datum → Except Fault Bytes
  | .unit => .ok []
  | .bool b => .ok [if b then 1 else 0]
  | .char c => .ok (Text.Utf8.encodeChar c)
  | .int type n => .ok (word type n)
  | .float32 bits => .ok (Bytes.littleEndian 4 bits.toNat)
  | .float64 bits => .ok (Bytes.littleEndian 8 bits.toNat)
  | .text s =>
    let bs := Text.Utf8.encode s.toList
    .ok (length bs.length ++ bs)
  | .buffer bs => .ok (length bs.length ++ bs)
  | .absent => .ok [0]
  | .present d => (encode d).map (1 :: ·)
  | .seq true items => (encodeAll items).map (length items.length ++ ·)
  | .seq false _ => .error .uncounted
  | .tuple items => encodeAll items
  | .record _ fields => encodeAll fields
  | .map entries => (encodeAll entries).map (length entries.length ++ ·)
  | .wrapped _ d => encode d
  | .marker _ => .ok []
  | .variant _ index payload => (encode payload).map (Bytes.littleEndian 4 index ++ ·)
  | .refused reason => .error (.refused reason)

def encodeAll : List Datum → Except Fault Bytes
  | [] => .ok []
  | d :: ds => do
    let front ← encode d
    let rest ← encodeAll ds
    return front ++ rest

end

/-! ## Reading -/

/-- Reads something from the front of the bytes and leaves the rest. -/
abbrev Take (α : Type) := Bytes → Except Fault (α × Bytes)

abbrev Reader := Take Datum

def takeWord (width : Nat) : Take Nat := fun bs =>
  match Bytes.takeLittle? width bs with
  | none => .error .endOfInput
  | some taken => .ok taken

def takeBlock : Take Bytes := fun bs => do
  let (n, bs) ← takeWord 8 bs
  match Bytes.split? n bs with
  | none => .error .endOfBody
  | some taken => .ok taken

def readBool : Reader := fun bs => do
  let (n, bs) ← takeWord 1 bs
  if n = 0 then .ok (.bool false, bs)
  else if n = 1 then .ok (.bool true, bs)
  else .error (.badBool n)

def readChar : Reader
  | [] => .error .endOfInput
  | b :: bs =>
    match Text.Utf8.decodeChar b bs with
    | .error _ => .error .badChar
    | .ok (c, rest) => .ok (.char c, rest)

def readInt (type : IntType) : Reader := fun bs => do
  let (n, bs) ← takeWord type.width.bytes bs
  match type with
  | .uint _ => .ok (.int type n, bs)
  | .sint width => .ok (.int type (Bytes.readSigned width.bytes n), bs)

def readText : Reader := fun bs => do
  let (body, bs) ← takeBlock bs
  match Text.Utf8.decode body with
  | .error fault => .error (.badText fault)
  | .ok cs => .ok (.text (String.ofList cs), bs)

/-- A tag, and the value after it if the tag says that there is one. -/
def readOption (read : Reader) : Reader := fun bs => do
  let (tag, bs) ← takeWord 1 bs
  if tag = 0 then
    .ok (.absent, bs)
  else if tag = 1 then do
    let (d, bs) ← read bs
    return (.present d, bs)
  else
    .error (.badTag tag)

/-- As many as told, one after the other. -/
def takeMany {α : Type} (take : Take α) : Nat → Take (List α)
  | 0, bs => .ok ([], bs)
  | n + 1, bs => do
    let (a, bs) ← take bs
    let (as, bs) ← takeMany take n bs
    return (a :: as, bs)

/-- Any number, with that number in front. -/
def takeCounted {α : Type} (take : Take α) : Take (List α) := fun bs => do
  let (n, bs) ← takeWord 8 bs
  takeMany take n bs

def takeEntry (key value : Reader) : Take (Datum × Datum) := fun bs => do
  let (k, bs) ← key bs
  let (v, bs) ← value bs
  return ((k, v), bs)

def stuck : Reader := fun _ => .error .endOfInput

/-- Reads a value that may contain values of its own type, nested at most `depth` deep. -/
def nested (body : Reader → Reader) : (depth : Nat) → Reader
  | 0 => stuck
  | depth + 1 => body (nested body depth)

mutual

def read : Shape → (self : Reader) → Reader
  | .unit, _, bs => .ok (.unit, bs)
  | .bool, _, bs => readBool bs
  | .char, _, bs => readChar bs
  | .int type, _, bs => readInt type bs
  | .float32, _, bs => do
    let (n, bs) ← takeWord 4 bs
    return (.float32 (UInt32.ofNat n), bs)
  | .float64, _, bs => do
    let (n, bs) ← takeWord 8 bs
    return (.float64 (UInt64.ofNat n), bs)
  | .text, _, bs => readText bs
  | .buffer, _, bs => do
    let (body, bs) ← takeBlock bs
    return (.buffer body, bs)
  | .anyBuffer, _, _ => .error .typeUnknown
  | .option shape, self, bs => readOption (read shape self) bs
  | .seq counted shape, self, bs => do
    let (ds, bs) ← takeCounted (read shape self) bs
    return (.seq counted ds, bs)
  | .set shape, self, bs => do
    let (ds, bs) ← takeCounted (read shape self) bs
    return (.setOf ds, bs)
  | .map key value, self, bs => do
    let (entries, bs) ← takeCounted (takeEntry (read key self) (read value self)) bs
    return (.mapOf entries, bs)
  | .array length shape, self, bs => do
    let (ds, bs) ← takeMany (read shape self) length bs
    return (.tuple ds, bs)
  | .tuple shapes, self, bs => do
    let (ds, bs) ← readAll shapes self bs
    return (.tuple ds, bs)
  | .record name fields, self, bs => do
    let (ds, bs) ← readAll fields self bs
    return (.record name ds, bs)
  | .tupleRecord name fields, self, bs => do
    let (ds, bs) ← readAll fields self bs
    return (.record name ds, bs)
  | .wrapped name shape, self, bs => do
    let (d, bs) ← read shape self bs
    return (.wrapped name d, bs)
  | .marker name, _, bs => .ok (.marker name, bs)
  | .choice name expected variants, self, bs => do
    let (index, bs) ← takeWord 4 bs
    match readVariant variants self index bs with
    | none => .error (.badVariant index expected)
    | some (.error fault) => .error fault
    | some (.ok (d, bs)) => .ok (.variant name index d, bs)
  | .recursive body, _, bs => nested (read body) (bs.length + 1) bs
  | .self, self, bs => self bs
  | .refused, _, _ => .error (.refused "refused to decode")
  | .ignored, _, _ => .error .lengthUnknown

/-- Reads values of several shapes, one after the other. -/
def readAll : List Shape → (self : Reader) → Take (List Datum)
  | [], _, bs => .ok ([], bs)
  | shape :: shapes, self, bs => do
    let (d, bs) ← read shape self bs
    let (ds, bs) ← readAll shapes self bs
    return (d :: ds, bs)

/-- Reads the payload of the variant with a given index, if there is one. -/
def readVariant : List Shape → (self : Reader) → (index : Nat) → Bytes →
    Option (Except Fault (Datum × Bytes))
  | [], _, _, _ => none
  | shape :: _, self, 0, bs => some (read shape self bs)
  | _ :: shapes, self, index + 1, bs => readVariant shapes self index bs

end

/-- Reads the value of a shape that bytes begin with. -/
def decode (shape : Shape) (bs : Bytes) : Except Fault Datum :=
  (read shape stuck bs).map Prod.fst

end TieredStore.Packed
