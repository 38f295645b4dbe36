import TieredStore.Datum

/-!
# Shapes

The types of data, as a reader needs to know them: an encoding tells how a value is written, a shape
tells what to expect.  A type that contains itself is `recursive`, with `self` where it recurs.
-/

namespace TieredStore

inductive Shape where
  | unit
  | bool
  | char
  | int (type : IntType)
  | float32
  | float64
  | text
  /-- Bytes as one block. -/
  | buffer
  /-- Bytes as one block, found out by asking the encoding what comes. -/
  | anyBuffer
  | option (shape : Shape)
  /-- A sequence; whether its values know their length matters when they are written. -/
  | seq (counted : Bool) (shape : Shape)
  | set (shape : Shape)
  | map (key value : Shape)
  | array (length : Nat) (shape : Shape)
  | tuple (shapes : List Shape)
  | record (name : String) (fields : List Shape)
  /-- A record whose fields have no names. -/
  | tupleRecord (name : String) (fields : List Shape)
  /-- A record of one field that is written as the field alone. -/
  | wrapped (name : String) (shape : Shape)
  | marker (name : String)
  /-- A type of several alternatives, each with the shape of its payload.  `expected` says in
  messages which indices there are. -/
  | choice (name : String) (expected : String) (variants : List Shape)
  /-- A type that contains itself. -/
  | recursive (body : Shape)
  /-- The type around, where it contains itself. -/
  | self
  /-- A type of which no value can be read. -/
  | refused
  | ignored
  deriving Repr

namespace Shape

/-- A type of several alternatives that are known by their numbers. -/
def numbered (name : String) (variants : List Shape) : Shape :=
  .choice name s!"variant index 0 <= i < {variants.length}" variants

/-- Either a result or the reason why there is none. -/
def result (name : String) (ok error : Shape) : Shape :=
  .choice name "`Ok` or `Err`" [ok, error]

def octets : Shape :=
  .seq true (.int (.uint .w8))

/-- What a shape asks for, in messages. -/
def noun : Shape → String
  | .unit => "unit"
  | .bool => "a boolean"
  | .char => "a character"
  | .int type => type.name
  | .float32 => "f32"
  | .float64 => "f64"
  | .text => "a string"
  | .buffer | .anyBuffer => "bytes"
  | .option _ => "option"
  | .seq .. | .set _ => "a sequence"
  | .map .. => "a map"
  | .array 0 _ => "an empty array"
  | .array length _ => s!"an array of length {length}"
  | .tuple shapes => s!"a tuple of size {shapes.length}"
  | .record name _ => s!"struct {name}"
  | .tupleRecord name _ | .wrapped name _ => s!"tuple struct {name}"
  | .marker name => s!"unit struct {name}"
  | .choice name .. => s!"enum {name}"
  | .recursive body => noun body
  | .self | .refused | .ignored => "a value"

end Shape

end TieredStore
