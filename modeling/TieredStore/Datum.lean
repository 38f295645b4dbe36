import TieredStore.Bytes.Word

/-!
# Data

The values that applications use as keys and values, as far as an encoding can tell them apart.  One
type holds them all: numbers of every width, text and bytes, options, sequences, tuples, records,
maps and variants, nested in any way.  What a program takes for one type and what it takes for
another is said by a `Shape`, in a module of its own.

Sets and maps are kept in the order of their members and keys, without repetition; `setOf` and
`mapOf` bring them there.
-/

namespace TieredStore

/-! ## Integer types -/

inductive Width where
  | w8
  | w16
  | w32
  | w64
  | w128
  deriving DecidableEq, Repr

def Width.bytes : Width → Nat
  | .w8 => 1
  | .w16 => 2
  | .w32 => 4
  | .w64 => 8
  | .w128 => 16

def Width.bits (width : Width) : Nat :=
  8 * width.bytes

/-- An unsigned or signed (two's complement) integer type. -/
inductive IntType where
  | uint (width : Width)
  | sint (width : Width)
  deriving DecidableEq, Repr

namespace IntType

def width : IntType → Width
  | .uint width | .sint width => width

def name : IntType → String
  | .uint width => s!"u{width.bits}"
  | .sint width => s!"i{width.bits}"

def Holds : IntType → Int → Prop
  | .uint width, n => 0 ≤ n ∧ n < (Bytes.words width.bytes : Int)
  | .sint width, n =>
    -(Bytes.words width.bytes : Int) ≤ 2 * n ∧ 2 * n < (Bytes.words width.bytes : Int)

instance (type : IntType) (n : Int) : Decidable (type.Holds n) := by
  cases type <;> unfold Holds <;> infer_instance

end IntType

/-! ## Values -/

/-- A value of an application.  Floating-point numbers are their bit patterns. -/
inductive Datum where
  | unit
  | bool (b : Bool)
  | char (c : Char)
  | int (type : IntType) (n : Int)
  | float32 (bits : UInt32)
  | float64 (bits : UInt64)
  | text (s : String)
  /-- Bytes as one block, other than a sequence of numbers. -/
  | buffer (bs : Bytes)
  | absent
  | present (d : Datum)
  /-- A sequence or a set.  Of one that is not counted, the length is not known beforehand. -/
  | seq (counted : Bool) (items : List Datum)
  /-- An array or a tuple: the type tells the length. -/
  | tuple (items : List Datum)
  | record (name : String) (fields : List Datum)
  /-- Pairs of key and value. -/
  | map (entries : List Datum)
  /-- A record of one field that is written as the field alone. -/
  | wrapped (name : String) (d : Datum)
  | marker (name : String)
  | variant (name : String) (index : Nat) (payload : Datum)
  | refused (reason : String)
  deriving Repr

namespace Datum

/-! ## Order -/

/-- The place of a kind of value in the order of all values. -/
def rank : Datum → Nat
  | .unit => 0
  | .bool _ => 1
  | .char _ => 2
  | .int .. => 3
  | .float32 _ => 4
  | .float64 _ => 5
  | .text _ => 6
  | .buffer _ => 7
  | .absent => 8
  | .present _ => 9
  | .seq .. => 10
  | .tuple _ => 11
  | .record .. => 12
  | .map _ => 13
  | .wrapped .. => 14
  | .marker _ => 15
  | .variant .. => 16
  | .refused _ => 17

mutual

/-- Compares values of one type: numbers by size, text and sequences by their first difference, a
missing value before a present one, variants by their index. -/
def cmp : Datum → Datum → Ordering
  | .bool a, .bool b => compare a b
  | .char a, .char b => compare a.toNat b.toNat
  | .int _ a, .int _ b => compare a b
  | .float32 a, .float32 b => compare a.toNat b.toNat
  | .float64 a, .float64 b => compare a.toNat b.toNat
  | .text a, .text b => compare (a.toList.map Char.toNat) (b.toList.map Char.toNat)
  | .buffer a, .buffer b => compare (a.map UInt8.toNat) (b.map UInt8.toNat)
  | .present a, .present b => cmp a b
  | .seq _ as, .seq _ bs => cmpAll as bs
  | .tuple as, .tuple bs => cmpAll as bs
  | .record _ as, .record _ bs => cmpAll as bs
  | .map as, .map bs => cmpAll as bs
  | .wrapped _ a, .wrapped _ b => cmp a b
  | .variant _ i a, .variant _ j b => (compare i j).then (cmp a b)
  | a, b => compare a.rank b.rank

/-- Compares lists by their first difference, a beginning before its continuation. -/
def cmpAll : List Datum → List Datum → Ordering
  | [], [] => .eq
  | [], _ :: _ => .lt
  | _ :: _, [] => .gt
  | a :: as, b :: bs => (cmp a b).then (cmpAll as bs)

end

/-! ## Sets and maps -/

/-- Puts an item at its key's place in a list that is ordered by keys, in place of an item of the
same key. -/
def place {α : Type} (key : α → Datum) (item : α) : List α → List α
  | [] => [item]
  | other :: rest =>
    match cmp (key other) (key item) with
    | .lt => other :: place key item rest
    | .eq => item :: rest
    | .gt => item :: other :: rest

/-- The items in the order of their keys; of two with one key, the later. -/
def ordered {α : Type} (key : α → Datum) (items : List α) : List α :=
  items.foldl (fun done item => place key item done) []

def setOf (members : List Datum) : Datum :=
  .seq true (ordered id members)

/-- A key with its value, as a map holds them. -/
def entry (pair : Datum × Datum) : Datum :=
  .tuple [pair.1, pair.2]

/-- A map of the given keys and values; a key that comes again has its last value. -/
def mapOf (pairs : List (Datum × Datum)) : Datum :=
  .map ((ordered Prod.fst pairs).map entry)

end Datum

end TieredStore
