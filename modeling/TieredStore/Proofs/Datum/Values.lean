import TieredStore.Datum.Shape
import TieredStore.Text.Utf8

/-!
# The values of a shape

Which data are values of which shape: numbers within the range of their type, as many items as an
array or a tuple has, the members of a set and the keys of a map in order.  No value is endless, so
a shape that contains itself without an alternative has none.  Lengths fit in 64 bits and the
indices of variants in 32.

A set or a map that keeps no order is a value of no such shape.  It is written as its members or
entries come, so it is taken here for the sequence of them (`Datum.listed`, in
`TieredStore.Proofs.Datum.AnyOrder`).
-/

namespace TieredStore

namespace Shape

/-- The values of a shape inside a type that contains itself, if there is one `around`.  Sets and
maps are those that are kept in order. -/
inductive HoldsIn : (around : Option Shape) → Shape → Datum → Prop
  | unit {around} : HoldsIn around .unit .unit
  | bool {around} (b : Bool) : HoldsIn around .bool (.bool b)
  | char {around} (c : Char) : HoldsIn around .char (.char c)
  | int {around} {type : IntType} {n : Int} (hrange : type.Holds n) :
    HoldsIn around (.int type) (.int type n)
  | float32 {around} (bits : UInt32) : HoldsIn around .float32 (.float32 bits)
  | float64 {around} (bits : UInt64) : HoldsIn around .float64 (.float64 bits)
  | text {around} {s : String} (hlen : (Text.Utf8.encode s.toList).length < 0x10000000000000000) :
    HoldsIn around .text (.text s)
  | buffer {around} {bs : Bytes} (hlen : bs.length < 0x10000000000000000) :
    HoldsIn around .buffer (.buffer bs)
  | anyBuffer {around} {bs : Bytes} (hlen : bs.length < 0x10000000000000000) :
    HoldsIn around .anyBuffer (.buffer bs)
  | absent {around shape} : HoldsIn around (.option shape) .absent
  | present {around shape d} (h : HoldsIn around shape d) :
    HoldsIn around (.option shape) (.present d)
  | seq {around counted shape} {items : List Datum} (hlen : items.length < 0x10000000000000000)
    (hitems : ∀ d ∈ items, HoldsIn around shape d) :
    HoldsIn around (.seq counted shape) (.seq counted items)
  | set {around shape} {members : List Datum} (hlen : members.length < 0x10000000000000000)
    (horder : members.Pairwise fun a b => Datum.cmp a b = .lt)
    (hmembers : ∀ d ∈ members, HoldsIn around shape d) :
    HoldsIn around (.set shape) (.seq true members)
  | map {around key value} {pairs : List (Datum × Datum)}
    (hlen : pairs.length < 0x10000000000000000)
    (horder : pairs.Pairwise fun a b => Datum.cmp a.1 b.1 = .lt)
    (hkeys : ∀ pair ∈ pairs, HoldsIn around key pair.1)
    (hvalues : ∀ pair ∈ pairs, HoldsIn around value pair.2) :
    HoldsIn around (.map key value) (.map (pairs.map Datum.entry))
  | array {around length shape} {items : List Datum} (hlen : items.length = length)
    (hitems : ∀ d ∈ items, HoldsIn around shape d) :
    HoldsIn around (.array length shape) (.tuple items)
  | tuple {around shapes} {items : List Datum} (hlen : items.length = shapes.length)
    (hitems : ∀ pair ∈ shapes.zip items, HoldsIn around pair.1 pair.2) :
    HoldsIn around (.tuple shapes) (.tuple items)
  | record {around name shapes} {fields : List Datum} (hlen : fields.length = shapes.length)
    (hfields : ∀ pair ∈ shapes.zip fields, HoldsIn around pair.1 pair.2) :
    HoldsIn around (.record name shapes) (.record name fields)
  | tupleRecord {around name shapes} {fields : List Datum} (hlen : fields.length = shapes.length)
    (hfields : ∀ pair ∈ shapes.zip fields, HoldsIn around pair.1 pair.2) :
    HoldsIn around (.tupleRecord name shapes) (.record name fields)
  | wrapped {around name shape d} (h : HoldsIn around shape d) :
    HoldsIn around (.wrapped name shape) (.wrapped name d)
  | marker {around name} : HoldsIn around (.marker name) (.marker name)
  | variant {around name expected} {variants : List Shape} {index : Nat} {shape payload}
    (hshape : variants[index]? = some shape) (hindex : index < 0x100000000)
    (h : HoldsIn around shape payload) :
    HoldsIn around (.choice name expected variants) (.variant name index payload)
  | recursive {around body d} (h : HoldsIn (some body) body d) : HoldsIn around (.recursive body) d
  | self {body d} (h : HoldsIn (some body) body d) : HoldsIn (some body) .self d
  /-- A type whose values cannot be written and never be read. -/
  | refused {around reason} : HoldsIn around .refused (.refused reason)
  /-- A type that is written as nothing and passes over whatever it reads. -/
  | ignored {around} : HoldsIn around .ignored .unit

/-- The values of a shape. -/
def Holds (shape : Shape) (d : Datum) : Prop :=
  HoldsIn none shape d

/-! ## Parts of shapes -/

/-- The shapes that a shape is made of. -/
def parts : Shape → List Shape
  | .option shape | .seq _ shape | .set shape | .array _ shape | .wrapped _ shape
  | .recursive shape => [shape]
  | .map key value => [key, value]
  | .tuple shapes | .record _ shapes | .tupleRecord _ shapes | .choice _ _ shapes => shapes
  | _ => []

theorem sizeOf_lt_of_mem_parts {part shape : Shape} (h : part ∈ shape.parts) :
    sizeOf part < sizeOf shape := by
  cases shape with
  | option inner | set inner | recursive inner | seq counted inner =>
    obtain rfl := List.mem_singleton.1 h
    simp only [option.sizeOf_spec, set.sizeOf_spec, recursive.sizeOf_spec, seq.sizeOf_spec]
    omega
  | array length inner | wrapped name inner =>
    obtain rfl := List.mem_singleton.1 h
    simp only [array.sizeOf_spec, wrapped.sizeOf_spec]
    omega
  | map key value =>
    simp only [parts, List.mem_cons, List.not_mem_nil, or_false] at h
    rw [map.sizeOf_spec]
    rcases h with rfl | rfl
    · omega
    · omega
  | tuple shapes | record name shapes | tupleRecord name shapes | choice name expected shapes =>
    have hlt : sizeOf part < sizeOf shapes := List.sizeOf_lt_of_mem h
    simp only [tuple.sizeOf_spec, record.sizeOf_spec, tupleRecord.sizeOf_spec, choice.sizeOf_spec]
    omega
  | _ => cases h

/-- What holds of a shape when it holds of its parts holds of every shape. -/
@[elab_as_elim]
theorem induction {P : Shape → Prop} (step : ∀ shape, (∀ part ∈ shape.parts, P part) → P shape)
    (shape : Shape) : P shape :=
  step shape fun part _ => induction step part
termination_by sizeOf shape
decreasing_by exact sizeOf_lt_of_mem_parts ‹_›

mutual

/-- Whether a shape and all its parts are of some kind. -/
def every (kind : Shape → Bool) : Shape → Bool
  | .option shape => kind (.option shape) && every kind shape
  | .seq counted shape => kind (.seq counted shape) && every kind shape
  | .set shape => kind (.set shape) && every kind shape
  | .map key value => kind (.map key value) && every kind key && every kind value
  | .array length shape => kind (.array length shape) && every kind shape
  | .tuple shapes => kind (.tuple shapes) && everyOf kind shapes
  | .record name fields => kind (.record name fields) && everyOf kind fields
  | .tupleRecord name fields => kind (.tupleRecord name fields) && everyOf kind fields
  | .wrapped name shape => kind (.wrapped name shape) && every kind shape
  | .choice name expected variants =>
    kind (.choice name expected variants) && everyOf kind variants
  | .recursive body => kind (.recursive body) && every kind body
  | shape => kind shape

def everyOf (kind : Shape → Bool) : List Shape → Bool
  | [] => true
  | shape :: shapes => every kind shape && everyOf kind shapes

end

theorem everyOf_iff {kind : Shape → Bool} {shapes : List Shape} :
    everyOf kind shapes = true ↔ ∀ shape ∈ shapes, every kind shape = true := by
  induction shapes with
  | nil => simp [everyOf]
  | cons shape shapes ih => simp [everyOf, ih]

theorem every_iff {kind : Shape → Bool} {shape : Shape} :
    every kind shape = true ↔ kind shape = true ∧ ∀ part ∈ shape.parts, every kind part = true := by
  cases shape with
  | map key value => simp [every, parts, and_assoc]
  | _ => simp [every, parts, everyOf_iff]

theorem every_part {kind : Shape → Bool} {shape part : Shape} (h : every kind shape = true)
    (hpart : part ∈ shape.parts) : every kind part = true :=
  (every_iff.1 h).2 part hpart

/-- Whether a reader of the shape knows beforehand what comes. -/
def tells : Shape → Bool
  | .anyBuffer | .ignored => false
  | _ => true

/-- Whether what is read is written in the way in which it was found: sets and maps bring it into
order, and a sequence that does not know its length is not written at all. -/
def keeps : Shape → Bool
  | .set _ | .map .. | .seq false _ => false
  | _ => true

end Shape

end TieredStore
