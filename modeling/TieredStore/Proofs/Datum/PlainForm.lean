import TieredStore.Proofs.Datum.OneForm

/-!
# Reading the plain form

What was written in the plain encoding is not always read back, but it is never read as another
value (`Encoding.plain_decode_encode`).  A single byte, text, blocks and rows of bytes are read
back.  A character, which is written as text is, is not; nor is a row with options or records of one
field around its bytes, of which the writer sees only the byte and the reader only the shape.
-/

namespace TieredStore

namespace Shape

def isOctet : Shape → Bool
  | .int (.uint .w8) => true
  | _ => false

end Shape

namespace Plain

/-- Whether a value is read back from its plain form. -/
def readsBack : Shape → Datum → Bool
  | .int (.uint .w8), _ | .text, _ | .buffer, _ | .anyBuffer, _ => true
  | .option shape, .present d => readsBack shape d
  | .wrapped _ shape, .wrapped _ d => readsBack shape d
  | .recursive body, d => readsBack body d
  | .seq _ shape, .seq _ items | .set shape, .seq _ items | .array _ shape, .tuple items =>
    items.isEmpty || shape.isOctet
  | .tuple shapes, _ => shapes.all Shape.isOctet
  | _, _ => false

/-! ## Rows -/

/-- A reader that is to give one thing gives it, or nothing where it cannot be read. -/
def Settles {α : Type} (x : Except Fault α) (a : α) : (readable : Bool) → Prop
  | true => x = .ok a
  | false => ∃ fault, x = .error fault

namespace Settles

variable {α β : Type} {x : Except Fault α} {a : α} {readable : Bool}

theorem map (h : Settles x a readable) (f : α → β) : Settles (x.map f) (f a) readable := by
  cases readable with
  | true => exact map_eq_ok_iff.2 ⟨a, h, rfl⟩
  | false =>
    obtain ⟨fault, rfl⟩ := h
    exact ⟨fault, rfl⟩

theorem cons {xs : Except Fault (List α)} {as : List α} {readables : Bool}
    (h : Settles x a readable) (hs : Settles xs as readables) :
    Settles (do let a ← x; let as ← xs; return a :: as) (a :: as) (readable && readables) := by
  cases readable with
  | false =>
    obtain ⟨fault, rfl⟩ := h
    exact ⟨fault, rfl⟩
  | true =>
    cases (h : x = .ok a)
    cases readables with
    | false =>
      obtain ⟨fault, rfl⟩ := hs
      exact ⟨fault, rfl⟩
    | true =>
      cases (hs : xs = .ok as)
      rfl

end Settles

variable {around : Option Shape} {shape : Shape} {d : Datum} {bs : Bytes} {items : List Datum}

/-- Of what stands in a row only a byte is read; the reader does not see through an option around
it, or through a record. -/
theorem readByte_of_encodeIn (top : Shape) {b : UInt8} (h : shape.HoldsIn around d)
    (henc : encodeIn true d = .ok [b]) : Settles (readByte top shape b) d shape.isOctet := by
  cases h with
  | int hrange =>
    obtain ⟨rfl, hbyte⟩ := encodeIn_int_eq_ok_iff.1 henc
    rw [List.singleton_inj.1 hbyte, readByte, toNat_byte hrange]
    rfl
  | present _ | wrapped _ | recursive _ | self _ => exact ⟨_, rfl⟩
  | _ => cases henc

theorem mapM_readByte (top : Shape) {shapes : List Shape} (hlen : items.length = shapes.length)
    (hitems : ∀ pair ∈ shapes.zip items, pair.1.HoldsIn around pair.2)
    (henc : encodeRow items = .ok bs) :
    bs.length = items.length
      ∧ Settles ((shapes.zip bs).mapM fun (shape, b) => readByte top shape b) items
        (shapes.all Shape.isOctet) := by
  induction shapes generalizing items bs with
  | nil =>
    obtain rfl := List.length_eq_zero_iff.1 hlen
    cases henc
    exact ⟨rfl, rfl⟩
  | cons shape shapes ih =>
    cases items with
    | nil => cases hlen
    | cons d items =>
      obtain ⟨front, back, hfront, hback, rfl⟩ := encodeRow_cons_eq_ok_iff.1 henc
      obtain ⟨b, rfl⟩ := List.length_eq_one_iff.1 (length_of_encodeIn_row hfront)
      rw [List.zip_cons_cons, List.forall_mem_cons] at hitems
      obtain ⟨hlen', htail⟩ := ih (Nat.succ.inj hlen) hitems.2 hback
      refine ⟨congrArg Nat.succ hlen', ?_⟩
      rw [List.singleton_append, List.zip_cons_cons, List.mapM_cons, List.all_cons]
      exact (readByte_of_encodeIn top hitems.1 hfront).cons htail

theorem readRow_of_encodeRow (top : Shape) (expected : String) {shapes : List Shape}
    (hlen : items.length = shapes.length)
    (hitems : ∀ pair ∈ shapes.zip items, pair.1.HoldsIn around pair.2)
    (henc : encodeRow items = .ok bs) :
    Settles (readRow top expected shapes bs) items (shapes.all Shape.isOctet) := by
  obtain ⟨hbytes, hread⟩ := mapM_readByte top hlen hitems henc
  have hfew : ¬bs.length < shapes.length := by omega
  have hmany : ¬shapes.length < bs.length := by omega
  simp only [readRow, if_neg hfew, if_neg hmany]
  simpa using hread

/-- A row of any number of values of one shape. -/
theorem mapM_readByte_eq (top shape : Shape) (bs : Bytes) :
    bs.mapM (readByte top shape)
      = ((List.replicate bs.length shape).zip bs).mapM fun (shape, b) => readByte top shape b := by
  induction bs with
  | nil => rfl
  | cons b bs ih => rw [List.length_cons, List.replicate_succ, List.zip_cons_cons, List.mapM_cons,
      List.mapM_cons, ih]

theorem all_replicate_isOctet (shape : Shape) :
    (List.replicate items.length shape).all Shape.isOctet = (items.isEmpty || shape.isOctet) := by
  cases items with
  | nil => rfl
  | cons d items => simp [List.all_replicate]

theorem forall_zip_replicate (hitems : ∀ d ∈ items, shape.HoldsIn around d) :
    ∀ pair ∈ (List.replicate items.length shape).zip items, pair.1.HoldsIn around pair.2 := by
  intro pair hpair
  obtain ⟨hshape, hd⟩ := List.of_mem_zip hpair
  rw [List.eq_of_mem_replicate hshape]
  exact hitems pair.2 hd

theorem mapM_readByte_of_encodeRow (top : Shape) (hitems : ∀ d ∈ items, shape.HoldsIn around d)
    (henc : encodeRow items = .ok bs) :
    Settles (bs.mapM (readByte top shape)) items (items.isEmpty || shape.isOctet) := by
  have hread := mapM_readByte top List.length_replicate.symm (forall_zip_replicate hitems) henc
  rw [all_replicate_isOctet] at hread
  rw [mapM_readByte_eq, hread.1]
  exact hread.2

/-! ## Values -/

/-- A value is read back from its plain form, or nothing is. -/
theorem read_of_encode (top : Shape) (h : shape.HoldsIn around d)
    (henc : encodeIn false d = .ok bs) :
    Settles (read top shape bs) d (readsBack shape d) := by
  induction h generalizing top bs with
  | char c => exact ⟨_, rfl⟩
  | int hrange =>
    obtain ⟨rfl, rfl⟩ := encodeIn_int_eq_ok_iff.1 henc
    rw [read, toNat_byte hrange]
    rfl
  | @text _ s hlen =>
    obtain ⟨-, rfl⟩ := outermost_eq_ok_iff.1 henc
    rw [read, Text.Utf8.decode_eq_ok_iff.2 rfl]
    simp only [String.ofList_toList]
    rfl
  | buffer hlen =>
    obtain ⟨-, rfl⟩ := outermost_eq_ok_iff.1 henc
    rfl
  | anyBuffer hlen =>
    obtain ⟨-, rfl⟩ := outermost_eq_ok_iff.1 henc
    rfl
  | present _ ih => exact (ih top henc).map Datum.present
  | @wrapped _ name shape d _ ih => exact (ih top henc).map (Datum.wrapped name)
  | @seq _ counted shape items _ hitems _ =>
    exact (mapM_readByte_of_encodeRow top hitems (encodeIn_seq_eq_ok_iff.1 henc).2).map _
  | @set _ shape items _ horder hmembers _ =>
    have hread := (mapM_readByte_of_encodeRow top hmembers (encodeIn_seq_eq_ok_iff.1 henc).2).map
      Datum.setOf
    rw [Datum.setOf_of_pairwise horder] at hread
    exact hread
  | @array _ n shape items hlen hitems _ =>
    subst hlen
    have hread := readRow_of_encodeRow top (Shape.array items.length shape).noun
      List.length_replicate.symm (forall_zip_replicate hitems) (encodeIn_tuple_eq_ok_iff.1 henc).2
    rw [all_replicate_isOctet] at hread
    exact hread.map _
  | tuple hlen hitems _ =>
    exact (readRow_of_encodeRow top _ hlen hitems (encodeIn_tuple_eq_ok_iff.1 henc).2).map _
  | recursive _ ih => exact ih _ henc
  | self _ _ => exact ⟨_, rfl⟩
  | _ => cases henc

end Plain

namespace Encoding

/-- What was written in the plain encoding is read back as it was if it is of the kind that is read
back, and otherwise refused. -/
theorem plain_decode_encode {shape : Shape} {v : Datum} {bs : Bytes} (hv : shape.Holds v)
    (henc : Encoding.plain.encode v = .ok bs) :
    (Plain.readsBack shape v = true → Encoding.plain.decode shape bs = .ok v)
      ∧ (Plain.readsBack shape v = false →
        ∃ fault, Encoding.plain.decode shape bs = .error (.codec (.plain fault))) := by
  have hread := Plain.read_of_encode shape hv (mapError_eq_ok_iff.1 henc)
  constructor
  · intro hback
    rw [hback] at hread
    exact mapError_eq_ok_iff.2 hread
  · intro hback
    rw [hback] at hread
    obtain ⟨fault, hfault⟩ := hread
    exact ⟨fault, by rw [decode, Plain.decode, hfault]; rfl⟩

/-- An array of bytes inside an option, and the same array with an option around each byte. -/
theorem plain_decode_encode_arrays :
    let byte (n : Int) := Datum.int (.uint .w8) n
    let outside := Datum.present (.tuple [byte 1, byte 2])
    let inside := Datum.tuple [.present (byte 1), .present (byte 2)]
    let outer := Shape.option (.array 2 (.int (.uint .w8)))
    let inner := Shape.array 2 (.option (.int (.uint .w8)))
    outer.Holds outside ∧ Encoding.plain.encode outside = .ok [1, 2]
      ∧ Encoding.plain.decode outer [1, 2] = .ok outside
      ∧ inner.Holds inside ∧ Encoding.plain.encode inside = .ok [1, 2]
      ∧ ∃ fault, Encoding.plain.decode inner [1, 2] = .error (.codec (.plain fault)) := by
  intro byte outside inside outer inner
  have hbyte (n : Int) (hn : IntType.Holds (.uint .w8) n) :
      (Shape.int (.uint .w8)).Holds (byte n) :=
    .int hn
  have houtside : outer.Holds outside :=
    .present (.array rfl (List.forall_mem_cons.2 ⟨hbyte 1 (by decide),
      List.forall_mem_cons.2 ⟨hbyte 2 (by decide), List.forall_mem_nil _⟩⟩))
  have hinside : inner.Holds inside :=
    .array rfl (List.forall_mem_cons.2 ⟨.present (hbyte 1 (by decide)),
      List.forall_mem_cons.2 ⟨.present (hbyte 2 (by decide)), List.forall_mem_nil _⟩⟩)
  have houter : Encoding.plain.encode outside = .ok [1, 2] := rfl
  have hinner : Encoding.plain.encode inside = .ok [1, 2] := rfl
  exact ⟨houtside, houter, (plain_decode_encode houtside houter).1 rfl, hinside, hinner,
    (plain_decode_encode hinside hinner).2 rfl⟩

/-- A character is written as text is, and not read back. -/
theorem plain_char_not_read_back :
    Shape.char.Holds (.char 'a') ∧ Encoding.plain.encode (.char 'a') = .ok [97]
      ∧ Encoding.plain.decode .char [97]
        = .error (.codec (.plain (.unexpectedBlock "a character"))) :=
  ⟨.char 'a', rfl, rfl⟩

end Encoding

end TieredStore
