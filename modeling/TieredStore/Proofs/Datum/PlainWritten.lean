import TieredStore.Proofs.Datum.PlainForm

/-!
# What has a plain form

A value that is written in the plain encoding is bytes already: a byte, text, a block, or a row of
bytes, with any options and records of one field around it and around the bytes of the row
(`Plain.Spells`).  Every other value is refused, also for one wrong item in a row
(`Encoding.plain_written_iff`).
-/

namespace TieredStore

namespace Datum

/-- A value without the options and the records of one field around it. -/
def core : Datum → Datum
  | .present d | .wrapped _ d => core d
  | d => d

/-- A byte as a value. -/
def octet (b : UInt8) : Datum :=
  .int (.uint .w8) b.toNat

end Datum

theorem Shape.holdsIn_octet {around : Option Shape} (b : UInt8) :
    HoldsIn around (.int (.uint .w8)) (.octet b) :=
  .int ⟨Int.natCast_nonneg _, Int.ofNat_lt.2 b.toNat_lt⟩

namespace Plain

/-- The bytes that a value is, as long as nothing is around it. -/
inductive Spells : Datum → Bytes → Prop
  | octet (b : UInt8) : Spells (.octet b) [b]
  | char (c : Char) : Spells (.char c) (Text.Utf8.encodeChar c)
  | text (s : String) : Spells (.text s) (Text.Utf8.encode s.toList)
  | buffer (bs : Bytes) : Spells (.buffer bs) bs
  /-- A sequence or a set of bytes. -/
  | seq {counted : Bool} {items : List Datum} {bs : Bytes}
    (hitems : items.map Datum.core = bs.map .octet) : Spells (.seq counted items) bs
  /-- An array or a tuple of bytes. -/
  | tuple {items : List Datum} {bs : Bytes} (hitems : items.map Datum.core = bs.map .octet) :
    Spells (.tuple items) bs

variable {around : Option Shape} {shape : Shape} {d : Datum} {bs : Bytes} {items : List Datum}

theorem octet_of_holds {n : Int} (h : IntType.Holds (.uint .w8) n) :
    Datum.int (.uint .w8) n = .octet (UInt8.ofNat n.toNat) := by
  rw [Datum.octet, toNat_byte h]

@[simp] theorem encodeIn_octet (inRow : Bool) (b : UInt8) :
    encodeIn inRow (.octet b) = .ok [b] := by
  rw [Datum.octet, encodeIn, Int.toNat_natCast, UInt8.ofNat_toNat]

/-! ## Rows -/

/-- In a row only bytes are written. -/
theorem encodeIn_row_eq_ok_iff (h : shape.HoldsIn around d) :
    encodeIn true d = .ok bs ↔ ∃ b, d.core = .octet b ∧ bs = [b] := by
  induction h with
  | @int _ type n hrange =>
    rw [encodeIn_int_eq_ok_iff]
    constructor
    · rintro ⟨rfl, rfl⟩
      exact ⟨_, octet_of_holds hrange, rfl⟩
    · rintro ⟨b, hb, rfl⟩
      cases hb
      exact ⟨rfl, by rw [Int.toNat_natCast, UInt8.ofNat_toNat]⟩
  | present _ ih => exact ih
  | wrapped _ ih => exact ih
  | recursive _ ih => exact ih
  | self _ ih => exact ih
  -- whatever else stands in a row is refused, and none of it is a byte
  | _ =>
    constructor
    · intro henc
      cases henc
    · rintro ⟨b, hb, -⟩
      cases hb

theorem encodeRow_eq_ok_iff {shapes : List Shape} (hlen : items.length = shapes.length)
    (hitems : ∀ pair ∈ shapes.zip items, pair.1.HoldsIn around pair.2) :
    encodeRow items = .ok bs ↔ items.map Datum.core = bs.map .octet := by
  -- the bytes are open, because each item takes the first of them
  induction shapes generalizing items bs with
  | nil =>
    obtain rfl := List.length_eq_zero_iff.1 hlen
    cases bs <;> simp [encodeRow]
  | cons shape shapes ih =>
    cases items with
    | nil => cases hlen
    | cons d items =>
      rw [List.zip_cons_cons, List.forall_mem_cons] at hitems
      rw [encodeRow_cons_eq_ok_iff, List.map_cons]
      constructor
      · rintro ⟨front, back, hfront, hback, rfl⟩
        obtain ⟨b, hb, rfl⟩ := (encodeIn_row_eq_ok_iff hitems.1).1 hfront
        rw [hb, (ih (Nat.succ.inj hlen) hitems.2).1 hback]
        rfl
      · intro h
        cases bs with
        | nil => cases h
        | cons b bs =>
          obtain ⟨hb, hbs⟩ := List.cons.inj h
          exact ⟨[b], bs, (encodeIn_row_eq_ok_iff hitems.1).2 ⟨b, hb, rfl⟩,
            (ih (Nat.succ.inj hlen) hitems.2).2 hbs, rfl⟩

/-- A row of any number of values of one shape. -/
theorem encodeRow_eq_ok_iff_of_forall (hitems : ∀ d ∈ items, shape.HoldsIn around d) :
    encodeRow items = .ok bs ↔ items.map Datum.core = bs.map .octet :=
  encodeRow_eq_ok_iff List.length_replicate.symm (forall_zip_replicate hitems)

theorem spells_seq_iff {counted : Bool} :
    Spells (.seq counted items) bs ↔ items.map Datum.core = bs.map .octet := by
  constructor
  · intro h
    cases h
    assumption
  · exact .seq

theorem spells_tuple_iff : Spells (.tuple items) bs ↔ items.map Datum.core = bs.map .octet := by
  constructor
  · intro h
    cases h
    assumption
  · exact .tuple

/-! ## Values -/

theorem encode_eq_ok_iff_spells (h : shape.HoldsIn around d) :
    encodeIn false d = .ok bs ↔ Spells d.core bs := by
  induction h with
  | @int _ type n hrange =>
    constructor
    · intro henc
      obtain ⟨rfl, rfl⟩ := encodeIn_int_eq_ok_iff.1 henc
      show Spells (.int (.uint .w8) n) _
      rw [octet_of_holds hrange]
      exact .octet _
    · rintro ⟨⟩
      exact encodeIn_octet false _
  | char _ | text _ | buffer _ | anyBuffer _ =>
    constructor
    · intro henc
      obtain ⟨-, rfl⟩ := outermost_eq_ok_iff.1 henc
      constructor
    · rintro ⟨⟩
      rfl
  | present _ ih => exact ih
  | wrapped _ ih => exact ih
  | recursive _ ih => exact ih
  | self _ ih => exact ih
  | seq _ hitems _ =>
    exact (encodeRow_eq_ok_iff_of_forall hitems).trans spells_seq_iff.symm
  | set _ _ hmembers _ =>
    exact (encodeRow_eq_ok_iff_of_forall hmembers).trans spells_seq_iff.symm
  | array _ hitems _ =>
    exact (encodeRow_eq_ok_iff_of_forall hitems).trans spells_tuple_iff.symm
  | tuple hlen hitems _ => exact (encodeRow_eq_ok_iff hlen hitems).trans spells_tuple_iff.symm
  | _ =>
    constructor
    · intro henc
      cases henc
    · intro hspells
      cases hspells

end Plain

namespace Encoding

/-- The plain encoding writes the bytes that a value is, and refuses a value that is none. -/
theorem plain_written_iff {shape : Shape} {v : Datum} (hv : shape.Holds v) :
    (∀ bs, Encoding.plain.encode v = .ok bs ↔ Plain.Spells v.core bs)
      ∧ ((∀ bs, ¬Plain.Spells v.core bs) →
        ∃ fault, Encoding.plain.encode v = .error (.codec (.plain fault))) := by
  have hspells (bs : Bytes) : Plain.encode v = .ok bs ↔ Plain.Spells v.core bs :=
    Plain.encode_eq_ok_iff_spells hv
  refine ⟨fun bs => mapError_eq_ok_iff.trans (hspells bs), fun hnone => ?_⟩
  obtain ⟨fault, hfault⟩ :=
    exists_error_of_forall_ne_ok fun bs henc => hnone bs ((hspells bs).1 henc)
  exact ⟨fault, by rw [encode, hfault]; rfl⟩

/-- A byte, an optional byte and a byte as a record, all in an option, are three bytes; a sequence
that holds an empty sequence is none. -/
theorem plain_written_iff_triple :
    let triple := Datum.present (.tuple
      [.octet 1, .present (.octet 2), .wrapped "Byte" (.octet 3)])
    let shape := Shape.option (.tuple [.int (.uint .w8), .option (.int (.uint .w8)),
      .wrapped "Byte" (.int (.uint .w8))])
    let nested := Datum.seq true [.seq true []]
    shape.Holds triple ∧ Encoding.plain.encode triple = .ok [1, 2, 3]
      ∧ (Shape.seq true .octets).Holds nested ∧ (∀ bs, ¬Plain.Spells nested.core bs)
      ∧ ∃ fault, Encoding.plain.encode nested = .error (.codec (.plain fault)) := by
  intro triple shape nested
  have htriple : shape.Holds triple :=
    .present (.tuple rfl (List.forall_mem_cons.2 ⟨Shape.holdsIn_octet 1, List.forall_mem_cons.2
      ⟨.present (Shape.holdsIn_octet 2), List.forall_mem_cons.2
        ⟨.wrapped (Shape.holdsIn_octet 3), List.forall_mem_nil _⟩⟩⟩))
  have hnested : (Shape.seq true .octets).Holds nested :=
    .seq (by decide) (List.forall_mem_cons.2 ⟨.seq (by decide) (List.forall_mem_nil _),
      List.forall_mem_nil _⟩)
  have hnone : ∀ bs, ¬Plain.Spells nested.core bs := by
    intro bs hspells
    have hitems : [Datum.seq true []] = bs.map .octet := Plain.spells_seq_iff.1 hspells
    cases bs with
    | nil => cases hitems
    | cons b bs => cases hitems
  exact ⟨htriple, ((plain_written_iff htriple).1 _).2 (.tuple rfl), hnested, hnone,
    (plain_written_iff hnested).2 hnone⟩

end Encoding

end TieredStore
