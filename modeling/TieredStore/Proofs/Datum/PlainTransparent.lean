import TieredStore.Proofs.Datum.PlainWritten

/-!
# Transparent shapes

The shapes whose values are bytes are transparent in the plain encoding: such a value is read from
exactly the bytes that it is written as, and the bytes that are read are those that the shape takes
(`Encoding.plain_transparent`).  A sequence or a block takes any bytes, text takes valid UTF-8, an
array or a tuple as many bytes as it has items.
-/

namespace TieredStore

namespace Shape

/-- Whether the values of a shape are bytes: a byte, text, a block or a row of bytes, with any
options and records of one field around it. -/
def transparent : Shape → Bool
  | .int type => isOctet (.int type)
  | .text | .buffer | .anyBuffer => true
  | .seq _ shape | .array _ shape => shape.isOctet
  | .tuple shapes => shapes.all isOctet
  | .option shape | .wrapped _ shape => transparent shape
  | _ => false

/-- Whether bytes are a value of a transparent shape.  Blocks and sequences are any bytes. -/
def Takes : Shape → Bytes → Prop
  | .int _, bs => bs.length = 1
  | .text, bs => ∃ cs, Text.Utf8.encode cs = bs
  | .array length _, bs => bs.length = length
  | .tuple shapes, bs => bs.length = shapes.length
  | .option shape, bs | .wrapped _ shape, bs => Takes shape bs
  | _, _ => True

theorem eq_of_isOctet {shape : Shape} (h : shape.isOctet = true) : shape = .int (.uint .w8) := by
  unfold isOctet at h
  split at h
  · rfl
  · cases h

theorem all_isOctet_replicate (n : Nat) :
    (List.replicate n (Shape.int (.uint .w8))).all isOctet = true :=
  List.all_eq_true.2 fun shape hshape => by rw [List.eq_of_mem_replicate hshape]; rfl

end Shape

namespace Plain

variable {shape : Shape} {d : Datum} {bs : Bytes} {items : List Datum}

/-! ## Rows of bytes -/

theorem encodeRow_octets (bs : Bytes) : encodeRow (bs.map .octet) = .ok bs := by
  induction bs with
  | nil => rfl
  | cons b bs ih => exact encodeRow_cons_eq_ok_iff.2 ⟨[b], bs, encodeIn_octet true b, ih, rfl⟩

theorem readByte_octet (top : Shape) (b : UInt8) :
    readByte top (.int (.uint .w8)) b = .ok (.octet b) :=
  rfl

theorem mapM_readByte_octet (top : Shape) (bs : Bytes) :
    bs.mapM (readByte top (.int (.uint .w8))) = .ok (bs.map .octet) := by
  induction bs with
  | nil => rfl
  | cons b bs ih =>
    rw [List.mapM_cons, readByte_octet, ih]
    rfl

theorem mapM_readByte_octets (top : Shape) {shapes : List Shape}
    (h : shapes.all Shape.isOctet = true) (bs : Bytes) :
    ((shapes.zip bs).mapM fun (shape, b) => readByte top shape b)
      = .ok ((shapes.zip bs).map fun pair => .octet pair.2) := by
  induction shapes generalizing bs with
  | nil => rfl
  | cons shape shapes ih =>
    cases bs with
    | nil => rfl
    | cons b bs =>
      obtain ⟨hshape, hshapes⟩ := Bool.and_eq_true_iff.1 h
      rw [List.zip_cons_cons, List.mapM_cons, Shape.eq_of_isOctet hshape, ih hshapes]
      rfl

/-- A row of a known length is read from as many bytes: too few and too many are found out after
the bytes that there are have been read. -/
theorem readRow_octets_eq_ok_iff (top : Shape) (expected : String) {shapes : List Shape}
    (h : shapes.all Shape.isOctet = true) :
    readRow top expected shapes bs = .ok items
      ↔ bs.length = shapes.length ∧ items = bs.map .octet := by
  have hread : readRow top expected shapes bs
      = if bs.length < shapes.length then .error (.tooFew bs.length expected)
        else if shapes.length < bs.length then .error (.tooMany bs.length shapes.length)
        else .ok ((shapes.zip bs).map fun pair => .octet pair.2) := by
    rw [readRow, mapM_readByte_octets top h]
    rfl
  rw [hread]
  obtain hfew | hmany | hlen :
      bs.length < shapes.length ∨ shapes.length < bs.length ∨ bs.length = shapes.length := by omega
  · rw [if_pos hfew]
    constructor
    · intro hitems
      cases hitems
    · rintro ⟨hlen, -⟩
      omega
  · rw [if_neg (by omega), if_pos hmany]
    constructor
    · intro hitems
      cases hitems
    · rintro ⟨hlen, -⟩
      omega
  · have hbytes : (shapes.zip bs).map Prod.snd = bs := List.map_snd_zip (Nat.le_of_eq hlen)
    have hrow : ((shapes.zip bs).map fun pair => Datum.octet pair.2) = bs.map .octet := calc
      _ = ((shapes.zip bs).map Prod.snd).map Datum.octet := List.map_map.symm
      _ = bs.map .octet := by rw [hbytes]
    rw [if_neg (by omega), if_neg (by omega), hrow, Except.ok.injEq]
    exact ⟨fun hitems => ⟨hlen, hitems.symm⟩, fun hall => hall.2.symm⟩

/-! ## Values -/

/-- Bytes that a shape takes are read as a value of the shape, which is written as the bytes. -/
theorem read_of_takes (around : Option Shape) (top : Shape) (h : shape.transparent = true)
    (htakes : shape.Takes bs) :
    ∃ v, read top shape bs = .ok v ∧ encodeIn false v = .ok bs
      ∧ (bs.length < 0x10000000000000000 → shape.HoldsIn around v) := by
  induction shape using Shape.induction with
  | step shape ih =>
    cases shape with
    | int type =>
      cases Shape.eq_of_isOctet h
      obtain ⟨b, rfl⟩ := List.length_eq_one_iff.1 htakes
      exact ⟨.octet b, rfl, encodeIn_octet false b, fun _ => Shape.holdsIn_octet b⟩
    | text =>
      obtain ⟨cs, rfl⟩ := htakes
      refine ⟨.text (String.ofList cs), ?_, ?_, fun hlen => .text ?_⟩
      · rw [read, Text.Utf8.decode_eq_ok_iff.2 rfl]
      · rw [encodeIn, String.toList_ofList]
        rfl
      · rwa [String.toList_ofList]
    | buffer => exact ⟨.buffer bs, rfl, rfl, .buffer⟩
    | anyBuffer => exact ⟨.buffer bs, rfl, rfl, .anyBuffer⟩
    | seq counted inner =>
      obtain rfl := Shape.eq_of_isOctet h
      refine ⟨.seq counted (bs.map .octet), ?_, encodeRow_octets bs, fun hlen => .seq ?_ ?_⟩
      · rw [read, mapM_readByte_octet]
        rfl
      · rwa [List.length_map]
      · exact List.forall_mem_map.2 fun b _ => Shape.holdsIn_octet b
    | array length inner =>
      obtain rfl := Shape.eq_of_isOctet h
      have hrow := (readRow_octets_eq_ok_iff top (Shape.array length (.int (.uint .w8))).noun
        (Shape.all_isOctet_replicate length)).2 ⟨htakes.trans List.length_replicate.symm, rfl⟩
      refine ⟨.tuple (bs.map .octet), ?_, encodeRow_octets bs, fun _ => .array ?_ ?_⟩
      · rw [read, hrow]
        rfl
      · rwa [List.length_map]
      · exact List.forall_mem_map.2 fun b _ => Shape.holdsIn_octet b
    | tuple shapes =>
      have hrow := (readRow_octets_eq_ok_iff top (Shape.tuple shapes).noun h).2 ⟨htakes, rfl⟩
      refine ⟨.tuple (bs.map .octet), ?_, encodeRow_octets bs, fun _ => .tuple ?_ ?_⟩
      · rw [read, hrow]
        rfl
      · rwa [List.length_map]
      · intro pair hpair
        obtain ⟨hshape, hd⟩ := List.of_mem_zip hpair
        obtain ⟨b, -, hb⟩ := List.mem_map.1 hd
        rw [Shape.eq_of_isOctet (List.all_eq_true.1 h _ hshape), ← hb]
        exact Shape.holdsIn_octet b
    | option inner =>
      obtain ⟨v, hread, henc, hholds⟩ := ih inner (List.mem_singleton_self _) h htakes
      refine ⟨.present v, ?_, henc, fun hlen => .present (hholds hlen)⟩
      rw [read, hread]
      rfl
    | wrapped name inner =>
      obtain ⟨v, hread, henc, hholds⟩ := ih inner (List.mem_singleton_self _) h htakes
      refine ⟨.wrapped name v, ?_, henc, fun hlen => .wrapped (hholds hlen)⟩
      rw [read, hread]
      rfl
    | _ => cases h

theorem read_of_not_takes (top : Shape) (h : shape.transparent = true) (htakes : ¬shape.Takes bs) :
    ∃ fault, read top shape bs = .error fault := by
  induction shape using Shape.induction with
  | step shape ih =>
    cases shape with
    | int type =>
      cases Shape.eq_of_isOctet h
      match bs with
      | [] => exact ⟨_, rfl⟩
      | [b] => exact absurd rfl htakes
      | b :: c :: bs => exact ⟨_, rfl⟩
    | text =>
      cases hread : Text.Utf8.decode bs with
      | error fault => exact ⟨.badText fault, by rw [read, hread]⟩
      | ok cs => exact absurd ⟨cs, (Text.Utf8.decode_eq_ok_iff.1 hread).symm⟩ htakes
    | buffer | anyBuffer | seq counted inner => exact absurd trivial htakes
    | array length inner =>
      obtain rfl := Shape.eq_of_isOctet h
      obtain ⟨fault, hfault⟩ := exists_error_of_forall_ne_ok fun items hitems => htakes
        (((readRow_octets_eq_ok_iff top (Shape.array length (.int (.uint .w8))).noun
          (Shape.all_isOctet_replicate length)).1 hitems).1.trans List.length_replicate)
      exact ⟨fault, by rw [read, hfault]; rfl⟩
    | tuple shapes =>
      obtain ⟨fault, hfault⟩ := exists_error_of_forall_ne_ok fun items hitems => htakes
        ((readRow_octets_eq_ok_iff top (Shape.tuple shapes).noun h).1 hitems).1
      exact ⟨fault, by rw [read, hfault]; rfl⟩
    | option inner | wrapped name inner =>
      obtain ⟨fault, hfault⟩ := ih inner (List.mem_singleton_self _) h htakes
      exact ⟨fault, by rw [read, hfault]; rfl⟩
    | _ => cases h

/-- Of a transparent shape, only a missing value is not read back. -/
theorem readsBack_of_transparent {around : Option Shape} (hd : shape.HoldsIn around d)
    (h : shape.transparent = true) (hcore : d.core ≠ .absent) : readsBack shape d = true := by
  induction hd with
  | int hrange => cases Shape.eq_of_isOctet h; rfl
  | text hlen | buffer hlen | anyBuffer hlen => rfl
  | absent => exact absurd rfl hcore
  | present _ ih => exact ih h hcore
  | wrapped _ ih => exact ih h hcore
  | seq _ _ _ | array _ _ _ => exact Bool.or_eq_true_iff.2 (.inr h)
  | tuple _ _ _ => exact h
  | _ => cases h

end Plain

namespace Encoding

/-- Of a transparent shape, a value is read from exactly the bytes that it is written as, unless it
is missing, and what is read is any bytes that the shape takes. -/
theorem plain_transparent {shape : Shape} (h : shape.transparent = true) :
    (∀ v bs, shape.Holds v → (Encoding.plain.decode shape bs = .ok v
        ↔ v.core ≠ .absent ∧ Encoding.plain.encode v = .ok bs))
      ∧ (∀ bs, shape.Takes bs → ∃ v, Encoding.plain.decode shape bs = .ok v
        ∧ Encoding.plain.encode v = .ok bs ∧ (bs.length < 0x10000000000000000 → shape.Holds v))
      ∧ ∀ bs, ¬shape.Takes bs →
        ∃ fault, Encoding.plain.decode shape bs = .error (.codec (.plain fault)) := by
  refine ⟨fun v bs hv => ⟨fun hdec => ?_, fun hwritten => ?_⟩, fun bs htakes => ?_,
    fun bs htakes => ?_⟩
  · have hread : Plain.read shape shape bs = .ok v := mapError_eq_ok_iff.1 hdec
    by_cases htakes : shape.Takes bs
    · obtain ⟨w, hw, henc, -⟩ := Plain.read_of_takes none shape h htakes
      obtain rfl := Except.ok.inj (hread.symm.trans hw)
      refine ⟨fun hcore => ?_, mapError_eq_ok_iff.2 henc⟩
      -- a missing value is not written
      have hspells := (Plain.encode_eq_ok_iff_spells hv).1 henc
      rw [hcore] at hspells
      cases hspells
    · obtain ⟨fault, hfault⟩ := Plain.read_of_not_takes shape h htakes
      rw [hfault] at hread
      cases hread
  · have hback := Plain.read_of_encode shape hv (mapError_eq_ok_iff.1 hwritten.2)
    rw [Plain.readsBack_of_transparent hv h hwritten.1] at hback
    exact mapError_eq_ok_iff.2 hback
  · obtain ⟨v, hread, henc, hholds⟩ := Plain.read_of_takes none shape h htakes
    exact ⟨v, mapError_eq_ok_iff.2 hread, mapError_eq_ok_iff.2 henc, hholds⟩
  · obtain ⟨fault, hfault⟩ := Plain.read_of_not_takes shape h htakes
    exact ⟨fault, by rw [decode, Plain.decode, hfault]; rfl⟩

/-- Bytes with a newline and a NUL as an optional record, and an optional array that gets a byte too
many. -/
theorem plain_transparent_blob :
    let blob := Shape.option (.wrapped "Blob" .octets)
    let v := Datum.present (.wrapped "Blob" (.seq true [.octet 10, .octet 0]))
    let pair := Shape.option (.array 2 (.int (.uint .w8)))
    blob.transparent = true ∧ blob.Holds v ∧ v.core ≠ .absent
      ∧ Encoding.plain.encode v = .ok [10, 0] ∧ Encoding.plain.decode blob [10, 0] = .ok v
      ∧ pair.transparent = true ∧ ¬pair.Takes [1, 2, 3]
      ∧ ∃ fault, Encoding.plain.decode pair [1, 2, 3] = .error (.codec (.plain fault)) := by
  intro blob v pair
  have hv : blob.Holds v :=
    .present (.wrapped (.seq (by decide) (List.forall_mem_cons.2 ⟨Shape.holdsIn_octet 10,
      List.forall_mem_cons.2 ⟨Shape.holdsIn_octet 0, List.forall_mem_nil _⟩⟩)))
  have henc : Encoding.plain.encode v = .ok [10, 0] := rfl
  have hmany : ¬pair.Takes [1, 2, 3] := fun h => absurd (show 3 = 2 from h) (by decide)
  have hcore : v.core ≠ .absent := by
    intro hcore
    cases hcore
  exact ⟨rfl, hv, hcore, henc, ((plain_transparent rfl).1 v [10, 0] hv).2 ⟨hcore, henc⟩, rfl, hmany,
    (plain_transparent rfl).2.2 [1, 2, 3] hmany⟩

end Encoding

end TieredStore
