import TieredStore.Datum.Encoding
import TieredStore.Proofs.Datum.PackedRoundTrip

/-!
# One form for every value

In either encoding, two values of one type are never written as the same bytes
(`Encoding.encode_injective`).

The packed form of a value can be read back, and where the reader of a type would ask what comes,
there is a type with the same values and the same forms whose reader does not (`Shape.legible`).
The plain form has no lengths and often cannot be read back, but of what stands in a row each takes
one byte, so the row can be told apart again.
-/

namespace TieredStore

namespace Shape

/-! ## Types that can be read -/

mutual

/-- A type of the same values that tells its reader what comes. -/
def legible : Shape → Shape
  | .anyBuffer => .buffer
  | .ignored => .unit
  | .option shape => .option (legible shape)
  | .seq counted shape => .seq counted (legible shape)
  | .set shape => .set (legible shape)
  | .map key value => .map (legible key) (legible value)
  | .array length shape => .array length (legible shape)
  | .tuple shapes => .tuple (legibleAll shapes)
  | .record name fields => .record name (legibleAll fields)
  | .tupleRecord name fields => .tupleRecord name (legibleAll fields)
  | .wrapped name shape => .wrapped name (legible shape)
  | .choice name expected variants => .choice name expected (legibleAll variants)
  | .recursive body => .recursive (legible body)
  | shape => shape

def legibleAll : List Shape → List Shape
  | [] => []
  | shape :: shapes => legible shape :: legibleAll shapes

end

theorem legibleAll_eq (shapes : List Shape) : legibleAll shapes = shapes.map legible := by
  induction shapes with
  | nil => rfl
  | cons shape shapes ih => rw [legibleAll, ih, List.map_cons]

theorem parts_legible (shape : Shape) : shape.legible.parts = shape.parts.map legible := by
  cases shape with
  | tuple shapes | record name shapes | tupleRecord name shapes | choice name expected shapes =>
    exact legibleAll_eq shapes
  | _ => rfl

theorem every_tells_legible (shape : Shape) : shape.legible.every tells = true := by
  induction shape using Shape.induction with
  | step shape ih =>
    rw [every_iff, parts_legible, List.forall_mem_map]
    refine ⟨?_, ih⟩
    cases shape <;> rfl

variable {around : Option Shape} {shape : Shape} {d : Datum}

theorem forall_zip_legibleAll {P : Shape → Datum → Prop} {shapes : List Shape} {items : List Datum}
    (h : ∀ pair ∈ shapes.zip items, P pair.1.legible pair.2) :
    ∀ pair ∈ (legibleAll shapes).zip items, P pair.1 pair.2 := by
  rw [legibleAll_eq, List.zip_map_left, List.forall_mem_map]
  exact h

theorem HoldsIn.legible (h : shape.HoldsIn around d) :
    shape.legible.HoldsIn (around.map Shape.legible) d := by
  induction h with
  | unit => exact .unit
  | bool b => exact .bool b
  | char c => exact .char c
  | int hrange => exact .int hrange
  | float32 bits => exact .float32 bits
  | float64 bits => exact .float64 bits
  | text hlen => exact .text hlen
  | buffer hlen => exact .buffer hlen
  | anyBuffer hlen => exact .buffer hlen
  | absent => exact .absent
  | present _ ih => exact .present ih
  | seq hlen _ ih => exact .seq hlen ih
  | set hlen horder _ ih => exact .set hlen horder ih
  | map hlen horder _ _ ihkeys ihvalues => exact .map hlen horder ihkeys ihvalues
  | array hlen _ ih => exact .array hlen ih
  | tuple hlen _ ih =>
    exact .tuple (by rw [hlen, legibleAll_eq, List.length_map]) (forall_zip_legibleAll ih)
  | record hlen _ ih =>
    exact .record (by rw [hlen, legibleAll_eq, List.length_map]) (forall_zip_legibleAll ih)
  | tupleRecord hlen _ ih =>
    exact .tupleRecord (by rw [hlen, legibleAll_eq, List.length_map]) (forall_zip_legibleAll ih)
  | wrapped _ ih => exact .wrapped ih
  | marker => exact .marker
  | variant hshape hindex _ ih =>
    exact .variant (by rw [legibleAll_eq, List.getElem?_map, hshape]; rfl) hindex ih
  | recursive _ ih => exact .recursive ih
  | self _ ih => exact .self ih
  | refused => exact .refused
  | ignored => exact .unit

end Shape

/-! ## Packed values -/

theorem Packed.eq_of_encode {shape : Shape} {v w : Datum} {bs : Bytes} (hv : shape.Holds v)
    (hw : shape.Holds w) (hev : encode v = .ok bs) (hew : encode w = .ok bs) : v = w := by
  have hread {d : Datum} (hd : shape.Holds d) (henc : encode d = .ok bs) :
      read shape.legible stuck (bs ++ []) = .ok (d, []) :=
    read_encode hd.legible shape.every_tells_legible henc []
  have hboth := (hread hv hev).symm.trans (hread hw hew)
  exact congrArg Prod.fst (Except.ok.inj hboth)

/-! ## Plain values -/

theorem Text.Utf8.encodeChar_inj {c c' : Char} (h : encodeChar c = encodeChar c') : c = c' := by
  obtain ⟨b, bs, hc, -⟩ := encodeChar_eq_cons c
  have hread := decodeChar_encodeChar hc []
  rw [decodeChar_encodeChar (h ▸ hc) []] at hread
  exact (congrArg Prod.fst (Except.ok.inj hread)).symm

theorem Text.Utf8.encode_inj {cs cs' : List Char} (h : encode cs = encode cs') : cs = cs' := by
  have hread := decode_eq_ok_iff.2 (rfl : encode cs = encode cs)
  rw [decode_eq_ok_iff.2 h] at hread
  exact (Except.ok.inj hread).symm

namespace Plain

variable {inRow : Bool} {bs : Bytes}

theorem encodeIn_int_eq_ok_iff {type : IntType} {n : Int} :
    encodeIn inRow (.int type n) = .ok bs ↔ type = .uint .w8 ∧ bs = [UInt8.ofNat n.toNat] := by
  cases type with
  | uint width => cases width <;> simp [encodeIn, eq_comm]
  | sint width => cases width <;> simp [encodeIn]

theorem outermost_eq_ok_iff {got : String} {form : Bytes} :
    outermost inRow got form = .ok bs ↔ inRow = false ∧ form = bs := by
  cases inRow <;> simp [outermost]

/-- A number of one byte is the number of that byte. -/
theorem toNat_byte {n : Int} (h : IntType.Holds (.uint .w8) n) :
    ((UInt8.ofNat n.toNat).toNat : Int) = n := by
  obtain ⟨hn, hlt⟩ : 0 ≤ n ∧ n < 256 := h
  rw [Text.Utf8.toNat_ofNat_byte (by omega)]
  exact Int.toNat_of_nonneg hn

theorem encodeIn_seq_eq_ok_iff {counted : Bool} {items : List Datum} :
    encodeIn inRow (.seq counted items) = .ok bs ↔ inRow = false ∧ encodeRow items = .ok bs := by
  cases inRow <;> simp [encodeIn]

theorem encodeIn_tuple_eq_ok_iff {items : List Datum} :
    encodeIn inRow (.tuple items) = .ok bs ↔ inRow = false ∧ encodeRow items = .ok bs := by
  cases inRow <;> simp [encodeIn]

theorem encodeRow_cons_eq_ok_iff {d : Datum} {ds : List Datum} :
    encodeRow (d :: ds) = .ok bs
      ↔ ∃ front back, encodeIn true d = .ok front ∧ encodeRow ds = .ok back ∧ bs = front ++ back :=
  bind_map_eq_ok_iff

/-- In a row everything takes one byte. -/
theorem length_of_encodeIn_row {d : Datum} (h : encodeIn true d = .ok bs) : bs.length = 1 := by
  match d with
  | .present d => exact length_of_encodeIn_row (show encodeIn true d = .ok bs from h)
  | .wrapped name d => exact length_of_encodeIn_row (show encodeIn true d = .ok bs from h)
  | .int type n =>
    rw [(encodeIn_int_eq_ok_iff.1 h).2]
    rfl
  | .unit | .bool _ | .char _ | .float32 _ | .float64 _ | .text _ | .buffer _ | .absent | .seq _ _
  | .tuple _ | .record _ _ | .map _ | .marker _ | .variant _ _ _ | .refused _ => cases h

/-- Of two values with the same form, the first is the second. -/
def SameForm (inRow : Bool) (d d' : Datum) : Prop :=
  ∀ bs, encodeIn inRow d = .ok bs → encodeIn inRow d' = .ok bs → d = d'

theorem eq_of_encodeRow {items others : List Datum}
    (h : ∀ pair ∈ items.zip others, SameForm true pair.1 pair.2) (henc : encodeRow items = .ok bs)
    (henc' : encodeRow others = .ok bs) : items = others := by
  induction items generalizing others bs with
  | nil =>
    cases henc
    cases others with
    | nil => rfl
    | cons d' others =>
      obtain ⟨front, back, hfront, -, hbs⟩ := encodeRow_cons_eq_ok_iff.1 henc'
      rw [(List.append_eq_nil_iff.1 hbs.symm).1] at hfront
      cases length_of_encodeIn_row hfront
  | cons d items ih =>
    obtain ⟨front, back, hfront, hback, rfl⟩ := encodeRow_cons_eq_ok_iff.1 henc
    cases others with
    | nil =>
      cases (List.append_eq_nil_iff.1 (Except.ok.inj henc').symm).1
      cases length_of_encodeIn_row hfront
    | cons d' others =>
      rw [List.zip_cons_cons, List.forall_mem_cons] at h
      obtain ⟨front', back', hfront', hback', hbs⟩ := encodeRow_cons_eq_ok_iff.1 henc'
      -- both first items take one byte, so the rest begins at the same place
      have hlen : front.length = front'.length := by
        rw [length_of_encodeIn_row hfront, length_of_encodeIn_row hfront']
      obtain ⟨rfl, rfl⟩ := List.append_inj hbs hlen
      cases h.1 front hfront hfront'
      rw [ih h.2 hback hback']

/-- What stands in the same place of two rows has the same shape. -/
theorem exists_shape_of_mem_zip {shapes : List Shape} {items others : List Datum}
    (hlen : items.length = shapes.length) {pair : Datum × Datum} (h : pair ∈ items.zip others) :
    ∃ shape, (shape, pair.1) ∈ shapes.zip items ∧ (shape, pair.2) ∈ shapes.zip others := by
  obtain ⟨i, hi, rfl⟩ := List.getElem_of_mem h
  rw [List.length_zip] at hi
  have hshape : i < shapes.length := by omega
  rw [List.getElem_zip]
  refine ⟨shapes[i], List.mem_iff_getElem.2 ⟨i, ?_, ?_⟩, List.mem_iff_getElem.2 ⟨i, ?_, ?_⟩⟩
  all_goals simp
  all_goals omega

variable {around : Option Shape} {shape : Shape}

/-- No other value of the shape has the form of this one. -/
def Unique (around : Option Shape) (shape : Shape) (d : Datum) : Prop :=
  ∀ inRow d', shape.HoldsIn around d' → SameForm inRow d d'

theorem SameForm.seq {counted : Bool} {items others : List Datum}
    (h : ∀ d ∈ items, Unique around shape d) (hothers : ∀ d ∈ others, shape.HoldsIn around d) :
    SameForm inRow (.seq counted items) (.seq counted others) := by
  intro bs henc henc'
  refine congrArg (Datum.seq counted) (eq_of_encodeRow (fun pair hpair => ?_)
    (encodeIn_seq_eq_ok_iff.1 henc).2 (encodeIn_seq_eq_ok_iff.1 henc').2)
  obtain ⟨hd, hd'⟩ := List.of_mem_zip hpair
  exact h pair.1 hd true pair.2 (hothers pair.2 hd')

theorem SameForm.tuple {items others : List Datum}
    (h : ∀ pair ∈ items.zip others, SameForm true pair.1 pair.2) :
    SameForm inRow (.tuple items) (.tuple others) := by
  intro bs henc henc'
  exact congrArg Datum.tuple (eq_of_encodeRow h (encodeIn_tuple_eq_ok_iff.1 henc).2
    (encodeIn_tuple_eq_ok_iff.1 henc').2)

theorem unique_of_holds {d : Datum} (h : shape.HoldsIn around d) : Unique around shape d := by
  intro inRow d' hd'
  induction h generalizing inRow d' with
  | char c =>
    cases hd' with
    | char c' =>
      intro bs henc henc'
      obtain ⟨-, rfl⟩ := outermost_eq_ok_iff.1 henc
      rw [Text.Utf8.encodeChar_inj (outermost_eq_ok_iff.1 henc').2]
  | @int _ type n hrange =>
    cases hd' with
    | @int _ _ n' hrange' =>
      intro bs henc henc'
      obtain ⟨rfl, rfl⟩ := encodeIn_int_eq_ok_iff.1 henc
      obtain ⟨-, hbyte⟩ := encodeIn_int_eq_ok_iff.1 henc'
      rw [← toNat_byte hrange, List.singleton_inj.1 hbyte, toNat_byte hrange']
  | text hlen =>
    cases hd' with
    | text hlen' =>
      intro bs henc henc'
      obtain ⟨-, rfl⟩ := outermost_eq_ok_iff.1 henc
      have hchars := Text.Utf8.encode_inj (outermost_eq_ok_iff.1 henc').2
      rw [String.toList_injective hchars]
  | buffer hlen =>
    cases hd' with
    | buffer hlen' =>
      intro bs henc henc'
      obtain ⟨-, rfl⟩ := outermost_eq_ok_iff.1 henc
      rw [(outermost_eq_ok_iff.1 henc').2]
  | anyBuffer hlen =>
    cases hd' with
    | anyBuffer hlen' =>
      intro bs henc henc'
      obtain ⟨-, rfl⟩ := outermost_eq_ok_iff.1 henc
      rw [(outermost_eq_ok_iff.1 henc').2]
  | present _ ih =>
    intro bs henc henc'
    cases hd' with
    -- an absent value is not written
    | absent => cases henc'
    | present hd' => rw [ih inRow _ hd' bs henc henc']
  | seq _ _ ih =>
    cases hd' with
    | seq _ hothers => exact .seq (fun d hd inRow d' hd' => ih d hd inRow d' hd') hothers
  | set _ _ _ ih =>
    cases hd' with
    | set _ _ hothers => exact .seq (fun d hd inRow d' hd' => ih d hd inRow d' hd') hothers
  | array _ _ ih =>
    cases hd' with
    | array _ hothers =>
      refine .tuple fun pair hpair => ?_
      obtain ⟨hd, hd'⟩ := List.of_mem_zip hpair
      exact ih pair.1 hd true pair.2 (hothers pair.2 hd')
  | tuple hlen _ ih =>
    cases hd' with
    | tuple _ hothers =>
      refine .tuple fun pair hpair => ?_
      obtain ⟨shape, hd, hd'⟩ := exists_shape_of_mem_zip hlen hpair
      exact ih _ hd true pair.2 (hothers _ hd')
  | wrapped _ ih =>
    cases hd' with
    | wrapped hd' =>
      intro bs henc henc'
      rw [ih inRow _ hd' bs henc henc']
  | recursive _ ih =>
    cases hd' with
    | recursive hd' => exact ih inRow d' hd'
  | self _ ih =>
    cases hd' with
    | self hd' => exact ih inRow d' hd'
  | _ =>
    intro bs henc
    cases henc

end Plain

namespace Encoding

/-- In either encoding, values of one type that are written as the same bytes are the same. -/
theorem encode_injective (encoding : Encoding) {shape : Shape} {v w : Datum} {bs : Bytes}
    (hv : shape.Holds v) (hw : shape.Holds w) (hev : encoding.encode v = .ok bs)
    (hew : encoding.encode w = .ok bs) : v = w := by
  cases encoding with
  | packed =>
    exact Packed.eq_of_encode hv hw (mapError_eq_ok_iff.1 hev) (mapError_eq_ok_iff.1 hew)
  | plain =>
    exact Plain.unique_of_holds hv false w hw bs (mapError_eq_ok_iff.1 hev)
      (mapError_eq_ok_iff.1 hew)

/-- Two optional bytes in a row, which the plain encoding writes and cannot read. -/
theorem encode_injective_two_options :
    let shape := Shape.seq true (.option (.int (.uint .w8)))
    let item (n : Int) := Datum.present (.int (.uint .w8) n)
    let v := Datum.seq true [item 97, item 98]
    let w := Datum.seq true ([97, 98].map item)
    shape.Holds v ∧ shape.Holds w ∧ Encoding.plain.encode v = .ok [97, 98]
      ∧ Encoding.plain.encode w = .ok [97, 98]
      ∧ Encoding.plain.decode shape [97, 98]
        = .error (.codec (.plain (.unexpectedByte 97 "option")))
      ∧ v = w := by
  intro shape item v w
  have hitem (n : Int) (hn : IntType.Holds (.uint .w8) n) :
      (Shape.option (.int (.uint .w8))).Holds (item n) :=
    .present (.int hn)
  have hv : shape.Holds v :=
    .seq (by decide) (List.forall_mem_cons.2 ⟨hitem 97 (by decide),
      List.forall_mem_cons.2 ⟨hitem 98 (by decide), List.forall_mem_nil _⟩⟩)
  have hev : Encoding.plain.encode v = .ok [97, 98] := rfl
  exact ⟨hv, hv, hev, hev, rfl, encode_injective .plain hv hv hev hev⟩

end Encoding

end TieredStore
