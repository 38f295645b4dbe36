import TieredStore.Proofs.Datum.OneForm

/-!
# Collections in any order

The sets and maps that a shape knows are in order.  A set that keeps none is written as its members
come, like any sequence.  A map that keeps none is written like the sequence of its entries, which
`Datum.listed` puts in its place, and a sequence of pairs is what it is then
(`Shape.holds_listed_map`).

Listing changes no form.  Values of one type that are written as the same bytes are thus the same
once they are listed, which is to say that they have the same entries in the same order
(`Encoding.listed_eq_of_encode`).  Read back as a set or a map, such a collection is in order
(`Packed.decode_set_of_encode`, `Packed.decode_map_of_encode`).
-/

namespace TieredStore

namespace Datum

mutual

/-- A value with its maps, and those in it, as sequences of their entries. -/
def listed : Datum → Datum
  | .present d => .present (listed d)
  | .seq counted items => .seq counted (listedAll items)
  | .tuple items => .tuple (listedAll items)
  | .record name fields => .record name (listedAll fields)
  | .map entries => .seq true (listedAll entries)
  | .wrapped name d => .wrapped name (listed d)
  | .variant name index payload => .variant name index (listed payload)
  | d => d

def listedAll : List Datum → List Datum
  | [] => []
  | d :: ds => listed d :: listedAll ds

end

theorem listedAll_eq (ds : List Datum) : listedAll ds = ds.map listed := by
  induction ds with
  | nil => rfl
  | cons d ds ih => rw [listedAll, ih, List.map_cons]

theorem length_listedAll (ds : List Datum) : (listedAll ds).length = ds.length := by
  rw [listedAll_eq, List.length_map]

end Datum

/-- Entries in any order are, listed, a sequence of pairs. -/
theorem Shape.holds_listed_map {key value : Shape} {pairs : List (Datum × Datum)}
    (hlen : pairs.length < 0x10000000000000000)
    (hkeys : ∀ pair ∈ pairs, key.Holds pair.1.listed)
    (hvalues : ∀ pair ∈ pairs, value.Holds pair.2.listed) :
    (Shape.seq true (.tuple [key, value])).Holds (Datum.map (pairs.map Datum.entry)).listed := by
  rw [Datum.listed, Datum.listedAll_eq, List.map_map]
  refine .seq (by rwa [List.length_map]) (List.forall_mem_map.2 fun pair hpair => ?_)
  refine .tuple rfl (List.forall_mem_cons.2 ⟨hkeys pair hpair, ?_⟩)
  exact List.forall_mem_singleton.2 (hvalues pair hpair)

/-! ## Forms -/

namespace Packed

mutual

theorem encode_listed (d : Datum) : encode d.listed = encode d := by
  match d with
  | .present d | .wrapped _ d | .variant _ _ d => simp only [Datum.listed, encode, encode_listed d]
  | .seq true items | .map items =>
    simp only [Datum.listed, encode, encodeAll_listedAll items, Datum.length_listedAll]
  | .seq false _ => rfl
  | .tuple items | .record _ items => simp only [Datum.listed, encode, encodeAll_listedAll items]
  | .unit | .bool _ | .char _ | .int _ _ | .float32 _ | .float64 _ | .text _ | .buffer _ | .absent
  | .marker _ | .refused _ => rfl

theorem encodeAll_listedAll (ds : List Datum) :
    encodeAll (Datum.listedAll ds) = encodeAll ds := by
  match ds with
  | [] => rfl
  | d :: ds => rw [Datum.listedAll, encodeAll, encodeAll, encode_listed d, encodeAll_listedAll ds]

end

end Packed

namespace Plain

mutual

/-- Nothing that has a plain form holds a map. -/
theorem listed_of_encodeIn {d : Datum} {inRow : Bool} {bs : Bytes}
    (h : encodeIn inRow d = .ok bs) : d.listed = d := by
  match d with
  | .present d =>
    rw [Datum.listed, listed_of_encodeIn (show encodeIn inRow d = .ok bs from h)]
  | .wrapped _ d =>
    rw [Datum.listed, listed_of_encodeIn (show encodeIn inRow d = .ok bs from h)]
  | .seq _ items =>
    rw [Datum.listed, listedAll_of_encodeRow (encodeIn_seq_eq_ok_iff.1 h).2]
  | .tuple items =>
    rw [Datum.listed, listedAll_of_encodeRow (encodeIn_tuple_eq_ok_iff.1 h).2]
  | .map _ | .record _ _ | .variant _ _ _ => cases h
  | .unit | .bool _ | .char _ | .int _ _ | .float32 _ | .float64 _ | .text _ | .buffer _ | .absent
  | .marker _ | .refused _ => rfl

theorem listedAll_of_encodeRow {items : List Datum} {bs : Bytes} (h : encodeRow items = .ok bs) :
    Datum.listedAll items = items := by
  match items with
  | [] => rfl
  | d :: items =>
    obtain ⟨front, back, hfront, hback, -⟩ := encodeRow_cons_eq_ok_iff.1 h
    rw [Datum.listedAll, listed_of_encodeIn hfront, listedAll_of_encodeRow hback]

end

end Plain

/-- In either encoding, values that are written as the same bytes have the same entries in the same
order, if there is a type that both are of when they are listed. -/
theorem Encoding.listed_eq_of_encode (encoding : Encoding) {shape : Shape} {v w : Datum}
    {bs : Bytes} (hv : shape.Holds v.listed) (hw : shape.Holds w.listed)
    (hev : encoding.encode v = .ok bs) (hew : encoding.encode w = .ok bs) :
    v.listed = w.listed := by
  cases encoding with
  | packed =>
    apply Packed.eq_of_encode hv hw
    · rw [Packed.encode_listed, mapError_eq_ok_iff.1 hev]
    · rw [Packed.encode_listed, mapError_eq_ok_iff.1 hew]
  | plain =>
    -- neither value holds a map, so each is listed already
    have hev : Plain.encodeIn false v = .ok bs := mapError_eq_ok_iff.1 hev
    have hew : Plain.encodeIn false w = .ok bs := mapError_eq_ok_iff.1 hew
    rw [Plain.listed_of_encodeIn hev] at hv ⊢
    rw [Plain.listed_of_encodeIn hew] at hw ⊢
    exact Plain.unique_of_holds hv false w hw bs hev hew

/-! ## Reading them back -/

namespace Packed

variable {bs : Bytes}

/-- Members in any order are read as the set of them. -/
theorem decode_set_of_encode {shape : Shape} {members : List Datum}
    (hlen : members.length < 0x10000000000000000) (hmembers : ∀ d ∈ members, shape.Holds d)
    (htells : shape.every Shape.tells = true) (henc : encode (.seq true members) = .ok bs)
    (rest : Bytes) : decode (.set shape) (bs ++ rest) = .ok (.setOf members) := by
  obtain ⟨front, hfront, rfl⟩ := map_eq_ok_iff.1 henc
  have hread := takeCounted_of_reads hlen
    (fun d hd => reads_of_holds_none (hmembers d hd) htells)
    (selfAt_none (front.length + 1) stuck) hfront (Nat.lt_succ_self _) rest
  rw [decode, read]
  simp only [hread, bind, Except.bind]
  rfl

/-- Entries in any order are read as the map of them. -/
theorem decode_map_of_encode {key value : Shape} {pairs : List (Datum × Datum)}
    (hlen : pairs.length < 0x10000000000000000) (hkeys : ∀ pair ∈ pairs, key.Holds pair.1)
    (hvalues : ∀ pair ∈ pairs, value.Holds pair.2) (hkey : key.every Shape.tells = true)
    (hvalue : value.every Shape.tells = true)
    (henc : encode (.map (pairs.map Datum.entry)) = .ok bs) (rest : Bytes) :
    decode (.map key value) (bs ++ rest) = .ok (.mapOf pairs) := by
  obtain ⟨front, hfront, rfl⟩ := map_eq_ok_iff.1 henc
  have hread := takeEntries_of_reads hlen
    (fun pair hpair => reads_of_holds_none (hkeys pair hpair) hkey)
    (fun pair hpair => reads_of_holds_none (hvalues pair hpair) hvalue)
    (selfAt_none (front.length + 1) stuck) hfront (Nat.lt_succ_self _) rest
  rw [List.length_map, decode, read]
  simp only [hread, bind, Except.bind]
  rfl

/-- Two entries that come in falling order. -/
example :
    let number (n : Int) := Datum.int (.uint .w8) n
    decode (.map (.int (.uint .w8)) .bool) [2, 0, 0, 0, 0, 0, 0, 0, 9, 1, 3, 0]
      = .ok (.map [.tuple [number 3, .bool false], .tuple [number 9, .bool true]]) := by
  rfl

end Packed

end TieredStore
