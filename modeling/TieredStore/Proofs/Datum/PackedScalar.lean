import TieredStore.Datum.Packed
import TieredStore.Proofs.Datum.Values
import TieredStore.Proofs.Except
import TieredStore.Text.Utf8.Lemmas

/-!
# Packed words, text and blocks

Every reader of a value without parts takes a value exactly from the bytes that begin with its
packed form (`Exact`).
-/

namespace TieredStore

/-- The word of an unsigned number in range is the number itself. -/
theorem Bytes.wrapSigned_of_lt {width n : Nat} (h : n < words width) :
    wrapSigned width (n : Int) = n := by
  rw [wrapSigned, Int.emod_eq_of_lt (Int.natCast_nonneg n) (Int.ofNat_lt.2 h)]
  rfl

/-- A word that is read as a signed number is the one that stands for it. -/
theorem Bytes.wrapSigned_readSigned {width n : Nat} (h : n < words width) :
    wrapSigned width (readSigned width n) = n := by
  unfold readSigned
  split
  · exact wrapSigned_of_lt h
  · have hwrap : ((n : Int) - words width) % (words width : Int) = n := by
      rw [Int.sub_emod_right]
      exact Int.emod_eq_of_lt (Int.natCast_nonneg n) (Int.ofNat_lt.2 h)
    rw [wrapSigned, hwrap]
    rfl

theorem Bytes.words_pos (width : Nat) : 0 < words width := by
  induction width with
  | zero => decide
  | succ width ih =>
    rw [words]
    omega

theorem Bytes.wrapSigned_lt (width : Nat) (n : Int) : wrapSigned width n < words width := by
  have hwords : (0 : Int) < words width := Int.ofNat_lt.2 (words_pos width)
  have hlt := Int.emod_lt_of_pos n hwords
  have hnonneg := Int.emod_nonneg n (Int.ne_of_gt hwords)
  unfold wrapSigned
  omega

/-- The upper half of the words are the negative numbers. -/
theorem Bytes.readSigned_range {width n : Nat} (h : n < words width) :
    -(words width : Int) ≤ 2 * readSigned width n
      ∧ 2 * readSigned width n < (words width : Int) := by
  by_cases hhalf : 2 * n < words width
  · rw [readSigned, if_pos hhalf]
    omega
  · rw [readSigned, if_neg hhalf]
    omega

namespace Packed

/-- A reader takes a value of the shape exactly from the bytes that begin with its packed form. -/
def Exact (around : Option Shape) (shape : Shape) (reader : Reader) : Prop :=
  ∀ bs d rest, reader bs = .ok (d, rest)
    ↔ shape.HoldsIn around d ∧ ∃ front, encode d = .ok front ∧ bs = front ++ rest

/-! ## Words and blocks -/

theorem takeWord_eq_ok_iff {width n : Nat} {bs rest : Bytes} :
    takeWord width bs = .ok (n, rest)
      ↔ bs = Bytes.littleEndian width n ++ rest ∧ n < Bytes.words width := by
  rw [← Bytes.takeLittle?_eq_some_iff, takeWord]
  cases h : Bytes.takeLittle? width bs with
  | none => simp
  | some taken => simp

theorem takeWord_append {width n : Nat} (h : n < Bytes.words width) (rest : Bytes) :
    takeWord width (Bytes.littleEndian width n ++ rest) = .ok (n, rest) :=
  takeWord_eq_ok_iff.2 ⟨rfl, h⟩

theorem takeBlock_eq_ok_iff {bs body rest : Bytes} :
    takeBlock bs = .ok (body, rest)
      ↔ bs = length body.length ++ body ++ rest ∧ body.length < 0x10000000000000000 := by
  simp only [takeBlock, bind_eq_ok_iff, Prod.exists, takeWord_eq_ok_iff]
  constructor
  · rintro ⟨n, bs, ⟨rfl, hlt⟩, h⟩
    cases hsplit : Bytes.split? n bs with
    | none =>
      rw [hsplit] at h
      cases h
    | some taken =>
      rw [hsplit] at h
      cases h
      obtain ⟨rfl, rfl⟩ := Bytes.split?_eq_some_iff.1 hsplit
      exact ⟨by rw [length, List.append_assoc], hlt⟩
  · rintro ⟨rfl, hlt⟩
    refine ⟨body.length, body ++ rest, ⟨by rw [length, List.append_assoc], hlt⟩, ?_⟩
    rw [Bytes.split?_append]

/-- Takes what another reader takes and makes something of it. -/
def Take.map {α β : Type} (make : α → β) (take : Take α) : Take β := fun bs => do
  let (a, bs) ← take bs
  return (make a, bs)

theorem Take.map_eq_ok_iff {α β : Type} {make : α → β} {take : Take α} {bs rest : Bytes} {b : β} :
    Take.map make take bs = .ok (b, rest) ↔ ∃ a, take bs = .ok (a, rest) ∧ make a = b := by
  simp only [Take.map, bind_eq_ok_iff, Prod.exists]
  constructor
  · rintro ⟨a, bs, htake, h⟩
    cases h
    exact ⟨a, htake, rfl⟩
  · rintro ⟨a, htake, rfl⟩
    exact ⟨a, rest, htake, rfl⟩

/-- The word of one byte is that byte. -/
theorem littleEndian_one (n : Nat) : Bytes.littleEndian 1 n = [UInt8.ofNat n] := by
  have hbyte : UInt8.ofNat (n % 256) = UInt8.ofNat n := by
    apply UInt8.toNat.inj
    simp
  simp [Bytes.littleEndian, hbyte]

/-! ## Values without parts -/

/-- A shape of one value, of which nothing is written. -/
theorem exact_of_empty {around : Option Shape} {shape : Shape} {reader : Reader} {only : Datum}
    (hread : ∀ bs, reader bs = .ok (only, bs)) (henc : encode only = .ok [])
    (hholds : ∀ d, shape.HoldsIn around d ↔ d = only) : Exact around shape reader := by
  intro bs d rest
  rw [hread, hholds]
  constructor
  · intro h
    cases h
    exact ⟨rfl, [], henc, rfl⟩
  · rintro ⟨rfl, front, hfront, rfl⟩
    rw [henc] at hfront
    cases hfront
    rfl

/-- A shape with a value for every word of some width, which is written as that word. -/
theorem exact_of_word {around : Option Shape} {shape : Shape} {reader : Reader} (width : Nat)
    (make : Nat → Datum)
    (hread : ∀ bs, reader bs = Take.map make (takeWord width) bs)
    (henc : ∀ n < Bytes.words width, encode (make n) = .ok (Bytes.littleEndian width n))
    (hholds : ∀ d, shape.HoldsIn around d ↔ ∃ n < Bytes.words width, d = make n) :
    Exact around shape reader := by
  intro bs d rest
  simp only [hread, hholds, Take.map_eq_ok_iff, takeWord_eq_ok_iff]
  constructor
  · rintro ⟨n, ⟨rfl, hlt⟩, rfl⟩
    exact ⟨⟨n, hlt, rfl⟩, _, henc n hlt, rfl⟩
  · rintro ⟨⟨n, hlt, rfl⟩, front, hfront, rfl⟩
    rw [henc n hlt] at hfront
    cases hfront
    exact ⟨n, ⟨rfl, hlt⟩, rfl⟩

variable (around : Option Shape) {self : Reader}

theorem exact_unit : Exact around .unit (read .unit self) := by
  refine exact_of_empty (fun _ => rfl) rfl fun d => ?_
  constructor
  · rintro ⟨⟩
    rfl
  · rintro rfl
    exact .unit

theorem exact_marker (name : String) : Exact around (.marker name) (read (.marker name) self) := by
  refine exact_of_empty (fun _ => rfl) rfl fun d => ?_
  constructor
  · rintro ⟨⟩
    rfl
  · rintro rfl
    exact .marker

theorem exact_bool : Exact around .bool (read .bool self) := by
  intro bs d rest
  simp only [read, readBool, bind_eq_ok_iff, Prod.exists, takeWord_eq_ok_iff, littleEndian_one]
  constructor
  · rintro ⟨n, bs, ⟨rfl, hlt⟩, h⟩
    split at h
    · next hzero =>
      cases h
      exact ⟨.bool false, [0], rfl, by rw [hzero]; rfl⟩
    · split at h
      · next hone =>
        cases h
        exact ⟨.bool true, [1], rfl, by rw [hone]; rfl⟩
      · cases h
  · rintro ⟨hholds, front, hfront, rfl⟩
    cases hholds with
    | bool b =>
      cases hfront
      cases b with
      | false => exact ⟨0, rest, ⟨rfl, by decide⟩, rfl⟩
      | true => exact ⟨1, rest, ⟨rfl, by decide⟩, rfl⟩

theorem exact_char : Exact around .char (read .char self) := by
  intro bs d rest
  rw [read]
  constructor
  · intro h
    cases bs with
    | nil => cases h
    | cons b bs =>
      rw [readChar] at h
      cases hchar : Text.Utf8.decodeChar b bs with
      | error flaw =>
        rw [hchar] at h
        cases h
      | ok taken =>
        rw [hchar] at h
        cases h
        exact ⟨.char _, _, rfl, Text.Utf8.eq_encodeChar_of_decodeChar hchar⟩
  · rintro ⟨hholds, front, hfront, rfl⟩
    cases hholds with
    | char c =>
      cases hfront
      obtain ⟨b, bs, henc, -⟩ := Text.Utf8.encodeChar_eq_cons c
      have hchar := Text.Utf8.decodeChar_encodeChar henc rest
      rw [henc, List.cons_append, readChar, hchar]

theorem exact_int (type : IntType) : Exact around (.int type) (read (.int type) self) := by
  cases type with
  | uint width =>
    refine exact_of_word width.bytes (fun n => .int (.uint width) n) (fun _ => rfl)
      (fun n hlt => ?_) fun d => ?_
    · rw [encode, word, IntType.width, Bytes.wrapSigned_of_lt hlt]
    · constructor
      · intro h
        cases h with
        | int hrange =>
          obtain ⟨n, rfl⟩ := Int.eq_ofNat_of_zero_le hrange.1
          exact ⟨n, Int.ofNat_lt.1 hrange.2, rfl⟩
      · rintro ⟨n, hlt, rfl⟩
        exact .int ⟨Int.natCast_nonneg n, Int.ofNat_lt.2 hlt⟩
  | sint width =>
    refine exact_of_word width.bytes (fun n => .int (.sint width) (Bytes.readSigned width.bytes n))
      (fun _ => rfl) (fun n hlt => ?_) fun d => ?_
    · rw [encode, word, IntType.width, Bytes.wrapSigned_readSigned hlt]
    · constructor
      · intro h
        cases h with
        | int hrange =>
          obtain ⟨hlo, hhi⟩ := hrange
          exact ⟨_, Bytes.wrapSigned_lt _ _, by rw [Bytes.readSigned_wrapSigned hlo hhi]⟩
      · rintro ⟨n, hlt, rfl⟩
        exact .int (Bytes.readSigned_range hlt)

theorem exact_float32 : Exact around .float32 (read .float32 self) := by
  refine exact_of_word 4 (fun n => .float32 (UInt32.ofNat n)) (fun _ => rfl) (fun n hlt => ?_)
    fun d => ?_
  · rw [encode, UInt32.toNat_ofNat_of_lt' hlt]
  · constructor
    · intro h
      cases h with
      | float32 bits => exact ⟨bits.toNat, bits.toNat_lt, by rw [UInt32.ofNat_toNat]⟩
    · rintro ⟨n, hlt, rfl⟩
      exact .float32 _

theorem exact_float64 : Exact around .float64 (read .float64 self) := by
  refine exact_of_word 8 (fun n => .float64 (UInt64.ofNat n)) (fun _ => rfl) (fun n hlt => ?_)
    fun d => ?_
  · rw [encode, UInt64.toNat_ofNat_of_lt' hlt]
  · constructor
    · intro h
      cases h with
      | float64 bits => exact ⟨bits.toNat, bits.toNat_lt, by rw [UInt64.ofNat_toNat]⟩
    · rintro ⟨n, hlt, rfl⟩
      exact .float64 _

theorem exact_text : Exact around .text (read .text self) := by
  intro bs d rest
  simp only [read, readText, bind_eq_ok_iff, Prod.exists, takeBlock_eq_ok_iff]
  constructor
  · rintro ⟨body, bs, ⟨rfl, hlt⟩, h⟩
    cases hbody : Text.Utf8.decode body with
    | error fault =>
      rw [hbody] at h
      cases h
    | ok cs =>
      rw [hbody] at h
      cases h
      have henc : body = Text.Utf8.encode (String.ofList cs).toList := by
        rw [String.toList_ofList]
        exact Text.Utf8.decode_eq_ok_iff.1 hbody
      refine ⟨.text (henc ▸ hlt), length body.length ++ body, ?_, rfl⟩
      rw [encode, ← henc]
  · rintro ⟨hholds, front, hfront, rfl⟩
    cases hholds with
    | @text _ s hlen =>
      cases hfront
      refine ⟨Text.Utf8.encode s.toList, rest, ⟨rfl, hlen⟩, ?_⟩
      rw [Text.Utf8.decode_eq_ok_iff.2 rfl]
      simp only [String.ofList_toList]

theorem exact_buffer : Exact around .buffer (read .buffer self) := by
  intro bs d rest
  change Take.map Datum.buffer takeBlock bs = .ok (d, rest) ↔ _
  simp only [Take.map_eq_ok_iff, takeBlock_eq_ok_iff]
  constructor
  · rintro ⟨body, ⟨rfl, hlt⟩, rfl⟩
    exact ⟨.buffer hlt, _, rfl, rfl⟩
  · rintro ⟨hholds, front, hfront, rfl⟩
    cases hholds with
    | buffer hlen =>
      cases hfront
      exact ⟨_, ⟨rfl, hlen⟩, rfl⟩

end Packed

end TieredStore
