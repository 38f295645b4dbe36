import TieredStore.Text.Utf8

/-!
# The one written form of text

Reading accepts exactly what writing produces (`decode_eq_ok_iff`), so every text has one written
form.  The two halves hold for single characters first: a character is read back whatever follows it
(`decodeChar_encodeChar`), and what is read as a character is how it is written
(`eq_encodeChar_of_decodeChar`).
-/

namespace TieredStore.Text.Utf8

/-! ## What is written is read back -/

theorem toNat_ofNat_byte {n : Nat} (h : n < 256) : (UInt8.ofNat n).toNat = n := by
  rw [UInt8.toNat_ofNat', Nat.mod_eq_of_lt h]

/-- The lead byte of a character of three bytes. -/
theorem Lead.ofByte?_three {n : Nat} (hlo : 0x800 ≤ n) (hhi : n < 0x10000)
    (hvalid : n < 0xD800 ∨ 0xDFFF < n) :
    ∃ lo hi, Lead.ofByte? (0xE0 + n / 0x1000) = some ⟨n / 0x1000, 2, lo, hi⟩
      ∧ lo ≤ 0x80 + n / 0x40 % 0x40 ∧ 0x80 + n / 0x40 % 0x40 ≤ hi := by
  have h1 : ¬(0xC2 ≤ 0xE0 + n / 0x1000 ∧ 0xE0 + n / 0x1000 ≤ 0xDF) := by omega
  rw [Lead.ofByte?, if_neg h1]
  by_cases h0 : n / 0x1000 = 0
  · rw [if_pos (by omega), h0]
    exact ⟨_, _, rfl, by omega, by omega⟩
  · rw [if_neg (by omega)]
    by_cases hd : n / 0x1000 = 0xD
    · rw [if_pos (by omega), hd]
      exact ⟨_, _, rfl, by omega, by omega⟩
    · rw [if_neg (by omega), if_pos (by omega), show 0xE0 + n / 0x1000 - 0xE0 = n / 0x1000 by omega]
      exact ⟨_, _, rfl, by omega, by omega⟩

/-- The lead byte of a character of four bytes. -/
theorem Lead.ofByte?_four {n : Nat} (hlo : 0x10000 ≤ n) (hhi : n < 0x110000) :
    ∃ lo hi, Lead.ofByte? (0xF0 + n / 0x40000) = some ⟨n / 0x40000, 3, lo, hi⟩
      ∧ lo ≤ 0x80 + n / 0x1000 % 0x40 ∧ 0x80 + n / 0x1000 % 0x40 ≤ hi := by
  have h1 : ¬(0xC2 ≤ 0xF0 + n / 0x40000 ∧ 0xF0 + n / 0x40000 ≤ 0xDF) := by omega
  have h2 : ¬(0xE1 ≤ 0xF0 + n / 0x40000 ∧ 0xF0 + n / 0x40000 ≤ 0xEF) := by omega
  rw [Lead.ofByte?, if_neg h1, if_neg (by omega), if_neg (by omega), if_neg h2]
  by_cases h0 : n / 0x40000 = 0
  · rw [if_pos (by omega), h0]
    exact ⟨_, _, rfl, by omega, by omega⟩
  · rw [if_neg (by omega)]
    by_cases h4 : n / 0x40000 = 4
    · rw [if_neg (by omega), if_pos (by omega), h4]
      exact ⟨_, _, rfl, by omega, by omega⟩
    · rw [if_pos (by omega), show 0xF0 + n / 0x40000 - 0xF0 = n / 0x40000 by omega]
      exact ⟨_, _, rfl, by omega, by omega⟩

/-- Reads one continuation byte. -/
theorem readTail_cons {tail lo hi seen bits n : Nat} {bs : Bytes} (hbyte : 0x80 + n < 0x100)
    (hlo : lo ≤ 0x80 + n) (hhi : 0x80 + n ≤ hi) :
    readTail (tail + 1) lo hi seen bits (UInt8.ofNat (0x80 + n) :: bs)
      = readTail tail 0x80 0xBF (seen + 1) (bits * 0x40 + n) bs := by
  rw [readTail, toNat_ofNat_byte hbyte, if_pos ⟨hlo, hhi⟩, Nat.add_sub_cancel_left]

/-- A character is read back, whatever follows it. -/
theorem decodeChar_encodeChar {c : Char} {b : UInt8} {bs : Bytes} (h : encodeChar c = b :: bs)
    (rest : Bytes) : decodeChar b (bs ++ rest) = .ok (c, rest) := by
  have hvalid : c.toNat < 0xD800 ∨ 0xDFFF < c.toNat ∧ c.toNat < 0x110000 := c.valid
  have hc := Char.ofNat_toNat c
  unfold encodeChar at h
  generalize c.toNat = n at hvalid hc h
  simp only at h
  split at h
  · next h1 =>
    obtain ⟨rfl, rfl⟩ := List.cons.inj h
    rw [decodeChar, toNat_ofNat_byte (by omega), if_pos h1, hc]
    rfl
  · split at h
    · obtain ⟨rfl, rfl⟩ := List.cons.inj h
      have hlead : Lead.ofByte? (0xC0 + n / 0x40) = some ⟨n / 0x40, 1, 0x80, 0xBF⟩ := by
        rw [Lead.ofByte?, if_pos (by omega), show 0xC0 + n / 0x40 - 0xC0 = n / 0x40 by omega]
      rw [decodeChar, toNat_ofNat_byte (by omega), if_neg (by omega), hlead]
      simp only [List.cons_append, List.nil_append]
      rw [readTail_cons (by omega) (by omega) (by omega), readTail,
        show n / 0x40 * 0x40 + n % 0x40 = n by omega, ← hc]
    · split at h
      · obtain ⟨rfl, rfl⟩ := List.cons.inj h
        obtain ⟨lo, hi, hlead, hlo, hhi⟩ :=
          Lead.ofByte?_three (n := n) (by omega) (by omega) (by omega)
        rw [decodeChar, toNat_ofNat_byte (by omega), if_neg (by omega), hlead]
        simp only [List.cons_append, List.nil_append]
        rw [readTail_cons (by omega) hlo hhi, readTail_cons (by omega) (by omega) (by omega),
          readTail, show (n / 0x1000 * 0x40 + n / 0x40 % 0x40) * 0x40 + n % 0x40 = n by omega, ← hc]
      · obtain ⟨rfl, rfl⟩ := List.cons.inj h
        obtain ⟨lo, hi, hlead, hlo, hhi⟩ := Lead.ofByte?_four (n := n) (by omega) (by omega)
        rw [decodeChar, toNat_ofNat_byte (by omega), if_neg (by omega), hlead]
        simp only [List.cons_append, List.nil_append]
        rw [readTail_cons (by omega) hlo hhi, readTail_cons (by omega) (by omega) (by omega),
          readTail_cons (by omega) (by omega) (by omega), readTail,
          show ((n / 0x40000 * 0x40 + n / 0x1000 % 0x40) * 0x40 + n / 0x40 % 0x40) * 0x40
            + n % 0x40 = n by omega, ← hc]

/-! ## What is read is how it is written -/

/-- What a continuation byte was, if one was read. -/
theorem readTail_eq_ok {tail lo hi seen bits n : Nat} {bs rest : Bytes} (hlo : 0x80 ≤ lo)
    (h : readTail (tail + 1) lo hi seen bits bs = .ok (n, rest)) :
    ∃ k more, bs = UInt8.ofNat (0x80 + k) :: more ∧ lo ≤ 0x80 + k ∧ 0x80 + k ≤ hi
      ∧ readTail tail 0x80 0xBF (seen + 1) (bits * 0x40 + k) more = .ok (n, rest) := by
  cases bs with
  | nil => simp [readTail] at h
  | cons b more =>
    rw [readTail] at h
    split at h
    · next hb =>
      have hk : 0x80 + (b.toNat - 0x80) = b.toNat := by omega
      refine ⟨b.toNat - 0x80, more, ?_, by omega, by omega, h⟩
      rw [hk, UInt8.ofNat_toNat]
    · simp at h

/-- The lead bytes, by the number of bytes that follow. -/
theorem Lead.ofByte?_eq_some {b : Nat} {lead : Lead} (h : Lead.ofByte? b = some lead) :
    (lead.tail = 1 ∧ b = 0xC0 + lead.bits ∧ 2 ≤ lead.bits ∧ lead.bits < 0x20
        ∧ lead.lo = 0x80 ∧ lead.hi = 0xBF)
      ∨ (lead.tail = 2 ∧ b = 0xE0 + lead.bits ∧ lead.bits < 0x10 ∧ 0x80 ≤ lead.lo
        ∧ lead.hi ≤ 0xBF ∧ (lead.bits = 0 → lead.lo = 0xA0) ∧ (lead.bits = 0xD → lead.hi = 0x9F))
      ∨ (lead.tail = 3 ∧ b = 0xF0 + lead.bits ∧ lead.bits < 5 ∧ 0x80 ≤ lead.lo
        ∧ lead.hi ≤ 0xBF ∧ (lead.bits = 0 → lead.lo = 0x90) ∧ (lead.bits = 4 → lead.hi = 0x8F)) := by
  obtain ⟨bits, tail, lo, hi⟩ := lead
  unfold Lead.ofByte? at h
  repeat' split at h
  all_goals simp only [Option.some.injEq, mk.injEq, reduceCtorEq] at h ⊢
  all_goals omega

theorem toNat_ofNat_char {n : Nat} (h : n < 0xD800 ∨ 0xDFFF < n ∧ n < 0x110000) :
    (Char.ofNat n).toNat = n := by
  have hv : n.isValidChar := h
  rw [Char.ofNat, dif_pos hv]
  rfl

/-- What is read as a character is how it is written. -/
theorem eq_encodeChar_of_decodeChar {b : UInt8} {bs rest : Bytes} {c : Char}
    (h : decodeChar b bs = .ok (c, rest)) : b :: bs = encodeChar c ++ rest := by
  have hself : UInt8.ofNat b.toNat = b := UInt8.ofNat_toNat
  rw [decodeChar] at h
  split at h
  · next hb =>
    obtain ⟨rfl, rfl⟩ := Prod.mk.inj (Except.ok.inj h)
    rw [encodeChar, toNat_ofNat_char (by omega)]
    simp only [if_pos hb, hself]
    rfl
  · split at h
    · simp at h
    · next lead hlead =>
      split at h
      · simp at h
      · next n rest' htail =>
        obtain ⟨rfl, rfl⟩ := Prod.mk.inj (Except.ok.inj h)
        rcases Lead.ofByte?_eq_some hlead with hl | hl | hl
        · obtain ⟨ht, hb, hlo, hhi, hl, hh⟩ := hl
          rw [ht] at htail
          obtain ⟨k, more, rfl, h1, h2, htail⟩ := readTail_eq_ok (by omega) htail
          obtain ⟨rfl, rfl⟩ := Prod.mk.inj (Except.ok.inj htail)
          rw [encodeChar, toNat_ofNat_char (by omega), if_neg (by omega), if_pos (by omega), ← hself, hb,
            show (lead.bits * 0x40 + k) / 0x40 = lead.bits by omega,
            show (lead.bits * 0x40 + k) % 0x40 = k by omega]
          rfl
        · obtain ⟨ht, hb, hlt, hl, hh, hz, hd⟩ := hl
          rw [ht] at htail
          obtain ⟨k, more, rfl, h1, h2, htail⟩ := readTail_eq_ok (by omega) htail
          obtain ⟨m, more, rfl, h3, h4, htail⟩ := readTail_eq_ok (by omega) htail
          obtain ⟨rfl, rfl⟩ := Prod.mk.inj (Except.ok.inj htail)
          rw [encodeChar, toNat_ofNat_char (by omega), if_neg (by omega), if_neg (by omega), if_pos (by omega), ← hself, hb,
            show ((lead.bits * 0x40 + k) * 0x40 + m) / 0x1000 = lead.bits by omega,
            show ((lead.bits * 0x40 + k) * 0x40 + m) / 0x40 % 0x40 = k by omega,
            show ((lead.bits * 0x40 + k) * 0x40 + m) % 0x40 = m by omega]
          rfl
        · obtain ⟨ht, hb, hlt, hl, hh, hz, hd⟩ := hl
          rw [ht] at htail
          obtain ⟨k, more, rfl, h1, h2, htail⟩ := readTail_eq_ok (by omega) htail
          obtain ⟨m, more, rfl, h3, h4, htail⟩ := readTail_eq_ok (by omega) htail
          obtain ⟨j, more, rfl, h5, h6, htail⟩ := readTail_eq_ok (by omega) htail
          obtain ⟨rfl, rfl⟩ := Prod.mk.inj (Except.ok.inj htail)
          rw [encodeChar, toNat_ofNat_char (by omega), if_neg (by omega), if_neg (by omega), if_neg (by omega), ← hself, hb,
            show (((lead.bits * 0x40 + k) * 0x40 + m) * 0x40 + j) / 0x40000 = lead.bits by omega,
            show (((lead.bits * 0x40 + k) * 0x40 + m) * 0x40 + j) / 0x1000 % 0x40 = k by omega,
            show (((lead.bits * 0x40 + k) * 0x40 + m) * 0x40 + j) / 0x40 % 0x40 = m by omega,
            show (((lead.bits * 0x40 + k) * 0x40 + m) * 0x40 + j) % 0x40 = j by omega]
          rfl

/-! ## Text -/

theorem length_encodeChar (c : Char) : (encodeChar c).length = c.utf8Size := by
  have hval : c.val.toNat = c.toNat := rfl
  simp only [encodeChar, Char.utf8Size, UInt32.le_iff_toNat_le, hval]
  grind

theorem encodeChar_eq_cons (c : Char) :
    ∃ b bs, encodeChar c = b :: bs ∧ bs.length = c.utf8Size - 1 := by
  cases h : encodeChar c with
  | nil =>
    have hlen := length_encodeChar c
    rw [h] at hlen
    exact absurd hlen (Nat.ne_of_lt c.utf8Size_pos)
  | cons b bs =>
    have hlen := length_encodeChar c
    rw [h, List.length_cons] at hlen
    exact ⟨b, bs, rfl, by omega⟩

theorem decodeFrom_append (start : Nat) (front bs : Bytes) :
    decodeFrom start front.length (front ++ bs) = decodeFrom start 0 bs := by
  induction front with
  | nil => rfl
  | cons b front ih => rw [List.length_cons, List.cons_append, decodeFrom, ih]

theorem decodeFrom_encode (start : Nat) (cs : List Char) :
    decodeFrom start 0 (encode cs) = .ok cs := by
  induction cs generalizing start with
  | nil => rfl
  | cons c cs ih =>
    obtain ⟨b, bs, h, hlen⟩ := encodeChar_eq_cons c
    have hcons : encode (c :: cs) = b :: (bs ++ encode cs) := by
      rw [encode, List.flatMap_cons, h]
      rfl
    rw [hcons, decodeFrom, decodeChar_encodeChar h]
    simp only
    rw [← hlen, decodeFrom_append, ih]

/-- What is read as text is how it is written. -/
theorem eq_encode_of_decodeFrom {start : Nat} {bs : Bytes} {cs : List Char}
    (h : decodeFrom start 0 bs = .ok cs) : bs = encode cs := by
  induction hn : bs.length using Nat.strongRecOn generalizing start bs cs with
  | _ n ih =>
    cases bs with
    | nil =>
      obtain rfl := Except.ok.inj h
      rfl
    | cons b bs =>
      rw [decodeFrom] at h
      split at h
      · simp at h
      · next c rest hc =>
        split at h
        · simp at h
        · next cs' hcs =>
          obtain rfl := Except.ok.inj h
          obtain ⟨b', front, henc, hlen⟩ := encodeChar_eq_cons c
          have hbs := eq_encodeChar_of_decodeChar hc
          rw [henc, List.cons_append] at hbs
          obtain ⟨rfl, rfl⟩ := List.cons.inj hbs
          rw [← hlen, decodeFrom_append] at hcs
          have hlt : rest.length < n := by
            rw [← hn]
            simp only [List.length_cons, List.length_append]
            omega
          rw [encode, List.flatMap_cons, henc, List.cons_append, ih _ hlt hcs rfl]
          rfl

/-- Reading accepts exactly what writing produces. -/
theorem decode_eq_ok_iff {bs : Bytes} {cs : List Char} : decode bs = .ok cs ↔ bs = encode cs :=
  ⟨eq_encode_of_decodeFrom, fun h => h ▸ decodeFrom_encode 0 cs⟩

end TieredStore.Text.Utf8
