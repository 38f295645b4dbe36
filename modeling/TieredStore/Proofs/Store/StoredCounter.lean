import TieredStore.Store.CounterText

/-!
# The size of a stored counter

A counter is short, whatever its number.
-/

namespace TieredStore

theorem Text.Utf8.length_encode_of_ascii {cs : List Char} (h : ∀ c ∈ cs, c.toNat < 0x80) :
    (encode cs).length = cs.length := by
  induction cs with
  | nil => rfl
  | cons c cs ih =>
    rw [List.forall_mem_cons] at h
    have hchar : encodeChar c = [UInt8.ofNat c.toNat] := if_pos h.1
    have hcons : encode (c :: cs) = encodeChar c ++ encode cs := List.flatMap_cons
    rw [hcons, hchar, List.length_append, ih h.2, List.length_singleton, List.length_cons]
    omega

/-- A decimal is made of digits and a sign. -/
theorem toNat_lt_of_mem_decimal {n : Int} {c : Char} (h : c ∈ Text.decimal n) :
    c.toNat < 0x80 := by
  have hdigit {m : Nat} (hmem : c ∈ Nat.toDigits 10 m) : c.toNat < 0x80 := by
    have hc : c.isDigit = true := Nat.isDigit_of_mem_toDigits (by decide) (by decide) hmem
    unfold Char.isDigit at hc
    simp only [Bool.and_eq_true, decide_eq_true_eq, UInt32.le_iff_toNat_le] at hc
    exact Nat.lt_of_le_of_lt hc.2 (by decide)
  cases n with
  | ofNat n => exact hdigit h
  | negSucc n =>
    rcases List.mem_cons.1 h with rfl | h
    · decide
    · exact hdigit h

/-- A sign and nineteen digits at most. -/
theorem length_decimal_le (n : Int64) : (Text.decimal n.toInt).length ≤ 20 := by
  have hlow : -2 ^ 63 ≤ n.toInt := n.le_toInt
  have hhigh : n.toInt < 2 ^ 63 := n.toInt_lt
  -- the least number has the largest absolute value, 2 ^ 63
  have hdigits : ∀ m : Nat, m ≤ 2 ^ 63 → (Nat.toDigits 10 m).length ≤ 19 := by
    intro m hm
    rw [Nat.length_toDigits_le_iff (by decide) (by decide)]
    omega
  have hsize : n.toInt.natAbs ≤ 2 ^ 63 := by omega
  cases hn : n.toInt with
  | ofNat m =>
    rw [hn] at hsize
    have hm := hdigits m hsize
    unfold Text.decimal
    simp only
    omega
  | negSucc m =>
    rw [hn] at hsize
    have hm := hdigits (m + 1) hsize
    unfold Text.decimal
    rw [List.length_cons]
    omega

/-- A NUL comes after the numeral. -/
theorem length_writeCounter_le (n : Int64) : (writeCounter n).length ≤ 21 := by
  have hdecimal := length_decimal_le n
  unfold writeCounter
  rw [List.length_append, Text.Utf8.length_encode_of_ascii fun c hc => toNat_lt_of_mem_decimal hc,
    List.length_singleton]
  omega

theorem length_writeCounter_lt (n : Int64) : (writeCounter n).length < 0x100000000 :=
  Nat.lt_of_le_of_lt (length_writeCounter_le n) (by decide)

end TieredStore
