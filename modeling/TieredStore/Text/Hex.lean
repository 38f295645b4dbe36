import TieredStore.Bytes.Word

/-!
# Hexadecimal text

Bytes as text, two lower-case digits for each, and back.  Of every text there is one reading at
most, and of all bytes one text (`decode?_eq_some_iff`).
-/

namespace TieredStore.Text.Hex

def encode (bs : Bytes) : List Char :=
  bs.flatMap fun b => [Nat.digitChar (b.toNat / 16), Nat.digitChar (b.toNat % 16)]

def digit? (c : Char) : Option Nat :=
  if '0' ≤ c ∧ c ≤ '9' then some (c.toNat - '0'.toNat)
  else if 'a' ≤ c ∧ c ≤ 'f' then some (c.toNat - 'a'.toNat + 10)
  else none

/-- The bytes of a text that consists of pairs of digits. -/
def decode? : List Char → Option Bytes
  | [] => some []
  | [_] => none
  | hi :: lo :: cs =>
    match digit? hi, digit? lo, decode? cs with
    | some hi, some lo, some bs => some (UInt8.ofNat (16 * hi + lo) :: bs)
    | _, _, _ => none

theorem digit?_eq_some_iff {c : Char} {n : Nat} :
    digit? c = some n ↔ n < 16 ∧ c = Nat.digitChar n := by
  constructor
  · intro h
    unfold digit? at h
    split at h
    · next hdigit =>
      obtain ⟨hlow, hhigh⟩ : 48 ≤ c.toNat ∧ c.toNat ≤ 57 := hdigit
      have hchar : ∀ n ∈ List.range 10, Char.ofNat (48 + n) = Nat.digitChar n := by decide
      obtain rfl : c.toNat - 48 = n := Option.some.inj h
      rw [← hchar _ (List.mem_range.2 (by omega)), Nat.add_sub_of_le hlow, Char.ofNat_toNat]
      exact ⟨by omega, rfl⟩
    · split at h
      · next hletter =>
        obtain ⟨hlow, hhigh⟩ : 97 ≤ c.toNat ∧ c.toNat ≤ 102 := hletter
        have hchar : ∀ n ∈ List.range 6, Char.ofNat (97 + n) = Nat.digitChar (n + 10) := by decide
        obtain rfl : c.toNat - 97 + 10 = n := Option.some.inj h
        rw [← hchar _ (List.mem_range.2 (by omega)), Nat.add_sub_of_le hlow, Char.ofNat_toNat]
        exact ⟨by omega, rfl⟩
      · cases h
  · rintro ⟨hn, rfl⟩
    have hall : ∀ n ∈ List.range 16, digit? (Nat.digitChar n) = some n := by decide
    exact hall n (List.mem_range.2 hn)

theorem digit?_digitChar {n : Nat} (h : n < 16) : digit? (Nat.digitChar n) = some n :=
  digit?_eq_some_iff.2 ⟨h, rfl⟩

theorem decode?_encode (bs : Bytes) : decode? (encode bs) = some bs := by
  induction bs with
  | nil => rfl
  | cons b bs ih =>
    have hb : b.toNat < 256 := b.toNat_lt
    have hbyte : 16 * (b.toNat / 16) + b.toNat % 16 = b.toNat := by omega
    show decode? (_ :: _ :: encode bs) = _
    rw [decode?, digit?_digitChar (by omega), digit?_digitChar (by omega), ih]
    simp only [hbyte, UInt8.ofNat_toNat]

theorem eq_encode_of_decode? {cs : List Char} {bs : Bytes} (h : decode? cs = some bs) :
    cs = encode bs := by
  induction cs using decode?.induct generalizing bs with
  | case1 =>
    cases h
    rfl
  | case2 => cases h
  | case3 hi lo cs high low rest hrest hlow hhigh ih =>
    rw [decode?, hhigh, hlow, hrest] at h
    obtain rfl := Option.some.inj h
    obtain ⟨hhigh, rfl⟩ := digit?_eq_some_iff.1 hhigh
    obtain ⟨hlow, rfl⟩ := digit?_eq_some_iff.1 hlow
    -- the byte is put together of two numbers below 16, which it is taken apart into
    have hbyte : (UInt8.ofNat (16 * high + low)).toNat = 16 * high + low :=
      UInt8.toNat_ofNat_of_lt' (show 16 * high + low < 256 by omega)
    have hdiv : (16 * high + low) / 16 = high := by omega
    have hmod : (16 * high + low) % 16 = low := by omega
    show _ = Nat.digitChar _ :: Nat.digitChar _ :: encode rest
    rw [hbyte, hdiv, hmod, ih hrest]
  | case4 hi lo cs hnone ih =>
    rw [decode?] at h
    split at h
    · next hhigh hlow hrest => exact (hnone _ _ _ hhigh hlow hrest).elim
    · cases h

/-- A text is read as some bytes just if it is their text. -/
theorem decode?_eq_some_iff {cs : List Char} {bs : Bytes} :
    decode? cs = some bs ↔ cs = encode bs := by
  constructor
  · exact eq_encode_of_decode?
  · rintro rfl
    exact decode?_encode bs

end TieredStore.Text.Hex
