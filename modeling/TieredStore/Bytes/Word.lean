/-!
# Words in bytes

Unsigned words of a fixed number of bytes, in both byte orders, and the reader that takes a given
number of bytes off the front.  Lists of bytes are used throughout, because a list is what a proof
can take apart.

A word written in `width` bytes keeps its value modulo the number of such words
(`ofLittleEndian_littleEndian`, `ofBigEndian_bigEndian`), `split?` succeeds exactly on inputs that
start with that many bytes (`split?_eq_some_iff`), and a word is taken exactly where it was written
(`takeBig?_eq_some_iff`, `takeLittle?_eq_some_iff`).
-/

namespace TieredStore

/-- A string of bytes. -/
abbrev Bytes := List UInt8

namespace Bytes

/-! ## Byte order -/

/-- How many words of `width` bytes there are: 256 to that power. -/
def words : (width : Nat) → Nat
  | 0 => 1
  | width + 1 => 256 * words width

/-- The low `width` bytes of a number, least significant first. -/
def littleEndian : Nat → Nat → Bytes
  | 0, _ => []
  | width + 1, n => UInt8.ofNat (n % 256) :: littleEndian width (n / 256)

/-- The number that bytes spell, least significant first. -/
def ofLittleEndian : Bytes → Nat
  | [] => 0
  | b :: bs => b.toNat + 256 * ofLittleEndian bs

/-- The low `width` bytes of a number, most significant first. -/
def bigEndian (width n : Nat) : Bytes :=
  (littleEndian width n).reverse

/-- The number that bytes spell, most significant first. -/
def ofBigEndian (bs : Bytes) : Nat :=
  ofLittleEndian bs.reverse

@[simp] theorem length_littleEndian (width n : Nat) : (littleEndian width n).length = width := by
  induction width generalizing n with
  | zero => rfl
  | succ width ih => simp [littleEndian, ih]

@[simp] theorem length_bigEndian (width n : Nat) : (bigEndian width n).length = width := by
  simp [bigEndian]

theorem ofLittleEndian_littleEndian (width n : Nat) :
    ofLittleEndian (littleEndian width n) = n % words width := by
  induction width generalizing n with
  | zero => simp [littleEndian, ofLittleEndian, words, Nat.mod_one]
  | succ width ih =>
    have hbyte : (UInt8.ofNat (n % 256)).toNat = n % 256 := by simp
    rw [littleEndian, ofLittleEndian, ih, hbyte, words, Nat.mod_mul]

theorem ofBigEndian_bigEndian (width n : Nat) :
    ofBigEndian (bigEndian width n) = n % words width := by
  rw [ofBigEndian, bigEndian, List.reverse_reverse, ofLittleEndian_littleEndian]

/-- A reading is written back as the same bytes. -/
theorem littleEndian_ofLittleEndian (bs : Bytes) :
    littleEndian bs.length (ofLittleEndian bs) = bs := by
  induction bs with
  | nil => rfl
  | cons b bs ih =>
    have hlt : b.toNat < 256 := b.toNat_lt
    have hmod : (b.toNat + 256 * ofLittleEndian bs) % 256 = b.toNat := by omega
    have hdiv : (b.toNat + 256 * ofLittleEndian bs) / 256 = ofLittleEndian bs := by omega
    simp only [List.length_cons, littleEndian, ofLittleEndian, hmod, hdiv, ih]
    simp

theorem bigEndian_ofBigEndian (bs : Bytes) : bigEndian bs.length (ofBigEndian bs) = bs := by
  have h := littleEndian_ofLittleEndian bs.reverse
  rw [List.length_reverse] at h
  rw [bigEndian, ofBigEndian, h, List.reverse_reverse]

theorem ofLittleEndian_lt (bs : Bytes) : ofLittleEndian bs < words bs.length := by
  induction bs with
  | nil => simp [ofLittleEndian, words]
  | cons b bs ih =>
    have hlt : b.toNat < 256 := b.toNat_lt
    rw [ofLittleEndian, List.length_cons, words]
    omega

theorem ofBigEndian_lt (bs : Bytes) : ofBigEndian bs < words bs.length := by
  have h := ofLittleEndian_lt bs.reverse
  rwa [List.length_reverse] at h

/-! ## Two's complement -/

/-- The unsigned word of `width` bytes that stands for a signed number. -/
def wrapSigned (width : Nat) (n : Int) : Nat :=
  (n % (words width : Int)).toNat

/-- The signed number that an unsigned word of `width` bytes stands for: the upper half of the words
are the negative numbers. -/
def readSigned (width n : Nat) : Int :=
  if 2 * n < words width then n else (n : Int) - (words width : Int)

/-- A signed number of `width` bytes is read back from the word that stands for it. -/
theorem readSigned_wrapSigned {width : Nat} {n : Int} (hlo : -(words width : Int) ≤ 2 * n)
    (hhi : 2 * n < (words width : Int)) : readSigned width (wrapSigned width n) = n := by
  rcases Int.lt_or_le n 0 with hneg | hpos
  · have hwrap : n % (words width : Int) = n + words width := by
      rw [← Int.add_emod_right, Int.emod_eq_of_lt (by omega) (by omega)]
    rw [readSigned, wrapSigned, hwrap, if_neg (by omega)]
    omega
  · have hwrap : n % (words width : Int) = n := Int.emod_eq_of_lt hpos (by omega)
    rw [readSigned, wrapSigned, hwrap, if_pos (by omega)]
    omega

/-! ## Taking bytes off the front -/

/-- The first `n` bytes and what follows them, when there are that many. -/
def split? : Nat → Bytes → Option (Bytes × Bytes)
  | 0, bs => some ([], bs)
  | _ + 1, [] => none
  | n + 1, b :: bs => (split? n bs).map fun (front, rest) => (b :: front, rest)

theorem split?_eq_some_iff {n : Nat} {bs front rest : Bytes} :
    split? n bs = some (front, rest) ↔ bs = front ++ rest ∧ front.length = n := by
  induction n generalizing bs front with
  | zero =>
    simp only [split?, Option.some.injEq, Prod.mk.injEq, List.length_eq_zero_iff]
    constructor
    · rintro ⟨rfl, rfl⟩
      exact ⟨rfl, rfl⟩
    · rintro ⟨rfl, rfl⟩
      exact ⟨rfl, rfl⟩
  | succ n ih =>
    cases bs with
    | nil =>
      simp only [split?, reduceCtorEq, false_iff]
      rintro ⟨h, hlen⟩
      have := congrArg List.length h
      simp only [List.length_nil, List.length_append] at this
      omega
    | cons b bs =>
      simp only [split?, Option.map_eq_some_iff, Prod.exists, Prod.mk.injEq]
      constructor
      · rintro ⟨front, rest, h, rfl, rfl⟩
        obtain ⟨rfl, rfl⟩ := ih.1 h
        exact ⟨rfl, rfl⟩
      · rintro ⟨h, hlen⟩
        cases front with
        | nil => simp at hlen
        | cons c front =>
          obtain ⟨rfl, rfl⟩ := List.cons.inj h
          exact ⟨front, rest, ih.2 ⟨rfl, by simpa using hlen⟩, rfl, rfl⟩

theorem split?_append (front rest : Bytes) :
    split? front.length (front ++ rest) = some (front, rest) :=
  split?_eq_some_iff.2 ⟨rfl, rfl⟩

theorem split?_eq_none_iff {n : Nat} {bs : Bytes} : split? n bs = none ↔ bs.length < n := by
  induction n generalizing bs with
  | zero => simp [split?]
  | succ n ih => cases bs <;> simp [split?, ih]

theorem split?_append_of_le {n : Nat} {bs : Bytes} (h : bs.length ≤ n) (more : Bytes) :
    split? n (bs ++ more)
      = (split? (n - bs.length) more).map fun (front, rest) => (bs ++ front, rest) := by
  induction bs generalizing n with
  | nil => simp
  | cons b bs ih =>
    cases n with
    | zero => simp at h
    | succ n =>
      rw [List.cons_append, split?, ih (Nat.le_of_succ_le_succ h), List.length_cons,
        Nat.add_sub_add_right, Option.map_map]
      rfl

/-- An unsigned word of `width` bytes, most significant first, and what follows it. -/
def takeBig? (width : Nat) (bs : Bytes) : Option (Nat × Bytes) :=
  (split? width bs).map fun (front, rest) => (ofBigEndian front, rest)

/-- An unsigned word of `width` bytes, least significant first, and what follows it. -/
def takeLittle? (width : Nat) (bs : Bytes) : Option (Nat × Bytes) :=
  (split? width bs).map fun (front, rest) => (ofLittleEndian front, rest)

theorem takeBig?_eq_some_iff {width n : Nat} {bs rest : Bytes} :
    takeBig? width bs = some (n, rest) ↔ bs = bigEndian width n ++ rest ∧ n < words width := by
  simp only [takeBig?, Option.map_eq_some_iff, Prod.exists, Prod.mk.injEq]
  constructor
  · rintro ⟨front, rest, h, rfl, rfl⟩
    obtain ⟨rfl, rfl⟩ := split?_eq_some_iff.1 h
    exact ⟨by rw [bigEndian_ofBigEndian], ofBigEndian_lt front⟩
  · rintro ⟨rfl, hlt⟩
    refine ⟨bigEndian width n, rest, split?_eq_some_iff.2 ⟨rfl, length_bigEndian ..⟩, ?_, rfl⟩
    rw [ofBigEndian_bigEndian, Nat.mod_eq_of_lt hlt]

theorem takeLittle?_eq_some_iff {width n : Nat} {bs rest : Bytes} :
    takeLittle? width bs = some (n, rest)
      ↔ bs = littleEndian width n ++ rest ∧ n < words width := by
  simp only [takeLittle?, Option.map_eq_some_iff, Prod.exists, Prod.mk.injEq]
  constructor
  · rintro ⟨front, rest, h, rfl, rfl⟩
    obtain ⟨rfl, rfl⟩ := split?_eq_some_iff.1 h
    exact ⟨by rw [littleEndian_ofLittleEndian], ofLittleEndian_lt front⟩
  · rintro ⟨rfl, hlt⟩
    refine ⟨littleEndian width n, rest, split?_eq_some_iff.2 ⟨rfl, length_littleEndian ..⟩, ?_, rfl⟩
    rw [ofLittleEndian_littleEndian, Nat.mod_eq_of_lt hlt]

end Bytes

end TieredStore
