import Mathlib.Algebra.GroupWithZero.Nat
import Mathlib.Data.List.Basic
import TieredStore.Routing.Checksum

/-!
# Sums of words with their carries

What the checksum of a string of bytes says about its words.  The sum in 32 bits is exact up to
65537 words.  Folding the carries back keeps the remainder by `0xFFFF` and tells nothing from
everything: of the two ways to write zero in ones' complement, the one with all bits set is taken
unless all words are zero (`checksum_exact`).
-/

namespace TieredStore.Routing

/-! ## Words -/

/-- The words of a string of bytes, least significant byte first. -/
def wordsOf : Bytes → List Nat
  | [] => []
  | [last] => [Bytes.ofLittleEndian [last]]
  | lo :: hi :: rest => Bytes.ofLittleEndian [lo, hi] :: wordsOf rest

theorem ofLittleEndian_pair (lo hi : UInt8) :
    Bytes.ofLittleEndian [lo, hi] = lo.toNat + 256 * hi.toNat := rfl

theorem wordsOf_flatten_append {words : List Bytes} (h : ∀ word ∈ words, word.length = 2)
    (rest : Bytes) :
    wordsOf (words.flatten ++ rest) = words.map Bytes.ofLittleEndian ++ wordsOf rest := by
  induction words with
  | nil => rfl
  | cons word words ih =>
    rw [List.forall_mem_cons] at h
    obtain ⟨lo, hi, rfl⟩ := List.length_eq_two.1 h.1
    exact congrArg (_ :: ·) (ih h.2)

theorem sum_wordsOf_le (bs : Bytes) : (wordsOf bs).sum ≤ 0xFFFF * ((bs.length + 1) / 2) := by
  induction bs using wordsOf.induct with
  | case1 => exact Nat.zero_le _
  | case2 last =>
    have hlast : last.toNat < 256 := last.toNat_lt
    have hword : (wordsOf [last]).sum = last.toNat := rfl
    rw [hword, List.length_singleton]
    omega
  | case3 lo hi rest ih =>
    have hlo : lo.toNat < 256 := lo.toNat_lt
    have hhi : hi.toNat < 256 := hi.toNat_lt
    rw [wordsOf, List.sum_cons, ofLittleEndian_pair, List.length_cons, List.length_cons]
    omega

theorem sum_wordsOf_eq_zero_iff (bs : Bytes) : (wordsOf bs).sum = 0 ↔ ∀ b ∈ bs, b = 0 := by
  induction bs using wordsOf.induct with
  | case1 => simp [wordsOf]
  | case2 last =>
    rw [List.forall_mem_singleton, ← UInt8.toNat_inj]
    rfl
  | case3 lo hi rest ih =>
    rw [wordsOf, List.sum_cons, ofLittleEndian_pair, List.forall_mem_cons, List.forall_mem_cons,
      ← ih, ← UInt8.toNat_inj, ← UInt8.toNat_inj]
    show _ ↔ lo.toNat = 0 ∧ hi.toNat = 0 ∧ _
    omega

/-- Zeros at the end add nothing, whether they make a word full or are words of their own. -/
theorem sum_wordsOf_append_zeros (bs : Bytes) (n : Nat) :
    (wordsOf (bs ++ List.replicate n 0)).sum = (wordsOf bs).sum := by
  have hzeros (n : Nat) : (wordsOf (List.replicate n 0)).sum = 0 :=
    (sum_wordsOf_eq_zero_iff _).2 fun b hb => List.eq_of_mem_replicate hb
  induction bs using wordsOf.induct with
  | case1 => exact hzeros n
  | case2 last =>
    cases n with
    | zero => rfl
    | succ n =>
      show (last.toNat + 256 * 0) + (wordsOf (List.replicate n 0)).sum = _
      rw [hzeros]
      rfl
  | case3 lo hi rest ih =>
    rw [List.cons_append, List.cons_append, wordsOf, wordsOf, List.sum_cons, List.sum_cons, ih]

/-! ## The sum in 32 bits -/

theorem toNat_sumWords (sum : UInt32) (bs : Bytes) :
    (sumWords sum bs).toNat = (sum.toNat + (wordsOf bs).sum) % 0x100000000 := by
  induction bs using wordsOf.induct generalizing sum with
  | case1 =>
    show sum.toNat = sum.toNat % 0x100000000
    rw [Nat.mod_eq_of_lt sum.toNat_lt]
  | case2 last =>
    show (sum + last.toUInt32).toNat = _
    rw [UInt32.toNat_add, UInt8.toNat_toUInt32]
    rfl
  | case3 lo hi rest ih =>
    have hlo : lo.toNat < 256 := lo.toNat_lt
    have hhi : hi.toNat < 256 := hi.toNat_lt
    -- a word of two bytes fits in 32 bits
    have hword : (lo.toUInt32 + hi.toUInt32 * 0x100).toNat = lo.toNat + 256 * hi.toNat := by
      rw [UInt32.toNat_add, UInt32.toNat_mul, UInt8.toNat_toUInt32, UInt8.toNat_toUInt32]
      show (lo.toNat + hi.toNat * 256 % 0x100000000) % 0x100000000 = _
      omega
    rw [sumWords, ih, UInt32.toNat_add, hword, wordsOf, List.sum_cons, ofLittleEndian_pair,
      Nat.mod_add_mod, Nat.add_assoc]

/-- The sum goes on after full words as it would have begun. -/
theorem sumWords_append {front : Bytes} (h : front.length % 2 = 0) (sum : UInt32) (rest : Bytes) :
    sumWords sum (front ++ rest) = sumWords (sumWords sum front) rest := by
  induction front using wordsOf.induct generalizing sum with
  | case1 => rfl
  | case2 last => cases h
  | case3 lo hi front ih =>
    apply ih
    simp only [List.length_cons] at h
    omega

/-- As many words as 32 bits have room for, whatever the words are. -/
theorem toNat_sumWords_of_length {bs : Bytes} (h : bs.length ≤ 131074) :
    (sumWords 0 bs).toNat = (wordsOf bs).sum := by
  have hle := sum_wordsOf_le bs
  rw [toNat_sumWords]
  show (0 + (wordsOf bs).sum) % 0x100000000 = _
  omega

/-! ## Carries -/

/-- What is left of a sum when its carries are folded back: the number from 1 to `0xFFFF` with the
same remainder, or 0 of nothing. -/
def folded (sum : Nat) : Nat :=
  if sum = 0 then 0 else (sum - 1) % 0xFFFF + 1

theorem folded_le (sum : Nat) : folded sum ≤ 0xFFFF := by
  unfold folded
  split
  · omega
  · omega

theorem folded_eq_zero_iff {sum : Nat} : folded sum = 0 ↔ sum = 0 := by
  unfold folded
  split
  · omega
  · omega

theorem toNat_foldCarries (sum : UInt32) : (foldCarries sum).toNat = folded sum.toNat := by
  induction sum using foldCarries.induct with
  | case1 sum hcarries ih =>
    have habove : ¬sum.toNat < 0x10000 := fun hlt => hcarries (carries_eq_zero_iff.2 hlt)
    rw [foldCarries, if_pos hcarries, ih, toNat_fold]
    -- `0x10000` leaves 1, so that adding the carries back leaves the remainder as it is
    unfold folded
    rw [if_neg (by omega), if_neg (by omega)]
    omega
  | case2 sum hcarries =>
    have hbelow : sum.toNat < 0x10000 := carries_eq_zero_iff.1 (Decidable.not_not.1 hcarries)
    rw [foldCarries, if_neg hcarries]
    unfold folded
    split
    · assumption
    · omega

/-- The carries of a sum are gone after so many passes, with this result. -/
inductive Folds : (passes : Nat) → (sum result : UInt32) → Prop
  | done {sum : UInt32} (h : sum >>> 16 = 0) : Folds 0 sum sum
  | pass {passes : Nat} {sum result : UInt32} (h : sum >>> 16 ≠ 0)
    (hrest : Folds passes ((sum &&& (0xFFFF : UInt32)) + (sum >>> (16 : UInt32))) result) :
    Folds (passes + 1) sum result

theorem Folds.eq {passes : Nat} {sum result : UInt32} (h : Folds passes sum result) :
    foldCarries sum = result := by
  induction h with
  | done h => rw [foldCarries, if_neg (Decidable.not_not.2 h)]
  | pass h _ ih => rw [foldCarries, if_pos h, ih]

/-- A sum of two numbers of 16 bits has one carry at most, and without it is short of it by enough
to take it. -/
theorem folds_of_le (sum : UInt32) (h : sum.toNat ≤ 2 * 0xFFFF) :
    ∃ passes result, passes ≤ 1 ∧ Folds passes sum result := by
  by_cases hcarries : sum >>> 16 = 0
  · exact ⟨0, sum, Nat.zero_le 1, .done hcarries⟩
  · have habove : ¬sum.toNat < 0x10000 := fun hlt => hcarries (carries_eq_zero_iff.2 hlt)
    refine ⟨1, _, Nat.le_refl 1, .pass hcarries (.done ?_)⟩
    rw [carries_eq_zero_iff, toNat_fold]
    omega

theorem folds_foldCarries (sum : UInt32) :
    ∃ passes, passes ≤ 2 ∧ Folds passes sum (foldCarries sum) := by
  by_cases hcarries : sum >>> 16 = 0
  · have hdone : Folds 0 sum sum := .done hcarries
    exact ⟨0, Nat.zero_le 2, hdone.eq.symm ▸ hdone⟩
  · have hsum : sum.toNat < 0x100000000 := sum.toNat_lt
    have hfold : ((sum &&& (0xFFFF : UInt32)) + (sum >>> (16 : UInt32))).toNat ≤ 2 * 0xFFFF := by
      rw [toNat_fold]
      omega
    obtain ⟨passes, result, hpasses, hrest⟩ := folds_of_le _ hfold
    have hfolds : Folds (passes + 1) sum result := .pass hcarries hrest
    exact ⟨passes + 1, Nat.succ_le_succ hpasses, hfolds.eq.symm ▸ hfolds⟩

/-! ## The checksum -/

theorem toNat_checksum (bs : Bytes) :
    (checksum bs).toNat = 0xFFFF - folded ((wordsOf bs).sum % 0x100000000) := by
  have hfold : (foldCarries (sumWords 0 bs)).toNat = folded ((wordsOf bs).sum % 0x100000000) := by
    rw [toNat_foldCarries, toNat_sumWords]
    show folded ((0 + _) % 0x100000000) = _
    rw [Nat.zero_add]
  have hle := folded_le ((wordsOf bs).sum % 0x100000000)
  have hmask : (checksum bs).toNat
      = (0x100000000 - 1 - (foldCarries (sumWords 0 bs)).toNat) % 0x10000 := by
    unfold checksum
    rw [UInt32.toNat_and, UInt32.toNat_not]
    exact Nat.and_two_pow_sub_one_eq_mod _ 16
  rw [hmask, hfold]
  omega

theorem checksum_congr {bs others : Bytes} (h : (wordsOf others).sum = (wordsOf bs).sum) :
    checksum others = checksum bs := by
  rw [← UInt32.toNat_inj, toNat_checksum, toNat_checksum, h]

/-- The sum of up to 65537 words is exact at every word, and the checksum is the complement of what
folding leaves of it, so that it has all bits set for zeros alone.  Of any number of words neither
the order nor zeros at the end make a difference, the carries are gone after two passes, and the
checksum has 16 bits. -/
theorem checksum_exact (bs : Bytes) :
    (bs.length ≤ 131074 →
      (∀ front rest, bs = front ++ rest → front.length % 2 = 0 →
        sumWords 0 bs = sumWords (sumWords 0 front) rest
          ∧ (sumWords 0 front).toNat = (wordsOf front).sum)
      ∧ (sumWords 0 bs).toNat = (wordsOf bs).sum
      ∧ (checksum bs).toNat = 0xFFFF - folded (wordsOf bs).sum
      ∧ (checksum bs = 0xFFFF ↔ ∀ b ∈ bs, b = 0))
    ∧ (∀ (words others : List Bytes) rest, (∀ word ∈ words, word.length = 2) → words.Perm others →
      bs = words.flatten ++ rest → checksum (others.flatten ++ rest) = checksum bs)
    ∧ (∀ n, checksum (bs ++ List.replicate n 0) = checksum bs)
    ∧ (∃ passes, passes ≤ 2 ∧ Folds passes (sumWords 0 bs) (foldCarries (sumWords 0 bs)))
    ∧ (checksum bs).toNat ≤ 0xFFFF := by
  refine ⟨?_, ?_, ?_, folds_foldCarries _, ?_⟩
  · intro hlen
    have hsum := toNat_sumWords_of_length hlen
    have hbound : (wordsOf bs).sum < 0x100000000 := hsum ▸ (sumWords 0 bs).toNat_lt
    have hexact : (checksum bs).toNat = 0xFFFF - folded (wordsOf bs).sum := by
      rw [toNat_checksum, Nat.mod_eq_of_lt hbound]
    refine ⟨?_, hsum, hexact, ?_⟩
    · intro front rest hbs hfull
      have hfront : front.length ≤ 131074 := by
        rw [hbs, List.length_append] at hlen
        omega
      exact ⟨hbs ▸ sumWords_append hfull 0 rest, toNat_sumWords_of_length hfront⟩
    · have hle := folded_le (wordsOf bs).sum
      rw [← UInt32.toNat_inj, hexact, ← sum_wordsOf_eq_zero_iff, ← folded_eq_zero_iff]
      show _ = 0xFFFF ↔ _
      omega
  · intro words others rest hwords hperm hbs
    have hothers : ∀ word ∈ others, word.length = 2 :=
      fun word hword => hwords word (hperm.mem_iff.2 hword)
    apply checksum_congr
    rw [hbs, wordsOf_flatten_append hwords, wordsOf_flatten_append hothers]
    exact ((hperm.symm.map _).append_right _).sum_nat
  · intro n
    exact checksum_congr (sum_wordsOf_append_zeros bs n)
  · rw [toNat_checksum]
    exact Nat.sub_le ..

/-- Two words with a carry between them, in either order, and a byte of its own. -/
theorem checksum_exact_carry :
    let words : List Bytes := [[0xFF, 0xFF], [0x01, 0x00]]
    let bs : Bytes := words.flatten ++ [0x02]
    bs.length ≤ 131074 ∧ (checksum bs).toNat = 0xFFFC ∧ checksum bs ≠ 0xFFFF
      ∧ checksum (words.reverse.flatten ++ [0x02]) = checksum bs := by
  intro words bs
  have hlen : bs.length ≤ 131074 := by decide
  obtain ⟨hshort, hperm, -⟩ := checksum_exact bs
  obtain ⟨-, -, hexact, hzeros⟩ := hshort hlen
  refine ⟨hlen, hexact.trans (by decide), fun h => absurd (hzeros.1 h) (by decide), ?_⟩
  exact hperm words words.reverse [0x02] (by decide) (List.reverse_perm words).symm rfl

end TieredStore.Routing
