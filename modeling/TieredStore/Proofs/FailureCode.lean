import TieredStore.Outcome

/-!
# Failures as numbers

A failure that travels as a number comes back as itself, but for the name of a server's error: one
that was given by its number comes back under its name, if it has one.  The numbers of failures are
those of `Failure.IsCode`; every other negative number is taken for a malformed reply, and none is
an answer of a compare-and-swap (`Failure.codes_exact`).

The numbers travel in signed words of 64 bits.  No word overflows on the way from a failure to its
number (`Failure.codeWord?_eq_some_iff`), and on the way back an overflow is a number that no
failure has (`Failure.ofWord?_eq`).
-/

namespace TieredStore

namespace ServerError

theorem code_ofCode (number : UInt32) : (ofCode number).code = number := by
  unfold ofCode
  -- seven numbers have a name
  iterate 7
    split
    · rename_i hnumber
      exact hnumber.symm
  rfl

/-- Only an error that was given by the number of a named one changes under its name. -/
theorem ofCode_code_ne_iff {error : ServerError} :
    ofCode error.code ≠ error
      ↔ ∃ number : UInt32, error = .other number ∧ 0x101 ≤ number ∧ number ≤ 0x107 := by
  cases error with
  | other number =>
    simp only [code, other.injEq, exists_eq_left']
    unfold ofCode
    iterate 7
      split
      · rename_i hnumber
        subst hnumber
        decide
    -- none of the seven
    simp only [ne_eq, not_true_eq_false, false_iff]
    grind
  | _ => simp [code, ofCode]

end ServerError

namespace Failure

/-- The same failure, with an error of a server under its name. -/
def named : Failure → Failure
  | .server error => .server (.ofCode error.code)
  | failure => failure

@[simp] theorem code_named (failure : Failure) : failure.named.code = failure.code := by
  cases failure with
  | server error => rw [named, code, code, ServerError.code_ofCode]
  | _ => rfl

theorem named_ne_iff {failure : Failure} :
    failure.named ≠ failure ↔ ∃ number : UInt32,
      failure = .server (.other number) ∧ 0x101 ≤ number ∧ number ≤ 0x107 := by
  cases failure with
  | server error =>
    simpa only [named, ne_eq, server.injEq] using ServerError.ofCode_code_ne_iff
  | _ => simp [named]

/-! ## The numbers of failures -/

/-- The numbers that failures have: five for what goes wrong on the way, and one for each error that
a server can report. -/
def IsCode (code : Int) : Prop :=
  (-5 ≤ code ∧ code ≤ -1) ∨ (-(serverCodeBase + 0xFFFFFFFF) ≤ code ∧ code ≤ -serverCodeBase)

instance (code : Int) : Decidable (IsCode code) :=
  inferInstanceAs (Decidable (_ ∨ _))

theorem isCode_code (failure : Failure) : IsCode failure.code := by
  cases failure with
  | server error =>
    have hlt : error.code.toNat < 0x100000000 := error.code.toNat_lt
    refine .inr ⟨?_, ?_⟩
    · simp only [code]
      omega
    · simp only [code]
      omega
  | _ => exact .inl (by decide)

/-- Below the five, a number stands for a server's error if it is in the range of their codes. -/
theorem ofCode?_of_lt {code : Int} (h : code < -5) :
    ofCode? code = if 0 ≤ -code - serverCodeBase ∧ -code - serverCodeBase < 0x100000000 then
        some (.server (.ofCode (UInt32.ofNat (-code - serverCodeBase).toNat)))
      else
        some .malformed := by
  unfold ofCode?
  rw [if_neg (by omega), if_neg (by omega), if_neg (by omega), if_neg (by omega),
    if_neg (by omega), if_neg (by omega)]

theorem ofCode?_code (failure : Failure) : ofCode? failure.code = some failure.named := by
  cases failure with
  | server error =>
    have hlt : error.code.toNat < 0x100000000 := error.code.toNat_lt
    have hback : -(-(serverCodeBase + error.code.toNat)) - serverCodeBase = error.code.toNat := by
      omega
    -- the number is below those of the failures without an error
    have hlow : -(serverCodeBase + error.code.toNat) < -5 := by
      unfold serverCodeBase
      omega
    rw [code, ofCode?_of_lt hlow, hback, if_pos (by omega), Int.toNat_natCast, UInt32.ofNat_toNat]
    rfl
  | _ => rfl

theorem ofCode?_of_isCode {code : Int} (h : IsCode code) :
    ∃ failure, ofCode? code = some failure ∧ failure.code = code := by
  rcases h with ⟨hlo, hhi⟩ | ⟨hlo, hhi⟩
  · obtain rfl | rfl | rfl | rfl | rfl :
        code = -1 ∨ code = -2 ∨ code = -3 ∨ code = -4 ∨ code = -5 := by omega
    · exact ⟨.noEndpoint, rfl, rfl⟩
    · exact ⟨.transport, rfl, rfl⟩
    · exact ⟨.timeout, rfl, rfl⟩
    · exact ⟨.malformed, rfl, rfl⟩
    · exact ⟨.unexpectedReply, rfl, rfl⟩
  · have hlow : code < -5 := by
      unfold serverCodeBase at hhi
      omega
    have hlt : (-code - serverCodeBase).toNat < 0x100000000 := by omega
    have hnumber : (UInt32.ofNat (-code - serverCodeBase).toNat).toNat
        = (-code - serverCodeBase).toNat :=
      UInt32.toNat_ofNat_of_lt hlt
    refine ⟨_, (ofCode?_of_lt hlow).trans (if_pos (by omega)), ?_⟩
    rw [Failure.code, ServerError.code_ofCode, hnumber]
    omega

theorem ofCode?_of_not_isCode {code : Int} (hneg : code < 0) (h : ¬IsCode code) :
    ofCode? code = some .malformed := by
  unfold IsCode at h
  have hlow : code < -5 := by
    omega
  rw [ofCode?_of_lt hlow, if_neg (by unfold serverCodeBase at *; omega)]

theorem ofCode?_eq_none_iff {code : Int} : ofCode? code = none ↔ 0 ≤ code := by
  constructor
  · intro h
    refine Int.not_lt.1 fun hneg => ?_
    by_cases hcode : IsCode code
    · obtain ⟨failure, hread, -⟩ := ofCode?_of_isCode hcode
      rw [h] at hread
      cases hread
    · rw [ofCode?_of_not_isCode hneg hcode] at h
      cases h
  · intro h
    exact if_pos h

theorem code_eq_code_iff {f g : Failure} : f.code = g.code ↔ f.named = g.named := by
  constructor
  · intro h
    have hread := ofCode?_code f
    rw [h, ofCode?_code g] at hread
    exact (Option.some.inj hread).symm
  · intro h
    rw [← code_named f, h, code_named g]

/-! ## In words of 64 bits -/

/-- A number as a signed word of 64 bits; nothing if it overflows. -/
def word? (n : Int) : Option Int64 :=
  if -0x8000000000000000 ≤ n ∧ n < 0x8000000000000000 then some (Int64.ofInt n) else none

theorem word?_eq_some_iff {n : Int} {word : Int64} : word? n = some word ↔ word.toInt = n := by
  unfold word?
  constructor
  · intro h
    split at h
    · rename_i hfits
      rw [← Option.some.inj h]
      exact Int64.toInt_ofInt_of_le hfits.1 hfits.2
    · cases h
  · rintro rfl
    rw [if_pos ⟨word.le_toInt, word.toInt_lt⟩, Int64.ofInt_toInt]

/-- A word as an unsigned word of 32 bits, if it is one. -/
def unsigned? (word : Int64) : Option UInt32 :=
  if 0 ≤ word.toInt ∧ word.toInt < 0x100000000 then some (UInt32.ofNat word.toInt.toNat) else none

/-- The number of a failure, every step in a word. -/
def codeWord? : Failure → Option Int64
  | .server error => do
    let sum ← word? (serverCodeBase + error.code.toNat)
    word? (-sum.toInt)
  | failure => word? failure.code

/-- The number of a server's error that a word stands for, every step in a word. -/
def serverWord? (code : Int64) : Option UInt32 := do
  let opposite ← word? (-code.toInt)
  let number ← word? (opposite.toInt - serverCodeBase)
  unsigned? number

/-- The failure of a word.  Where a step overflows, no failure has the number. -/
def ofWord? (code : Int64) : Option Failure :=
  if 0 ≤ code then none
  else if code = -1 then some .noEndpoint
  else if code = -2 then some .transport
  else if code = -3 then some .timeout
  else if code = -4 then some .malformed
  else if code = -5 then some .unexpectedReply
  else
    match serverWord? code with
    | some number => some (.server (.ofCode number))
    | none => some .malformed

theorem codeWord?_eq_some_iff {failure : Failure} {word : Int64} :
    failure.codeWord? = some word ↔ word.toInt = failure.code := by
  cases failure with
  | server error =>
    have hlt : error.code.toNat < 0x100000000 := error.code.toNat_lt
    have hsum : word? (serverCodeBase + error.code.toNat)
        = some (Int64.ofInt (serverCodeBase + error.code.toNat)) :=
      if_pos ⟨by unfold serverCodeBase; omega, by unfold serverCodeBase; omega⟩
    rw [codeWord?, hsum, Option.bind_eq_bind, Option.bind_some, word?_eq_some_iff,
      word?_eq_some_iff.1 hsum, code]
  | _ => exact word?_eq_some_iff

/-- Only the least word has no opposite, and its exact opposite is no number of an error. -/
theorem serverWord?_eq {code : Int64} (hneg : code.toInt < 0) :
    serverWord? code
      = if 0 ≤ -code.toInt - serverCodeBase ∧ -code.toInt - serverCodeBase < 0x100000000 then
          some (UInt32.ofNat (-code.toInt - serverCodeBase).toNat)
        else
          none := by
  have hlo : -0x8000000000000000 ≤ code.toInt := code.le_toInt
  unfold serverWord?
  by_cases hleast : code.toInt = -0x8000000000000000
  · rw [hleast]
    rfl
  · have hopposite : word? (-code.toInt) = some (Int64.ofInt (-code.toInt)) :=
      if_pos ⟨by omega, by omega⟩
    have hnumber : word? (-code.toInt - serverCodeBase)
        = some (Int64.ofInt (-code.toInt - serverCodeBase)) :=
      if_pos ⟨by unfold serverCodeBase; omega, by unfold serverCodeBase; omega⟩
    rw [hopposite, Option.bind_eq_bind, Option.bind_some, word?_eq_some_iff.1 hopposite, hnumber,
      Option.bind_some, unsigned?, word?_eq_some_iff.1 hnumber]

theorem ofWord?_eq (code : Int64) : ofWord? code = ofCode? code.toInt := by
  have hsign : 0 ≤ code ↔ 0 ≤ code.toInt := Int64.le_iff_toInt_le
  by_cases hlow : code.toInt < -5
  · have hother (n : Int64) (hn : -5 ≤ n.toInt) : code ≠ n := by
      rintro rfl
      omega
    unfold ofWord?
    rw [if_neg (mt hsign.1 (by omega)), if_neg (hother _ (by decide)),
      if_neg (hother _ (by decide)), if_neg (hother _ (by decide)), if_neg (hother _ (by decide)),
      if_neg (hother _ (by decide)), serverWord?_eq (by omega), ofCode?_of_lt hlow]
    by_cases hnumber : 0 ≤ -code.toInt - serverCodeBase ∧ -code.toInt - serverCodeBase < 0x100000000
    · simp only [if_pos hnumber]
    · simp only [if_neg hnumber]
  · by_cases hpos : 0 ≤ code.toInt
    · rw [ofCode?_eq_none_iff.2 hpos]
      exact if_pos (hsign.2 hpos)
    · obtain h | h | h | h | h : code.toInt = -1 ∨ code.toInt = -2 ∨ code.toInt = -3
          ∨ code.toInt = -4 ∨ code.toInt = -5 := by omega
      all_goals
        rw [← Int64.ofInt_toInt code, h]
        rfl

end Failure

/-! ## Answers of a compare-and-swap -/

namespace CasOutcome

theorem ofCode_of_failure {code : Int} {failure : Failure}
    (h : Failure.ofCode? code = some failure) : ofCode code = .failed failure := by
  have hneg : code < 0 := by
    refine Int.not_le.1 fun hpos => ?_
    rw [Failure.ofCode?_eq_none_iff.2 hpos] at h
    cases h
  unfold ofCode notFound mismatch
  rw [if_neg (by omega), if_neg (by omega), h]

/-- A failed compare-and-swap is not taken for one of its answers. -/
theorem ofCode_code (failure : Failure) : ofCode failure.code = .failed failure.named :=
  ofCode_of_failure failure.ofCode?_code

theorem ofCode_eq_answered_iff {code : Int} {swap : Swap} :
    ofCode code = .answered swap ↔ (code = 0 ∧ swap = .notFound) ∨ (code = 1 ∧ swap = .mismatch)
      ∨ (2 ≤ code ∧ swap = .applied code.toNat) := by
  obtain hneg | rfl | rfl | htwo : code < 0 ∨ code = 0 ∨ code = 1 ∨ 2 ≤ code := by omega
  · cases hread : Failure.ofCode? code with
    | none => exact absurd (Failure.ofCode?_eq_none_iff.1 hread) (Int.not_le.2 hneg)
    | some failure =>
      rw [ofCode_of_failure hread]
      simp
      omega
  · simp [ofCode, notFound, eq_comm]
  · simp [ofCode, notFound, mismatch, eq_comm]
  · have happlied : ofCode code = .answered (.applied code.toNat) := by
      unfold ofCode notFound mismatch
      rw [if_neg (by omega), if_neg (by omega), Failure.ofCode?_eq_none_iff.2 (by omega)]
    rw [happlied, CasOutcome.answered.injEq]
    constructor
    · rintro rfl
      exact .inr (.inr ⟨htwo, rfl⟩)
    · rintro (⟨rfl, -⟩ | ⟨rfl, -⟩ | ⟨-, rfl⟩)
      · omega
      · omega
      · rfl

/-- A word that is not negative is the same number without its sign. -/
theorem toNat_toUInt64_of_nonneg {word : Int64} (h : 0 ≤ word.toInt) :
    word.toUInt64.toNat = word.toInt.toNat := by
  change word.toBitVec.toNat = word.toBitVec.toInt.toNat
  change 0 ≤ word.toBitVec.toInt at h
  rw [BitVec.toInt_eq_toNat_cond] at h ⊢
  split
  · rfl
  · omega

/-- A word is an answer of a compare-and-swap if it is not negative; above 1 it is evidence of a
swap. -/
theorem ofCode_word_eq_answered_iff {word : Int64} {swap : Swap} :
    ofCode word.toInt = .answered swap ↔ (word = 0 ∧ swap = .notFound)
      ∨ (word = 1 ∧ swap = .mismatch) ∨ (2 ≤ word ∧ swap = .applied word.toUInt64.toNat) := by
  have hzero : word = 0 ↔ word.toInt = 0 := Int64.toInt_inj.symm
  have hone : word = 1 ↔ word.toInt = 1 := Int64.toInt_inj.symm
  have htwo : 2 ≤ word ↔ 2 ≤ word.toInt := Int64.le_iff_toInt_le
  rw [ofCode_eq_answered_iff, hzero, hone, htwo]
  refine or_congr_right (or_congr_right (and_congr_right fun h => ?_))
  rw [toNat_toUInt64_of_nonneg (by omega)]

end CasOutcome

/-! ## All numbers -/

/-- Failures and numbers determine each other, but for the names of errors. -/
theorem Failure.codes_exact :
    (∀ failure : Failure, failure.code < 0
        ∧ (∃ word : Int64, failure.codeWord? = some word ∧ word.toInt = failure.code)
        ∧ ofCode? failure.code = some failure.named
        ∧ CasOutcome.ofCode failure.code = .failed failure.named
        ∧ (failure.named ≠ failure ↔ ∃ number : UInt32,
            failure = .server (.other number) ∧ 0x101 ≤ number ∧ number ≤ 0x107))
      ∧ (∀ f g : Failure, f.code = g.code ↔ f.named = g.named)
      ∧ ∀ word : Int64, ofWord? word = ofCode? word.toInt
        ∧ (ofCode? word.toInt = none ↔ 0 ≤ word)
        ∧ (IsCode word.toInt →
            ∃ failure, ofCode? word.toInt = some failure ∧ failure.code = word.toInt)
        ∧ (word < 0 → ¬IsCode word.toInt → ofCode? word.toInt = some .malformed)
        ∧ ∀ swap, CasOutcome.ofCode word.toInt = .answered swap ↔ (word = 0 ∧ swap = .notFound)
            ∨ (word = 1 ∧ swap = .mismatch) ∨ (2 ≤ word ∧ swap = .applied word.toUInt64.toNat) := by
  refine ⟨fun failure => ?_, fun f g => code_eq_code_iff, fun word => ?_⟩
  · have hword : (Int64.ofInt failure.code).toInt = failure.code := by
      have hcode := failure.isCode_code
      unfold IsCode serverCodeBase at hcode
      exact Int64.toInt_ofInt_of_le (by omega) (by omega)
    exact ⟨failure.code_neg, ⟨_, codeWord?_eq_some_iff.2 hword, hword⟩, failure.ofCode?_code,
      CasOutcome.ofCode_code failure, named_ne_iff⟩
  · have hsign : 0 ≤ word ↔ 0 ≤ word.toInt := Int64.le_iff_toInt_le
    have hneg : word < 0 ↔ word.toInt < 0 := Int64.lt_iff_toInt_lt
    exact ⟨ofWord?_eq word, ofCode?_eq_none_iff.trans hsign.symm, ofCode?_of_isCode,
      fun h => ofCode?_of_not_isCode (hneg.1 h), fun _ => CasOutcome.ofCode_word_eq_answered_iff⟩

/-- The least number of a failure, the number below it, and the least word of all. -/
theorem Failure.codes_exact_least :
    IsCode (-0x100000fff : Int64).toInt
      ∧ (∃ failure, ofCode? (-0x100000fff : Int64).toInt = some failure
        ∧ failure.code = (-0x100000fff : Int64).toInt)
      ∧ (-0x100001000 : Int64) < 0 ∧ ¬IsCode (-0x100001000 : Int64).toInt
      ∧ ofCode? (-0x100001000 : Int64).toInt = some .malformed
      ∧ Int64.minValue < 0 ∧ ¬IsCode Int64.minValue.toInt
      ∧ ofCode? Int64.minValue.toInt = some .malformed := by
  have hall := codes_exact.2.2
  have hleast : IsCode (-0x100000fff : Int64).toInt := by decide
  have hbelow : ¬IsCode (-0x100001000 : Int64).toInt := by decide
  have hmin : ¬IsCode Int64.minValue.toInt := by decide
  exact ⟨hleast, (hall _).2.2.1 hleast, by decide, hbelow, (hall _).2.2.2.1 (by decide) hbelow,
    by decide, hmin, (hall _).2.2.2.1 (by decide) hmin⟩

end TieredStore
