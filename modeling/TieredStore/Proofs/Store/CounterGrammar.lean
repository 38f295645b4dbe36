import Mathlib.Data.List.Induction
import Mathlib.Data.List.TakeWhile
import TieredStore.Store.CounterText

/-!
# What reads as a counter

The grammar of stored counters: text in UTF-8 with a NUL after it, in which a numeral stands among
blanks (`CounterText`).  Reading gives the number of just such text, provided that a signed word of
64 bits holds it (`readCounter_exact`).
-/

namespace TieredStore

namespace Text

/-! ## Text with blanks around it -/

/-- Some text with blank characters before and after it, if any. -/
def Padded (text inner : List Char) : Prop :=
  ∃ front back, text = front ++ inner ++ back ∧ (∀ c ∈ front, isBlank c = true)
    ∧ ∀ c ∈ back, isBlank c = true

theorem padded_trim (text : List Char) : Padded text (trim text) := by
  -- what is left once the blanks in front are gone, of which `trim` takes the end from behind
  let rest := text.dropWhile isBlank
  refine ⟨text.takeWhile isBlank, (rest.reverse.takeWhile isBlank).reverse, ?_, ?_, ?_⟩
  · have hrest : trim text ++ (rest.reverse.takeWhile isBlank).reverse = rest := by
      unfold trim
      rw [← List.reverse_append, List.takeWhile_append_dropWhile, List.reverse_reverse]
    rw [List.append_assoc, hrest, List.takeWhile_append_dropWhile]
  · exact fun c hc => List.mem_takeWhile_imp hc
  · exact fun c hc => List.mem_takeWhile_imp (List.mem_reverse.1 hc)

/-- Of text without blanks in it nothing is lost but what is around it. -/
theorem Padded.trim_eq {text inner : List Char} (h : Padded text inner) (hne : inner ≠ [])
    (hinner : ∀ c ∈ inner, isBlank c = false) : trim text = inner := by
  obtain ⟨front, back, rfl, hfront, hback⟩ := h
  have hrest : (front ++ inner ++ back).dropWhile isBlank = inner ++ back := by
    rw [List.append_assoc, List.dropWhile_append_of_pos hfront]
    obtain ⟨c, cs, rfl⟩ := List.exists_cons_of_ne_nil hne
    apply List.dropWhile_cons_of_neg
    simp [hinner c List.mem_cons_self]
  unfold trim
  rw [hrest, List.reverse_append,
    List.dropWhile_append_of_pos fun c hc => hback c (List.mem_reverse.1 hc),
    dropWhile_isBlank_eq_self fun c hc => hinner c (List.mem_reverse.1 hc), List.reverse_reverse]

/-! ## Numerals -/

/-- One decimal digit or more, and the number that they spell. -/
inductive Digits : List Char → Nat → Prop
  | one {c : Char} (hc : c.isDigit = true) : Digits [c] (c.toNat - '0'.toNat)
  | more {cs : List Char} {n : Nat} {c : Char} (h : Digits cs n) (hc : c.isDigit = true) :
    Digits (cs ++ [c]) (10 * n + (c.toNat - '0'.toNat))

/-- Digits after one sign, or none. -/
inductive Numeral : List Char → Int → Prop
  | bare {cs : List Char} {n : Nat} (h : Digits cs n) : Numeral cs n
  | plus {cs : List Char} {n : Nat} (h : Digits cs n) : Numeral ('+' :: cs) n
  | minus {cs : List Char} {n : Nat} (h : Digits cs n) : Numeral ('-' :: cs) (-n)

theorem Digits.ne_nil {cs : List Char} {n : Nat} (h : Digits cs n) : cs ≠ [] := by
  cases h with
  | one hc => exact List.cons_ne_nil _ _
  | more h hc => exact List.append_ne_nil_of_right_ne_nil _ (List.cons_ne_nil _ _)

theorem Digits.isDigit {cs : List Char} {n : Nat} (h : Digits cs n) :
    ∀ c ∈ cs, c.isDigit = true := by
  induction h with
  | one hc => simpa using hc
  | more h hc ih =>
    intro c hmem
    rcases List.mem_append.1 hmem with hold | hlast
    · exact ih c hold
    · rwa [List.mem_singleton.1 hlast]

theorem Digits.value {cs : List Char} {n : Nat} (h : Digits cs n) :
    Nat.ofDigitChars 10 cs 0 = n := by
  induction h with
  | one hc => simp [Nat.ofDigitChars_cons]
  | more h hc ih => rw [Nat.ofDigitChars_append, ih, Nat.ofDigitChars_cons]; rfl

theorem digits_of_isDigit {cs : List Char} (hne : cs ≠ []) (h : ∀ c ∈ cs, c.isDigit = true) :
    Digits cs (Nat.ofDigitChars 10 cs 0) := by
  induction cs using List.reverseRecOn with
  | nil => exact absurd rfl hne
  | append_singleton cs c ih =>
    -- the last digit counts for itself, and what is before it ten times
    have hc : c.isDigit = true := h c (by simp)
    rw [Nat.ofDigitChars_append, Nat.ofDigitChars_cons]
    cases cs with
    | nil =>
      have hone := Digits.one hc
      simpa [Nat.ofDigitChars] using hone
    | cons d ds =>
      exact .more (ih (List.cons_ne_nil d ds) fun e he => h e (List.mem_append_left [c] he)) hc

theorem natural?_eq_some_iff {cs : List Char} {n : Nat} : natural? cs = some n ↔ Digits cs n := by
  unfold natural?
  constructor
  · intro h
    split at h
    · next hdigits =>
      rw [← Option.some.inj h]
      exact digits_of_isDigit hdigits.1 (List.all_eq_true.1 hdigits.2)
    · cases h
  · intro h
    rw [if_pos ⟨h.ne_nil, List.all_eq_true.2 h.isDigit⟩, h.value]

theorem integer?_eq_some_iff {cs : List Char} {n : Int} : integer? cs = some n ↔ Numeral cs n := by
  constructor
  · intro h
    unfold integer? at h
    split at h
    · obtain ⟨m, hm, rfl⟩ := Option.map_eq_some_iff.1 h
      exact .plus (natural?_eq_some_iff.1 hm)
    · obtain ⟨m, hm, rfl⟩ := Option.map_eq_some_iff.1 h
      exact .minus (natural?_eq_some_iff.1 hm)
    · obtain ⟨m, hm, rfl⟩ := Option.map_eq_some_iff.1 h
      exact .bare (natural?_eq_some_iff.1 hm)
  · intro h
    cases h with
    | bare h =>
      obtain ⟨c, ds, rfl⟩ := List.exists_cons_of_ne_nil h.ne_nil
      rw [integer?_of_isDigit (h.isDigit c List.mem_cons_self), natural?_eq_some_iff.2 h]
      rfl
    | plus h => rw [integer?, natural?_eq_some_iff.2 h]; rfl
    | minus h => rw [integer?, natural?_eq_some_iff.2 h]; rfl

/-- Neither digits nor signs are blank. -/
theorem Numeral.isBlank_eq_false {cs : List Char} {n : Int} (h : Numeral cs n) :
    ∀ c ∈ cs, isBlank c = false := by
  have hdigits {ds : List Char} {m : Nat} (hds : Digits ds m) : ∀ c ∈ ds, isBlank c = false :=
    fun c hc => isBlank_of_isDigit (hds.isDigit c hc)
  cases h with
  | bare h => exact hdigits h
  | plus h => exact List.forall_mem_cons.2 ⟨rfl, hdigits h⟩
  | minus h => exact List.forall_mem_cons.2 ⟨rfl, hdigits h⟩

theorem Numeral.ne_nil {cs : List Char} {n : Int} (h : Numeral cs n) : cs ≠ [] := by
  cases h with
  | bare h => exact h.ne_nil
  | plus h => exact List.cons_ne_nil _ _
  | minus h => exact List.cons_ne_nil _ _

theorem int64?_of_numeral {cs : List Char} {n : Int} (h : Numeral cs n) :
    int64? cs = if Int64.minValue.toInt ≤ n ∧ n ≤ Int64.maxValue.toInt then some (Int64.ofInt n)
      else none := by
  rw [int64?, integer?_eq_some_iff.2 h, Option.bind_some]

theorem numeral_of_int64? {cs : List Char} {n : Int64} (h : int64? cs = some n) :
    Numeral cs n.toInt := by
  obtain ⟨m, hm, hn⟩ := Option.bind_eq_some_iff.1 h
  split at hn
  · next hrange =>
    have hlow : -0x8000000000000000 ≤ m := hrange.1
    have hhigh : m ≤ 0x7FFFFFFFFFFFFFFF := hrange.2
    rw [← Option.some.inj hn, Int64.toInt_ofInt_of_le (by omega) (by omega)]
    exact integer?_eq_some_iff.1 hm
  · cases hn

/-! ## UTF-8 -/

namespace Utf8

theorem encodeChar_eq_utf8EncodeChar (c : Char) : encodeChar c = String.utf8EncodeChar c := by
  have hlt : c.toNat < 0x110000 := by
    have hvalid : c.toNat < 0xD800 ∨ 0xDFFF < c.toNat ∧ c.toNat < 0x110000 := c.valid
    omega
  have hval : c.val.toNat = c.toNat := rfl
  unfold encodeChar String.utf8EncodeChar
  rw [hval]
  generalize c.toNat = n at hlt
  simp only
  by_cases h1 : n < 0x80
  · rw [if_pos h1, if_pos (by omega)]
  by_cases h2 : n < 0x800
  · rw [if_neg h1, if_pos h2, if_neg (by omega), if_pos (by omega),
      show n / 64 % 32 + 192 = 0xC0 + n / 0x40 by omega, Nat.add_comm (n % 64)]
  by_cases h3 : n < 0x10000
  · rw [if_neg h1, if_neg h2, if_pos h3, if_neg (by omega), if_neg (by omega), if_pos (by omega),
      show n / 4096 % 16 + 224 = 0xE0 + n / 0x1000 by omega, Nat.add_comm (n / 64 % 64),
      Nat.add_comm (n % 64)]
  · rw [if_neg h1, if_neg h2, if_neg h3, if_neg (by omega), if_neg (by omega), if_neg (by omega),
      show n / 262144 % 8 + 240 = 0xF0 + n / 0x40000 by omega, Nat.add_comm (n / 4096 % 64),
      Nat.add_comm (n / 64 % 64), Nat.add_comm (n % 64)]

theorem encode_toList (text : String) : encode text.toList = text.toUTF8.data.toList := by
  have hflat : encode text.toList = text.toList.flatMap String.utf8EncodeChar :=
    congrArg (text.toList.flatMap ·) (funext encodeChar_eq_utf8EncodeChar)
  rw [hflat]
  show _ = text.toByteArray.data.toList
  rw [← String.utf8Encode_toList]
  simp [List.utf8Encode]

end Utf8

end Text

/-! ## Counters -/

/-- Bytes in which a number is stored: UTF-8 with a NUL after it, where the text is a numeral of the
number with blanks around it, if any. -/
def CounterText (bs : Bytes) (n : Int) : Prop :=
  ∃ (text : String) (numeral : List Char), bs = text.toUTF8.data.toList ++ [0]
    ∧ Text.Padded text.toList numeral ∧ Text.Numeral numeral n

theorem readCounter_encode (cs : List Char) :
    readCounter (Text.Utf8.encode cs ++ [0]) = Text.int64? (Text.trim cs) := by
  rw [readCounter, if_pos (by simp), List.dropLast_concat, Text.Utf8.decode_eq_ok_iff.2 rfl]

theorem exists_text_of_readCounter {bs : Bytes} {n : Int64} (h : readCounter bs = some n) :
    ∃ cs, bs = Text.Utf8.encode cs ++ [0] ∧ Text.int64? (Text.trim cs) = some n := by
  unfold readCounter at h
  split at h
  · next hlast =>
    obtain ⟨front, rfl⟩ := List.getLast?_eq_some_iff.1 hlast
    rw [List.dropLast_concat] at h
    cases hcs : Text.Utf8.decode front with
    | error fault =>
      rw [hcs] at h
      cases h
    | ok cs =>
      rw [hcs] at h
      exact ⟨cs, congrArg (· ++ [0]) (Text.Utf8.decode_eq_ok_iff.1 hcs), h⟩
  · cases h

/-- Where a number is stored, reading depends on its size alone. -/
theorem CounterText.readCounter_eq {bs : Bytes} {n : Int} (h : CounterText bs n) :
    readCounter bs = if Int64.minValue.toInt ≤ n ∧ n ≤ Int64.maxValue.toInt
      then some (Int64.ofInt n) else none := by
  obtain ⟨text, numeral, rfl, hpadded, hnumeral⟩ := h
  -- a numeral has no blanks in it, so that trimming leaves it whole
  rw [← Text.Utf8.encode_toList, readCounter_encode,
    hpadded.trim_eq hnumeral.ne_nil hnumeral.isBlank_eq_false, Text.int64?_of_numeral hnumeral]

theorem counterText_of_readCounter {bs : Bytes} {n : Int64} (h : readCounter bs = some n) :
    CounterText bs n.toInt := by
  obtain ⟨cs, rfl, hread⟩ := exists_text_of_readCounter h
  refine ⟨String.ofList cs, Text.trim cs, ?_, ?_, Text.numeral_of_int64? hread⟩
  · rw [← Text.Utf8.encode_toList, String.toList_ofList]
  · rw [String.toList_ofList]
    exact Text.padded_trim cs

/-- A number is read just where it is stored.  Nothing is read just where no number is stored that a
signed word of 64 bits holds. -/
theorem readCounter_exact (bs : Bytes) :
    (∀ n : Int64, readCounter bs = some n ↔ CounterText bs n.toInt)
      ∧ (readCounter bs = none
        ↔ ∀ n : Int, CounterText bs n → n < -0x8000000000000000 ∨ 0x7FFFFFFFFFFFFFFF < n) := by
  have hstored (n : Int64) (h : CounterText bs n.toInt) : readCounter bs = some n := by
    rw [h.readCounter_eq, if_pos ⟨Int64.minValue_le_toInt n, Int64.toInt_le n⟩, Int64.ofInt_toInt]
  refine ⟨fun n => ⟨counterText_of_readCounter, hstored n⟩, ?_⟩
  constructor
  · intro hnone n h
    rw [h.readCounter_eq] at hnone
    split at hnone
    · cases hnone
    · next hrange =>
      have hlow : Int64.minValue.toInt = -0x8000000000000000 := rfl
      have hhigh : Int64.maxValue.toInt = 0x7FFFFFFFFFFFFFFF := rfl
      omega
  · intro hall
    cases hread : readCounter bs with
    | none => rfl
    | some n =>
      have hlow : -0x8000000000000000 ≤ n.toInt := Int64.minValue_le_toInt n
      have hhigh : n.toInt ≤ 0x7FFFFFFFFFFFFFFF := Int64.toInt_le n
      have hfar := hall n.toInt (counterText_of_readCounter hread)
      omega

/-- The least number with leading zeros between other blanks than spaces, and its absolute value,
which is too large. -/
theorem readCounter_exact_least :
    let stored (numeral : String) : Bytes :=
      ("\u00a0" ++ numeral ++ "\u3000").toUTF8.data.toList ++ [0]
    readCounter (stored "-009223372036854775808") = some Int64.minValue
      ∧ CounterText (stored "-009223372036854775808") (-0x8000000000000000)
      ∧ readCounter (stored "+9223372036854775808") = none
      ∧ ∀ n, CounterText (stored "+9223372036854775808") n
        → n < -0x8000000000000000 ∨ 0x7FFFFFFFFFFFFFFF < n := by
  intro stored
  have hleast : readCounter (stored "-009223372036854775808") = some Int64.minValue := by
    decide +kernel
  have hlarge : readCounter (stored "+9223372036854775808") = none := by decide +kernel
  exact ⟨hleast, ((readCounter_exact _).1 Int64.minValue).1 hleast, hlarge,
    (readCounter_exact _).2.1 hlarge⟩

-- no digits, two signs, a blank or a NUL inside, no NUL at the end
example : ["", "\x00", "-\x00", "+-1\x00", "1 2\x00", "1\x00\x00", "1"].all fun text =>
    (readCounter text.toUTF8.data.toList).isNone := by
  decide +kernel

end TieredStore
