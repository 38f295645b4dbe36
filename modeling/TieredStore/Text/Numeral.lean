/-!
# Numerals

Whole numbers as text.  A numeral that is read has one optional sign and at least one decimal
digit, leading zeros allowed; the one that is written has a sign only when negative and no leading
zero, so writing and reading it back gives the number (`integer?_decimal`).
-/

namespace TieredStore.Text

/-- The number that one or more decimal digits spell. -/
def natural? (cs : List Char) : Option Nat :=
  if cs ≠ [] ∧ cs.all Char.isDigit then some (Nat.ofDigitChars 10 cs 0) else none

/-- The number that digits spell after at most one sign. -/
def integer? : List Char → Option Int
  | '+' :: cs => (natural? cs).map Int.ofNat
  | '-' :: cs => (natural? cs).map fun n => -Int.ofNat n
  | cs => (natural? cs).map Int.ofNat

/-- The numeral's value, if a signed word of 64 bits holds it. -/
def int64? (cs : List Char) : Option Int64 :=
  (integer? cs).bind fun n =>
    if Int64.minValue.toInt ≤ n ∧ n ≤ Int64.maxValue.toInt then some (Int64.ofInt n) else none

/-- The decimal digits of a number, after a sign if it is negative. -/
def decimal : Int → List Char
  | .ofNat n => Nat.toDigits 10 n
  | .negSucc n => '-' :: Nat.toDigits 10 (n + 1)

/-- A number in hexadecimal, lower case, without a mark. -/
def hexadecimal (n : Nat) : String :=
  String.ofList (Nat.toDigits 16 n)

theorem natural?_toDigits (n : Nat) : natural? (Nat.toDigits 10 n) = some n := by
  have hdigit : (Nat.toDigits 10 n).all Char.isDigit = true := by
    rw [List.all_eq_true]
    exact fun c hc => Nat.isDigit_of_mem_toDigits (by decide) (by decide) hc
  rw [natural?, if_pos ⟨Nat.toDigits_ne_nil, hdigit⟩, Nat.ofDigitChars_ten_toDigits]

/-- A first character that is no sign is read as a digit. -/
theorem integer?_of_isDigit {c : Char} {cs : List Char} (h : c.isDigit = true) :
    integer? (c :: cs) = (natural? (c :: cs)).map Int.ofNat := by
  unfold integer?
  split
  · simp_all
  · simp_all
  · rfl

theorem integer?_decimal (n : Int) : integer? (decimal n) = some n := by
  cases n with
  | ofNat n =>
    have hread := natural?_toDigits n
    cases hd : Nat.toDigits 10 n with
    | nil => exact absurd hd Nat.toDigits_ne_nil
    | cons c cs =>
      have hc : c.isDigit = true :=
        Nat.isDigit_of_mem_toDigits (b := 10) (n := n) (by decide) (by decide) (by simp [hd])
      rw [decimal, hd, integer?_of_isDigit hc, ← hd, hread]
      rfl
  | negSucc n =>
    rw [decimal, integer?, natural?_toDigits]
    rfl

theorem int64?_decimal (n : Int64) : int64? (decimal n.toInt) = some n := by
  rw [int64?, integer?_decimal, Option.bind_some,
    if_pos ⟨Int64.minValue_le_toInt n, Int64.toInt_le n⟩, Int64.ofInt_toInt]

end TieredStore.Text
