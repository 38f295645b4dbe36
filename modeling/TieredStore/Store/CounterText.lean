import TieredStore.Text.Blank
import TieredStore.Text.Numeral
import TieredStore.Text.Utf8.Lemmas

/-!
# Stored counters

A counter is stored as its decimal numeral with a NUL after it.  Reading allows blanks around the
numeral, a plus sign and leading zeros, so it reads more than is written, and what is written among
it (`readCounter_writeCounter`).
-/

namespace TieredStore

def readCounter (bs : Bytes) : Option Int64 :=
  if bs.getLast? = some 0 then
    match Text.Utf8.decode bs.dropLast with
    | .ok cs => Text.int64? (Text.trim cs)
    | .error _ => none
  else
    none

def writeCounter (n : Int64) : Bytes :=
  Text.Utf8.encode (Text.decimal n.toInt) ++ [0]

theorem isBlank_of_mem_decimal {n : Int} {c : Char} (h : c ∈ Text.decimal n) :
    Text.isBlank c = false := by
  cases n with
  | ofNat n => exact Text.isBlank_of_isDigit (Nat.isDigit_of_mem_toDigits (by decide) (by decide) h)
  | negSucc n =>
    rcases List.mem_cons.1 h with rfl | h
    · rfl
    · exact Text.isBlank_of_isDigit (Nat.isDigit_of_mem_toDigits (by decide) (by decide) h)

/-- Every number is read back, the least one too. -/
theorem readCounter_writeCounter (n : Int64) : readCounter (writeCounter n) = some n := by
  rw [readCounter, writeCounter, if_pos (by simp), List.dropLast_concat,
    Text.Utf8.decode_eq_ok_iff.2 rfl]
  simp only
  rw [Text.trim_eq_self fun c hc => isBlank_of_mem_decimal hc, Text.int64?_decimal]

end TieredStore
