import TieredStore.Bytes.Word

/-!
# UTF-8

Characters as bytes.  A character is written as a lead byte and up to three continuation bytes.
Reading checks the ranges that make the form unique: no overlong form, no surrogate, nothing above
U+10FFFF.  Where it stops it tells where the readable text ends, and either how many bytes of the
next sequence could still have begun a character, or that the text ends inside one.
-/

namespace TieredStore.Text.Utf8

/-! ## Writing -/

def encodeChar (c : Char) : Bytes :=
  let n := c.toNat
  if n < 0x80 then
    [UInt8.ofNat n]
  else if n < 0x800 then
    [UInt8.ofNat (0xC0 + n / 0x40), UInt8.ofNat (0x80 + n % 0x40)]
  else if n < 0x10000 then
    [UInt8.ofNat (0xE0 + n / 0x1000), UInt8.ofNat (0x80 + n / 0x40 % 0x40),
      UInt8.ofNat (0x80 + n % 0x40)]
  else
    [UInt8.ofNat (0xF0 + n / 0x40000), UInt8.ofNat (0x80 + n / 0x1000 % 0x40),
      UInt8.ofNat (0x80 + n / 0x40 % 0x40), UInt8.ofNat (0x80 + n % 0x40)]

def encode (cs : List Char) : Bytes :=
  cs.flatMap encodeChar

/-! ## Reading -/

inductive Flaw where
  /-- After this many bytes no character can follow (at least one is counted). -/
  | invalid (length : Nat)
  /-- The bytes end inside a character. -/
  | incomplete
  deriving DecidableEq, Repr

/-- What a lead byte announces: the bits that it carries, the number of continuation bytes, and the
range of the first of them. -/
structure Lead where
  bits : Nat
  tail : Nat
  lo : Nat
  hi : Nat
  deriving DecidableEq, Repr

/-- The lead bytes of characters above U+007F.  `C0`, `C1` and `F5` to `FF` begin none. -/
def Lead.ofByte? (b : Nat) : Option Lead :=
  if 0xC2 ≤ b ∧ b ≤ 0xDF then some ⟨b - 0xC0, 1, 0x80, 0xBF⟩
  else if b = 0xE0 then some ⟨0, 2, 0xA0, 0xBF⟩
  else if b = 0xED then some ⟨0xD, 2, 0x80, 0x9F⟩
  else if 0xE1 ≤ b ∧ b ≤ 0xEF then some ⟨b - 0xE0, 2, 0x80, 0xBF⟩
  else if b = 0xF0 then some ⟨0, 3, 0x90, 0xBF⟩
  else if 0xF1 ≤ b ∧ b ≤ 0xF3 then some ⟨b - 0xF0, 3, 0x80, 0xBF⟩
  else if b = 0xF4 then some ⟨4, 3, 0x80, 0x8F⟩
  else none

/-- Adds the six bits of each continuation byte; `seen` bytes of the character came before. -/
def readTail : (tail : Nat) → (lo hi seen bits : Nat) → Bytes → Except Flaw (Nat × Bytes)
  | 0, _, _, _, bits, bs => .ok (bits, bs)
  | _ + 1, _, _, _, _, [] => .error .incomplete
  | tail + 1, lo, hi, seen, bits, b :: bs =>
    if lo ≤ b.toNat ∧ b.toNat ≤ hi then
      readTail tail 0x80 0xBF (seen + 1) (bits * 0x40 + (b.toNat - 0x80)) bs
    else
      .error (.invalid seen)

/-- The first character of a non-empty text, and the bytes after it. -/
def decodeChar (b : UInt8) (bs : Bytes) : Except Flaw (Char × Bytes) :=
  if b.toNat < 0x80 then
    .ok (Char.ofNat b.toNat, bs)
  else
    match Lead.ofByte? b.toNat with
    | none => .error (.invalid 1)
    | some lead =>
      match readTail lead.tail lead.lo lead.hi 1 lead.bits bs with
      | .error flaw => .error flaw
      | .ok (n, rest) => .ok (Char.ofNat n, rest)

/-- Where and why bytes stop being text. -/
structure Fault where
  /-- Length of the longest readable beginning. -/
  validUpTo : Nat
  flaw : Flaw
  deriving DecidableEq, Repr

/-- Reads text from its byte number `start` on.  The first `skip` bytes belong to a character that
was read before and are passed over. -/
def decodeFrom : (start skip : Nat) → Bytes → Except Fault (List Char)
  | _, _, [] => .ok []
  | start, skip + 1, _ :: bs => decodeFrom start skip bs
  | start, 0, b :: bs =>
    match decodeChar b bs with
    | .error flaw => .error ⟨start, flaw⟩
    | .ok (c, _) =>
      match decodeFrom (start + c.utf8Size) (c.utf8Size - 1) bs with
      | .error fault => .error fault
      | .ok cs => .ok (c :: cs)

def decode (bs : Bytes) : Except Fault (List Char) :=
  decodeFrom 0 0 bs

def Fault.message (fault : Fault) : String :=
  match fault.flaw with
  | .invalid length =>
    s!"invalid utf-8 sequence of {length} bytes from index {fault.validUpTo}"
  | .incomplete => s!"incomplete utf-8 byte sequence from index {fault.validUpTo}"

end TieredStore.Text.Utf8
