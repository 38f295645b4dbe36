import TieredStore.Wire.Reply

/-!
# The wire form of a reply

Every reply is read back from its encoding, whatever its code and payload are.  What is read as a
reply is any message that has room for the header (`Reply.decode_of_le`, `Reply.decode_of_lt`).
-/

namespace TieredStore.Reply

open Wire

theorem decode_encode (reply : Reply) : decode reply.encode = .ok reply := by
  have hsplit : Bytes.split? replyHeaderSize reply.encode
      = some (Bytes.bigEndian 4 reply.id.toNat ++ Bytes.bigEndian 4 reply.code.toNat,
        reply.payload) := by
    rw [Bytes.split?_eq_some_iff]
    exact ⟨rfl, by simp [replyHeaderSize]⟩
  have hid : reply.id.toNat % Bytes.words 4 = reply.id.toNat := Nat.mod_eq_of_lt reply.id.toNat_lt
  have hcode : reply.code.toNat % Bytes.words 4 = reply.code.toNat :=
    Nat.mod_eq_of_lt reply.code.toNat_lt
  rw [decode, hsplit]
  simp only [List.take_left' (Bytes.length_bigEndian ..),
    List.drop_left' (Bytes.length_bigEndian ..), Bytes.ofBigEndian_bigEndian, hid, hcode,
    UInt32.ofNat_toNat]

theorem decode_of_lt {bs : Bytes} (h : bs.length < replyHeaderSize) :
    decode bs = .error (.shortReply replyHeaderSize bs.length) := by
  rw [decode, Bytes.split?_eq_none_iff.2 h]

/-- The id is in the first four bytes. -/
theorem decode_of_le {bs : Bytes} (h : replyHeaderSize ≤ bs.length) :
    ∃ reply, decode bs = .ok reply ∧ reply.id = UInt32.ofNat (Bytes.ofBigEndian (bs.take 4)) := by
  have hlength : (bs.take replyHeaderSize).length = replyHeaderSize := List.length_take_of_le h
  have hsplit : Bytes.split? replyHeaderSize bs
      = some (bs.take replyHeaderSize, bs.drop replyHeaderSize) :=
    Bytes.split?_eq_some_iff.2 ⟨(List.take_append_drop ..).symm, hlength⟩
  have htake : (bs.take replyHeaderSize).take 4 = bs.take 4 := by
    rw [List.take_take]
    rfl
  rw [decode, hsplit]
  simp only [htake]
  exact ⟨_, rfl, rfl⟩

end TieredStore.Reply
