import TieredStore.Wire.Frame

/-!
# One frame

What one read does to a stream, whatever bytes are on it: a whole frame gives its message, a length
that cannot be is refused after its four bytes, and everything else breaks off at the end of the
stream (`frameRead`).
-/

namespace TieredStore.Wire

/-- A message that a reader of this limit accepts and whose length four bytes hold. -/
def FitsFrame (max : Nat) (message : Bytes) : Prop :=
  message.length ≤ max ∧ message.length < 0x100000000 - 4

instance (max : Nat) (message : Bytes) : Decidable (FitsFrame max message) :=
  inferInstanceAs (Decidable (_ ∧ _))

/-! ## Taking bytes -/

theorem Inflow.exists_take {inflow : Inflow} {front rest : Bytes}
    (h : inflow.bytes = front ++ rest) : ∃ next, inflow.take front.length = (.ok front, next)
      ∧ next.bytes = rest ∧ next.stop = inflow.stop := by
  have hsplit : Bytes.split? front.length inflow.bytes = some (front, rest) := by
    rw [h, Bytes.split?_append]
  obtain ⟨hfront, hrest, hstop⟩ := Inflow.take_of_split?_eq_some hsplit
  exact ⟨(inflow.take front.length).2, Prod.ext hfront rfl, hrest, hstop⟩

theorem Inflow.take_short {inflow : Inflow} {n : Nat} (h : inflow.bytes.length < n) :
    inflow.take n = (.error inflow.stop, ⟨[], inflow.stop⟩) :=
  Inflow.take_of_split?_eq_none (Bytes.split?_eq_none_iff.2 h)

theorem Inflow.eq_of_take {inflow next : Inflow} {n : Nat} {front : Bytes}
    (h : inflow.take n = (.ok front, next)) :
    inflow.bytes = front ++ next.bytes ∧ front.length = n ∧ next.stop = inflow.stop := by
  cases hsplit : Bytes.split? n inflow.bytes with
  | none =>
    rw [Inflow.take_of_split?_eq_none hsplit] at h
    cases h
  | some parts =>
    obtain ⟨hfront, hrest, hstop⟩ := Inflow.take_of_split?_eq_some hsplit
    rw [h] at hfront hrest hstop
    cases hfront
    obtain ⟨hbytes, hlength⟩ := Bytes.split?_eq_some_iff.1 hsplit
    rw [← hrest] at hbytes
    exact ⟨hbytes, hlength, hstop⟩

theorem Inflow.eq_of_take_error {inflow next : Inflow} {n : Nat} {error : IoError}
    (h : inflow.take n = (.error error, next)) :
    error = inflow.stop ∧ next = ⟨[], inflow.stop⟩ := by
  cases hsplit : Bytes.split? n inflow.bytes with
  | none =>
    rw [Inflow.take_of_split?_eq_none hsplit] at h
    cases h
    exact ⟨rfl, rfl⟩
  | some parts =>
    obtain ⟨hfront, -⟩ := Inflow.take_of_split?_eq_some hsplit
    rw [h] at hfront
    cases hfront

/-! ## Reading a frame -/

theorem messageLength_frame {max : Nat} {message : Bytes} (h : FitsFrame max message) :
    messageLength max (Bytes.ofBigEndian (Bytes.bigEndian lengthSize (lengthSize + message.length)))
      = .ok message.length := by
  have hlt : lengthSize + message.length < Bytes.words lengthSize := by
    have hwords : Bytes.words lengthSize = 0x100000000 := rfl
    have hfits := h.2
    unfold lengthSize at *
    omega
  rw [Bytes.ofBigEndian_bigEndian, Nat.mod_eq_of_lt hlt, messageLength, if_neg (by omega),
    Nat.add_sub_cancel_left, if_neg (Nat.not_lt.2 h.1)]

theorem readFrame_whole {max : Nat} {message rest : Bytes} {inflow : Inflow}
    (hfits : FitsFrame max message) (h : inflow.bytes = frame message ++ rest) :
    ∃ next, readFrame max inflow = (.ok message, next)
      ∧ next.bytes = rest ∧ next.stop = inflow.stop := by
  rw [frame, List.append_assoc] at h
  -- the length comes first, then as many bytes as it tells
  obtain ⟨mid, htotal, hmid, hstop⟩ := Inflow.exists_take h
  obtain ⟨next, hmessage, hrest, hstop'⟩ := Inflow.exists_take hmid
  rw [Bytes.length_bigEndian] at htotal
  refine ⟨next, ?_, hrest, hstop'.trans hstop⟩
  rw [readFrame, htotal]
  simp only [messageLength_frame hfits, hmessage]
  rfl

theorem readFrame_torn {max cut : Nat} {message : Bytes} {inflow : Inflow}
    (hfits : FitsFrame max message) (hcut : cut < (frame message).length)
    (h : inflow.bytes = (frame message).take cut) :
    readFrame max inflow = (.error (.io inflow.stop), ⟨[], inflow.stop⟩) := by
  have hlength : (frame message).length = lengthSize + message.length := by simp [frame]
  by_cases hshort : cut < lengthSize
  · -- the cut goes through the length
    have htake : inflow.bytes.length < lengthSize := by
      rw [h, List.length_take]
      omega
    rw [readFrame, Inflow.take_short htake]
  · -- the cut goes through the message, so its length is read
    have hbytes : inflow.bytes = Bytes.bigEndian lengthSize (lengthSize + message.length)
        ++ message.take (cut - lengthSize) := by
      rw [h, frame, List.take_append, List.take_of_length_le, Bytes.length_bigEndian]
      rw [Bytes.length_bigEndian]
      omega
    obtain ⟨mid, htotal, hmid, hstop⟩ := Inflow.exists_take hbytes
    rw [Bytes.length_bigEndian] at htotal
    have htake : mid.bytes.length < message.length := by
      rw [hmid, List.length_take]
      omega
    rw [readFrame, htotal]
    simp only [messageLength_frame hfits, Inflow.take_short htake, hstop]
    rfl

theorem readFrame_end {max : Nat} {inflow : Inflow} (h : inflow.bytes = []) :
    readFrame max inflow = (.error (.io inflow.stop), ⟨[], inflow.stop⟩) := by
  have hshort : inflow.bytes.length < lengthSize := by
    rw [h]
    decide
  rw [readFrame, Inflow.take_short hshort]

theorem readFrame_refused {max : Nat} {total rest : Bytes} {fault : Fault} {inflow : Inflow}
    (hsize : total.length = lengthSize)
    (hfault : messageLength max (Bytes.ofBigEndian total) = .error fault)
    (h : inflow.bytes = total ++ rest) :
    ∃ next, readFrame max inflow = (.error (.protocol fault), next)
      ∧ next.bytes = rest ∧ next.stop = inflow.stop := by
  obtain ⟨next, htotal, hrest, hstop⟩ := Inflow.exists_take h
  rw [hsize] at htotal
  refine ⟨next, ?_, hrest, hstop⟩
  rw [readFrame, htotal]
  simp only [hfault]

/-! ## What was read -/

theorem messageLength_eq_ok {max total length : Nat} (h : messageLength max total = .ok length) :
    total = lengthSize + length ∧ length ≤ max := by
  unfold messageLength at h
  split at h
  · cases h
  · split at h
    · cases h
    · cases h
      omega

/-- A message of the length that was announced for it makes a frame with what announced it. -/
theorem frame_of_messageLength {max : Nat} {total message : Bytes}
    (hsize : total.length = lengthSize)
    (h : messageLength max (Bytes.ofBigEndian total) = .ok message.length) :
    FitsFrame max message ∧ frame message = total ++ message := by
  obtain ⟨htold, hmax⟩ := messageLength_eq_ok h
  have hlt := Bytes.ofBigEndian_lt total
  rw [hsize] at hlt
  have hwords : Bytes.words lengthSize = 0x100000000 := rfl
  refine ⟨⟨hmax, ?_⟩, ?_⟩
  · unfold lengthSize at *
    omega
  · rw [frame, ← htold, ← hsize, Bytes.bigEndian_ofBigEndian]

/-- What one read of a frame can give, and where it leaves the stream. -/
inductive FrameRead (max : Nat) (inflow : Inflow) : Except Error Bytes × Inflow → Prop
  | whole {message : Bytes} {next : Inflow} (hfits : FitsFrame max message)
      (hbytes : inflow.bytes = frame message ++ next.bytes) (hstop : next.stop = inflow.stop) :
    FrameRead max inflow (.ok message, next)
  /-- The length cannot be; the stream is left behind it. -/
  | refused {total : Bytes} {fault : Fault} {next : Inflow} (hsize : total.length = lengthSize)
      (hfault : messageLength max (Bytes.ofBigEndian total) = .error fault)
      (hbytes : inflow.bytes = total ++ next.bytes) (hstop : next.stop = inflow.stop) :
    FrameRead max inflow (.error (.protocol fault), next)
  /-- The stream ends in the length or in the message. -/
  | brokenOff : FrameRead max inflow (.error (.io inflow.stop), ⟨[], inflow.stop⟩)

theorem frameRead (max : Nat) (inflow : Inflow) : FrameRead max inflow (readFrame max inflow) := by
  unfold readFrame
  rcases htotal : inflow.take lengthSize with ⟨error | total, mid⟩
  · obtain ⟨rfl, rfl⟩ := Inflow.eq_of_take_error htotal
    exact .brokenOff
  · obtain ⟨hbytes, hsize, hstop⟩ := Inflow.eq_of_take htotal
    cases hannounced : messageLength max (Bytes.ofBigEndian total) with
    | error fault =>
      simp only [hannounced]
      exact .refused hsize hannounced hbytes hstop
    | ok length =>
      simp only [hannounced]
      rcases hmessage : mid.take length with ⟨error | message, next⟩
      · -- too little was there, and it is taken all the same
        obtain ⟨rfl, rfl⟩ := Inflow.eq_of_take_error hmessage
        rw [hstop]
        exact .brokenOff
      · obtain ⟨hrest, rfl, hstop'⟩ := Inflow.eq_of_take hmessage
        obtain ⟨hfits, hframe⟩ := frame_of_messageLength hsize hannounced
        apply FrameRead.whole hfits
        · rw [hframe, hbytes, hrest, List.append_assoc]
          rfl
        · exact hstop'.trans hstop

/-- What is read as a message was a whole frame, and the stream is left behind it. -/
theorem bytes_of_readFrame {max : Nat} {inflow next : Inflow} {message : Bytes}
    (h : readFrame max inflow = (.ok message, next)) :
    FitsFrame max message ∧ inflow.bytes = frame message ++ next.bytes := by
  have hread := frameRead max inflow
  rw [h] at hread
  cases hread with
  | whole hfits hbytes hstop => exact ⟨hfits, hbytes⟩

/-- What is read as a reply was one in a whole frame. -/
theorem bytes_of_readReply {max : Nat} {inflow next : Inflow} {reply : Reply}
    (h : readReply max inflow = (.ok reply, next)) :
    ∃ message, FitsFrame max message ∧ inflow.bytes = frame message ++ next.bytes
      ∧ Reply.decode message = .ok reply := by
  unfold readReply at h
  rcases hread : readFrame max inflow with ⟨_ | message, later⟩
  · rw [hread] at h
    cases h
  · rw [hread] at h
    obtain ⟨hfits, hbytes⟩ := bytes_of_readFrame hread
    obtain ⟨hresult, hnext⟩ := Prod.mk.inj h
    refine ⟨message, hfits, hnext ▸ hbytes, ?_⟩
    cases hdecode : Reply.decode message with
    | error fault =>
      simp only [Except.bind, hdecode] at hresult
      cases hresult
    | ok found =>
      simp only [Except.bind, hdecode] at hresult
      cases hresult
      rfl

end TieredStore.Wire
