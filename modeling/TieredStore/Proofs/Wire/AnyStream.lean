import TieredStore.Proofs.Wire.CutStream

/-!
# Frames on any stream

Nothing is known of the bytes here; they may come from anyone.  A message is read where a frame
begins and nowhere else, the stream is left behind what was read, and in however many pieces it
arrives, reading again and again comes to its end (`readFrame_exact`).
-/

namespace TieredStore.Wire

/-- The bytes are a frame of this message, which the reader accepts, and the rest. -/
def BeginsWithFrame (max : Nat) (bytes message rest : Bytes) : Prop :=
  bytes = Bytes.bigEndian 4 (message.length + 4) ++ message ++ rest
    ∧ message.length ≤ max ∧ message.length + 4 < 0x100000000

/-- The number in the first four bytes is less than their own number, or announces a message that is
too long for the reader. -/
def BeginsWithBadLength (max : Nat) (bytes : Bytes) : Prop :=
  4 ≤ bytes.length
    ∧ (Bytes.ofBigEndian (bytes.take 4) < 4 ∨ max < Bytes.ofBigEndian (bytes.take 4) - 4)

theorem beginsWithFrame_iff {max : Nat} {bytes message rest : Bytes} :
    BeginsWithFrame max bytes message rest
      ↔ FitsFrame max message ∧ bytes = frame message ++ rest := by
  have hlength : message.length + 4 < 0x100000000 ↔ message.length < 0x100000000 - 4 := by
    omega
  unfold BeginsWithFrame FitsFrame frame lengthSize
  rw [Nat.add_comm 4, hlength]
  constructor
  · intro ⟨hbytes, hmax, hlt⟩
    exact ⟨⟨hmax, hlt⟩, hbytes⟩
  · intro ⟨⟨hmax, hlt⟩, hbytes⟩
    exact ⟨hbytes, hmax, hlt⟩

theorem exists_messageLength_eq_error_iff {max total : Nat} :
    (∃ fault, messageLength max total = .error fault) ↔ total < 4 ∨ max < total - 4 := by
  unfold messageLength lengthSize
  by_cases hshort : total < 4
  · simp [hshort]
  · by_cases hlong : max < total - 4
    · simp [hshort, hlong]
    · simp [hshort, hlong]

/-! ## One read -/

section OneRead

variable (max : Nat) (inflow : Inflow)

theorem readFrame_eq_ok_iff (message rest : Bytes) :
    (readFrame max inflow).1 = .ok message ∧ (readFrame max inflow).2.bytes = rest
      ↔ BeginsWithFrame max inflow.bytes message rest := by
  rw [beginsWithFrame_iff]
  constructor
  · rintro ⟨hmessage, rfl⟩
    exact bytes_of_readFrame (Prod.ext hmessage rfl)
  · intro ⟨hfits, hbytes⟩
    obtain ⟨next, hread, hrest, -⟩ := readFrame_whole hfits hbytes
    rw [hread]
    exact ⟨rfl, hrest⟩

theorem readFrame_of_badLength {max : Nat} {inflow : Inflow}
    (h : BeginsWithBadLength max inflow.bytes) :
    ∃ fault next, readFrame max inflow = (.error (.protocol fault), next)
      ∧ next.bytes = inflow.bytes.drop 4 := by
  obtain ⟨hlength, hannounced⟩ := h
  obtain ⟨fault, hfault⟩ := exists_messageLength_eq_error_iff.2 hannounced
  have hsize : (inflow.bytes.take 4).length = lengthSize := by
    rw [List.length_take]
    exact Nat.min_eq_left hlength
  obtain ⟨next, hread, hrest, -⟩ :=
    readFrame_refused hsize hfault (List.take_append_drop 4 inflow.bytes).symm
  exact ⟨fault, next, hread, hrest⟩

theorem readFrame_eq_protocol_iff :
    (∃ fault, (readFrame max inflow).1 = .error (.protocol fault))
      ↔ BeginsWithBadLength max inflow.bytes := by
  constructor
  · intro ⟨fault, hfault⟩
    have hread := frameRead max inflow
    generalize readFrame max inflow = outcome at hread hfault
    cases hread with
    | whole hfits hbytes hstop => cases hfault
    | @refused total announced next hsize hannounced hbytes hstop =>
      -- what was refused are the first four bytes of the stream
      have hsize : total.length = 4 := hsize
      have htotal : inflow.bytes.take 4 = total := by
        rw [hbytes, ← hsize, List.take_left]
      refine ⟨?_, ?_⟩
      · rw [hbytes, List.length_append]
        omega
      · rw [htotal]
        exact exists_messageLength_eq_error_iff.1 ⟨announced, hannounced⟩
    | brokenOff => cases hfault
  · intro h
    obtain ⟨fault, next, hread, -⟩ := readFrame_of_badLength h
    rw [hread]
    exact ⟨fault, rfl⟩

/-- All other streams break off. -/
theorem readFrame_eq_io_iff :
    readFrame max inflow = (.error (.io inflow.stop), ⟨[], inflow.stop⟩)
      ↔ (∀ message rest, ¬BeginsWithFrame max inflow.bytes message rest)
        ∧ ¬BeginsWithBadLength max inflow.bytes := by
  constructor
  · intro h
    refine ⟨?_, ?_⟩
    · intro message rest hbegins
      obtain ⟨hmessage, -⟩ := (readFrame_eq_ok_iff max inflow message rest).2 hbegins
      rw [h] at hmessage
      cases hmessage
    · intro hbad
      obtain ⟨fault, hfault⟩ := (readFrame_eq_protocol_iff max inflow).2 hbad
      rw [h] at hfault
      cases hfault
  · intro ⟨hnone, hgood⟩
    have hread := frameRead max inflow
    generalize houtcome : readFrame max inflow = outcome at hread
    cases hread with
    | whole hfits hbytes hstop => exact absurd (beginsWithFrame_iff.2 ⟨hfits, hbytes⟩) (hnone _ _)
    | refused hsize hfault hbytes hstop =>
      exact absurd ((readFrame_eq_protocol_iff max inflow).1 ⟨_, congrArg Prod.fst houtcome⟩)
        hgood
    | brokenOff => rfl

/-- Only the bytes in a row matter. -/
theorem readFrame_congr {inflow other : Inflow} (hbytes : other.bytes = inflow.bytes)
    (hstop : other.stop = inflow.stop) :
    (readFrame max other).map id Inflow.bytes = (readFrame max inflow).map id Inflow.bytes := by
  have hread := frameRead max inflow
  generalize houtcome : readFrame max inflow = outcome at hread
  cases hread with
  | whole hfits hwhole _ =>
    obtain ⟨next, hother, hrest, -⟩ := readFrame_whole hfits (hbytes.trans hwhole)
    rw [hother]
    exact Prod.ext rfl hrest
  | refused hsize hfault hrefused _ =>
    obtain ⟨next, hother, hrest, -⟩ := readFrame_refused hsize hfault (hbytes.trans hrefused)
    rw [hother]
    exact Prod.ext rfl hrest
  | brokenOff =>
    -- a stream breaks off for what its bytes are
    have hother : readFrame max other = (.error (.io other.stop), ⟨[], other.stop⟩) := by
      rw [readFrame_eq_io_iff, hbytes]
      exact (readFrame_eq_io_iff max inflow).1 houtcome
    rw [hother, hstop]

/-- Reading goes on only behind four bytes at least. -/
theorem length_of_readFrame {max : Nat} {inflow next : Inflow} {result : Except Error Bytes}
    (h : readFrame max inflow = (result, next)) (hnext : ∀ error, result ≠ .error (.io error)) :
    next.bytes.length + 4 ≤ inflow.bytes.length ∧ next.stop = inflow.stop := by
  have hread := frameRead max inflow
  rw [h] at hread
  cases hread with
  | whole hfits hbytes hstop =>
    refine ⟨?_, hstop⟩
    rw [hbytes, frame, List.length_append, List.length_append, Bytes.length_bigEndian]
    unfold lengthSize
    omega
  | refused hsize hfault hbytes hstop =>
    refine ⟨?_, hstop⟩
    rw [hbytes, List.length_append, hsize]
    unfold lengthSize
    omega
  | brokenOff => exact absurd rfl (hnext _)

end OneRead

/-! ## Reading to the end -/

/-- Each read that is not the last takes four bytes at least, which bounds their number. -/
theorem readRepeatedly_ends (max : Nat) (inflow : Inflow) :
    ∃ results, results.length ≤ inflow.bytes.length / 4
      ∧ (∀ result ∈ results, ∀ error, result ≠ .error (.io error))
      ∧ ∀ limit, readRepeatedly (readFrame max) (results.length + 1 + limit) inflow
        = (results ++ [.error (.io inflow.stop)], ⟨[], inflow.stop⟩) := by
  -- on the number of bytes that are left
  induction hlength : inflow.bytes.length using Nat.strongRecOn generalizing inflow with
  | ind length ih =>
    subst hlength
    rcases hread : readFrame max inflow with ⟨result, next⟩
    by_cases hlast : ∃ error, result = .error (.io error)
    · obtain ⟨error, rfl⟩ := hlast
      refine ⟨[], Nat.zero_le _, nofun, ?_⟩
      intro limit
      have hbroken : readFrame max inflow = (.error (.io inflow.stop), ⟨[], inflow.stop⟩) := by
        have hcases := frameRead max inflow
        rw [hread] at hcases ⊢
        cases hcases with
        | brokenOff => rfl
      rw [List.length_nil, Nat.zero_add, Nat.add_comm, readRepeatedly_error hbroken]
      rfl
    · have hnext : ∀ error, result ≠ .error (.io error) := by
        intro error heq
        exact hlast ⟨error, heq⟩
      -- the rest is shorter by four bytes, so one read less is allowed for it
      obtain ⟨hshorter, hstop⟩ := length_of_readFrame hread hnext
      obtain ⟨results, hcount, hresults, hreads⟩ := ih next.bytes.length (by omega) next rfl
      refine ⟨result :: results, ?_, ?_, ?_⟩
      · rw [List.length_cons]
        omega
      · exact List.forall_mem_cons.2 ⟨hnext, hresults⟩
      · intro limit
        have hlimit : (result :: results).length + 1 + limit = results.length + 1 + limit + 1 := by
          rw [List.length_cons]
          omega
        rw [hlimit, readRepeatedly_next hread hnext, hreads, hstop]
        rfl

/-- A read gives a message exactly where the bytes are its frame and the rest, which is left.  A bad
length is refused, and no other stream is, with its four bytes taken; all that remains meets the end
of the stream, with nothing left.  The pieces in which the bytes arrive make no difference.  Reading
again and again meets the end of the stream after one read for every four bytes at most. -/
theorem readFrame_exact (max : Nat) (pieces : List Bytes) :
    let outcome := readFrame max ⟨pieces, .endOfStream⟩
    (∀ message rest, outcome.1 = .ok message ∧ outcome.2.bytes = rest
        ↔ BeginsWithFrame max pieces.flatten message rest)
      ∧ ((∃ fault, outcome.1 = .error (.protocol fault))
        ↔ BeginsWithBadLength max pieces.flatten)
      ∧ (BeginsWithBadLength max pieces.flatten → outcome.2.bytes = pieces.flatten.drop 4)
      ∧ (outcome = (.error (.io .endOfStream), ⟨[], .endOfStream⟩)
        ↔ (∀ message rest, ¬BeginsWithFrame max pieces.flatten message rest)
          ∧ ¬BeginsWithBadLength max pieces.flatten)
      ∧ (∀ others : List Bytes, others.flatten = pieces.flatten →
        (readFrame max ⟨others, .endOfStream⟩).1 = outcome.1
          ∧ (readFrame max ⟨others, .endOfStream⟩).2.bytes = outcome.2.bytes)
      ∧ ∃ results, results.length ≤ pieces.flatten.length / 4
        ∧ (∀ result ∈ results, ∀ error, result ≠ .error (.io error))
        ∧ ∀ limit,
          readRepeatedly (readFrame max) (results.length + 1 + limit) ⟨pieces, .endOfStream⟩
            = (results ++ [.error (.io .endOfStream)], ⟨[], .endOfStream⟩) := by
  intro outcome
  refine ⟨readFrame_eq_ok_iff max ⟨pieces, .endOfStream⟩,
    readFrame_eq_protocol_iff max ⟨pieces, .endOfStream⟩, ?_,
    readFrame_eq_io_iff max ⟨pieces, .endOfStream⟩, ?_,
    readRepeatedly_ends max ⟨pieces, .endOfStream⟩⟩
  · intro hbad
    obtain ⟨fault, next, hread, hrest⟩ : ∃ fault next,
        outcome = (.error (.protocol fault), next) ∧ next.bytes = pieces.flatten.drop 4 :=
      readFrame_of_badLength hbad
    rw [hread]
    exact hrest
  · intro others hothers
    have hsame : (readFrame max ⟨others, .endOfStream⟩).map id Inflow.bytes
        = outcome.map id Inflow.bytes := readFrame_congr max hothers rfl
    exact Prod.mk.inj hsame

/-- A frame, a length that does not count itself, and a single byte, none of them in a piece of its
own. -/
theorem readFrame_exact_three_reads :
    (readFrame 2 ⟨[[0, 0], [0, 5, 7, 0], [0, 0, 3, 9]], .endOfStream⟩).1 = .ok [7]
      ∧ (∃ fault, (readFrame 2 ⟨[[0], [0, 0, 3, 9]], .endOfStream⟩).1 = .error (.protocol fault))
      ∧ (readFrame 2 ⟨[[0], [0, 0, 3, 9]], .endOfStream⟩).2.bytes = [9]
      ∧ readFrame 2 ⟨[[], [9]], .endOfStream⟩
        = (.error (.io .endOfStream), ⟨[], .endOfStream⟩) := by
  have hbad : BeginsWithBadLength 2 [0, 0, 0, 3, 9] := by
    unfold BeginsWithBadLength
    decide
  obtain ⟨hmessage, -⟩ := readFrame_exact 2 [[0, 0], [0, 5, 7, 0], [0, 0, 3, 9]]
  obtain ⟨-, hrefused, hrest, -⟩ := readFrame_exact 2 [[0], [0, 0, 3, 9]]
  obtain ⟨-, -, -, hbroken, -⟩ := readFrame_exact 2 [[], [9]]
  refine ⟨((hmessage [7] [0, 0, 0, 3, 9]).2 ⟨by decide, by decide, by decide⟩).1, hrefused.2 hbad,
    hrest hbad, hbroken.2 ⟨?_, ?_⟩⟩
  · -- a frame has four bytes at least
    intro message rest hbegins
    have hlength := congrArg List.length hbegins.1
    rw [List.append_assoc, List.length_append, Bytes.length_bigEndian] at hlength
    have hone : [[], [(9 : UInt8)]].flatten.length = 1 := rfl
    omega
  · intro hbad
    exact absurd hbad.1 (by decide)

end TieredStore.Wire
