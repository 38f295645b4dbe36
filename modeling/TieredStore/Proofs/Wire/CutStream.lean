import TieredStore.Proofs.Wire.OneFrame
import TieredStore.Proofs.Wire.ReplyForm
import TieredStore.Proofs.Wire.RequestForm

/-!
# Frames on a stream that breaks off

Values are written to a stream as frames, one after another, and the stream is cut at any byte.
Whatever pieces the rest of it arrives in, reading gives the values whose frames lie before the cut,
in their order, and then finds the end of the stream.  A frame that the cut goes through gives
nothing at all.

What carries over from one frame, whole or torn (`readFrame_whole`, `readFrame_torn`), to a whole
stream is stated for any kind of value that is read out of frames (`readAs`).
-/

namespace TieredStore.Wire

/-! ## Values in frames -/

variable {α : Type}

/-- Reads a frame and the value in it. -/
def readAs (decode : Bytes → Except Error α) (max : Nat) (inflow : Inflow) :
    Except Error α × Inflow :=
  (readFrame max inflow).map (·.bind decode) id

theorem readFrame_eq_readAs (max : Nat) : readFrame max = readAs .ok max := by
  funext inflow
  unfold readAs
  rcases readFrame max inflow with ⟨result, next⟩
  cases result <;> rfl

theorem readRequest_eq_readAs (max : Nat) :
    readRequest max = readAs (fun message => (Request.decode message).mapError .protocol) max := rfl

theorem readReply_eq_readAs (max : Nat) :
    readReply max = readAs (fun message => (Reply.decode message).mapError .protocol) max := rfl

/-- The frames of some values, one after another. -/
def frames (encode : α → Bytes) (values : List α) : Bytes :=
  values.flatMap fun a => frame (encode a)

theorem frames_cons (encode : α → Bytes) (a : α) (values : List α) :
    frames encode (a :: values) = frame (encode a) ++ frames encode values := rfl

theorem frames_singleton (encode : α → Bytes) (a : α) :
    frames encode [a] = frame (encode a) :=
  List.append_nil _

theorem readRepeatedly_error {read : Inflow → Except Error α × Inflow} {inflow next : Inflow}
    {error : IoError} (h : read inflow = (.error (.io error), next)) (limit : Nat) :
    readRepeatedly read (limit + 1) inflow = ([.error (.io error)], next) := by
  rw [readRepeatedly, h]

/-- Whatever is no failure of the stream itself, reading goes on behind it. -/
theorem readRepeatedly_next {read : Inflow → Except Error α × Inflow} {inflow next : Inflow}
    {result : Except Error α} (h : read inflow = (result, next))
    (hnext : ∀ error, result ≠ .error (.io error)) (limit : Nat) :
    readRepeatedly read (limit + 1) inflow
      = (result :: (readRepeatedly read limit next).1, (readRepeatedly read limit next).2) := by
  rw [readRepeatedly, h]
  split
  · next error later heq =>
    cases heq
    exact absurd rfl (hnext error)
  · next found later hother heq =>
    cases heq
    rfl

section Reading

variable {encode : α → Bytes} {decode : Bytes → Except Error α} {max : Nat} {inflow : Inflow}

theorem readAs_whole {a : α} {rest : Bytes} (hfits : FitsFrame max (encode a))
    (hdecode : decode (encode a) = .ok a) (h : inflow.bytes = frame (encode a) ++ rest) :
    ∃ next, readAs decode max inflow = (.ok a, next)
      ∧ next.bytes = rest ∧ next.stop = inflow.stop := by
  obtain ⟨next, hread, hrest, hstop⟩ := readFrame_whole hfits h
  refine ⟨next, ?_, hrest, hstop⟩
  rw [readAs, hread]
  exact Prod.ext hdecode rfl

theorem readAs_torn {a : α} {cut : Nat} (hfits : FitsFrame max (encode a))
    (hcut : cut < (frame (encode a)).length) (h : inflow.bytes = (frame (encode a)).take cut) :
    readAs decode max inflow = (.error (.io inflow.stop), ⟨[], inflow.stop⟩) := by
  rw [readAs, readFrame_torn hfits hcut h]
  rfl

theorem readAs_end (h : inflow.bytes = []) :
    readAs decode max inflow = (.error (.io inflow.stop), ⟨[], inflow.stop⟩) := by
  rw [readAs, readFrame_end h]
  rfl

/-- The values that are read are as many as have their frames before the cut. -/
theorem readRepeatedly_cut {values : List α} {cut : Nat}
    (hvalues : ∀ a ∈ values, FitsFrame max (encode a) ∧ decode (encode a) = .ok a)
    (h : inflow.bytes = (frames encode values).take cut) :
    ∃ k ≤ values.length, (∀ j ≤ values.length, (frames encode (values.take j)).length ≤ cut ↔ j ≤ k)
      ∧ ∀ limit, readRepeatedly (readAs decode max) (k + 1 + limit) inflow
        = ((values.take k).map .ok ++ [.error (.io inflow.stop)], ⟨[], inflow.stop⟩) := by
  -- on the values, for every cut: each whole frame moves the cut that many bytes back
  induction values generalizing cut inflow with
  | nil =>
    refine ⟨0, Nat.le_refl 0, ?_, ?_⟩
    · intro j hj
      have hzero : j = 0 := Nat.le_zero.1 hj
      simp [hzero, frames]
    · intro limit
      have hempty : inflow.bytes = [] := by simpa [frames] using h
      rw [Nat.add_comm (0 + 1), readRepeatedly_error (readAs_end hempty)]
      rfl
  | cons a values ih =>
    obtain ⟨hfits, hdecode⟩ := hvalues a (List.mem_cons_self ..)
    rw [frames_cons] at h
    by_cases hcut : cut < (frame (encode a)).length
    · -- the first frame is torn
      refine ⟨0, Nat.zero_le _, ?_, ?_⟩
      · intro j hj
        cases j with
        | zero => simp [frames]
        | succ j =>
          rw [List.take_succ_cons, frames_cons, List.length_append]
          omega
      · intro limit
        rw [List.take_append_of_le_length (Nat.le_of_lt hcut)] at h
        rw [Nat.add_comm (0 + 1), readRepeatedly_error (readAs_torn hfits hcut h)]
        rfl
    · -- the first frame is whole, and what follows it is cut as much later
      have hle := Nat.le_of_not_lt hcut
      rw [List.take_append, List.take_of_length_le hle] at h
      obtain ⟨next, hread, hrest, hstop⟩ := readAs_whole hfits hdecode h
      have hvalues' : ∀ b ∈ values, FitsFrame max (encode b) ∧ decode (encode b) = .ok b :=
        fun b hb => hvalues b (List.mem_cons_of_mem a hb)
      obtain ⟨k, hk, hbefore, hreads⟩ := ih hvalues' hrest
      refine ⟨k + 1, Nat.succ_le_succ hk, ?_, ?_⟩
      · intro j hj
        cases j with
        | zero => simp [frames]
        | succ j =>
          have hj' := hbefore j (Nat.le_of_succ_le_succ hj)
          rw [List.take_succ_cons, frames_cons, List.length_append]
          omega
      · intro limit
        have hcount : k + 1 + 1 + limit = k + 1 + limit + 1 := by omega
        rw [hcount, readRepeatedly_next hread nofun, hreads limit, hstop]
        rfl

end Reading

/-! ## Written and read -/

/-- Nothing is written yet, and there is room for everything. -/
def Outflow.fresh : Outflow := ⟨[], none⟩

/-- Writes values one after another, up to the first that fails. -/
def writeAll (write : α → Outflow → Except Error Unit × Outflow) :
    List α → Outflow → Except Error Unit × Outflow
  | [], outflow => (.ok (), outflow)
  | a :: values, outflow =>
    match write a outflow with
    | (.ok (), outflow) => writeAll write values outflow
    | (.error error, outflow) => (.error error, outflow)

/-- The values can all be written, and where the stream of them is cut and in whatever pieces it
arrives, reading gives those that were written before the cut and then meets the end of the
stream, with nothing left. -/
def SurvivesCut (write : α → Outflow → Except Error Unit × Outflow)
    (read : Inflow → Except Error α × Inflow) (values : List α) : Prop :=
  (writeAll write values .fresh).1 = .ok ()
    ∧ ∀ (cut : Nat) (pieces : List Bytes),
      pieces.flatten = (writeAll write values .fresh).2.written.take cut →
      ∃ k ≤ values.length,
        (∀ j ≤ values.length,
          (writeAll write (values.take j) .fresh).2.written.length ≤ cut ↔ j ≤ k)
        ∧ ∀ limit, readRepeatedly read (k + 1 + limit) ⟨pieces, .endOfStream⟩
          = ((values.take k).map .ok ++ [.error (.io .endOfStream)], ⟨[], .endOfStream⟩)

theorem writeAll_writeFrame (encode : α → Bytes) (values : List α) (written : Bytes) :
    writeAll (fun a => writeFrame (encode a)) values ⟨written, none⟩
      = (.ok (), ⟨written ++ frames encode values, none⟩) := by
  induction values generalizing written with
  | nil => simp [writeAll, frames]
  | cons a values ih =>
    have hwrite : writeFrame (encode a) ⟨written, none⟩
        = (.ok (), ⟨written ++ frame (encode a), none⟩) := rfl
    simp only [writeAll, hwrite, ih, frames_cons, List.append_assoc]

theorem survivesCut_of_decode (encode : α → Bytes) {decode : Bytes → Except Error α} {max : Nat}
    {values : List α}
    (h : ∀ a ∈ values, FitsFrame max (encode a) ∧ decode (encode a) = .ok a) :
    SurvivesCut (fun a => writeFrame (encode a)) (readAs decode max) values := by
  have hwritten : ∀ values : List α,
      writeAll (fun a => writeFrame (encode a)) values .fresh
        = (.ok (), ⟨frames encode values, none⟩) := by
    intro values
    exact writeAll_writeFrame encode values []
  unfold SurvivesCut
  simp only [hwritten]
  refine ⟨trivial, ?_⟩
  intro cut pieces hpieces
  exact readRepeatedly_cut h hpieces

theorem frames_survive_cut (max : Nat) :
    (∀ messages : List Bytes, (∀ message ∈ messages, FitsFrame max message) →
      SurvivesCut writeFrame (readFrame max) messages)
    ∧ (∀ requests : List Request,
      (∀ request ∈ requests, request.id ≤ Request.maxId ∧ FitsFrame max request.encode) →
      SurvivesCut writeRequest (readRequest max) requests)
    ∧ (∀ replies : List Reply, (∀ reply ∈ replies, FitsFrame max reply.encode) →
      SurvivesCut writeReply (readReply max) replies) := by
  refine ⟨?_, ?_, ?_⟩
  · intro messages h
    rw [readFrame_eq_readAs]
    apply survivesCut_of_decode id
    intro message hmessage
    exact ⟨h message hmessage, rfl⟩
  · intro requests h
    rw [readRequest_eq_readAs]
    apply survivesCut_of_decode Request.encode
    intro request hrequest
    obtain ⟨hid, hfits⟩ := h request hrequest
    -- a frame holds the request, so none of its parts is too long for its size
    have hlength : request.encode.length < 0x100000000 := Nat.lt_of_lt_of_le hfits.2 (by decide)
    refine ⟨hfits, ?_⟩
    rw [Request.decode_encode (Request.fits_of_length_encode hid hlength)]
    rfl
  · intro replies h
    rw [readReply_eq_readAs]
    apply survivesCut_of_decode Reply.encode
    intro reply hreply
    refine ⟨h reply hreply, ?_⟩
    rw [Reply.decode_encode]
    rfl

/-- Messages of every size up to the limit, the empty one among them, and a request and a reply. -/
theorem frames_survive_cut_mixed :
    (∀ message ∈ [[7], [], [1, 2]], FitsFrame 2 message)
      ∧ SurvivesCut writeFrame (readFrame 2) [[7], [], [1, 2]]
      ∧ SurvivesCut writeRequest (readRequest 18)
        [⟨Request.maxId, .sync, .set [] [1, 2]⟩, ⟨0, .none, .stats⟩]
      ∧ SurvivesCut writeReply (readReply 9) [⟨5, 0x803, [1]⟩] := by
  have hmessages : ∀ message ∈ [[7], [], [1, 2]], FitsFrame 2 message := by decide
  refine ⟨hmessages, ?_, ?_, ?_⟩
  · exact (frames_survive_cut 2).1 _ hmessages
  · exact (frames_survive_cut 18).2.1 _ (by decide)
  · exact (frames_survive_cut 9).2.2 _ (by decide)

-- the third frame is torn after its length, and no piece ends where a frame does
example :
    readRepeatedly (readFrame 2) 9
        ⟨[[0, 0], [0, 5, 7, 0, 0, 0], [4, 0], [0, 0, 6]], .endOfStream⟩
      = ([.ok [7], .ok [], .error (.io .endOfStream)], ⟨[], .endOfStream⟩) :=
  rfl

end TieredStore.Wire
