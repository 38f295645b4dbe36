import TieredStore.Proofs.Client.DataCall
import TieredStore.Proofs.Except
import TieredStore.Proofs.FailureCode
import TieredStore.Proofs.Reply.Payload
import TieredStore.Transport.Script

/-!
# Verdicts on answers

Anything may come back to a request: an error of the transport, or a reply with any id, code and
payload.  A call concludes something from a reply that has the request's id, a code that the call
admits, and a payload of the form that goes with it (`KeyCall.Concludes`).  Everything else it blames
on a failure (`KeyCall.Blames`); there is no third way, and no failure passes for a result
(`ask_of_answer`).
-/

namespace TieredStore

namespace Reply

def Succeeds (reply : Reply) : Prop :=
  reply.code = ReplyCode.ok.word ∨ reply.code = ReplyCode.cacheHit.word

def Misses (reply : Reply) : Prop :=
  reply.code = ReplyCode.notIn.word ∨ reply.code = ReplyCode.cacheMiss.word

/-- The payload begins with a value, its length in front. -/
def Brings (reply : Reply) (bytes : Bytes) : Prop :=
  bytes.length < 0x100000000 ∧ Bytes.bigEndian 4 bytes.length ++ bytes <+: reply.payload

end Reply

/-- Codes that answer a command. -/
def CommandType.admitted : CommandType → List ReplyCode
  | .set | .stats => [.ok, .cacheHit]
  | .get | .delete | .firstKey | .nextKey => [.ok, .cacheHit, .notIn, .cacheMiss]
  | .cas | .incr => [.ok, .cacheHit, .notIn, .cacheMiss, .noMatch]

namespace KeyCall

/-- What a call concludes from a reply to its request. -/
inductive Concludes (client : Client) (reply : Reply) : KeyCall → Except Error CallResult → Prop
  | set {key value} (hcode : reply.Succeeds) : Concludes client reply (.set key value) (.ok .unit)
  | get {key shape bytes} (hcode : reply.Succeeds) (hvalue : reply.Brings bytes) :
    Concludes client reply (.get key shape) ((client.decode shape bytes).map (.found ∘ some))
  | getMissing {key shape} (hcode : reply.Misses) :
    Concludes client reply (.get key shape) ((client.missing shape).map .found)
  | getItem {key shape bytes} (hcode : reply.Succeeds) (hvalue : reply.Brings bytes) :
    Concludes client reply (.getItem key shape) ((client.decode shape bytes).map .item)
  | getItemMissing {key shape} (hcode : reply.Misses) :
    Concludes client reply (.getItem key shape) (.error .keyNotFound)
  | has {key bytes} (hcode : reply.Succeeds) (hvalue : reply.Brings bytes) :
    Concludes client reply (.has key) (.ok (.truth (some bytes ≠ client.defaultBytes)))
  | hasMissing {key} (hcode : reply.Misses) :
    Concludes client reply (.has key) (.ok (.truth false))
  | delete {key} (hcode : reply.Succeeds) :
    Concludes client reply (.delete key) (.ok (.truth true))
  | deleteMissing {key} (hcode : reply.Misses) :
    Concludes client reply (.delete key) (.ok (.truth false))
  | cas {key old new} (hcode : reply.Succeeds) :
    Concludes client reply (.cas key old new) (.ok (.swapped (.applied 2)))
  | casMismatch {key old new} (hcode : reply.code = ReplyCode.noMatch.word) :
    Concludes client reply (.cas key old new) (.ok (.swapped .mismatch))
  | casMissing {key old new} (hcode : reply.Misses) :
    Concludes client reply (.cas key old new) (.ok (.swapped .notFound))
  | incr {key delta} {number : Int64} (hcode : reply.Succeeds)
    (hnumber : Bytes.bigEndian 8 number.toUInt64.toNat <+: reply.payload) :
    Concludes client reply (.incr key delta) (.ok (.counter (some number)))
  | incrMissing {key delta} (hcode : reply.Misses) :
    Concludes client reply (.incr key delta) (.ok (.counter none))
  | incrNotANumber {key delta} (hcode : reply.code = ReplyCode.noMatch.word) :
    Concludes client reply (.incr key delta) (.error .notANumber)

/-- How a call reports a failure.  A compare-and-swap keeps it as a number for a while, which has a
server's error go under its name. -/
def reported : KeyCall → Failure → Failure
  | .cas .., failure => failure.named
  | _, failure => failure

/-- On what a call blames it that a round trip gives nothing to conclude from. -/
inductive Blames (call : KeyCall) (id : UInt32) : Except Error Reply → Failure → Prop
  | transport (error : Error) : Blames call id (.error error) (call.reported error.toFailure)
  | stranger {reply : Reply} (hid : reply.id ≠ id) : Blames call id (.ok reply) .malformed
  | server {reply : Reply} {code : UInt32} (hid : reply.id = id)
    (hcode : reply.code = ReplyCode.error.word)
    (herror : Bytes.bigEndian 4 code.toNat <+: reply.payload) :
    Blames call id (.ok reply) (.server (.ofCode code))
  | noError {reply : Reply} (hid : reply.id = id) (hcode : reply.code = ReplyCode.error.word)
    (hshort : reply.payload.length < 4) : Blames call id (.ok reply) .malformed
  | noValue {reply : Reply} (hid : reply.id = id) (hcode : reply.Succeeds) (hcall : call.type = .get)
    (hvalue : ∀ bytes, ¬ reply.Brings bytes) : Blames call id (.ok reply) .malformed
  | noNumber {reply : Reply} (hid : reply.id = id) (hcode : reply.Succeeds)
    (hcall : call.type = .incr) (hshort : reply.payload.length < 8) :
    Blames call id (.ok reply) .malformed
  | unexpected {reply : Reply} (hid : reply.id = id) (herror : reply.code ≠ ReplyCode.error.word)
    (hcode : ∀ code ∈ call.type.admitted, reply.code ≠ code.word) :
    Blames call id (.ok reply) .unexpectedReply

/-- A round trip settles a call: it brings a reply with the request's id, from which the call
concludes what it gives. -/
def Settled (call : KeyCall) (client : Client) (id : UInt32) (trip : Except Error Reply)
    (expected : Except Error CallResult) : Prop :=
  ∃ reply, trip = .ok reply ∧ reply.id = id ∧ call.Concludes client reply expected

end KeyCall

/-! ## The status of a reply -/

namespace Reply

variable {reply : Reply}

theorem replyCode?_of_code {code : ReplyCode} (h : reply.code = code.word) :
    reply.replyCode? = some code :=
  ReplyCode.ofWord?_eq_some_iff.2 h

theorem Succeeds.status (h : reply.Succeeds) : reply.status = .done := by
  unfold Reply.status
  rcases h with hok | hhit
  · rw [replyCode?_of_code hok]
  · rw [replyCode?_of_code hhit]

theorem Misses.status (h : reply.Misses) : reply.status = .absent := by
  unfold Reply.status
  rcases h with hnotIn | hmiss
  · rw [replyCode?_of_code hnotIn]
  · rw [replyCode?_of_code hmiss]

theorem status_of_noMatch (h : reply.code = ReplyCode.noMatch.word) : reply.status = .noMatch := by
  unfold Reply.status
  rw [replyCode?_of_code h]

theorem status_of_error (h : reply.code = ReplyCode.error.word) {code : UInt32}
    (herror : Bytes.bigEndian 4 code.toNat <+: reply.payload) :
    reply.status = .failed (.server (.ofCode code)) := by
  unfold Reply.status
  rw [replyCode?_of_code h]
  simp only [serverError_of_begins herror]

theorem status_of_short_error (h : reply.code = ReplyCode.error.word)
    (hshort : reply.payload.length < 4) : reply.status = .failed .malformed := by
  unfold Reply.status
  rw [replyCode?_of_code h]
  simp only [serverError_of_short hshort]

/-- A code that is none of the protocol's. -/
theorem status_of_unknown (h : reply.replyCode? = none) :
    reply.status = .failed .unexpectedReply := by
  unfold Reply.status
  rw [h]

/-- A reply has one of the codes that calls tell apart. -/
theorem code_cases (reply : Reply) :
    reply.Succeeds ∨ reply.Misses ∨ reply.code = ReplyCode.noMatch.word
      ∨ reply.code = ReplyCode.error.word ∨ reply.replyCode? = none := by
  cases hcode : reply.replyCode? with
  | none => exact .inr (.inr (.inr (.inr rfl)))
  | some code =>
    have hword := ReplyCode.ofWord?_eq_some_iff.1 hcode
    cases code with
    | ok => exact .inl (.inl hword)
    | cacheHit => exact .inl (.inr hword)
    | notIn => exact .inr (.inl (.inl hword))
    | cacheMiss => exact .inr (.inl (.inr hword))
    | noMatch => exact .inr (.inr (.inl hword))
    | error => exact .inr (.inr (.inr (.inl hword)))

end Reply

/-! ## What the client makes of it -/

namespace Answer

variable {α : Type} {accessor : Reply → Except Wire.Fault α}

theorem carrying_failed {answer : Answer} {failure : Failure} (h : answer.status = .failed failure) :
    answer.carrying accessor = (.failed failure, none) := by
  cases answer with
  | error cause =>
    cases h
    rfl
  | ok reply =>
    change reply.status = .failed failure at h
    unfold carrying
    simp only [h]

theorem carrying_other {reply : Reply} {status : Status} (h : reply.status = status)
    (hdone : status ≠ .done) : carrying accessor (.ok reply) = (status, none) := by
  unfold carrying
  simp only [h]

theorem carrying_done {reply : Reply} (h : reply.status = .done) {a : α}
    (hread : accessor reply = .ok a) : carrying accessor (.ok reply) = (.done, some a) := by
  unfold carrying
  simp only [h, hread]

theorem carrying_malformed {reply : Reply} (h : reply.status = .done)
    (hread : ∀ a, accessor reply ≠ .ok a) :
    carrying accessor (.ok reply) = (.failed .malformed, none) := by
  obtain ⟨fault, hfault⟩ := exists_error_of_forall_ne_ok hread
  unfold carrying
  simp only [h, hfault]

end Answer

theorem map_ne_network {α β : Type} {x : Except Error α}
    (h : ∀ failure, x ≠ .error (.network failure)) (f : α → β) (failure : Failure) :
    x.map f ≠ .error (.network failure) := by
  cases x with
  | error error =>
    intro hmap
    cases hmap
    exact h failure rfl
  | ok a => simp [Except.map]

theorem mapError_codec_ne_network {ε α : Type} (x : Except ε α) (fault : ε → CodecFault)
    (failure : Failure) :
    x.mapError (fun error => Error.codec (fault error)) ≠ .error (.network failure) := by
  cases x with
  | error error => exact fun h => nomatch h
  | ok a => exact fun h => nomatch h

namespace Client

theorem decode_ne_network (client : Client) (shape : Shape) (bytes : Bytes) (failure : Failure) :
    client.decode shape bytes ≠ .error (.network failure) := by
  unfold decode
  cases client.config.encoding with
  | packed => exact mapError_codec_ne_network _ .packed failure
  | plain => exact mapError_codec_ne_network _ .plain failure

theorem missing_ne_network (client : Client) (shape : Shape) (failure : Failure) :
    client.missing shape ≠ .error (.network failure) := by
  unfold missing
  cases client.defaultBytes with
  | none => simp
  | some bytes => exact map_ne_network (client.decode_ne_network shape bytes) some failure

end Client

namespace KeyCall

variable {call : KeyCall} {client : Client} {reply : Reply} {id : UInt32}

/-- The number of a failure says all of it but a name that the client does not know. -/
theorem reported_of_named {failure : Failure} (h : failure.named = failure) :
    call.reported failure = failure := by
  cases call with
  | cas key old new => exact h
  | _ => rfl

theorem interpret_of_failed {answer : Answer} {failure : Failure}
    (h : answer.status = .failed failure) :
    call.interpret client answer = .error (.network (call.reported failure)) := by
  have hvalue : answer.value = (.failed failure, none) := Answer.carrying_failed h
  have hcounter : answer.counter = (.failed failure, none) := Answer.carrying_failed h
  cases call with
  | set key value =>
    simp only [interpret, h]
    rfl
  | delete key =>
    simp only [interpret, h]
    rfl
  | cas key old new =>
    simp only [interpret, h, CasOutcome.codeOf, CasOutcome.ofCode_code]
    rfl
  | get key shape =>
    simp only [interpret, hvalue]
    rfl
  | getItem key shape =>
    simp only [interpret, hvalue]
    rfl
  | has key =>
    simp only [interpret, hvalue]
    rfl
  | incr key delta =>
    simp only [interpret, hcounter]
    rfl

theorem interpret_of_failed_reply {failure : Failure} (h : reply.status = .failed failure)
    (hnamed : failure.named = failure) :
    call.interpret client (.ok reply) = .error (.network failure) := by
  have hstatus : Answer.status (.ok reply) = .failed failure := h
  rw [interpret_of_failed hstatus, reported_of_named hnamed]

theorem interpret_of_concludes {expected : Except Error CallResult}
    (h : call.Concludes client reply expected) : call.interpret client (.ok reply) = expected := by
  have hvalue {bytes : Bytes} (hcode : reply.Succeeds) (hbrings : reply.Brings bytes) :
      Answer.value (.ok reply) = (.done, some bytes) :=
    Answer.carrying_done hcode.status (Reply.valueBytes_eq_ok_iff.2 hbrings)
  have hmissing (hcode : reply.Misses) : Answer.value (.ok reply) = (.absent, none) :=
    Answer.carrying_other hcode.status (by decide)
  cases h with
  | get hcode hbrings =>
    simp only [interpret, hvalue hcode hbrings]
    rfl
  | getMissing hcode =>
    simp only [interpret, hmissing hcode]
    rfl
  | getItem hcode hbrings =>
    simp only [interpret, hvalue hcode hbrings]
    rfl
  | getItemMissing hcode =>
    simp only [interpret, hmissing hcode]
    rfl
  | @has _ bytes hcode hbrings =>
    have htruth : (some bytes != client.defaultBytes) = decide (some bytes ≠ client.defaultBytes) := by
      rw [Bool.eq_iff_iff, bne_iff_ne, decide_eq_true_iff]
    simp only [interpret, hvalue hcode hbrings, ← htruth]
    rfl
  | hasMissing hcode =>
    simp only [interpret, hmissing hcode]
    rfl
  | incr hcode hnumber =>
    have hcounter : Answer.counter (.ok reply) = (.done, some _) :=
      Answer.carrying_done hcode.status (Reply.counterValue_eq_ok_iff.2 hnumber)
    simp only [interpret, hcounter]
    rfl
  | incrMissing hcode =>
    have hcounter : Answer.counter (.ok reply) = (.absent, none) :=
      Answer.carrying_other hcode.status (by decide)
    simp only [interpret, hcounter]
    rfl
  | incrNotANumber hcode =>
    have hcounter : Answer.counter (.ok reply) = (.noMatch, none) :=
      Answer.carrying_other (Reply.status_of_noMatch hcode) (by decide)
    simp only [interpret, hcounter]
    rfl
  -- the other calls look at the status alone
  | set hcode | delete hcode | deleteMissing hcode | cas hcode | casMissing hcode =>
    simp only [interpret, Answer.status, hcode.status]
    rfl
  | casMismatch hcode =>
    simp only [interpret, Answer.status, Reply.status_of_noMatch hcode]
    rfl

/-- The reading that belongs to a call, where it fails. -/
theorem interpret_of_malformed (hcode : reply.Succeeds)
    (h : call.type = .get ∧ (∀ bytes, ¬ reply.Brings bytes)
      ∨ call.type = .incr ∧ reply.payload.length < 8) :
    call.interpret client (.ok reply) = .error (.network .malformed) := by
  rcases h with ⟨htype, hvalue⟩ | ⟨htype, hshort⟩
  · have hread : Answer.value (.ok reply) = (.failed .malformed, none) :=
      Answer.carrying_malformed hcode.status fun bytes hbytes =>
        hvalue bytes (Reply.valueBytes_eq_ok_iff.1 hbytes)
    cases call with
    | get key shape =>
      simp only [interpret, hread]
      rfl
    | getItem key shape =>
      simp only [interpret, hread]
      rfl
    | has key =>
      simp only [interpret, hread]
      rfl
    | _ => cases htype
  · have hread : Answer.counter (.ok reply) = (.failed .malformed, none) :=
      Answer.carrying_malformed hcode.status fun number hnumber => by
        rw [Reply.counterValue_of_short hshort] at hnumber
        cases hnumber
    cases call with
    | incr key delta =>
      simp only [interpret, hread]
      rfl
    | _ => cases htype

theorem succeeds_ne_unexpected (hcode : ∀ code ∈ call.type.admitted, reply.code ≠ code.word) :
    ¬ reply.Succeeds := by
  have hok : ReplyCode.ok ∈ call.type.admitted := by
    cases call.type <;> decide
  have hhit : ReplyCode.cacheHit ∈ call.type.admitted := by
    cases call.type <;> decide
  rintro (h | h)
  · exact hcode _ hok h
  · exact hcode _ hhit h

/-- A code that is not for the call. -/
theorem interpret_of_unexpected (herror : reply.code ≠ ReplyCode.error.word)
    (hcode : ∀ code ∈ call.type.admitted, reply.code ≠ code.word) :
    call.interpret client (.ok reply) = .error (.network .unexpectedReply) := by
  rcases reply.code_cases with hdone | hmisses | hnoMatch | hfailed | hunknown
  · exact absurd hdone (succeeds_ne_unexpected hcode)
  · have hread : Answer.value (.ok reply) = (.absent, none) :=
      Answer.carrying_other hmisses.status (by decide)
    -- only a write has no use for a miss
    cases call with
    | set key value =>
      simp only [interpret, Answer.status, hmisses.status]
      rfl
    | _ =>
      rcases hmisses with h | h
      · exact absurd h (hcode .notIn (by simp [type, CommandType.admitted]))
      · exact absurd h (hcode .cacheMiss (by simp [type, CommandType.admitted]))
  · have hread : Answer.value (.ok reply) = (.noMatch, none) :=
      Answer.carrying_other (Reply.status_of_noMatch hnoMatch) (by decide)
    cases call with
    | set key value | delete key =>
      simp only [interpret, Answer.status, Reply.status_of_noMatch hnoMatch]
      rfl
    | get key shape | getItem key shape | has key =>
      simp only [interpret, hread]
      rfl
    | _ => exact absurd hnoMatch (hcode .noMatch (by simp [type, CommandType.admitted]))
  · exact absurd hfailed herror
  · exact interpret_of_failed_reply (Reply.status_of_unknown hunknown) rfl

theorem interpret_of_blames {trip : Except Error Reply} {failure : Failure}
    (h : call.Blames id trip failure) :
    call.interpret client (.received id trip) = .error (.network failure) := by
  have hreceived {reply : Reply} (hid : reply.id = id) :
      Answer.received id (.ok reply) = .ok reply := if_pos hid
  cases h with
  | transport error => exact interpret_of_failed rfl
  | stranger hid =>
    have hstranger : Answer.received id (.ok _) = .error .malformed := if_neg hid
    rw [hstranger, interpret_of_failed rfl, reported_of_named rfl]
  | server hid hcode herror =>
    rw [hreceived hid]
    refine interpret_of_failed_reply (Reply.status_of_error hcode herror) ?_
    change Failure.server (.ofCode (ServerError.ofCode _).code) = _
    rw [ServerError.code_ofCode]
  | noError hid hcode hshort =>
    rw [hreceived hid]
    exact interpret_of_failed_reply (Reply.status_of_short_error hcode hshort) rfl
  | noValue hid hcode hcall hvalue =>
    rw [hreceived hid, interpret_of_malformed hcode (.inl ⟨hcall, hvalue⟩)]
  | noNumber hid hcode hcall hshort =>
    rw [hreceived hid, interpret_of_malformed hcode (.inr ⟨hcall, hshort⟩)]
  | unexpected hid herror hcode =>
    rw [hreceived hid, interpret_of_unexpected herror hcode]

/-! ## Whether there is something to conclude -/

/-- What is concluded is not a failure of the network. -/
theorem Concludes.ne_network {expected : Except Error CallResult}
    (h : call.Concludes client reply expected) (failure : Failure) :
    expected ≠ .error (.network failure) := by
  cases h with
  | get hcode hbrings => exact map_ne_network (client.decode_ne_network _ _) _ failure
  | getMissing hcode => exact map_ne_network (client.missing_ne_network _) _ failure
  | getItem hcode hbrings => exact map_ne_network (client.decode_ne_network _ _) _ failure
  | _ => simp

theorem blames_unexpected {code : ReplyCode} (hid : reply.id = id) (hcode : reply.code = code.word)
    (herror : code ≠ .error) (hout : code ∉ call.type.admitted) :
    call.Blames id (.ok reply) .unexpectedReply := by
  apply Blames.unexpected hid
  · rw [hcode]
    exact fun h => herror (ReplyCode.word_inj.1 h)
  · intro admitted hadmitted heq
    rw [hcode] at heq
    exact hout (ReplyCode.word_inj.1 heq ▸ hadmitted)

theorem concludes_or_blames_of_succeeds (call : KeyCall) (client : Client) (hid : reply.id = id)
    (hcode : reply.Succeeds) :
    (∃ expected, call.Concludes client reply expected)
      ∨ ∃ failure, call.Blames id (.ok reply) failure := by
  have hread (hcall : call.type = .get) :
      (∃ bytes, reply.Brings bytes) ∨ ∃ failure, call.Blames id (.ok reply) failure := by
    by_cases hbrings : ∃ bytes, reply.Brings bytes
    · exact .inl hbrings
    · exact .inr ⟨_, .noValue hid hcode hcall fun bytes h => hbrings ⟨bytes, h⟩⟩
  cases call with
  | set key value => exact .inl ⟨_, .set hcode⟩
  | get key shape => exact (hread rfl).imp_left fun ⟨bytes, h⟩ => ⟨_, .get hcode h⟩
  | getItem key shape => exact (hread rfl).imp_left fun ⟨bytes, h⟩ => ⟨_, .getItem hcode h⟩
  | has key => exact (hread rfl).imp_left fun ⟨bytes, h⟩ => ⟨_, .has hcode h⟩
  | delete key => exact .inl ⟨_, .delete hcode⟩
  | cas key old new => exact .inl ⟨_, .cas hcode⟩
  | incr key delta =>
    rcases reply.number_or_short with ⟨number, hnumber⟩ | hshort
    · exact .inl ⟨_, .incr hcode hnumber⟩
    · exact .inr ⟨_, .noNumber hid hcode rfl hshort⟩

theorem concludes_or_blames_of_misses (call : KeyCall) (client : Client) (hid : reply.id = id)
    (hcode : reply.Misses) :
    (∃ expected, call.Concludes client reply expected)
      ∨ ∃ failure, call.Blames id (.ok reply) failure := by
  cases call with
  | set key value =>
    rcases hcode with h | h
    · exact .inr ⟨_, blames_unexpected hid h (by decide) (by simp [type, CommandType.admitted])⟩
    · exact .inr ⟨_, blames_unexpected hid h (by decide) (by simp [type, CommandType.admitted])⟩
  | get key shape => exact .inl ⟨_, .getMissing hcode⟩
  | getItem key shape => exact .inl ⟨_, .getItemMissing hcode⟩
  | has key => exact .inl ⟨_, .hasMissing hcode⟩
  | delete key => exact .inl ⟨_, .deleteMissing hcode⟩
  | cas key old new => exact .inl ⟨_, .casMissing hcode⟩
  | incr key delta => exact .inl ⟨_, .incrMissing hcode⟩

theorem concludes_or_blames_of_noMatch (call : KeyCall) (client : Client) (hid : reply.id = id)
    (hcode : reply.code = ReplyCode.noMatch.word) :
    (∃ expected, call.Concludes client reply expected)
      ∨ ∃ failure, call.Blames id (.ok reply) failure := by
  cases call with
  | cas key old new => exact .inl ⟨_, .casMismatch hcode⟩
  | incr key delta => exact .inl ⟨_, .incrNotANumber hcode⟩
  | _ =>
    exact .inr ⟨_, blames_unexpected hid hcode (by decide) (by simp [type, CommandType.admitted])⟩

/-- A round trip settles a call, or the call blames it on something. -/
theorem settled_or_blames (call : KeyCall) (client : Client) (id : UInt32)
    (trip : Except Error Reply) :
    (∃ expected, call.Settled client id trip expected) ∨ ∃ failure, call.Blames id trip failure := by
  cases trip with
  | error error => exact .inr ⟨_, .transport error⟩
  | ok reply =>
    by_cases hid : reply.id = id
    · suffices h : (∃ expected, call.Concludes client reply expected)
          ∨ ∃ failure, call.Blames id (.ok reply) failure by
        exact h.imp_left fun ⟨expected, h⟩ => ⟨expected, reply, rfl, hid, h⟩
      rcases reply.code_cases with hdone | hmisses | hnoMatch | herror | hunknown
      · exact concludes_or_blames_of_succeeds call client hid hdone
      · exact concludes_or_blames_of_misses call client hid hmisses
      · exact concludes_or_blames_of_noMatch call client hid hnoMatch
      · rcases reply.errorCode_or_short with ⟨code, hbegins⟩ | hshort
        · exact .inr ⟨_, .server hid herror hbegins⟩
        · exact .inr ⟨_, .noError hid herror hshort⟩
      · have hnone (code : ReplyCode) : reply.code ≠ code.word := by
          intro h
          rw [Reply.replyCode?_of_code h] at hunknown
          cases hunknown
        exact .inr ⟨_, .unexpected hid (hnone .error) fun code _ => hnone code⟩
    · exact .inr ⟨_, .stranger hid⟩

end KeyCall

/-! ## Calls -/

namespace Session

section

variable {σ : Type} [Transport σ] {session : Session σ} {mode : Mode} {call : KeyCall}
  {command : Command} {endpoint : Endpoint}

/-- Of all that may come back to its request, a call takes only a reply that it admits for a result,
and that reply for what it says.  Everything else is a failure of the network, of which the call
tells the cause. -/
theorem ask_of_answer (hcommand : call.command session.client = .ok command)
    (hhome : session.client.home command = some endpoint) :
    let request := Request.make session.client.nextId (mode.flags command.type) command
    let trip := (Transport.roundTrip endpoint request session.transport).1
    let result := (session.ask mode call).1
    ((∀ failure, result ≠ .error (.network failure))
        ↔ ∃ expected, call.Settled session.client request.id trip expected)
      ∧ (∀ expected, call.Settled session.client request.id trip expected → result = expected)
      ∧ (∀ failure, call.Blames request.id trip failure → result = .error (.network failure))
      ∧ ((∃ expected, call.Settled session.client request.id trip expected)
        ∨ ∃ failure, call.Blames request.id trip failure) := by
  intro request trip result
  have hresult : result = call.interpret session.client (.received request.id trip) := by
    change (session.ask mode call).1 = _
    rw [ask_of_command hcommand, hhome, sendTo, send_eq]
    rfl
  have hsettled : ∀ expected, call.Settled session.client request.id trip expected →
      result = expected := by
    rintro expected ⟨reply, htrip, hid, h⟩
    have hreceived : Answer.received request.id (.ok reply) = .ok reply := if_pos hid
    rw [hresult, htrip, hreceived]
    exact KeyCall.interpret_of_concludes h
  have hblamed : ∀ failure, call.Blames request.id trip failure →
      result = .error (.network failure) := by
    intro failure h
    rw [hresult]
    exact KeyCall.interpret_of_blames h
  have hcases := call.settled_or_blames session.client request.id trip
  refine ⟨⟨fun hnetwork => ?_, ?_⟩, hsettled, hblamed, hcases⟩
  · rcases hcases with hsome | ⟨failure, hfailure⟩
    · exact hsome
    · exact absurd (hblamed failure hfailure) (hnetwork failure)
  · rintro ⟨expected, h⟩ failure
    rw [hsettled expected h]
    obtain ⟨reply, -, -, h⟩ := h
    exact h.ne_network failure

end

/-- A client of one endpoint, for which answers are prepared. -/
def scripted (cues : List Cue) : Session Script :=
  (register ⟨.new {}, ⟨[.tipc], none, cues, []⟩⟩ (.tipc 1)).2

/-- A reply to an older request, and a value that is no number. -/
theorem ask_of_answer_scripted :
    ((scripted [.reply 0x803 [0, 0, 0, 0] 1]).ask .direct (.get (.bool true) .bool)).1
        = .error (.network .malformed)
      ∧ ((scripted [.reply 0x805 [] 0]).ask .cache (.incr (.bool true) 5)).1
        = .error .notANumber := by
  constructor
  · have hstranger : (2 : UInt32) ≠ 1 := by decide
    exact (ask_of_answer rfl rfl).2.2.1 _ (.stranger hstranger)
  · exact (ask_of_answer rfl rfl).2.1 _ ⟨⟨1, 0x805, []⟩, rfl, rfl, .incrNotANumber rfl⟩

/-- Through a compare-and-swap, a transport's error with the number of a named one comes back under
the name. -/
theorem ask_cas_ne_toFailure :
    let error := Error.network (.server (.other 0x101))
    let session := scripted [.fail error]
    let request := Request.make session.client.nextId .none (.cas [1] [0] [1])
    let result := (session.ask .direct (.cas (.bool true) (.bool false) (.bool true))).1
    (Transport.roundTrip (.tipc 1) request session.transport).1 = .error error
      ∧ result = .error (.network (.server .versionMismatch))
      ∧ result ≠ .error (.network error.toFailure) := by
  intro error session request result
  have hresult : result = .error (.network (.server .versionMismatch)) := rfl
  refine ⟨rfl, hresult, ?_⟩
  rw [hresult]
  simp [error, Error.toFailure]

end Session

end TieredStore
