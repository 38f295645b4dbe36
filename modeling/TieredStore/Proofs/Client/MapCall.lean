import TieredStore.Client
import TieredStore.Proofs.Reply.Payload
import TieredStore.Proofs.Store.StoredCounter
import TieredStore.Store.Table

/-!
# Calls on one map

The calls of a client that see both tiers, and what they come to if there is one table behind them
and nothing else (`Table.call`).
-/

namespace TieredStore

/-- A call on a key in both tiers.  A confirmed write is one that is waited for. -/
inductive MapCall where
  | set (confirmed : Bool) (key value : Bytes)
  | get (key : Bytes)
  | delete (confirmed : Bool) (key : Bytes)
  | cas (key old new : Bytes)
  | incr (key : Bytes) (delta : Int64)
  deriving DecidableEq, Repr

/-- What a call returns. -/
inductive MapAnswer where
  | status (status : Status)
  | value (status : Status) (value : Option Bytes)
  | code (code : Int)
  | counter (status : Status) (number : Option Int64)
  deriving DecidableEq, Repr

/-- What a call returns and makes of a map. -/
def Table.call (map : Table) : MapCall → MapAnswer × Table
  | .set _ key value => (.status .done, map.insert key value)
  | .get key =>
    match map.get? key with
    | some value => (.value .done (some value), map)
    | none => (.value .absent none, map)
  | .delete _ key =>
    match map.get? key with
    | some _ => (.status .done, map.erase key)
    | none => (.status .absent, map)
  | .cas key old new =>
    match map.get? key with
    | some value => if value = old then (.code 2, map.insert key new) else (.code 1, map)
    | none => (.code 0, map)
  | .incr key delta =>
    match map.get? key with
    | some value =>
      match readCounter value with
      | some number =>
        (.counter .done (some (number + delta)), map.insert key (writeCounter (number + delta)))
      | none => (.counter .noMatch none, map)
    | none => (.counter .absent none, map)

/-- The reply that tells what a call returns. -/
def Table.reply (map : Table) (id : UInt32) : MapCall → Reply
  | .set .. => .plain id .ok
  | .get key =>
    match map.get? key with
    | some value => .value id .ok value
    | none => .plain id .notIn
  | .delete _ key => .plain id (if (map.get? key).isSome then .ok else .notIn)
  | .cas key old _ =>
    match map.get? key with
    | some value => .plain id (if value = old then .ok else .noMatch)
    | none => .plain id .notIn
  | .incr key delta =>
    match map.get? key with
    | some value =>
      match readCounter value with
      | some number => .counter id (number + delta)
      | none => .plain id .noMatch
    | none => .plain id .notIn

namespace MapCall

def command : MapCall → Command
  | .set _ key value => .set key value
  | .get key => .get key
  | .delete _ key => .delete key
  | .cas key old new => .cas key old new
  | .incr key delta => .incr key delta

def flags : MapCall → Flags
  | .set true .. | .delete true _ => .sync
  | _ => .none

/-- What a call returns that fails. -/
def refused : MapCall → Failure → MapAnswer
  | .set .., failure | .delete .., failure => .status (.failed failure)
  | .get _, failure => .value (.failed failure) none
  | .cas .., failure => .code failure.code
  | .incr .., failure => .counter (.failed failure) none

/-- What a call makes of the answer to its request. -/
def read : MapCall → Answer → MapAnswer
  | .set .., answer | .delete .., answer => .status answer.status
  | .get _, answer => .value answer.value.1 answer.value.2
  | .cas .., answer => .code (CasOutcome.codeOf answer.status)
  | .incr .., answer => .counter answer.counter.1 answer.counter.2

theorem read_error (call : MapCall) (failure : Failure) :
    call.read (.error failure) = call.refused failure := by
  cases call <;> rfl

theorem read_error_reply (call : MapCall) (id : UInt32) (error : ServerError) :
    call.read (.ok (.error id error)) = call.refused (.server (.ofCode error.code)) := by
  have hstatus := Reply.status_error id error
  cases call with
  | set confirmed key value => exact congrArg MapAnswer.status hstatus
  | delete confirmed key => exact congrArg MapAnswer.status hstatus
  | cas key old new =>
    exact congrArg (fun status => MapAnswer.code (CasOutcome.codeOf status)) hstatus
  | get key =>
    simp only [read, Answer.value, Answer.carrying, hstatus]
    rfl
  | incr key delta =>
    simp only [read, Answer.counter, Answer.carrying, hstatus]
    rfl

/-- A reply is the expected one, though it may say of a value that the cache had it. -/
def Answered (call : MapCall) (reply expected : Reply) : Prop :=
  reply = expected
    ∨ (∃ key, call = .get key) ∧ expected.code = ReplyCode.ok.word
      ∧ reply = { expected with code := ReplyCode.cacheHit.word }

theorem isCacheOnly_flags (call : MapCall) : call.flags.isCacheOnly = false := by
  have hnone : Flags.none.isCacheOnly = false := by decide
  have hsync : Flags.sync.isCacheOnly = false := by decide
  unfold flags
  split
  · exact hsync
  · exact hsync
  · exact hnone

end MapCall

namespace Table

/-- A call leaves a map as it is, binds its key to a part of its own or a counter's text, or unbinds
its key. -/
theorem call_cases (map : Table) (call : MapCall) :
    (map.call call).2 = map
      ∨ (∃ value, (map.call call).2 = map.insert call.command.key value
        ∧ (value.length ≤ call.command.payloadLength ∨ ∃ number, value = writeCounter number))
      ∨ (map.call call).2 = map.erase call.command.key := by
  cases call with
  | set confirmed key value =>
    refine .inr (.inl ⟨value, rfl, .inl ?_⟩)
    exact Nat.le_add_left value.length key.length
  | get key =>
    unfold Table.call
    simp only
    split
    · exact .inl rfl
    · exact .inl rfl
  | delete confirmed key =>
    unfold Table.call
    simp only
    split
    · exact .inr (.inr rfl)
    · exact .inl rfl
  | cas key old new =>
    unfold Table.call
    simp only
    split
    · split
      · refine .inr (.inl ⟨new, rfl, .inl ?_⟩)
        exact Nat.le_add_left new.length (key.length + old.length)
      · exact .inl rfl
    · exact .inl rfl
  | incr key delta =>
    unfold Table.call
    simp only
    split
    · split
      · exact .inr (.inl ⟨_, rfl, .inr ⟨_, rfl⟩⟩)
      · exact .inl rfl
    · exact .inl rfl

/-- A call is about one key. -/
theorem get?_call_of_ne (map : Table) {call : MapCall} {key : Bytes} (h : key ≠ call.command.key) :
    (map.call call).2.get? key = map.get? key := by
  rcases map.call_cases call with hsame | ⟨value, hinsert, -⟩ | herase
  · rw [hsame]
  · rw [hinsert, get?_insert, if_neg h]
  · rw [herase, get?_erase, if_neg h]

/-- All values are short enough for their length to be sent. -/
def Short (map : Table) : Prop :=
  ∀ key value, map.get? key = some value → value.length < 0x100000000

theorem Short.insert {map : Table} (h : map.Short) {value : Bytes}
    (hvalue : value.length < 0x100000000) (key : Bytes) : (map.insert key value).Short := by
  intro other found hfound
  rw [get?_insert] at hfound
  by_cases heq : other = key
  · rw [if_pos heq] at hfound
    rw [← Option.some.inj hfound]
    exact hvalue
  · rw [if_neg heq] at hfound
    exact h other found hfound

theorem Short.erase {map : Table} (h : map.Short) (key : Bytes) : (map.erase key).Short := by
  intro other found hfound
  rw [get?_erase] at hfound
  by_cases heq : other = key
  · rw [if_pos heq] at hfound
    cases hfound
  · rw [if_neg heq] at hfound
    exact h other found hfound

theorem Short.call {map : Table} (h : map.Short) {call : MapCall}
    (hcall : call.command.payloadLength < 0x100000000) : (map.call call).2.Short := by
  rcases map.call_cases call with hsame | ⟨value, hinsert, hvalue⟩ | herase
  · rw [hsame]
    exact h
  · rw [hinsert]
    apply h.insert
    rcases hvalue with hpart | ⟨number, rfl⟩
    · exact Nat.lt_of_le_of_lt hpart hcall
    · exact length_writeCounter_lt number
  · rw [herase]
    exact h.erase call.command.key

/-- The reply is read as what the call returns. -/
theorem read_reply {map : Table} (h : map.Short) (id : UInt32) (call : MapCall) :
    call.read (.ok (map.reply id call)) = (map.call call).1 := by
  cases call with
  | set confirmed key value => rfl
  | get key =>
    simp only [MapCall.read, reply, Table.call]
    cases hvalue : map.get? key with
    | none => rfl
    | some value => simp only [Answer.value_value id (.inl rfl) (h key value hvalue)]
  | delete confirmed key =>
    simp only [MapCall.read, reply, Table.call]
    cases map.get? key with
    | none => rfl
    | some value => rfl
  | cas key old new =>
    simp only [MapCall.read, reply, Table.call]
    cases map.get? key with
    | none => rfl
    | some value =>
      by_cases hmatch : value = old
      · simp only [if_pos hmatch]
        rfl
      · simp only [if_neg hmatch]
        rfl
  | incr key delta =>
    simp only [MapCall.read, reply, Table.call]
    cases map.get? key with
    | none => rfl
    | some value =>
      simp only
      cases readCounter value with
      | none => rfl
      | some number => simp only [Answer.counter_counter]

theorem read_of_answered {map : Table} (h : map.Short) {id : UInt32} {call : MapCall} {reply : Reply}
    (hanswered : call.Answered reply (map.reply id call)) :
    call.read (.ok reply) = (map.call call).1 := by
  rw [← read_reply h id call]
  rcases hanswered with rfl | ⟨⟨key, rfl⟩, hcode, rfl⟩
  · rfl
  -- the code of a hit means success, and the payload is the same
  · have hok : (map.reply id (.get key)).replyCode? = some .ok := by
      unfold Reply.replyCode?
      rw [hcode]
      rfl
    have hhit : { map.reply id (.get key) with code := ReplyCode.cacheHit.word }.replyCode?
        = some .cacheHit := rfl
    unfold MapCall.read Answer.value Answer.carrying Reply.status
    simp only [hok, hhit]
    rfl

end Table

/-! ## Calls through a session -/

namespace Session

variable {σ : Type} [Transport σ]

/-- Makes a call. -/
def issue (session : Session σ) : MapCall → MapAnswer × Session σ
  | .set true key value => (session.put .sync key value).map .status id
  | .set false key value => (session.put .none key value).map .status id
  | .get key => (session.fetch .none key).map (fun found => .value found.1 found.2) id
  | .delete true key => (session.remove .sync key).map .status id
  | .delete false key => (session.remove .none key).map .status id
  | .cas key old new => (session.swap .none key old new).map .code id
  | .incr key delta =>
    (session.add .none key delta).map (fun answer => .counter answer.1 answer.2) id

theorem issue_eq (session : Session σ) (call : MapCall) :
    session.issue call = (session.dispatch call.flags call.command).map call.read id := by
  cases call with
  | set confirmed key value => cases confirmed <;> rfl
  | delete confirmed key => cases confirmed <;> rfl
  | get key => rfl
  | cas key old new => rfl
  | incr key delta => rfl

end Session

end TieredStore
