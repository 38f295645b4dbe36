import TieredStore.Proofs.Server.CompareAndSwap
import TieredStore.Proofs.Store.StoredCounter

/-!
# Increments add up

An increment in both tiers reads the current number and leaves the sum in both of them, so that from
then on the cache may drop the key without harm (`PromptServer.Holds.call_of_counts`).  In a history
of increments among traffic on other keys each reply carries the sum of all increments up to it
(`Server.increments_add_up`).
-/

namespace TieredStore

/-! ## What a history adds -/

/-- The number that a call adds to the counter under a key, if it is an increment of it in both
tiers. -/
def ServerCall.added? (key : Bytes) : ServerCall → Option Int64
  | .request ⟨_, flags, .incr subject delta⟩ =>
    if subject = key ∧ flags.isCacheOnly = false then some delta else none
  | _ => none

/-- A call is an increment of a key in both tiers, or is about other keys.  Any key may be dropped
from the cache. -/
def ServerCall.Counts (key : Bytes) : ServerCall → Prop
  | .request ⟨_, flags, command⟩ =>
    command.subject? ≠ some key ∨ ∃ delta, command = .incr key delta ∧ flags.isCacheOnly = false
  | .evict _ => True

/-- The sum of all that calls add to the counter under a key, however large it is. -/
def addedTo (key : Bytes) (calls : List ServerCall) : Int :=
  (calls.filterMap (ServerCall.added? key)).foldr (fun delta total => delta.toInt + total) 0

/-- The number that a counter has after some calls: the exact sum, cut down to 64 bits. -/
def counted (n : Int64) (key : Bytes) (calls : List ServerCall) : Int64 :=
  .ofInt (n.toInt + addedTo key calls)

theorem counted_nil (n : Int64) (key : Bytes) : counted n key [] = n := by
  unfold counted addedTo
  rw [List.filterMap_nil, List.foldr_nil, Int.add_zero, Int64.ofInt_toInt]

/-- To wrap at every step is to wrap once at the end. -/
theorem counted_cons (n : Int64) (key : Bytes) (call : ServerCall) (calls : List ServerCall) :
    counted n key (call :: calls) = counted (n + (call.added? key).getD 0) key calls := by
  unfold counted addedTo
  cases hadded : call.added? key with
  | none => rw [List.filterMap_cons_none hadded, Option.getD_none, Int64.add_zero]
  | some delta =>
    rw [List.filterMap_cons_some hadded, List.foldr_cons, Option.getD_some]
    simp only [Int64.ofInt_add, Int64.ofInt_toInt, Int64.add_assoc]

theorem ServerCall.added?_incr (id : UInt32) {flags : Flags} (hboth : flags.isCacheOnly = false)
    (key : Bytes) (delta : Int64) :
    (ServerCall.request ⟨id, flags, .incr key delta⟩).added? key = some delta :=
  if_pos ⟨rfl, hboth⟩

theorem ServerCall.added?_of_other {key : Bytes} {request : Request}
    (h : request.command.subject? ≠ some key) : (ServerCall.request request).added? key = none := by
  obtain ⟨id, flags, command⟩ := request
  cases command with
  | incr subject delta =>
    have hne : ¬(subject = key ∧ flags.isCacheOnly = false) :=
      fun hsame => h (congrArg some hsame.1)
    exact if_neg hne
  | _ => rfl

namespace PromptServer

variable {server : PromptServer} {key value : Bytes} {n : Int64}

/-! ## One increment -/

/-- An increment finds the current number, answers with the sum, and binds the key to it. -/
theorem handle_incr_of_current (id : UInt32) {flags : Flags} (hboth : flags.isCacheOnly = false)
    (delta : Int64) (hfits : key.length ≤ server.maxPayload)
    (hcurrent : server.current key false = some value) (hnumber : readCounter value = some n) :
    ∃ counters, server.handle ⟨id, flags, .incr key delta⟩
      = (.counter id (n + delta),
        ({ server with counters } : PromptServer).bind key (writeCounter (n + delta)) false) := by
  have hlimit : ¬server.maxPayload < (Command.incr key delta).payloadLength := Nat.not_lt.2 hfits
  let counters := { server.counters with
    requests := server.counters.requests + 1
    increments := server.counters.increments + 1 }
  -- counting changes no tier, so the same value is found
  have hfound : ({ server with counters } : PromptServer).current key false = some value := hcurrent
  refine ⟨counters, ?_⟩
  have hhandle : server.handle ⟨id, flags, .incr key delta⟩
      = (server.tally fun c => { c with requests := c.requests + 1 }).incr id key delta
          flags.isCacheOnly :=
    if_neg hlimit
  rw [hhandle, hboth]
  unfold incr tally
  simp only [counters] at hfound
  simp only [hfound, hnumber]
  rfl

theorem call_incr_of_current (id : UInt32) {flags : Flags} (hboth : flags.isCacheOnly = false)
    (delta : Int64) (hfits : key.length ≤ server.maxPayload)
    (hcurrent : server.current key false = some value) (hnumber : readCounter value = some n) :
    (server.call (.request ⟨id, flags, .incr key delta⟩)).1 = .reply (.counter id (n + delta))
      ∧ (server.call (.request ⟨id, flags, .incr key delta⟩)).2.Holds key
        (some (writeCounter (n + delta))) := by
  obtain ⟨counters, houtcome⟩ := handle_incr_of_current id hboth delta hfits hcurrent hnumber
  have hreply : (server.handle ⟨id, flags, .incr key delta⟩).1 = .counter id (n + delta) := by
    rw [houtcome]
  refine ⟨congrArg ServerSight.reply hreply, ?_⟩
  show (server.handle ⟨id, flags, .incr key delta⟩).2.Holds _ _
  rw [houtcome]
  exact holds_bind _ key _

/-- A call leaves the sum in both tiers, which is what it answers if it is an increment. -/
theorem Holds.call_of_counts (h : server.Holds key (some (writeCounter n)))
    (hfits : key.length ≤ server.maxPayload) {call : ServerCall} (hcall : call.Counts key) :
    (server.call call).2.Holds key (some (writeCounter (n + (call.added? key).getD 0)))
      ∧ ∀ id flags delta, call = .request ⟨id, flags, .incr key delta⟩ →
        (server.call call).1 = .reply (.counter id (n + (call.added? key).getD 0)) := by
  cases call with
  | evict dropped =>
    have hsame : n + ((ServerCall.evict dropped).added? key).getD 0 = n := Int64.add_zero n
    rw [hsame]
    exact ⟨h.evict dropped, fun _ _ _ heq => nomatch heq⟩
  | request request =>
    obtain ⟨id, flags, command⟩ := request
    rcases hcall with hother | ⟨delta, rfl, hboth⟩
    · rw [ServerCall.added?_of_other hother, Option.getD_none, Int64.add_zero]
      refine ⟨(undisturbed_handle server _ hother).holds h, ?_⟩
      intro _ _ _ heq
      cases heq
      exact absurd rfl hother
    · obtain ⟨hsight, hafter⟩ := call_incr_of_current id hboth delta hfits h.current_eq
        (readCounter_writeCounter n)
      rw [ServerCall.added?_incr id hboth, Option.getD_some]
      refine ⟨hafter, ?_⟩
      intro _ _ _ heq
      cases heq
      exact hsight

/-! ## Many increments -/

/-- The replies to the increments among some calls carry the sums up to them. -/
def RunningSums (n : Int64) (key : Bytes) (calls : List ServerCall) (sights : List ServerSight) :
    Prop :=
  ∀ (i : Nat) (id : UInt32) (flags : Flags) (delta : Int64),
    calls[i]? = some (.request ⟨id, flags, .incr key delta⟩) →
    sights[i]? = some (.reply (.counter id (counted n key (calls.take (i + 1)))))

theorem RunningSums.cons {call : ServerCall} {calls : List ServerCall} {sight : ServerSight}
    {sights : List ServerSight}
    (hfirst : ∀ id flags delta, call = .request ⟨id, flags, .incr key delta⟩ →
      sight = .reply (.counter id (n + (call.added? key).getD 0)))
    (hrest : RunningSums (n + (call.added? key).getD 0) key calls sights) :
    RunningSums n key (call :: calls) (sight :: sights) := by
  intro i id flags delta hcall
  rw [List.take_succ_cons, counted_cons]
  cases i with
  | zero =>
    rw [List.take_zero, counted_nil, hfirst id flags delta (Option.some.inj hcall)]
    rfl
  | succ i => exact hrest i id flags delta hcall

theorem Holds.run_of_counts (h : server.Holds key (some (writeCounter n)))
    (hfits : key.length ≤ server.maxPayload) {calls : List ServerCall}
    (hcalls : ∀ call ∈ calls, call.Counts key) :
    (server.run calls).2.Holds key (some (writeCounter (counted n key calls)))
      ∧ RunningSums n key calls (server.run calls).1 := by
  induction calls generalizing server n with
  | nil =>
    rw [counted_nil]
    refine ⟨h, ?_⟩
    intro i _ _ _ hcall
    cases hcall
  | cons call calls ih =>
    rw [List.forall_mem_cons] at hcalls
    obtain ⟨hafter, hsight⟩ := h.call_of_counts hfits hcalls.1
    rw [← server.maxPayload_call call] at hfits
    obtain ⟨hend, hsums⟩ := ih hafter hfits hcalls.2
    rw [counted_cons]
    exact ⟨hend, hsums.cons hsight⟩

/-- The first increment may find its number in the cache alone; the others find it in both tiers. -/
theorem run_of_counter (hfits : key.length ≤ server.maxPayload)
    (hcurrent : server.current key false = some value) (hnumber : readCounter value = some n)
    (id : UInt32) {flags : Flags} (hboth : flags.isCacheOnly = false) (delta : Int64)
    {calls : List ServerCall} (hcalls : ∀ call ∈ calls, call.Counts key) :
    let history := .request ⟨id, flags, .incr key delta⟩ :: calls
    (server.run history).2.Holds key (some (writeCounter (counted n key history)))
      ∧ RunningSums n key history (server.run history).1 := by
  intro history
  obtain ⟨hsight, hafter⟩ := call_incr_of_current id hboth delta hfits hcurrent hnumber
  rw [← server.maxPayload_call (.request ⟨id, flags, .incr key delta⟩)] at hfits
  obtain ⟨hend, hsums⟩ := hafter.run_of_counts hfits hcalls
  have hadded := ServerCall.added?_incr id hboth key delta
  rw [counted_cons, hadded, Option.getD_some]
  refine ⟨hend, .cons ?_ ?_⟩
  · intro _ _ _ heq
    cases heq
    rw [hadded]
    exact hsight
  · rw [hadded]
    exact hsums

end PromptServer

namespace Server

/-- From the first increment of a counter on, with whatever traffic and evictions in between, every
reply to an increment carries the number at the beginning and all that was added up to it, cut down
to 64 bits.  At the end the numeral of the last one, with a NUL after it, is read by whoever asks
both tiers, and the database has it once its jobs are done.  Every number has a stored form that is
read back. -/
theorem increments_add_up (server : Server) {key value : Bytes} {n : Int64}
    (hfits : key.length ≤ server.maxPayload)
    (hcurrent : (server.cache.get? key).or (server.database.settled.get? key) = some value)
    (hnumber : readCounter value = some n) (id : UInt32) {flags : Flags}
    (hboth : flags.isCacheOnly = false) (delta : Int64) {events : List ServerEvent}
    (hcalls : ∀ call ∈ callsOf events, call.Counts key) :
    let history : List ServerEvent := .call (.request ⟨id, flags, .incr key delta⟩) :: events
    let calls := callsOf history
    let last := counted n key calls
    let text := Text.Utf8.encode (Text.decimal last.toInt) ++ [0]
    let after := (server.run history).2
    (∀ (i : Nat) (id : UInt32) (flags : Flags) (delta : Int64),
      calls[i]? = some (.request ⟨id, flags, .incr key delta⟩) →
      ∃ reply, (server.run history).1[i]? = some (.reply reply)
        ∧ reply = .counter id (counted n key (calls.take (i + 1)))
        ∧ reply.counterValue = .ok (counted n key (calls.take (i + 1))))
      ∧ (∀ id flags, flags.isCacheOnly = false →
        let reply := (after.handle ⟨id, flags, .get key⟩).1
        (reply = .value id .cacheHit text ∨ reply = .value id .ok text)
          ∧ reply.valueBytes = .ok text)
      ∧ after.flush.database.table.get? key = some text
      ∧ ∀ m : Int64, readCounter (Text.Utf8.encode (Text.decimal m.toInt) ++ [0]) = some m := by
  intro history calls last text after
  obtain ⟨hend, hsums⟩ := server.settle.run_of_counter hfits hcurrent hnumber id hboth delta hcalls
  have hrun := settle_run server history
  have hsights : (server.run history).1 = (server.settle.run calls).1 := congrArg Prod.fst hrun
  have hsettle : after.settle = (server.settle.run calls).2 := congrArg Prod.snd hrun
  have hholds : after.settle.Holds key (some text) := hsettle ▸ hend
  refine ⟨?_, ?_, ?_, readCounter_writeCounter⟩
  · intro i id flags delta hcall
    refine ⟨_, ?_, rfl, Reply.counterValue_counter id _⟩
    rw [hsights]
    exact hsums i id flags delta hcall
  · intro id flags hflags reply
    have hafter : key.length ≤ after.settle.maxPayload := by
      show key.length ≤ (server.run history).2.maxPayload
      rw [maxPayload_run]
      exact hfits
    have hread : reply = .value id .cacheHit text ∨ reply = .value id .ok text := by
      show (after.handle ⟨id, flags, .get key⟩).1 = _ ∨ (after.handle ⟨id, flags, .get key⟩).1 = _
      rw [handle_fst]
      exact PromptServer.handle_get_of_current id hafter (hflags ▸ hholds.current_eq)
    have hshort : text.length < 0x100000000 := length_writeCounter_lt last
    refine ⟨hread, ?_⟩
    rcases hread with hhit | hfound
    · rw [hhit, Reply.valueBytes_value id .cacheHit hshort]
    · rw [hfound, Reply.valueBytes_value id .ok hshort]
  · rw [flush, Database.flush_eq]
    exact hholds.stored

/-- The greatest number is in the cache alone, and one is added to it.  Then the key is dropped and
its place in the cache taken, before two is subtracted. -/
theorem increments_add_up_past_greatest :
    let server := ((start ⟨some 1, 64⟩).call
      (.request ⟨1, .cacheOnly, .set [1] (writeCounter Int64.maxValue)⟩)).2
    let history : List ServerEvent := [.call (.request ⟨2, .none, .incr [1] 1⟩),
      .call (.evict [1]), .work 1, .call (.request ⟨3, .sync, .set [5] [6]⟩),
      .call (.request ⟨4, .sync, .incr [1] (-2)⟩)]
    (server.run history).1[0]? = some (.reply (.counter 2 Int64.minValue))
      ∧ (server.run history).1[3]? = some (.reply (.counter 4 (Int64.maxValue - 1)))
      ∧ ((server.run history).2.handle ⟨5, .none, .get [1]⟩).1.valueBytes
        = .ok (writeCounter (Int64.maxValue - 1)) := by
  intro server history
  have hcurrent : (server.cache.get? [1]).or (server.database.settled.get? [1])
      = some (writeCounter Int64.maxValue) := rfl
  have hcalls : ∀ call ∈ callsOf history.tail, call.Counts [1] := by
    have hother : (ServerCall.request ⟨3, .sync, .set [5] [6]⟩).Counts [1] := .inl (by decide)
    have hsame : (ServerCall.request ⟨4, .sync, .incr [1] (-2)⟩).Counts [1] :=
      .inr ⟨-2, rfl, by decide⟩
    simp only [callsOf, history, List.tail_cons, List.filterMap_cons, List.filterMap_nil,
      List.forall_mem_cons]
    exact ⟨trivial, hother, hsame, List.forall_mem_nil _⟩
  obtain ⟨hreplies, hread, -, -⟩ := increments_add_up server (by decide) hcurrent
    (readCounter_writeCounter Int64.maxValue) 2 (show Flags.none.isCacheOnly = false by decide) 1
    hcalls
  obtain ⟨_, hfirst, rfl, -⟩ := hreplies 0 2 .none 1 rfl
  obtain ⟨_, hlast, rfl, -⟩ := hreplies 3 4 .sync (-2) rfl
  exact ⟨hfirst, hlast, (hread 5 .none (by decide)).2⟩

end Server

end TieredStore
