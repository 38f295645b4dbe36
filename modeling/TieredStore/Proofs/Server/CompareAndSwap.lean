import TieredStore.Proofs.Server.Follows
import TieredStore.Proofs.Server.Reached
import TieredStore.Proofs.Server.Undisturbed

/-!
# Compare-and-swap on one server

A compare-and-swap is decided by the value that the key has in the tiers that it is for, and leaves
the new value there if it was the expected one (`PromptServer.current_bind`).  After that the key
does not have the expected value any more, whatever the cache drops, so that of several attempts
which expect the same value one at most succeeds (`PromptServer.successes_le_one`).
-/

namespace TieredStore

/-! ## Three outcomes -/

/-- One of three outcomes: for a current value that is the expected one, for another, for none. -/
def exchanged {α : Type} (current : Option Bytes) (old : Bytes) (applied mismatch absent : α) : α :=
  match current with
  | none => absent
  | some value => if value = old then applied else mismatch

theorem map_exchanged {α β : Type} (f : α → β) (current : Option Bytes) (old : Bytes)
    (applied mismatch absent : α) :
    f (exchanged current old applied mismatch absent)
      = exchanged current old (f applied) (f mismatch) (f absent) := by
  unfold exchanged
  split
  · rfl
  · split
    · rfl
    · rfl

/-- Three outcomes are told apart by the current value. -/
structure Decides (current : Option Bytes) (old : Bytes) (applied mismatch absent : Prop) :
    Prop where
  applied_iff : applied ↔ current = some old
  mismatch_iff : mismatch ↔ ∃ value, current = some value ∧ value ≠ old
  absent_iff : absent ↔ current = none

theorem decides_exchanged {α : Type} {applied mismatch absent : α} (current : Option Bytes)
    (old : Bytes) (h : [applied, mismatch, absent].Nodup) :
    let outcome := exchanged current old applied mismatch absent
    Decides current old (outcome = applied) (outcome = mismatch) (outcome = absent) := by
  simp only [List.nodup_cons, List.mem_cons, List.not_mem_nil, or_false, not_or] at h
  obtain ⟨⟨hmismatch, habsent⟩, hboth, -⟩ := h
  cases current with
  | none => constructor <;> simp [exchanged, Ne.symm habsent, Ne.symm hboth]
  | some value =>
    by_cases hmatch : value = old
    · constructor <;> simp [exchanged, hmatch, hmismatch, habsent]
    · constructor <;> simp [exchanged, hmatch, Ne.symm hmismatch, hboth]

namespace PromptServer

/-! ## One attempt -/

variable {server : PromptServer} {flags : Flags} {key old new : Bytes} {cacheOnly : Bool}

theorem cas_eq (server : PromptServer) (id : UInt32) (key old new : Bytes) (cacheOnly : Bool) :
    ∃ counters, let counted : PromptServer := { server with counters }
      server.cas id key old new cacheOnly
        = exchanged (server.current key cacheOnly) old
            (.plain id .ok, counted.bind key new cacheOnly)
            (.plain id .noMatch, counted) (.plain id .notIn, counted) := by
  have hcurrent : (server.tally fun c => { c with swaps := c.swaps + 1 }).current key cacheOnly
      = server.current key cacheOnly := rfl
  refine ⟨{ server.counters with swaps := server.counters.swaps + 1 }, ?_⟩
  unfold cas exchanged
  simp only [hcurrent]
  cases server.current key cacheOnly with
  | none => rfl
  | some value => rfl

theorem handle_cas (server : PromptServer) (id : UInt32) (flags : Flags) {key old new : Bytes}
    (hfits : (Command.cas key old new).payloadLength ≤ server.maxPayload) :
    ∃ counters, let counted : PromptServer := { server with counters }
      server.handle ⟨id, flags, .cas key old new⟩
        = exchanged (server.current key flags.isCacheOnly) old
            (.plain id .ok, counted.bind key new flags.isCacheOnly)
            (.plain id .noMatch, counted) (.plain id .notIn, counted) := by
  obtain ⟨counters, hcas⟩ := (server.tally fun c => { c with requests := c.requests + 1 }).cas_eq id
    key old new flags.isCacheOnly
  exact ⟨counters, (if_neg (Nat.not_lt.2 hfits)).trans hcas⟩

theorem handle_cas_fst (server : PromptServer) (id : UInt32) (flags : Flags) {key old new : Bytes}
    (hfits : (Command.cas key old new).payloadLength ≤ server.maxPayload) :
    (server.handle ⟨id, flags, .cas key old new⟩).1
      = exchanged (server.current key flags.isCacheOnly) old (.plain id .ok) (.plain id .noMatch)
          (.plain id .notIn) := by
  obtain ⟨counters, houtcome⟩ := server.handle_cas id flags hfits
  exact (congrArg Prod.fst houtcome).trans (map_exchanged Prod.fst ..)

theorem handle_cas_of_current (server : PromptServer) (id : UInt32) (flags : Flags)
    {key old new : Bytes} (hfits : (Command.cas key old new).payloadLength ≤ server.maxPayload)
    (h : server.current key flags.isCacheOnly = some old) :
    ∃ counters, (server.handle ⟨id, flags, .cas key old new⟩).2
      = ({ server with counters } : PromptServer).bind key new flags.isCacheOnly := by
  obtain ⟨counters, houtcome⟩ := server.handle_cas id flags hfits
  refine ⟨counters, ?_⟩
  rw [houtcome, h]
  simp only [exchanged, if_true]

/-- An attempt that succeeds binds the key, and one that does not leaves the tiers alone. -/
theorem handle_cas_cases (server : PromptServer) (id : UInt32) (flags : Flags)
    (key old new : Bytes) :
    let outcome := server.handle ⟨id, flags, .cas key old new⟩
    ∃ counters, let counted : PromptServer := { server with counters }
      server.current key flags.isCacheOnly = some old
          ∧ outcome = (.plain id .ok, counted.bind key new flags.isCacheOnly)
        ∨ outcome.1.code ≠ ReplyCode.ok.word ∧ outcome.2 = counted := by
  intro outcome
  by_cases hfits : (Command.cas key old new).payloadLength ≤ server.maxPayload
  · obtain ⟨counters, houtcome⟩ := server.handle_cas id flags hfits
    have houtcome : outcome = _ := houtcome
    refine ⟨counters, ?_⟩
    rw [houtcome]
    unfold exchanged
    cases server.current key flags.isCacheOnly with
    | none => exact .inr ⟨(by decide : ReplyCode.notIn.word ≠ ReplyCode.ok.word), rfl⟩
    | some value =>
      simp only
      by_cases hmatch : value = old
      · rw [if_pos hmatch]
        exact .inl ⟨congrArg some hmatch, rfl⟩
      · rw [if_neg hmatch]
        exact .inr ⟨(by decide : ReplyCode.noMatch.word ≠ ReplyCode.ok.word), rfl⟩
  · have houtcome : outcome = _ := handle_of_large server _ (Nat.lt_of_not_le hfits)
    refine ⟨_, .inr ⟨?_, congrArg Prod.snd houtcome⟩⟩
    rw [houtcome]
    exact (by decide : ReplyCode.error.word ≠ ReplyCode.ok.word)

/-! ## The value that it leaves -/

/-- The new value is there to be read, in the tiers that it was written to. -/
theorem current_bind (hsound : server.cache.Sound) (h : server.current key cacheOnly = some old) :
    (server.bind key new cacheOnly).current key cacheOnly = some new := by
  cases cacheOnly with
  | false => exact (server.holds_bind key new).current_eq
  | true =>
    -- the key was shown, so it has its place in the cache already
    have hshown : server.cache.get? key = some old := by
      rw [← h]
      exact Option.or_none.symm
    change ((server.cache.insert key new).get? key).or none = some new
    rw [hsound.get?_insert_self hshown]
    rfl

theorem get_of_current {value : Bytes} (id : UInt32)
    (h : server.current key cacheOnly = some value) :
    (server.get id key cacheOnly).1 = .value id .cacheHit value
      ∨ (server.get id key cacheOnly).1 = .value id .ok value := by
  unfold current at h
  unfold get
  cases hshown : server.cache.get? key with
  | some shown =>
    rw [hshown, Option.some_or] at h
    cases h
    exact .inl rfl
  | none =>
    rw [hshown, Option.none_or] at h
    cases cacheOnly with
    | true => cases h
    | false =>
      have hstored : (server.tally fun c => { c with cacheMisses := c.cacheMisses + 1 }).table.get?
          key = some value := h
      right
      simp only [Bool.false_eq_true, if_false, hstored]

theorem handle_get_of_current {value : Bytes} (id : UInt32) (hfits : key.length ≤ server.maxPayload)
    (h : server.current key flags.isCacheOnly = some value) :
    (server.handle ⟨id, flags, .get key⟩).1 = .value id .cacheHit value
      ∨ (server.handle ⟨id, flags, .get key⟩).1 = .value id .ok value := by
  have hlimit : ¬server.maxPayload < (Command.get key).payloadLength := Nat.not_lt.2 hfits
  have hhandle : server.handle ⟨id, flags, .get key⟩
      = (server.tally fun c => { c with requests := c.requests + 1 }).get id key
          flags.isCacheOnly :=
    if_neg hlimit
  rw [hhandle]
  exact get_of_current id h

theorem get?_table_bind (server : PromptServer) (key new : Bytes) (cacheOnly : Bool) :
    (server.bind key new cacheOnly).table.get? key
      = if cacheOnly then server.table.get? key else some new := by
  cases cacheOnly with
  | true => rfl
  | false =>
    change (server.table.insert key new).get? key = some new
    rw [Table.get?_insert, if_pos rfl]

/-! ## Many attempts -/

/-- A key does not have a value, in any of the tiers that a request is for. -/
structure Spent (server : PromptServer) (key old : Bytes) (cacheOnly : Bool) : Prop where
  shown : server.cache.get? key ≠ some old
  stored : cacheOnly = false → server.table.get? key ≠ some old

theorem spent_bind (server : PromptServer) (key : Bytes) {old new : Bytes} (h : new ≠ old)
    (cacheOnly : Bool) : (server.bind key new cacheOnly).Spent key old cacheOnly := by
  constructor
  -- the cache may have dropped it at once
  · intro hshown
    have hinsert := Cache.get?_of_get?_insert hshown
    rw [if_pos rfl] at hinsert
    exact h (Option.some.inj hinsert)
  · rintro rfl
    rw [get?_table_bind]
    exact fun hstored => h (Option.some.inj hstored)

namespace Spent

theorem current_ne (h : server.Spent key old cacheOnly) :
    server.current key cacheOnly ≠ some old := by
  unfold current
  cases hshown : server.cache.get? key with
  | some shown =>
    rw [Option.some_or, ← hshown]
    exact h.shown
  | none =>
    rw [Option.none_or]
    cases cacheOnly with
    | true => exact fun h => nomatch h
    | false => exact h.stored rfl

theorem undisturbed (h : server.Spent key old cacheOnly) {after : PromptServer}
    (hquiet : Undisturbed key server after) : after.Spent key old cacheOnly := by
  constructor
  · rcases hquiet.shown with hsame | ⟨-, hgone⟩
    · rw [hsame]
      exact h.shown
    · rw [hgone]
      exact fun h => nomatch h
  · intro hboth
    rw [hquiet.stored]
    exact h.stored hboth

theorem evict (h : server.Spent key old cacheOnly) (dropped : Bytes) :
    (server.evict dropped).2.Spent key old cacheOnly := by
  refine ⟨?_, h.stored⟩
  change (server.cache.erase dropped).get? key ≠ some old
  rw [Cache.get?_erase]
  split
  · exact fun h => nomatch h
  · exact h.shown

end Spent

end PromptServer

/-- A call is an attempt to replace one value of a key by another, or is about other keys.  Any key
may be dropped from the cache. -/
def ServerCall.Competes (key old : Bytes) (cacheOnly : Bool) : ServerCall → Prop
  | .request ⟨_, flags, command⟩ =>
    command.subject? ≠ some key
      ∨ ∃ new, new ≠ old ∧ command = .cas key old new ∧ flags.isCacheOnly = cacheOnly
  | .evict _ => True

/-- Whether a call is a compare-and-swap of a key that was answered with success. -/
def ServerCall.applies (key : Bytes) : ServerCall → ServerSight → Bool
  | .request ⟨_, _, .cas subject _ _⟩, .reply reply =>
    subject = key && reply.code = ReplyCode.ok.word
  | _, _ => false

namespace PromptServer

variable {server : PromptServer} {key old : Bytes} {cacheOnly : Bool} {call : ServerCall}

theorem applies_of_other {request : Request} (h : request.command.subject? ≠ some key)
    (sight : ServerSight) : (ServerCall.request request).applies key sight = false := by
  obtain ⟨id, flags, command⟩ := request
  cases command with
  | cas subject old new =>
    have hne : subject ≠ key := fun heq => h (congrArg some heq)
    cases sight <;> simp [ServerCall.applies, hne]
  | _ => rfl

/-- An attempt succeeds only where the key has the expected value, and leaves it without. -/
theorem call_of_competes (server : PromptServer) (hcall : call.Competes key old cacheOnly) :
    (call.applies key (server.call call).1 = false
        ∧ (server.Spent key old cacheOnly → (server.call call).2.Spent key old cacheOnly))
      ∨ ¬server.Spent key old cacheOnly ∧ (server.call call).2.Spent key old cacheOnly := by
  cases call with
  | evict dropped => exact .inl ⟨rfl, fun h => h.evict dropped⟩
  | request request =>
    obtain ⟨id, flags, command⟩ := request
    rcases hcall with hother | ⟨new, hne, rfl, rfl⟩
    · left
      refine ⟨applies_of_other hother _, fun h => h.undisturbed ?_⟩
      exact undisturbed_handle server _ hother
    · obtain ⟨counters, ⟨hcurrent, houtcome⟩ | ⟨hcode, hafter⟩⟩ :=
        server.handle_cas_cases id flags key old new
      · right
        refine ⟨fun h => h.current_ne hcurrent, ?_⟩
        change (server.handle _).2.Spent _ _ _
        rw [houtcome]
        exact spent_bind _ key hne _
      · left
        constructor
        · change (decide (key = key) && decide (_ = _)) = false
          rw [decide_eq_false hcode, Bool.and_false]
        · intro h
          change (server.handle _).2.Spent _ _ _
          rw [hafter]
          exact ⟨h.shown, h.stored⟩

/-- How many compare-and-swaps of a key a history of calls has seen succeed. -/
def successes (key : Bytes) (server : PromptServer) (calls : List ServerCall) : Nat :=
  (calls.zip (server.run calls).1).countP fun (call, sight) => call.applies key sight

theorem successes_cons (call : ServerCall) (calls : List ServerCall) :
    server.successes key (call :: calls)
      = (server.call call).2.successes key calls
        + if call.applies key (server.call call).1 then 1 else 0 :=
  List.countP_cons ..

/-- No attempt succeeds any more. -/
theorem Spent.successes_eq_zero (h : server.Spent key old cacheOnly) {calls : List ServerCall}
    (hcalls : ∀ call ∈ calls, call.Competes key old cacheOnly) :
    server.successes key calls = 0 := by
  induction calls generalizing server with
  | nil => rfl
  | cons call calls ih =>
    rw [List.forall_mem_cons] at hcalls
    rcases call_of_competes server hcalls.1 with ⟨hnot, hkeeps⟩ | ⟨hno, -⟩
    · rw [successes_cons, hnot, ih (hkeeps h) hcalls.2]
      rfl
    · exact absurd h hno

/-- Of attempts to replace the same value one at most succeeds. -/
theorem successes_le_one {calls : List ServerCall}
    (hcalls : ∀ call ∈ calls, call.Competes key old cacheOnly) :
    server.successes key calls ≤ 1 := by
  induction calls generalizing server with
  | nil => exact Nat.zero_le _
  | cons call calls ih =>
    rw [List.forall_mem_cons] at hcalls
    rw [successes_cons]
    rcases call_of_competes server hcalls.1 with ⟨hnot, -⟩ | ⟨-, hspent⟩
    · rw [hnot]
      exact ih hcalls.2
    -- the first success, after which there is no other
    · rw [hspent.successes_eq_zero hcalls.2, Nat.zero_add]
      split
      · exact Nat.le_refl _
      · exact Nat.zero_le _

end PromptServer

end TieredStore
