import TieredStore.Proofs.Cluster.ReadYourWrites
import TieredStore.Proofs.Server.CompareAndSwap

/-!
# Compare-and-swap is exact

The outcome of a compare-and-swap tells what the current value was, both in the reply and through a
client; after a success the new value is what is read and stored; and of attempts to replace the
same value one at most succeeds (`Server.cas_exact`).
-/

namespace TieredStore

theorem Reply.plain_inj {id : UInt32} {a b : ReplyCode} : plain id a = plain id b ↔ a = b := by
  constructor
  · intro h
    exact ReplyCode.word_inj.1 (congrArg Reply.code h)
  · rintro rfl
    rfl

namespace Session

variable {session : Session Cluster} {mode : Mode} {key old new : Datum}
  {bytes expected value : Bytes}

/-- The result of a compare-and-swap is the outcome on the server of the key. -/
theorem cas_of_server {server : Server} (hserver : session.serverOf? bytes = some server)
    (hreachable : server.reachable = true) (hkey : session.client.encode key = .ok bytes)
    (hold : session.client.encode old = .ok expected) (hnew : session.client.encode new = .ok value)
    (hfits : (Command.cas bytes expected value).payloadLength ≤ server.maxPayload) :
    (session.cas mode key old new).1
      = exchanged (server.settle.current bytes (mode = .cache)) expected (.ok (.applied 2))
          (.ok .mismatch) (.ok .notFound) := by
  let interpret (reply : Reply) : Except Error Swap :=
    (CasOutcome.ofCode (CasOutcome.codeOf reply.status)).toResult
  have hanswer : (session.dispatch (mode.flags .cas) (.cas bytes expected value)).1
      = .ok (server.handle (.make session.client.nextId (mode.flags .cas)
          (.cas bytes expected value))).1 :=
    dispatch_of_server _ hserver hreachable
  have hreply := server.settle.handle_cas_fst (session.client.nextId &&& Request.maxId)
    (mode.flags .cas) hfits
  rw [mode.isCacheOnly_flags] at hreply
  unfold Session.cas Session.call
  rw [hkey, hold, hnew]
  change (CasOutcome.ofCode (CasOutcome.codeOf (Answer.status (session.dispatch (mode.flags .cas)
    (.cas bytes expected value)).1))).toResult = _
  rw [hanswer, Server.handle_fst]
  exact (congrArg interpret hreply).trans (map_exchanged interpret ..)

end Session

namespace Server

theorem flush_table (server : Server) : server.flush.database.table = server.settle.table := by
  rw [flush, Database.flush_eq]
  rfl

variable {options : ServerOptions} {server : Server} {id : UInt32} {flags : Flags}
  {key old new : Bytes}

/-- The reply tells what the current value was. -/
theorem decides_handle_cas (id : UInt32) (flags : Flags)
    (hfits : (Command.cas key old new).payloadLength ≤ server.maxPayload) :
    let reply := (server.handle ⟨id, flags, .cas key old new⟩).1
    Decides (server.settle.current key flags.isCacheOnly) old (reply = .plain id .ok)
      (reply = .plain id .noMatch) (reply = .plain id .notIn) := by
  intro reply
  have hreply : reply = exchanged (server.settle.current key flags.isCacheOnly) old (.plain id .ok)
      (.plain id .noMatch) (.plain id .notIn) := by
    change (server.handle ⟨id, flags, .cas key old new⟩).1 = _
    rw [handle_fst, server.settle.handle_cas_fst id flags hfits]
  rw [hreply]
  exact decides_exchanged _ _ (by simp [Reply.plain_inj])

/-- A success found the expected value, and has bound the key to the new one. -/
theorem settle_of_cas_ok (hfits : (Command.cas key old new).payloadLength ≤ server.maxPayload)
    (hok : (server.handle ⟨id, flags, .cas key old new⟩).1 = .plain id .ok) :
    server.settle.current key flags.isCacheOnly = some old
      ∧ ∃ counters, (server.handle ⟨id, flags, .cas key old new⟩).2.settle
        = ({ server.settle with counters } : PromptServer).bind key new flags.isCacheOnly := by
  have hold : server.settle.current key flags.isCacheOnly = some old :=
    (decides_handle_cas id flags hfits).applied_iff.1 hok
  rw [settle_handle_snd]
  exact ⟨hold, server.settle.handle_cas_of_current id flags hfits hold⟩

/-- After a success the new value is read, from the cache or the database. -/
theorem get_after_cas (hserver : Reached options server) (hlimit : options.maxPayload < 0x100000000)
    (hfits : (Command.cas key old new).payloadLength ≤ server.maxPayload)
    (hok : (server.handle ⟨id, flags, .cas key old new⟩).1 = .plain id .ok) (id' : UInt32)
    {flags' : Flags} (hflags : flags'.isCacheOnly = flags.isCacheOnly) :
    let reply := ((server.handle ⟨id, flags, .cas key old new⟩).2.handle ⟨id', flags', .get key⟩).1
    (reply = .value id' .cacheHit new ∨ reply = .value id' .ok new)
      ∧ reply.valueBytes = .ok new := by
  intro reply
  obtain ⟨hold, counters, hafter⟩ := settle_of_cas_ok hfits hok
  have hpayload : key.length + old.length + new.length ≤ server.maxPayload := hfits
  have hmax := hserver.maxPayload_eq
  have hread : reply = .value id' .cacheHit new ∨ reply = .value id' .ok new := by
    change (Server.handle _ _).1 = _ ∨ (Server.handle _ _).1 = _
    rw [handle_fst, hafter]
    apply PromptServer.handle_get_of_current id'
    · change key.length ≤ server.maxPayload
      omega
    · rw [hflags]
      exact PromptServer.current_bind hserver.sound hold
  refine ⟨hread, ?_⟩
  have hlen : new.length < 0x100000000 := by omega
  rcases hread with hhit | hfound
  · exact (congrArg Reply.valueBytes hhit).trans (Reply.valueBytes_value id' .cacheHit hlen)
  · exact (congrArg Reply.valueBytes hfound).trans (Reply.valueBytes_value id' .ok hlen)

/-- After a success the database has the new value, or what it had. -/
theorem stored_after_cas (hfits : (Command.cas key old new).payloadLength ≤ server.maxPayload)
    (hok : (server.handle ⟨id, flags, .cas key old new⟩).1 = .plain id .ok) :
    (server.handle ⟨id, flags, .cas key old new⟩).2.flush.database.table.get? key
      = if flags.isCacheOnly then server.flush.database.table.get? key else some new := by
  obtain ⟨-, counters, hafter⟩ := settle_of_cas_ok hfits hok
  rw [flush_table, flush_table, hafter, PromptServer.get?_table_bind]

/-- Every compare-and-swap of a key that fits into a request is decided by the current value: the
cached one, or else that of the database with all its jobs done, unless the cache alone is asked.
After a success a read of the same tiers finds the new value, whatever the capacity of the cache,
and the database has it unless the cache alone was asked.  Of all attempts in a history to replace
the same value by another one, from whatever state and with whatever traffic on other keys, one at
most succeeds. -/
theorem cas_exact {options : ServerOptions} (hlimit : options.maxPayload < 0x100000000)
    {server : Server} (hserver : Reached options server) (key old : Bytes) (cacheOnly : Bool) :
    let current := (server.cache.get? key).or
      (if cacheOnly then none else server.database.settled.get? key)
    (∀ new, (Command.cas key old new).payloadLength ≤ options.maxPayload →
      (∀ id flags, flags.isCacheOnly = cacheOnly →
        let outcome := server.handle ⟨id, flags, .cas key old new⟩
        Decides current old (outcome.1 = .plain id .ok) (outcome.1 = .plain id .noMatch)
            (outcome.1 = .plain id .notIn)
          ∧ (outcome.1 = .plain id .ok →
            (∀ id' flags', flags'.isCacheOnly = cacheOnly →
              let reply := (outcome.2.handle ⟨id', flags', .get key⟩).1
              (reply = .value id' .cacheHit new ∨ reply = .value id' .ok new)
                ∧ reply.valueBytes = .ok new)
            ∧ outcome.2.flush.database.table.get? key
              = if cacheOnly then server.flush.database.table.get? key else some new))
      ∧ ∀ (session : Session Cluster) (mode : Mode) (k o n : Datum),
        decide (mode = .cache) = cacheOnly → session.serverOf? key = some server →
        server.reachable = true → session.client.encode k = .ok key →
        session.client.encode o = .ok old → session.client.encode n = .ok new →
        let result := (session.cas mode k o n).1
        Decides current old (result = .ok (.applied 2)) (result = .ok .mismatch)
          (result = .ok .notFound))
    ∧ ∀ events, (∀ call ∈ callsOf events, call.Competes key old cacheOnly) →
      ((callsOf events).zip (server.run events).1).countP
        (fun (call, sight) => call.applies key sight) ≤ 1 := by
  intro current
  have hcurrent : server.settle.current key cacheOnly = current := rfl
  rw [← hcurrent]
  refine ⟨fun new hfits => ?_, ?_⟩
  · rw [← hserver.maxPayload_eq] at hfits
    constructor
    · rintro id flags rfl
      refine ⟨decides_handle_cas id flags hfits, fun hok => ⟨?_, stored_after_cas hfits hok⟩⟩
      exact fun id' flags' hflags => get_after_cas hserver hlimit hfits hok id' hflags
    · rintro session mode k o n rfl hhome hreachable hk ho hn
      simp only
      rw [Session.cas_of_server hhome hreachable hk ho hn hfits]
      exact decides_exchanged _ _ (by simp)
  · intro events hcalls
    have hrun := congrArg Prod.fst (settle_run server events)
    change (server.run events).1 = _ at hrun
    rw [hrun]
    exact PromptServer.successes_le_one hcalls

/-- Two attempts on a key with a write still queued, between which the key is dropped and its place
in the cache taken; and one through a client. -/
theorem cas_exact_twice :
    let server := ((start ⟨some 1, 64⟩).call (.request ⟨1, .none, .set [1] [0]⟩)).2
    let session := ((Session.opened {} ⟨some 1, 64⟩ [.tipc 1]).set .direct (.bool true)
      (.bool false)).2
    let events : List ServerEvent := [.call (.request ⟨2, .none, .cas [1] [0] [7]⟩),
      .call (.evict [1]), .work 1, .call (.request ⟨3, .sync, .set [5] [6]⟩),
      .call (.request ⟨4, .none, .cas [1] [0] [8]⟩)]
    let swapped := server.handle ⟨2, .none, .cas [1] [0] [7]⟩
    swapped.1 = .plain 2 .ok
      ∧ (swapped.2.handle ⟨5, .none, .get [1]⟩).1.valueBytes = .ok [7]
      ∧ swapped.2.flush.database.table.get? [1] = some [7]
      ∧ (session.cas .direct (.bool true) (.bool false) (.bool true)).1 = .ok (.applied 2)
      ∧ ((callsOf events).zip (server.run events).1).countP
        (fun (call, sight) => call.applies [1] sight) ≤ 1 := by
  intro server session events swapped
  have hserver : Reached ⟨some 1, 64⟩ server := Reached.start.call _
  obtain ⟨hone, hmany⟩ := cas_exact (by decide) hserver [1] [0] false
  obtain ⟨hreply, -⟩ := hone [7] (by decide)
  obtain ⟨hdecides, hafter⟩ := hreply 2 .none rfl
  have hok : swapped.1 = .plain 2 .ok := hdecides.applied_iff.2 rfl
  obtain ⟨hread, hstored⟩ := hafter hok
  have hresult := (hone [1] (by decide)).2 session .direct (.bool true) (.bool false) (.bool true)
    rfl rfl rfl rfl rfl rfl
  have hcompetes (new : Bytes) (hne : new ≠ [0]) (id : UInt32) :
      (ServerCall.request ⟨id, .none, .cas [1] [0] new⟩).Competes [1] [0] false :=
    .inr ⟨new, hne, rfl, rfl⟩
  have hcalls : ∀ call ∈ callsOf events, call.Competes [1] [0] false := by
    have hother : (ServerCall.request ⟨3, .sync, .set [5] [6]⟩).Competes [1] [0] false :=
      .inl (by decide)
    simp only [callsOf, events, List.filterMap_cons, List.filterMap_nil, List.forall_mem_cons]
    exact ⟨hcompetes [7] (by decide) 2, trivial, hother, hcompetes [8] (by decide) 4,
      List.forall_mem_nil _⟩
  exact ⟨hok, (hread 5 .none rfl).2, hstored, hresult.applied_iff.2 rfl, hmany events hcalls⟩

end Server

end TieredStore
