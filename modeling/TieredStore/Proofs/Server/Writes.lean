import TieredStore.Proofs.Server.CompareAndSwap

/-!
# What the caller can tell of the database

A request and its reply together tell which write they have made to the database, if any
(`Request.write?`).  What the database has once its jobs are done is what these writes, one after
another, have made of it (`Server.settled_run`).
-/

namespace TieredStore

/-- The write to the database that a request has made, as its reply tells. -/
def Request.write? (request : Request) (reply : Reply) : Option Job :=
  if request.flags.isCacheOnly ∨ reply.code ≠ ReplyCode.ok.word then none
  else
    match request.command with
    | .set key value => some (.put key value)
    | .delete key => some (.erase key)
    | .cas key _ new => some (.put key new)
    | .incr key _ =>
      match reply.counterValue with
      | .ok number => some (.put key (writeCounter number))
      | .error _ => none
    | .get _ | .stats | .firstKey | .nextKey _ => none

/-- The write to the database that a call has made, as what was shown for it tells. -/
def ServerCall.write? : ServerCall → ServerSight → Option Job
  | .request asked, .reply reply => asked.write? reply
  | _, _ => none

/-- The writes to the database among some calls, as what was shown tells, in their order. -/
def writesOf (calls : List ServerCall) (sights : List ServerSight) : List Job :=
  (calls.zip sights).filterMap fun entry => entry.1.write? entry.2

theorem writesOf_cons (call : ServerCall) (calls : List ServerCall) (sight : ServerSight)
    (sights : List ServerSight) :
    writesOf (call :: calls) (sight :: sights)
      = (call.write? sight).toList ++ writesOf calls sights := by
  unfold writesOf
  rw [List.zip_cons_cons, List.filterMap_cons]
  cases call.write? sight with
  | none => rfl
  | some job => rfl

namespace Request

variable {request : Request} {reply : Reply}

theorem write?_of_code_ne (h : reply.code ≠ ReplyCode.ok.word) : request.write? reply = none :=
  if_pos (.inr h)

theorem write?_of_plain (id : UInt32) {code : ReplyCode} (h : code ≠ .ok) :
    request.write? (.plain id code) = none :=
  write?_of_code_ne fun hword => h (ReplyCode.word_inj.1 hword)

theorem write?_of_cacheOnly (h : request.flags.isCacheOnly = true) : request.write? reply = none :=
  if_pos (.inl h)

/-- A write to both tiers is told by a success. -/
theorem write?_of_ok (hboth : request.flags.isCacheOnly = false)
    (hcode : reply.code = ReplyCode.ok.word) :
    request.write? reply = match request.command with
      | .set key value => some (.put key value)
      | .delete key => some (.erase key)
      | .cas key _ new => some (.put key new)
      | .incr key _ =>
        match reply.counterValue with
        | .ok number => some (.put key (writeCounter number))
        | .error _ => none
      | .get _ | .stats | .firstKey | .nextKey _ => none := by
  have hsuccess : ¬(request.flags.isCacheOnly = true ∨ reply.code ≠ ReplyCode.ok.word) := by
    simp [hboth, hcode]
  exact if_neg hsuccess

/-- These commands write nothing, whatever they are answered. -/
theorem write?_of_reads
    (h : request.command.type ∈ [CommandType.get, .stats, .firstKey, .nextKey]) :
    request.write? reply = none := by
  obtain ⟨id, flags, command⟩ := request
  unfold write?
  split
  · rfl
  · cases command with
    | get key => rfl
    | stats => rfl
    | firstKey => rfl
    | nextKey key => rfl
    | _ => simp [Command.type] at h

end Request

namespace PromptServer

/-- The table of an outcome is the one before with the write that the reply tells of. -/
def Records (request : Request) (table : Table) (outcome : Reply × PromptServer) : Prop :=
  outcome.2.table = (request.write? outcome.1).toList.foldl Job.apply table

variable {server : PromptServer} {request : Request} {table : Table}
  {outcome : Reply × PromptServer}

theorem records_of_kept (hwrite : request.write? outcome.1 = none)
    (htable : outcome.2.table = table) : Records request table outcome := by
  unfold Records
  rw [hwrite, htable]
  rfl

variable (server) (id : UInt32) (flags : Flags) (key : Bytes)

theorem table_get (cacheOnly : Bool) : (server.get id key cacheOnly).2.table = server.table := by
  unfold get
  cases server.cache.get? key with
  | some value => rfl
  | none =>
    cases cacheOnly with
    | true => rfl
    | false =>
      simp only [Bool.false_eq_true, if_false]
      split
      · rfl
      · rfl

theorem records_set (value : Bytes) :
    Records ⟨id, flags, .set key value⟩ server.table
      (server.set id key value flags.isCacheOnly) := by
  cases hcache : flags.isCacheOnly with
  | true => exact records_of_kept (Request.write?_of_cacheOnly hcache) rfl
  | false =>
    unfold Records
    rw [Request.write?_of_ok hcache rfl]
    rfl

theorem records_delete :
    Records ⟨id, flags, .delete key⟩ server.table (server.delete id key flags.isCacheOnly) := by
  cases hcache : flags.isCacheOnly with
  | true => exact records_of_kept (Request.write?_of_cacheOnly hcache) rfl
  | false =>
    unfold Records delete
    cases hcurrent : server.current key false with
    | some value =>
      rw [Request.write?_of_ok hcache rfl]
      rfl
    | none =>
      -- the key was in neither tier, so erasing it makes no difference
      have hstored : server.table.get? key = none := (Option.or_eq_none_iff.1 hcurrent).2
      have hwrite : Request.write? ⟨id, flags, .delete key⟩ (.plain id .notIn) = none :=
        Request.write?_of_plain id (by decide)
      simp only [Option.isSome_none, Bool.false_eq_true, if_false, hwrite]
      exact Table.erase_of_get?_eq_none hstored

theorem records_cas (old new : Bytes) :
    Records ⟨id, flags, .cas key old new⟩ server.table
      (server.cas id key old new flags.isCacheOnly) := by
  unfold cas
  simp only
  split
  · exact records_of_kept (Request.write?_of_plain id (by decide)) rfl
  · split
    · cases hcache : flags.isCacheOnly with
      | true => exact records_of_kept (Request.write?_of_cacheOnly hcache) rfl
      | false =>
        unfold Records
        rw [Request.write?_of_ok hcache rfl]
        rfl
    · exact records_of_kept (Request.write?_of_plain id (by decide)) rfl

theorem records_incr (delta : Int64) :
    Records ⟨id, flags, .incr key delta⟩ server.table
      (server.incr id key delta flags.isCacheOnly) := by
  unfold incr
  simp only
  split
  · exact records_of_kept (Request.write?_of_plain id (by decide)) rfl
  · split
    · exact records_of_kept (Request.write?_of_plain id (by decide)) rfl
    · cases hcache : flags.isCacheOnly with
      | true => exact records_of_kept (Request.write?_of_cacheOnly hcache) rfl
      | false =>
        unfold Records
        rw [Request.write?_of_ok hcache rfl]
        -- the reply has the number whose numeral is written
        simp only [Reply.counterValue_counter]
        rfl

/-- The database has after a request what it had before, with the write that the reply tells of. -/
theorem records_handle (request : Request) :
    Records request server.table (server.handle request) := by
  obtain ⟨id, flags, command⟩ := request
  unfold handle
  simp only
  split
  · have hrefused : ReplyCode.error.word ≠ ReplyCode.ok.word := by decide
    exact records_of_kept (Request.write?_of_code_ne hrefused) rfl
  · cases command with
    | get key => exact records_of_kept (Request.write?_of_reads (by simp [Command.type])) (table_get ..)
    | set key value => exact records_set ..
    | delete key => exact records_delete ..
    | cas key old new => exact records_cas ..
    | incr key delta => exact records_incr ..
    | stats => exact records_of_kept (Request.write?_of_reads (by simp [Command.type])) rfl
    | firstKey => exact records_of_kept (Request.write?_of_reads (by simp [Command.type])) rfl
    | nextKey key => exact records_of_kept (Request.write?_of_reads (by simp [Command.type])) rfl

theorem table_call (call : ServerCall) :
    (server.call call).2.table
      = (call.write? (server.call call).1).toList.foldl Job.apply server.table := by
  cases call with
  | request request => exact server.records_handle request
  | evict dropped => rfl

/-- The database of a prompt server is the outcome of the writes that its caller knows of. -/
theorem table_run (calls : List ServerCall) :
    (server.run calls).2.table
      = (writesOf calls (server.run calls).1).foldl Job.apply server.table := by
  induction calls generalizing server with
  | nil => rfl
  | cons call calls ih =>
    have hrest := ih (server.call call).2
    rw [server.table_call call] at hrest
    rw [run, writesOf_cons, List.foldl_append]
    exact hrest

/-! ## Writes that are made whatever was there -/

theorem handle_set (flags : Flags) {key value : Bytes}
    (hfits : (Command.set key value).payloadLength ≤ server.maxPayload) :
    ∃ counted : PromptServer, counted.cache = server.cache
      ∧ server.handle ⟨id, flags, .set key value⟩
        = (.plain id .ok, counted.bind key value flags.isCacheOnly) := by
  let counted := server.tally fun c => { c with requests := c.requests + 1 }
  have hlimit : ¬counted.maxPayload < (Command.set key value).payloadLength := Nat.not_lt.2 hfits
  refine ⟨counted.tally fun c => { c with sets := c.sets + 1 }, rfl, ?_⟩
  unfold handle
  simp only
  rw [if_neg hlimit]
  rfl

theorem handle_delete (flags : Flags) {key : Bytes}
    (hfits : (Command.delete key).payloadLength ≤ server.maxPayload) :
    ∃ counted : PromptServer, server.handle ⟨id, flags, .delete key⟩
      = (.plain id (if (server.current key flags.isCacheOnly).isSome then .ok else .notIn),
        counted.unbind key flags.isCacheOnly) := by
  let counted := server.tally fun c => { c with requests := c.requests + 1 }
  have hlimit : ¬counted.maxPayload < (Command.delete key).payloadLength := Nat.not_lt.2 hfits
  refine ⟨counted.tally fun c => { c with deletes := c.deletes + 1 }, ?_⟩
  unfold handle
  simp only
  rw [if_neg hlimit]
  rfl

end PromptServer

/-- Once its jobs are done, the database of a server is the outcome of the writes that its caller
knows of, at whatever pace they are done. -/
theorem Server.settled_run (server : Server) (events : List ServerEvent) :
    (server.run events).2.database.settled
      = (writesOf (callsOf events) (server.run events).1).foldl Job.apply
          server.database.settled := by
  have hrun := settle_run server events
  have hsights : (server.run events).1 = (server.settle.run (callsOf events)).1 :=
    congrArg Prod.fst hrun
  have hend : (server.run events).2.settle = (server.settle.run (callsOf events)).2 :=
    congrArg Prod.snd hrun
  show (server.run events).2.settle.table = _
  rw [hend, hsights]
  exact server.settle.table_run (callsOf events)

end TieredStore
