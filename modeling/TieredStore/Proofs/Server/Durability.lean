import TieredStore.Proofs.Server.Writes

/-!
# Synchronous writes

The database works on the oldest job first, so who waits for a job has waited for all jobs before it
(`Database.work_submit`).  A synchronous `SET` or `DEL` leaves no job behind: when it is answered,
the database is the outcome of all writes that were answered up to it (`Server.durable_on_return`).
-/

namespace TieredStore

namespace Database

/-- The jobs are applied in the order in which they were queued. -/
theorem work_eq (steps : Nat) (database : Database) :
    database.work steps
      = ⟨(database.queue.take steps).foldl Job.apply database.table,
        database.queue.drop steps⟩ := by
  induction steps generalizing database with
  | zero => rfl
  | succ steps ih =>
    rw [work, ih]
    obtain ⟨table, queue⟩ := database
    cases queue with
    | nil => simp [step]
    | cons job queue => rfl

/-- A job is waited for until all others before it are applied and it is applied itself, and not
longer. -/
theorem work_submit (database : Database) (job : Job) (steps : Nat) :
    (database.submit job).work steps
      = if steps ≤ database.queue.length then
          ⟨(database.queue.take steps).foldl Job.apply database.table,
            database.queue.drop steps ++ [job]⟩
        else (database.perform job).2 := by
  rw [work_eq]
  by_cases hearly : steps ≤ database.queue.length
  · have htake : (database.submit job).queue.take steps = database.queue.take steps :=
      List.take_append_of_le_length hearly
    have hdrop : (database.submit job).queue.drop steps = database.queue.drop steps ++ [job] :=
      List.drop_append_of_le_length hearly
    rw [if_pos hearly, htake, hdrop]
    rfl
  · have hlength : (database.submit job).queue.length ≤ steps := by
      show (database.queue ++ [job]).length ≤ steps
      rw [List.length_append, List.length_singleton]
      omega
    rw [if_neg hearly, List.take_of_length_le hlength, List.drop_of_length_le hlength, perform_eq,
      ← settled_submit]
    rfl

theorem table_of_queue_eq_nil {database : Database} (h : database.queue = []) :
    database.table = database.settled := by
  rw [settled, h, List.foldl_nil]

/-- Where no job waits, there is nothing to do. -/
theorem work_of_queue_eq_nil {database : Database} (h : database.queue = []) (steps : Nat) :
    database.work steps = database := by
  obtain ⟨table, queue⟩ := database
  obtain rfl : queue = [] := h
  rw [work_eq, List.take_nil, List.drop_nil]
  rfl

end Database

namespace PromptServer

variable (server : PromptServer) {request : Request} {key value : Bytes}

theorem stored_after_set (hboth : request.flags.isCacheOnly = false)
    (hfits : request.command.payloadLength ≤ server.maxPayload)
    (hset : request.command = .set key value) :
    (server.handle request).1 = .plain request.id .ok
      ∧ (server.handle request).2.table.get? key = some value := by
  obtain ⟨id, flags, command⟩ := request
  obtain rfl : command = .set key value := hset
  have hflags : flags.isCacheOnly = false := hboth
  obtain ⟨counted, -, houtcome⟩ := server.handle_set id flags hfits
  rw [houtcome, hflags]
  exact ⟨rfl, (counted.holds_bind key value).stored⟩

theorem stored_after_delete (hboth : request.flags.isCacheOnly = false)
    (hfits : request.command.payloadLength ≤ server.maxPayload)
    (hdelete : request.command = .delete key) :
    ((server.handle request).1 = .plain request.id .ok
        ∨ (server.handle request).1 = .plain request.id .notIn)
      ∧ (server.handle request).2.table.get? key = none := by
  obtain ⟨id, flags, command⟩ := request
  obtain rfl : command = .delete key := hdelete
  have hflags : flags.isCacheOnly = false := hboth
  obtain ⟨counted, houtcome⟩ := server.handle_delete id flags hfits
  rw [houtcome, hflags]
  refine ⟨?_, (counted.holds_unbind key).stored⟩
  simp only
  split
  · exact .inl rfl
  · exact .inr rfl

end PromptServer

namespace Server

theorem run_append (server : Server) (before after : List ServerEvent) :
    server.run (before ++ after)
      = ((server.run before).1 ++ ((server.run before).2.run after).1,
        ((server.run before).2.run after).2) := by
  induction before generalizing server with
  | nil => rfl
  | cons event before ih =>
    cases event with
    | call call =>
      show ((server.call call).1 :: ((server.call call).2.run (before ++ after)).1,
        ((server.call call).2.run (before ++ after)).2) = _
      rw [ih]
      rfl
    | work jobs => exact ih (server.work jobs)

/-! ## No job is left -/

theorem acknowledge_sync (server : Server) (id : UInt32) (job : Job) :
    server.acknowledge id job true
      = (.plain id .ok, { server with database := ⟨job.apply server.database.settled, []⟩ }) := by
  unfold acknowledge
  rw [if_pos rfl, Database.perform_eq]

theorem queue_set (server : Server) (id : UInt32) (key value : Bytes) :
    (server.set id key value false true).2.database.queue = [] := by
  unfold set
  simp only [Bool.false_eq_true, if_false]
  rw [acknowledge_sync]

/-- The key is looked up behind the waiting jobs, so none of them is left even if it is not found
and there is nothing to erase. -/
theorem queue_delete (server : Server) (id : UInt32) (key : Bytes) :
    (server.delete id key false true).2.database.queue = [] := by
  unfold delete lookup
  simp only [Bool.false_eq_true, if_false, Database.perform_eq, Prod.map_apply, id_eq]
  split
  · rw [acknowledge_sync]
  · rfl

theorem queue_handle {server : Server} {request : Request} (hsync : request.flags.isSync = true)
    (hboth : request.flags.isCacheOnly = false)
    (hfits : request.command.payloadLength ≤ server.maxPayload)
    (hwrites : request.command.type ∈ [CommandType.set, .delete]) :
    (server.handle request).2.database.queue = [] := by
  obtain ⟨id, flags, command⟩ := request
  have hlimit : ¬server.maxPayload < command.payloadLength := Nat.not_lt.2 hfits
  have hhandle : server.handle ⟨id, flags, command⟩ = _ := if_neg hlimit
  rw [hhandle]
  simp only at hsync hboth ⊢
  rw [hsync, hboth]
  cases command with
  | set key value => exact queue_set ..
  | delete key => exact queue_delete ..
  | _ => simp [Command.type] at hwrites

/-- When a synchronous write to both tiers returns, with whatever the database has done until then,
no job waits and the database is the outcome of all writes up to this one, as their replies tell.  It
binds the key that was set, and does not bind the key that was deleted, whether it was found or not.
There is nothing left to do for the database, so this is what it has until the next request.  A job
that is waited for is the last one of those that are queued, and is waited for until it is applied,
at whatever pace. -/
theorem durable_on_return (server : Server) (events : List ServerEvent) (request : Request)
    (hsync : request.flags.isSync = true) (hboth : request.flags.isCacheOnly = false)
    (hfits : request.command.payloadLength ≤ server.maxPayload)
    (hwrites : request.command.type ∈ [CommandType.set, .delete]) :
    let history := events ++ [.call (.request request)]
    let shown := (server.run history).1
    let after := (server.run history).2
    let written := (writesOf (callsOf history) shown).foldl Job.apply server.database.settled
    after.database = ⟨written, []⟩
      ∧ (∀ steps, after.work steps = after)
      ∧ (∀ key value, request.command = .set key value →
        shown.getLast? = some (.reply (.plain request.id .ok))
          ∧ after.database.table.get? key = some value)
      ∧ (∀ key, request.command = .delete key →
        (shown.getLast? = some (.reply (.plain request.id .ok))
            ∨ shown.getLast? = some (.reply (.plain request.id .notIn)))
          ∧ after.database.table.get? key = none)
      ∧ ∀ (database : Database) (job : Job) (steps : Nat),
        (database.submit job).work steps
          = if steps ≤ database.queue.length then
              ⟨(database.queue.take steps).foldl Job.apply database.table,
                database.queue.drop steps ++ [job]⟩
            else (database.perform job).2 := by
  intro history shown after written
  let before := (server.run events).2
  have hroom : request.command.payloadLength ≤ before.maxPayload := by
    show request.command.payloadLength ≤ (server.run events).2.maxPayload
    rw [maxPayload_run]
    exact hfits
  have hhistory : server.run history
      = ((server.run events).1 ++ [.reply (before.handle request).1], (before.handle request).2) :=
    server.run_append events [.call (.request request)]
  have hlast : shown.getLast? = some (.reply (before.settle.handle request).1) := by
    show (server.run history).1.getLast? = _
    rw [hhistory, List.getLast?_concat, handle_fst]
  have hafter : after = (before.handle request).2 := congrArg Prod.snd hhistory
  have hqueue : after.database.queue = [] := by
    rw [hafter]
    exact queue_handle hsync hboth hroom hwrites
  -- no job is left, so the table itself is what the prompt server has
  have htable : after.database.table = (before.settle.handle request).2.table := by
    rw [Database.table_of_queue_eq_nil hqueue, ← settle_handle_snd, ← hafter]
    rfl
  have hdatabase : after.database = ⟨written, []⟩ := by
    have hsettled : after.database.settled = written := server.settled_run history
    rw [← hsettled, ← Database.table_of_queue_eq_nil hqueue, ← hqueue]
  refine ⟨hdatabase, ?_, ?_, ?_, Database.work_submit⟩
  · intro steps
    show { after with database := after.database.work steps } = after
    rw [Database.work_of_queue_eq_nil hqueue]
  · intro key value hset
    obtain ⟨hreply, hstored⟩ := before.settle.stored_after_set hboth hroom hset
    rw [hlast, htable, hreply]
    exact ⟨rfl, hstored⟩
  · intro key hdelete
    obtain ⟨hreply, hstored⟩ := before.settle.stored_after_delete hboth hroom hdelete
    rw [hlast, htable]
    refine ⟨?_, hstored⟩
    rcases hreply with hok | hnotIn
    · left
      rw [hok]
    · right
      rw [hnotIn]

/-- A value is set and swapped, the key is dropped from the cache, and of the two jobs one is done,
before another key is deleted that was never bound. -/
theorem durable_on_return_not_in :
    let events : List ServerEvent := [.call (.request ⟨1, .none, .set [1] [5]⟩),
      .call (.request ⟨2, .none, .cas [1] [5] [6, 7]⟩), .call (.evict [1]), .work 1]
    let history := events ++ [.call (.request ⟨3, .sync, .delete [9]⟩)]
    let before := ((start ⟨some 1, 64⟩).run events).2
    let after := ((start ⟨some 1, 64⟩).run history).2
    before.database.queue = [.put [1] [6, 7]] ∧ before.database.table.get? [1] = some [5]
      ∧ ((start ⟨some 1, 64⟩).run history).1.getLast? = some (.reply (.plain 3 .notIn))
      ∧ after.database.queue = [] ∧ after.database.table.get? [1] = some [6, 7]
      ∧ after.database.table.get? [9] = none ∧ after.database.table.size = 1 := by
  intro events history before after
  obtain ⟨hdatabase, -, -, hdelete, -⟩ := durable_on_return (start ⟨some 1, 64⟩) events
    ⟨3, .sync, .delete [9]⟩ (by decide) (by decide) (by decide) (by decide)
  have hwritten : after.database = ⟨(Table.empty.insert [1] [5]).insert [1] [6, 7], []⟩ := hdatabase
  have hgone : after.database.table.get? [9] = none := (hdelete [9] rfl).2
  refine ⟨by decide, by decide, by decide, ?_, ?_, hgone, ?_⟩
  · rw [hwritten]
  · rw [hwritten]
    decide
  · rw [hwritten]
    decide

end Server

end TieredStore
