import TieredStore.Proofs.Server.Prompt

/-!
# The database's pace

Between any two calls a server's database may apply any number of the jobs that wait for it.  A
history holds the calls and this progress in the order in which they take place.  The caller cannot
tell how the progress was made: every history shows what a prompt server shows for its calls alone
(`pace_unobservable`).
-/

namespace TieredStore

/-- What a server is asked to do. -/
inductive ServerCall where
  | request (request : Request)
  /-- A key is dropped from the cache. -/
  | evict (key : Bytes)
  deriving DecidableEq, Repr

/-- What the caller is shown. -/
inductive ServerSight where
  | reply (reply : Reply)
  | evicted (found : Bool)
  deriving DecidableEq, Repr

/-- One step in the history of a server. -/
inductive ServerEvent where
  | call (call : ServerCall)
  /-- The database applies this many of its jobs, or all if there are fewer. -/
  | work (jobs : Nat)
  deriving DecidableEq, Repr

/-- The calls of a history. -/
def callsOf (events : List ServerEvent) : List ServerCall :=
  events.filterMap fun
    | .call call => some call
    | .work _ => none

namespace Server

def call (server : Server) : ServerCall → ServerSight × Server
  | .request request => ((.reply (server.handle request).1), (server.handle request).2)
  | .evict key => ((.evicted (server.evict key).1), (server.evict key).2)

/-- All that is shown in the course of a history, and the server at its end. -/
def run (server : Server) : List ServerEvent → List ServerSight × Server
  | [] => ([], server)
  | .call call :: events =>
    let (sight, server) := server.call call
    let (sights, server) := server.run events
    (sight :: sights, server)
  | .work jobs :: events => (server.work jobs).run events

end Server

namespace PromptServer

def call (server : PromptServer) : ServerCall → ServerSight × PromptServer
  | .request request => ((.reply (server.handle request).1), (server.handle request).2)
  | .evict key => ((.evicted (server.evict key).1), (server.evict key).2)

def run (server : PromptServer) : List ServerCall → List ServerSight × PromptServer
  | [] => ([], server)
  | call :: calls =>
    let (sight, server) := server.call call
    let (sights, server) := server.run calls
    (sight :: sights, server)

theorem call_ne_database (server : PromptServer) (call : ServerCall) (id : UInt32) :
    (server.call call).1 ≠ .reply (.error id .database) := by
  cases call with
  | request request =>
    intro h
    exact (gives_handle server request).ne_database id (ServerSight.reply.inj h)
  | evict key =>
    intro h
    cases h

theorem run_not_mem_database (server : PromptServer) (calls : List ServerCall) (id : UInt32) :
    .reply (.error id .database) ∉ (server.run calls).1 := by
  induction calls generalizing server with
  | nil => exact List.not_mem_nil
  | cons call calls ih =>
    rw [run, List.mem_cons]
    rintro (heq | hmem)
    · exact server.call_ne_database call id heq.symm
    · exact ih _ hmem

end PromptServer

namespace Server

theorem settle_call (server : Server) (call : ServerCall) :
    settleAfter (server.call call) = server.settle.call call := by
  cases call with
  | request request =>
    change (ServerSight.reply (server.handle request).1, (server.handle request).2.settle)
      = (ServerSight.reply (server.settle.handle request).1, (server.settle.handle request).2)
    rw [handle_fst, settle_handle_snd]
  | evict key =>
    have hevict := settle_evict server key
    change (_, (server.evict key).2.settle) = _
    rw [hevict]
    rfl

/-- A history shows what its calls show of the prompt server, and ends in a state that stands for
the same end. -/
theorem settle_run (server : Server) (events : List ServerEvent) :
    settleAfter (server.run events) = server.settle.run (callsOf events) := by
  induction events generalizing server with
  | nil => rfl
  | cons event events ih =>
    cases event with
    | call call =>
      have hcall := settle_call server call
      have hrest := ih (server.call call).2
      unfold settleAfter at hcall hrest ⊢
      have hcalls : callsOf (.call call :: events) = call :: callsOf events := rfl
      rw [hcalls, PromptServer.run, ← hcall]
      simp only
      rw [← hrest]
      rfl
    | work jobs =>
      -- progress is no call, and what it leaves stands for the same server
      have hrest := ih (server.work jobs)
      rw [settle_work] at hrest
      exact hrest

/-- Whatever pace the database works at, the caller of a server is shown what a prompt server shows.
Once the queue is emptied, both have the same entries in both tiers, the cache in the same order.
Who waits for a job is always answered, and no reply blames the database. -/
theorem pace_unobservable (options : ServerOptions) (events : List ServerEvent) :
    ((start options).run events).1 = ((PromptServer.start options).run (callsOf events)).1
      ∧ ((start options).run events).2.flush.database
        = ⟨((PromptServer.start options).run (callsOf events)).2.table, []⟩
      ∧ ((start options).run events).2.flush.cache
        = ((PromptServer.start options).run (callsOf events)).2.cache
      ∧ (∀ (database : Database) (job : Job), ∃ answer, (database.perform job).1 = some answer)
      ∧ ∀ id, .reply (.error id .database) ∉ ((start options).run events).1 := by
  have hrun := settle_run (start options) events
  rw [settle_start] at hrun
  have hsights := congrArg Prod.fst hrun
  have hend := congrArg Prod.snd hrun
  change ((start options).run events).1 = _ at hsights
  change ((start options).run events).2.settle = _ at hend
  refine ⟨hsights, ?_, ?_, ?_, ?_⟩
  · rw [← hend, flush]
    exact Database.flush_eq _
  · rw [← hend]
    rfl
  · intro database job
    rw [Database.perform_eq]
    exact ⟨_, rfl⟩
  -- a prompt server has no database that could fail
  · intro id
    rw [hsights]
    exact PromptServer.run_not_mem_database _ _ id

-- the write is still queued when the cache has lost the key, and is read all the same
example :
    ((start ⟨none, 64⟩).run [
        .call (.request ⟨1, .none, .set [7] [8]⟩), .call (.evict [7]),
        .call (.request ⟨2, .none, .get [7]⟩)]).1
      = [.reply (.plain 1 .ok), .evicted true, .reply (.value 2 .ok [8])] := by
  decide

end Server

end TieredStore
