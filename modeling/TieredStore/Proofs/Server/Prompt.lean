import TieredStore.Proofs.Reply.Payload
import TieredStore.Server

/-!
# Servers without a queue

A server whose database has every write at once answers the same requests with the same replies, and
there is less to it: its database is a table.  Every state of a server stands for one of a prompt
server, with all waiting jobs applied (`Server.settle`), and answering a request commutes with that
(`settle_handle`), so what holds of prompt servers holds of all.
-/

namespace TieredStore

structure PromptServer where
  maxPayload : Nat
  cache : Cache
  table : Table
  counters : Counters
  reachable : Bool
  deriving DecidableEq

namespace PromptServer

def start (options : ServerOptions) : PromptServer :=
  ⟨options.maxPayload, .empty options.cacheCapacity, .empty, {}, true⟩

def tally (server : PromptServer) (event : Counters → Counters) : PromptServer :=
  { server with counters := event server.counters }

def evict (server : PromptServer) (key : Bytes) : Bool × PromptServer :=
  ((server.cache.get? key).isSome, { server with cache := server.cache.erase key })

/-- The value of a key in the tiers that a request is for, the cache first. -/
def current (server : PromptServer) (key : Bytes) (cacheOnly : Bool) : Option Bytes :=
  (server.cache.get? key).or (if cacheOnly then none else server.table.get? key)

/-- Binds a key in the tiers that a request is for. -/
def bind (server : PromptServer) (key value : Bytes) (cacheOnly : Bool) : PromptServer :=
  { server with
    cache := server.cache.insert key value
    table := if cacheOnly then server.table else server.table.insert key value }

/-- Unbinds a key in the tiers that a request is for. -/
def unbind (server : PromptServer) (key : Bytes) (cacheOnly : Bool) : PromptServer :=
  { server with
    cache := server.cache.erase key
    table := if cacheOnly then server.table else server.table.erase key }

/-! ## Commands -/

def get (server : PromptServer) (id : UInt32) (key : Bytes) (cacheOnly : Bool) :
    Reply × PromptServer :=
  match server.cache.get? key with
  | some value =>
    (.value id .cacheHit value, server.tally fun c => { c with cacheHits := c.cacheHits + 1 })
  | none =>
    let server := server.tally fun c => { c with cacheMisses := c.cacheMisses + 1 }
    if cacheOnly then
      (.plain id .cacheMiss, server)
    else
      match server.table.get? key with
      | none =>
        (.plain id .notIn, server.tally fun c => { c with databaseMisses := c.databaseMisses + 1 })
      | some value =>
        let server := server.tally fun c => { c with databaseHits := c.databaseHits + 1 }
        (.value id .ok value, { server with cache := server.cache.insert key value })

def set (server : PromptServer) (id : UInt32) (key value : Bytes) (cacheOnly : Bool) :
    Reply × PromptServer :=
  (.plain id .ok, (server.tally fun c => { c with sets := c.sets + 1 }).bind key value cacheOnly)

def delete (server : PromptServer) (id : UInt32) (key : Bytes) (cacheOnly : Bool) :
    Reply × PromptServer :=
  (.plain id (if (server.current key cacheOnly).isSome then .ok else .notIn),
    (server.tally fun c => { c with deletes := c.deletes + 1 }).unbind key cacheOnly)

def cas (server : PromptServer) (id : UInt32) (key old new : Bytes) (cacheOnly : Bool) :
    Reply × PromptServer :=
  let server := server.tally fun c => { c with swaps := c.swaps + 1 }
  match server.current key cacheOnly with
  | none => (.plain id .notIn, server)
  | some value =>
    if value = old then (.plain id .ok, server.bind key new cacheOnly)
    else (.plain id .noMatch, server)

def incr (server : PromptServer) (id : UInt32) (key : Bytes) (delta : Int64) (cacheOnly : Bool) :
    Reply × PromptServer :=
  let server := server.tally fun c => { c with increments := c.increments + 1 }
  match server.current key cacheOnly with
  | none => (.plain id .notIn, server)
  | some value =>
    match readCounter value with
    | none => (.plain id .noMatch, server)
    | some number =>
      (.counter id (number + delta), server.bind key (writeCounter (number + delta)) cacheOnly)

/-- Answers one request.  That a write is to be waited for makes no difference. -/
def handle (server : PromptServer) (request : Request) : Reply × PromptServer :=
  let server := server.tally fun c => { c with requests := c.requests + 1 }
  let id := request.id
  let cacheOnly := request.flags.isCacheOnly
  if server.maxPayload < request.command.payloadLength then
    (.error id .brokenRequest, server)
  else
    match request.command with
    | .get key => server.get id key cacheOnly
    | .set key value => server.set id key value cacheOnly
    | .delete key => server.delete id key cacheOnly
    | .cas key old new => server.cas id key old new cacheOnly
    | .incr key delta => server.incr id key delta cacheOnly
    | .stats => (.stats id server.counters.toList, server)
    | .firstKey => (Server.keyReply id server.table.firstKey?, server)
    | .nextKey key => (Server.keyReply id (server.table.nextKey? key), server)

/-! ## The replies that are given -/

/-- A reply that servers give to a request with this id. -/
inductive Gives (id : UInt32) : Reply → Prop where
  | value (code : ReplyCode) (value : Bytes) (h : code = .ok ∨ code = .cacheHit) :
    Gives id (.value id code value)
  | plain (code : ReplyCode) (h : code ≠ .error) : Gives id (.plain id code)
  | counter (value : Int64) : Gives id (.counter id value)
  | stats (counters : List UInt64) : Gives id (.stats id counters)
  | refusal : Gives id (.error id .brokenRequest)

theorem gives_get (server : PromptServer) (id : UInt32) (key : Bytes) (cacheOnly : Bool) :
    Gives id (server.get id key cacheOnly).1 := by
  unfold get
  split
  · exact .value .cacheHit _ (.inr rfl)
  · split
    · exact .plain .cacheMiss (by decide)
    · simp only
      split
      · exact .plain .notIn (by decide)
      · exact .value .ok _ (.inl rfl)

theorem gives_delete (server : PromptServer) (id : UInt32) (key : Bytes) (cacheOnly : Bool) :
    Gives id (server.delete id key cacheOnly).1 := by
  unfold delete
  split
  · exact .plain .ok (by decide)
  · exact .plain .notIn (by decide)

theorem gives_cas (server : PromptServer) (id : UInt32) (key old new : Bytes) (cacheOnly : Bool) :
    Gives id (server.cas id key old new cacheOnly).1 := by
  unfold cas
  simp only
  split
  · exact .plain .notIn (by decide)
  · split
    · exact .plain .ok (by decide)
    · exact .plain .noMatch (by decide)

theorem gives_incr (server : PromptServer) (id : UInt32) (key : Bytes) (delta : Int64)
    (cacheOnly : Bool) : Gives id (server.incr id key delta cacheOnly).1 := by
  unfold incr
  simp only
  split
  · exact .plain .notIn (by decide)
  · split
    · exact .plain .noMatch (by decide)
    · exact .counter _

theorem gives_keyReply (id : UInt32) (key : Option Bytes) : Gives id (Server.keyReply id key) := by
  cases key with
  | none => exact .plain .notIn (by decide)
  | some key => exact .value .ok key (.inl rfl)

theorem gives_handle (server : PromptServer) (request : Request) :
    Gives request.id (server.handle request).1 := by
  obtain ⟨id, flags, command⟩ := request
  unfold handle
  simp only
  split
  · exact .refusal
  · cases command with
    | get key => exact gives_get ..
    | set key value => exact .plain .ok (by decide)
    | delete key => exact gives_delete ..
    | cas key old new => exact gives_cas ..
    | incr key delta => exact gives_incr ..
    | stats => exact .stats _
    | firstKey => exact gives_keyReply ..
    | nextKey key => exact gives_keyReply ..

theorem Gives.id_eq {id : UInt32} {reply : Reply} (h : Gives id reply) : reply.id = id := by
  cases h <;> rfl

/-- The database is never to blame. -/
theorem Gives.ne_database {id : UInt32} {reply : Reply} (h : Gives id reply) (other : UInt32) :
    reply ≠ .error other .database := by
  intro heq
  have hcode : reply.code = ReplyCode.error.word := congrArg Reply.code heq
  -- of all replies the refusal alone has the code of an error, and it has another payload
  cases h with
  | value code value h =>
    have herror : code = .error := ReplyCode.word_inj.1 hcode
    rcases h with rfl | rfl
    · cases herror
    · cases herror
  | plain code h => exact h (ReplyCode.word_inj.1 hcode)
  | counter value =>
    have hword : ReplyCode.ok.word = ReplyCode.error.word := hcode
    exact absurd hword (by decide)
  | stats counters =>
    have hword : ReplyCode.ok.word = ReplyCode.error.word := hcode
    exact absurd hword (by decide)
  | refusal =>
    have hpayload : Bytes.bigEndian 4 ServerError.brokenRequest.code.toNat
        = Bytes.bigEndian 4 ServerError.database.code.toNat := congrArg Reply.payload heq
    exact absurd hpayload (by decide)

end PromptServer

/-! ## What a server stands for -/

namespace Server

/-- The prompt server that has done all that this one is yet to do. -/
def settle (server : Server) : PromptServer :=
  ⟨server.maxPayload, server.cache, server.database.settled, server.counters, server.reachable⟩

theorem settle_start (options : ServerOptions) : (start options).settle = .start options := rfl

theorem settle_tally (server : Server) (event : Counters → Counters) :
    (server.tally event).settle = server.settle.tally event := rfl

theorem settle_work (n : Nat) (server : Server) : (server.work n).settle = server.settle := by
  simp [settle, work]

theorem settle_flush (server : Server) : server.flush.settle = server.settle := by
  simp only [settle, flush, Database.flush_eq]
  rfl

theorem settle_evict (server : Server) (key : Bytes) :
    (server.evict key).2.settle = (server.settle.evict key).2 := rfl

/-- A look-up is answered, and waits for the queue to be empty. -/
theorem lookup_eq (server : Server) (key : Bytes) :
    server.lookup key
      = (some (server.settle.table.get? key), { server with
          database := ⟨server.settle.table, []⟩ }) := by
  rw [lookup, Database.perform_eq]
  rfl

theorem current_eq (server : Server) (key : Bytes) (cacheOnly : Bool) :
    ∃ after, server.current key cacheOnly = (some (server.settle.current key cacheOnly), after)
      ∧ after.settle = server.settle := by
  have hcache : server.settle.cache.get? key = server.cache.get? key := rfl
  unfold current PromptServer.current
  rw [hcache]
  cases server.cache.get? key with
  | some value => exact ⟨server, rfl, rfl⟩
  | none =>
    cases cacheOnly with
    | true => exact ⟨server, rfl, rfl⟩
    -- the queue is emptied by waiting, which changes nothing that the server stands for
    | false => exact ⟨{ server with database := ⟨server.settle.table, []⟩ }, lookup_eq .., rfl⟩

theorem acknowledge_eq (server : Server) (id : UInt32) (job : Job) (sync : Bool) :
    ∃ after, server.acknowledge id job sync = (.plain id .ok, after)
      ∧ after.settle = { server.settle with table := job.apply server.settle.table } := by
  cases sync with
  | true =>
    refine ⟨{ server with database := ⟨job.apply server.settle.table, []⟩ }, ?_, rfl⟩
    rw [acknowledge, if_pos rfl, Database.perform_eq]
    rfl
  | false =>
    refine ⟨{ server with database := server.database.submit job }, rfl, ?_⟩
    simp [settle]

/-! ## Answering commutes with settling -/

/-- The outcome of a step, with what the server stands for after it. -/
def settleAfter {α : Type} (outcome : α × Server) : α × PromptServer :=
  (outcome.1, outcome.2.settle)

theorem settle_get (server : Server) (id : UInt32) (key : Bytes) (cacheOnly : Bool) :
    settleAfter (server.get id key cacheOnly) = server.settle.get id key cacheOnly := by
  have hcache : server.settle.cache.get? key = server.cache.get? key := rfl
  unfold get PromptServer.get
  rw [hcache]
  cases server.cache.get? key with
  | some value => rfl
  | none =>
    cases cacheOnly with
    | true => rfl
    | false =>
      simp only [Bool.false_eq_true, if_false, lookup_eq, settle_tally]
      -- the same table is asked on both sides, and counting does not change it
      cases (server.settle.tally _).table.get? key with
      | none => rfl
      | some value => rfl

theorem settle_set (server : Server) (id : UInt32) (key value : Bytes) (cacheOnly sync : Bool) :
    settleAfter (server.set id key value cacheOnly sync)
      = server.settle.set id key value cacheOnly := by
  unfold set
  cases cacheOnly with
  | true => rfl
  | false =>
    obtain ⟨after, hreply, hsettle⟩ :=
      ((server.tally fun c => { c with sets := c.sets + 1 }).remember key value).acknowledge_eq id
        (.put key value) sync
    simp only [Bool.false_eq_true, if_false, hreply, settleAfter, hsettle]
    rfl

theorem settle_delete (server : Server) (id : UInt32) (key : Bytes) (cacheOnly sync : Bool) :
    settleAfter (server.delete id key cacheOnly sync)
      = server.settle.delete id key cacheOnly := by
  have hcache : server.settle.cache.get? key = server.cache.get? key := rfl
  unfold delete PromptServer.delete PromptServer.current
  rw [hcache]
  cases cacheOnly with
  | true =>
    cases server.cache.get? key with
    | none => rfl
    | some value => rfl
  | false =>
    let waited : Server :=
      { server.tally fun c => { c with deletes := c.deletes + 1 } with
        cache := server.cache.erase key
        database := ⟨server.settle.table, []⟩ }
    obtain ⟨after, hreply, hsettle⟩ := waited.acknowledge_eq id (.erase key) sync
    have hafter : after.settle
        = (server.settle.tally fun c => { c with deletes := c.deletes + 1 }).unbind key false :=
      hsettle
    simp only [Bool.false_eq_true, if_false, lookup_eq]
    change settleAfter (if (server.cache.get? key).isSome
        || (server.settle.table.get? key).isSome then waited.acknowledge id (.erase key) sync
      else (.plain id .notIn, waited)) = _
    cases server.cache.get? key with
    | some value =>
      simp only [Option.isSome_some, Bool.true_or, if_true, hreply, settleAfter, hafter,
        Option.some_or]
    | none =>
      cases hstored : server.settle.table.get? key with
      | some value =>
        simp only [Option.isSome_some, Bool.or_true, if_true, hreply, settleAfter, hafter,
          Option.or_some]
      | none =>
        -- nothing is queued, and there would be nothing to erase
        have hsame : server.settle.table.erase key = server.settle.table :=
          Table.erase_of_get?_eq_none hstored
        have hunbind : (server.settle.tally fun c => { c with deletes := c.deletes + 1 }).unbind key
            false = waited.settle := by
          change PromptServer.mk _ _ (server.settle.table.erase key) _ _ = _
          rw [hsame]
          rfl
        rw [hunbind]
        rfl

/-- Remembering a value for the cache alone. -/
theorem settle_remember (server : Server) (key value : Bytes) :
    (server.remember key value).settle = server.settle.bind key value true := rfl

/-- Remembering a value and queueing its write, without waiting. -/
theorem settle_submit (server : Server) (key value : Bytes) :
    settle { server.remember key value with
        database := (server.remember key value).database.submit (.put key value) }
      = server.settle.bind key value false := by
  unfold settle
  rw [Database.settled_submit]
  rfl

theorem settle_cas (server : Server) (id : UInt32) (key old new : Bytes) (cacheOnly : Bool) :
    settleAfter (server.cas id key old new cacheOnly)
      = server.settle.cas id key old new cacheOnly := by
  -- `after` has the look-up behind it; it stands for the same server
  obtain ⟨after, hcurrent, hafter⟩ :=
    (server.tally fun c => { c with swaps := c.swaps + 1 }).current_eq key cacheOnly
  rw [settle_tally] at hcurrent hafter
  unfold cas PromptServer.cas
  simp only [hcurrent]
  cases (server.settle.tally _).current key cacheOnly with
  | none => simp only [settleAfter, hafter]
  | some value =>
    by_cases hmatch : value = old
    · cases cacheOnly with
      | true => simp [hmatch, settleAfter, settle_remember, hafter]
      | false => simp [hmatch, settleAfter, acknowledge, settle_submit, hafter]
    · simp [hmatch, settleAfter, hafter]

theorem settle_incr (server : Server) (id : UInt32) (key : Bytes) (delta : Int64)
    (cacheOnly : Bool) :
    settleAfter (server.incr id key delta cacheOnly)
      = server.settle.incr id key delta cacheOnly := by
  obtain ⟨after, hcurrent, hafter⟩ :=
    (server.tally fun c => { c with increments := c.increments + 1 }).current_eq key cacheOnly
  rw [settle_tally] at hcurrent hafter
  unfold incr PromptServer.incr
  simp only [hcurrent]
  cases (server.settle.tally _).current key cacheOnly with
  | none => simp only [settleAfter, hafter]
  | some value =>
    simp only
    cases readCounter value with
    | none => simp only [settleAfter, hafter]
    | some number =>
      cases cacheOnly with
      | true => simp [settleAfter, settle_remember, hafter]
      | false => simp [settleAfter, settle_submit, hafter]

/-- Every request is answered as the prompt server answers it, and leaves the server standing for
what that one becomes. -/
theorem settle_handle (server : Server) (request : Request) :
    settleAfter (server.handle request) = server.settle.handle request := by
  obtain ⟨id, flags, command⟩ := request
  unfold handle PromptServer.handle
  have hlimit : (server.settle.tally fun c => { c with requests := c.requests + 1 }).maxPayload
      = (server.tally fun c => { c with requests := c.requests + 1 }).maxPayload := rfl
  simp only [hlimit]
  split
  · rfl
  · cases command with
    | get key => exact settle_get ..
    | set key value => exact settle_set ..
    | delete key => exact settle_delete ..
    | cas key old new => exact settle_cas ..
    | incr key delta => exact settle_incr ..
    | stats => rfl
    | firstKey =>
      -- the iteration empties the queue first, so it reads the settled table
      simp only [settleAfter, flush, Database.flush_eq]
      rfl
    | nextKey key =>
      simp only [settleAfter, flush, Database.flush_eq]
      rfl

theorem handle_fst (server : Server) (request : Request) :
    (server.handle request).1 = (server.settle.handle request).1 :=
  congrArg Prod.fst (settle_handle server request)

theorem settle_handle_snd (server : Server) (request : Request) :
    (server.handle request).2.settle = (server.settle.handle request).2 :=
  congrArg Prod.snd (settle_handle server request)

theorem id_handle (server : Server) (request : Request) :
    (server.handle request).1.id = request.id := by
  rw [handle_fst]
  exact (PromptServer.gives_handle server.settle request).id_eq

end Server

end TieredStore
