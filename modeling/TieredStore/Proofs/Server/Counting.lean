import TieredStore.Proofs.Server.Settings

/-!
# What the counters count

A server's counters sum up its whole history.  Each reply, with the request that it answers, tells
which counters move (`PromptServer.tallied_handle`): a look-up for a client moves those of the
tiers, and one on the way to a write moves none of them.  So a report of the counters lists what can
be counted in the history of requests and replies (`Server.counters_conserved`).
-/

namespace TieredStore

/-! ## What a request counts -/

/-- Counts a command, if there is a counter for such commands. -/
def Counters.countCommand (counters : Counters) : CommandType → Counters
  | .set => { counters with sets := counters.sets + 1 }
  | .delete => { counters with deletes := counters.deletes + 1 }
  | .cas => { counters with swaps := counters.swaps + 1 }
  | .incr => { counters with increments := counters.increments + 1 }
  | .get | .stats | .firstKey | .nextKey => counters

/-- What can come of a request to a server with a limit, the reply and the counters after it.  The
counters were `before` once the request had been counted as such. -/
inductive Tallied (limit : Nat) (request : Request) (before : Counters) (reply : Reply) :
    Counters → Prop
  | refused (hlarge : limit < request.command.payloadLength)
    (hcode : reply.code = ReplyCode.error.word) : Tallied limit request before reply before
  | cacheHit (hsmall : request.command.payloadLength ≤ limit) (hget : request.command.type = .get)
    (hcode : reply.code = ReplyCode.cacheHit.word) :
    Tallied limit request before reply { before with cacheHits := before.cacheHits + 1 }
  | cacheMiss (hsmall : request.command.payloadLength ≤ limit) (hget : request.command.type = .get)
    (hcode : reply.code = ReplyCode.cacheMiss.word) :
    Tallied limit request before reply { before with cacheMisses := before.cacheMisses + 1 }
  | databaseHit (hsmall : request.command.payloadLength ≤ limit)
    (hget : request.command.type = .get) (hcode : reply.code = ReplyCode.ok.word) :
    Tallied limit request before reply
      { before with
        cacheMisses := before.cacheMisses + 1
        databaseHits := before.databaseHits + 1 }
  | databaseMiss (hsmall : request.command.payloadLength ≤ limit)
    (hget : request.command.type = .get) (htier : request.flags.isCacheOnly = false)
    (hcode : reply.code = ReplyCode.notIn.word) :
    Tallied limit request before reply
      { before with
        cacheMisses := before.cacheMisses + 1
        databaseMisses := before.databaseMisses + 1 }
  | other (code : ReplyCode) (hsmall : request.command.payloadLength ≤ limit)
    (hother : request.command.type ≠ .get) (hcode : reply.code = code.word)
    (hhit : code ≠ .cacheHit) (hmiss : code ≠ .cacheMiss) :
    Tallied limit request before reply (before.countCommand request.command.type)

namespace PromptServer

variable (server : PromptServer) (id : UInt32) (flags : Flags)

/-- The server once it has counted a request. -/
def receive : PromptServer :=
  server.tally fun c => { c with requests := c.requests + 1 }

section Commands

variable {limit : Nat} {key : Bytes}

theorem tallied_get (hsmall : (Command.get key).payloadLength ≤ limit) :
    Tallied limit ⟨id, flags, .get key⟩ server.counters (server.get id key flags.isCacheOnly).1
      (server.get id key flags.isCacheOnly).2.counters := by
  unfold get
  split
  · exact .cacheHit hsmall rfl rfl
  · cases htier : flags.isCacheOnly with
    | true => exact .cacheMiss hsmall rfl rfl
    | false =>
      simp only [Bool.false_eq_true, if_false]
      split
      · exact .databaseMiss hsmall rfl htier rfl
      · exact .databaseHit hsmall rfl rfl

theorem tallied_set {value : Bytes} (hsmall : (Command.set key value).payloadLength ≤ limit) :
    Tallied limit ⟨id, flags, .set key value⟩ server.counters
      (server.set id key value flags.isCacheOnly).1
      (server.set id key value flags.isCacheOnly).2.counters :=
  .other .ok hsmall nofun rfl nofun nofun

theorem tallied_delete (hsmall : (Command.delete key).payloadLength ≤ limit) :
    Tallied limit ⟨id, flags, .delete key⟩ server.counters
      (server.delete id key flags.isCacheOnly).1
      (server.delete id key flags.isCacheOnly).2.counters := by
  unfold delete
  split
  · exact .other .ok hsmall nofun rfl nofun nofun
  · exact .other .notIn hsmall nofun rfl nofun nofun

theorem tallied_cas {old new : Bytes} (hsmall : (Command.cas key old new).payloadLength ≤ limit) :
    Tallied limit ⟨id, flags, .cas key old new⟩ server.counters
      (server.cas id key old new flags.isCacheOnly).1
      (server.cas id key old new flags.isCacheOnly).2.counters := by
  unfold cas
  simp only
  split
  · exact .other .notIn hsmall nofun rfl nofun nofun
  · split
    · exact .other .ok hsmall nofun rfl nofun nofun
    · exact .other .noMatch hsmall nofun rfl nofun nofun

theorem tallied_incr {delta : Int64} (hsmall : (Command.incr key delta).payloadLength ≤ limit) :
    Tallied limit ⟨id, flags, .incr key delta⟩ server.counters
      (server.incr id key delta flags.isCacheOnly).1
      (server.incr id key delta flags.isCacheOnly).2.counters := by
  unfold incr
  simp only
  split
  · exact .other .notIn hsmall nofun rfl nofun nofun
  · split
    · exact .other .noMatch hsmall nofun rfl nofun nofun
    · exact .other .ok hsmall nofun rfl nofun nofun

end Commands

theorem code_keyReply (found : Option Bytes) : ∃ code : ReplyCode,
    (Server.keyReply id found).code = code.word ∧ code ≠ .cacheHit ∧ code ≠ .cacheMiss := by
  cases found with
  | none => exact ⟨.notIn, rfl, nofun, nofun⟩
  | some key => exact ⟨.ok, rfl, nofun, nofun⟩

/-- Every request moves the counters that its reply tells, and no other. -/
theorem tallied_handle (request : Request) :
    Tallied server.maxPayload request server.receive.counters
      (server.handle request).1 (server.handle request).2.counters := by
  obtain ⟨id, flags, command⟩ := request
  unfold handle
  simp only
  split
  · next hlarge => exact .refused hlarge rfl
  · next hlarge =>
    have hsmall := Nat.not_lt.1 hlarge
    cases command with
    | get key => exact tallied_get server.receive id flags hsmall
    | set key value => exact tallied_set server.receive id flags hsmall
    | delete key => exact tallied_delete server.receive id flags hsmall
    | cas key old new => exact tallied_cas server.receive id flags hsmall
    | incr key delta => exact tallied_incr server.receive id flags hsmall
    | stats => exact .other .ok hsmall nofun rfl nofun nofun
    | firstKey =>
      obtain ⟨code, hcode, hhit, hmiss⟩ := code_keyReply id server.table.firstKey?
      exact .other code hsmall nofun hcode hhit hmiss
    | nextKey key =>
      obtain ⟨code, hcode, hhit, hmiss⟩ := code_keyReply id (server.table.nextKey? key)
      exact .other code hsmall nofun hcode hhit hmiss

end PromptServer

/-! ## What a history counts -/

/-- A request and the reply to it. -/
structure Exchange where
  request : Request
  reply : Reply
  deriving DecidableEq, Repr

/-- The requests among some calls, each with the reply that was shown for it. -/
def exchangesOf (calls : List ServerCall) (sights : List ServerSight) : List Exchange :=
  (calls.zip sights).filterMap fun
    | (.request request, .reply reply) => some ⟨request, reply⟩
    | _ => none

namespace Exchange

/-- The request carries no more than a limit. -/
def accepted (limit : Nat) (type : CommandType) (exchange : Exchange) : Bool :=
  exchange.request.command.type = type && exchange.request.command.payloadLength ≤ limit

def replied (code : ReplyCode) (exchange : Exchange) : Bool :=
  exchange.reply.code = code.word

/-- A look-up for which the cache does not have the key. -/
def missed (limit : Nat) (exchange : Exchange) : Bool :=
  exchange.accepted limit .get && !exchange.replied .cacheHit

/-- A look-up that goes on to the database. -/
def searched (limit : Nat) (exchange : Exchange) : Bool :=
  exchange.missed limit && !exchange.replied .cacheMiss

/-- A look-up that finds the key in the database. -/
def found (exchange : Exchange) : Bool :=
  exchange.request.command.type = .get && exchange.replied .ok

/-- A look-up that finds the key in neither tier. -/
def foundNowhere (exchange : Exchange) : Bool :=
  exchange.request.command.type = .get && !exchange.request.flags.isCacheOnly
    && exchange.replied .notIn

end Exchange

/-- The counters after one more exchange. -/
def Counters.note (limit : Nat) (counters : Counters) (exchange : Exchange) : Counters where
  requests := counters.requests + 1
  cacheHits := counters.cacheHits + (exchange.replied .cacheHit).toUInt64
  cacheMisses := counters.cacheMisses + (exchange.missed limit).toUInt64
  databaseHits := counters.databaseHits + exchange.found.toUInt64
  databaseMisses := counters.databaseMisses + exchange.foundNowhere.toUInt64
  sets := counters.sets + (exchange.accepted limit .set).toUInt64
  deletes := counters.deletes + (exchange.accepted limit .delete).toUInt64
  swaps := counters.swaps + (exchange.accepted limit .cas).toUInt64
  increments := counters.increments + (exchange.accepted limit .incr).toUInt64

theorem Tallied.eq_note {limit : Nat} {request : Request} {counters after : Counters} {reply : Reply}
    (h : Tallied limit request { counters with requests := counters.requests + 1 } reply after) :
    after = counters.note limit ⟨request, reply⟩ := by
  have hfalse (n : UInt64) : n + false.toUInt64 = n := n.add_zero
  have htrue (n : UInt64) : n + true.toUInt64 = n + 1 := rfl
  obtain ⟨id, flags, command⟩ := request
  unfold Counters.note Exchange.missed Exchange.found Exchange.foundNowhere Exchange.accepted
    Exchange.replied
  -- in each case the code of the reply says which counters move
  cases h with
  | refused hlarge hcode => simp [hcode, ReplyCode.word_inj, Nat.not_le.2 hlarge, hfalse]
  | cacheHit hsmall hget hcode => simp [hcode, ReplyCode.word_inj, hget, hfalse, htrue]
  | cacheMiss hsmall hget hcode => simp [hcode, ReplyCode.word_inj, hget, hsmall, hfalse, htrue]
  | databaseHit hsmall hget hcode => simp [hcode, ReplyCode.word_inj, hget, hsmall, hfalse, htrue]
  | databaseMiss hsmall hget htier hcode =>
    simp [hcode, ReplyCode.word_inj, hget, hsmall, htier, hfalse, htrue]
  | other code hsmall hother hcode hhit hmiss =>
    simp only [hcode, ReplyCode.word_inj, hhit, hother, hsmall]
    cases command <;> simp [Command.type, Counters.countCommand, hfalse, htrue]

/-- A look-up finds the key in the cache or misses it there. -/
theorem Tallied.hit_or_missed {limit : Nat} {exchange : Exchange} {before after : Counters}
    (h : Tallied limit exchange.request before exchange.reply after) :
    (exchange.replied .cacheHit).toNat + (exchange.missed limit).toNat
      = (exchange.accepted limit .get).toNat := by
  unfold Exchange.missed Exchange.accepted Exchange.replied
  cases h with
  | refused hlarge hcode => simp [hcode, ReplyCode.word_inj, Nat.not_le.2 hlarge]
  | cacheHit hsmall hget hcode => simp [hcode, hget, hsmall]
  | cacheMiss hsmall hget hcode => simp [hcode, ReplyCode.word_inj, hget, hsmall]
  | databaseHit hsmall hget hcode => simp [hcode, ReplyCode.word_inj, hget, hsmall]
  | databaseMiss hsmall hget htier hcode => simp [hcode, ReplyCode.word_inj, hget, hsmall]
  | other code hsmall hother hcode hhit hmiss => simp [hcode, ReplyCode.word_inj, hhit, hother]

/-- A look-up that misses the cache goes on to the database or ends there. -/
theorem Tallied.searched_or_ended {limit : Nat} {exchange : Exchange} {before after : Counters}
    (h : Tallied limit exchange.request before exchange.reply after) :
    (exchange.searched limit).toNat + (exchange.replied .cacheMiss).toNat
      = (exchange.missed limit).toNat := by
  unfold Exchange.searched Exchange.missed Exchange.accepted Exchange.replied
  cases h with
  | refused hlarge hcode => simp [hcode, ReplyCode.word_inj, Nat.not_le.2 hlarge]
  | cacheHit hsmall hget hcode => simp [hcode, ReplyCode.word_inj]
  | cacheMiss hsmall hget hcode => simp [hcode, ReplyCode.word_inj, hget, hsmall]
  | databaseHit hsmall hget hcode => simp [hcode, ReplyCode.word_inj]
  | databaseMiss hsmall hget htier hcode => simp [hcode, ReplyCode.word_inj]
  | other code hsmall hother hcode hhit hmiss => simp [hcode, ReplyCode.word_inj, hmiss, hother]

/-- The database has the key or does not. -/
theorem Tallied.found_or_not {limit : Nat} {exchange : Exchange} {before after : Counters}
    (h : Tallied limit exchange.request before exchange.reply after) :
    exchange.found.toNat + exchange.foundNowhere.toNat = (exchange.searched limit).toNat := by
  unfold Exchange.searched Exchange.missed Exchange.found Exchange.foundNowhere Exchange.accepted
    Exchange.replied
  cases h with
  | refused hlarge hcode => simp [hcode, ReplyCode.word_inj, Nat.not_le.2 hlarge]
  | cacheHit hsmall hget hcode => simp [hcode, ReplyCode.word_inj]
  | cacheMiss hsmall hget hcode => simp [hcode, ReplyCode.word_inj]
  | databaseHit hsmall hget hcode => simp [hcode, ReplyCode.word_inj, hget, hsmall]
  | databaseMiss hsmall hget htier hcode => simp [hcode, ReplyCode.word_inj, hget, hsmall, htier]
  | other code hsmall hother hcode hhit hmiss => simp [hother]

/-! ## Sums over a history -/

/-- Items counted one by one are counted together. -/
theorem countP_add {α : Type} {items : List α} {p q r : α → Bool}
    (h : ∀ item ∈ items, (p item).toNat + (q item).toNat = (r item).toNat) :
    items.countP p + items.countP q = items.countP r := by
  induction items with
  | nil => rfl
  | cons item items ih =>
    have hcons (f : α → Bool) : (item :: items).countP f = items.countP f + (f item).toNat := by
      rw [List.countP_cons]
      cases f item <;> rfl
    -- the first item adds as much on both sides
    have hitem := h item List.mem_cons_self
    have hitems := ih fun other hother => h other (List.mem_cons_of_mem item hother)
    rw [hcons p, hcons q, hcons r]
    omega

/-- A server with this limit can have the exchange. -/
def Exchange.Possible (limit : Nat) (exchange : Exchange) : Prop :=
  ∃ before after, Tallied limit exchange.request before exchange.reply after

section Sums

variable {limit : Nat} {log : List Exchange}

theorem hits_add_misses (h : ∀ exchange ∈ log, exchange.Possible limit) :
    log.countP (·.replied .cacheHit) + log.countP (·.missed limit)
      = log.countP (·.accepted limit .get) := by
  apply countP_add
  intro exchange hmem
  obtain ⟨before, after, htallied⟩ := h exchange hmem
  exact htallied.hit_or_missed

theorem found_add_not_found (h : ∀ exchange ∈ log, exchange.Possible limit) :
    log.countP Exchange.found + log.countP Exchange.foundNowhere
      = log.countP (·.searched limit) := by
  apply countP_add
  intro exchange hmem
  obtain ⟨before, after, htallied⟩ := h exchange hmem
  exact htallied.found_or_not

theorem searches_add_cache_misses (h : ∀ exchange ∈ log, exchange.Possible limit) :
    log.countP (·.searched limit) + log.countP (·.replied .cacheMiss)
      = log.countP (·.missed limit) := by
  apply countP_add
  intro exchange hmem
  obtain ⟨before, after, htallied⟩ := h exchange hmem
  exact htallied.searched_or_ended

end Sums

/-- Numbers that fit in 64 bits are words without loss. -/
theorem map_toNat_map_ofNat {counts : List Nat} (h : ∀ count ∈ counts, count < 0x10000000000000000) :
    (counts.map UInt64.ofNat).map UInt64.toNat = counts := by
  rw [List.map_map]
  refine (List.map_congr_left fun count hmem => ?_).trans (List.map_id counts)
  exact UInt64.toNat_ofNat_of_lt' (h count hmem)

namespace Counters

/-- A counter that moves with some exchanges tells their number. -/
theorem foldl_note {limit : Nat} {field : Counters → UInt64} {moves : Exchange → Bool}
    (hnote : ∀ counters exchange,
      field (note limit counters exchange) = field counters + (moves exchange).toUInt64)
    (counters : Counters) (log : List Exchange) :
    field (log.foldl (note limit) counters)
      = field counters + UInt64.ofNat (log.countP moves) := by
  induction log generalizing counters with
  | nil => exact (field counters).add_zero.symm
  | cons exchange log ih =>
    -- the counters from which the rest of the log is noted are those after its first exchange
    rw [List.foldl_cons, ih, hnote, List.countP_cons, Nat.add_comm, UInt64.ofNat_add,
      UInt64.add_assoc]
    cases moves exchange with
    | true => rfl
    | false => rfl

theorem toList_foldl_note (limit : Nat) (log : List Exchange) :
    (log.foldl (note limit) {}).toList
      = [log.length, log.countP (·.replied .cacheHit), log.countP (·.missed limit),
          log.countP Exchange.found, log.countP Exchange.foundNowhere,
          log.countP (·.accepted limit .set), log.countP (·.accepted limit .delete),
          log.countP (·.accepted limit .cas), log.countP (·.accepted limit .incr)].map
        UInt64.ofNat := by
  have hfield {field : Counters → UInt64} {moves : Exchange → Bool} (hzero : field {} = 0)
      (hnote : ∀ counters exchange,
        field (note limit counters exchange) = field counters + (moves exchange).toUInt64) :
      field (log.foldl (note limit) {}) = UInt64.ofNat (log.countP moves) := by
    rw [foldl_note hnote, hzero, UInt64.zero_add]
  have hrequests : (log.foldl (note limit) {}).requests = UInt64.ofNat log.length := by
    rw [← List.countP_true]
    exact hfield rfl fun _ _ => rfl
  simp only [toList, List.map_cons, List.map_nil, List.cons.injEq, and_true]
  exact ⟨hrequests, hfield rfl fun _ _ => rfl, hfield rfl fun _ _ => rfl,
    hfield rfl fun _ _ => rfl, hfield rfl fun _ _ => rfl, hfield rfl fun _ _ => rfl,
    hfield rfl fun _ _ => rfl, hfield rfl fun _ _ => rfl, hfield rfl fun _ _ => rfl⟩

end Counters

namespace PromptServer

/-- The counters at the end of a history of calls are those of what was shown in it. -/
theorem counters_run (server : PromptServer) (calls : List ServerCall) :
    (server.run calls).2.counters
      = (exchangesOf calls (server.run calls).1).foldl (Counters.note server.maxPayload)
          server.counters := by
  induction calls generalizing server with
  | nil => rfl
  | cons call calls ih =>
    cases call with
    | request request =>
      have hlimit : (server.handle request).2.maxPayload = server.maxPayload :=
        server.maxPayload_call (.request request)
      have hrest := ih (server.handle request).2
      rw [(server.tallied_handle request).eq_note, hlimit] at hrest
      exact hrest
    | evict key => exact ih (server.evict key).2

/-- A report counts the request for it. -/
theorem handle_stats {server : PromptServer} {requests : Nat} {others : List Nat}
    (h : server.counters.toList = (requests :: others).map UInt64.ofNat) (id : UInt32)
    (flags : Flags) :
    (server.handle ⟨id, flags, .stats⟩).1
      = .stats id (((requests + 1) :: others).map UInt64.ofNat) := by
  have hrequests : server.counters.requests = UInt64.ofNat requests := congrArg (List.headD · 0) h
  have hothers : server.counters.toList.tail = others.map UInt64.ofNat := congrArg List.tail h
  unfold handle
  simp only
  split
  · next hlarge => exact absurd hlarge (Nat.not_lt_zero server.maxPayload)
  · show Reply.stats id ((server.counters.requests + 1) :: server.counters.toList.tail) = _
    rw [hrequests, hothers, List.map_cons, UInt64.ofNat_add]
    rfl

/-- Every exchange in a history is one that a server with the same limit can have. -/
theorem tallied_run (server : PromptServer) (calls : List ServerCall) :
    ∀ exchange ∈ exchangesOf calls (server.run calls).1, exchange.Possible server.maxPayload := by
  induction calls generalizing server with
  | nil => exact fun exchange hmem => nomatch hmem
  | cons call calls ih =>
    cases call with
    | request request =>
      have hlimit : (server.handle request).2.maxPayload = server.maxPayload :=
        server.maxPayload_call (.request request)
      have hrest := ih (server.handle request).2
      rw [hlimit] at hrest
      exact List.forall_mem_cons.2 ⟨⟨_, _, server.tallied_handle request⟩, hrest⟩
    | evict key => exact ih (server.evict key).2

end PromptServer

namespace Server

/-- A report of the counters after any history lists, in order: the requests, with this one among
them; the hits of the cache; the look-ups that were accepted, less these hits; the look-ups that were
answered from the database; those in both tiers that were answered that the key is in neither; and
of each kind of write the requests that were accepted.  So look-ups are hits and misses of the cache,
and its misses are hits and misses of the database and replies that the cache alone does not have
the key.  A counter of 64 bits is exact as long as there are fewer requests than it can tell. -/
theorem counters_conserved (options : ServerOptions) (events : List ServerEvent) (id : UInt32)
    (flags : Flags) :
    let shown := (start options).run events
    let log := exchangesOf (callsOf events) shown.1
    let accepted (type : CommandType) := log.countP fun exchange =>
      exchange.request.command.type = type
        && exchange.request.command.payloadLength ≤ options.maxPayload
    let replied (code : ReplyCode) := log.countP fun exchange => exchange.reply.code = code.word
    let databaseHits := log.countP fun exchange =>
      exchange.request.command.type = .get && exchange.reply.code = ReplyCode.ok.word
    let databaseMisses := log.countP fun exchange =>
      exchange.request.command.type = .get && !exchange.request.flags.isCacheOnly
        && exchange.reply.code = ReplyCode.notIn.word
    let cacheMisses := accepted .get - replied .cacheHit
    let counts := [log.length + 1, replied .cacheHit, cacheMisses, databaseHits, databaseMisses,
      accepted .set, accepted .delete, accepted .cas, accepted .incr]
    ∃ values : List UInt64, (shown.2.handle ⟨id, flags, .stats⟩).1 = .stats id values
      ∧ values = counts.map UInt64.ofNat
      ∧ (log.length + 1 < 0x10000000000000000 → values.map UInt64.toNat = counts)
      ∧ replied .cacheHit + cacheMisses = accepted .get
      ∧ databaseHits + databaseMisses + replied .cacheMiss = cacheMisses := by
  intro shown log accepted replied databaseHits databaseMisses cacheMisses counts
  let prompt := (PromptServer.start options).run (callsOf events)
  have hrun := settle_run (start options) events
  rw [settle_start] at hrun
  have hsights : shown.1 = prompt.1 := congrArg Prod.fst hrun
  have hend : shown.2.settle = prompt.2 := congrArg Prod.snd hrun
  have hlog : log = exchangesOf (callsOf events) prompt.1 :=
    congrArg (exchangesOf (callsOf events)) hsights
  have hpossible : ∀ exchange ∈ log, exchange.Possible options.maxPayload := by
    rw [hlog]
    exact (PromptServer.start options).tallied_run (callsOf events)
  -- a look-up ends in the cache, in the database or in neither
  have hlooked : replied .cacheHit + log.countP (·.missed options.maxPayload) = accepted .get :=
    hits_add_misses hpossible
  have hfound : databaseHits + databaseMisses = log.countP (·.searched options.maxPayload) :=
    found_add_not_found hpossible
  have hsearched : log.countP (·.searched options.maxPayload) + replied .cacheMiss
      = log.countP (·.missed options.maxPayload) := searches_add_cache_misses hpossible
  have hmissed : log.countP (·.missed options.maxPayload) = cacheMisses := by
    show _ = accepted .get - replied .cacheHit
    omega
  have hcounters : prompt.2.counters.toList = [log.length, replied .cacheHit, cacheMisses,
      databaseHits, databaseMisses, accepted .set, accepted .delete, accepted .cas,
      accepted .incr].map UInt64.ofNat := by
    rw [← hmissed, (PromptServer.start options).counters_run, ← hlog]
    exact Counters.toList_foldl_note options.maxPayload log
  have hreport : (shown.2.handle ⟨id, flags, .stats⟩).1 = .stats id (counts.map UInt64.ofNat) := by
    rw [handle_fst, hend]
    exact PromptServer.handle_stats hcounters id flags
  refine ⟨_, hreport, rfl, ?_, ?_, ?_⟩
  · intro hfew
    -- nothing is counted more often than there are requests
    have hle (p : Exchange → Bool) : log.countP p < 0x10000000000000000 :=
      Nat.lt_of_le_of_lt (Nat.le_succ_of_le List.countP_le_length) hfew
    have hsub : cacheMisses < 0x10000000000000000 := Nat.lt_of_le_of_lt (Nat.sub_le _ _) (hle _)
    apply map_toNat_map_ofNat
    simp only [counts, List.forall_mem_cons]
    exact ⟨hfew, hle _, hsub, hle _, hle _, hle _, hle _, hle _, hle _, nofun⟩
  · omega
  · omega

/-- Two bytes fit in a request and one entry in the cache.  One of three values is too large, each
of four look-ups ends differently, and a deletion, a swap and an increment find nothing to change. -/
theorem counters_conserved_mixed :
    let events : List ServerEvent := [
      .call (.request ⟨1, .sync, .set [1] [1]⟩), .call (.request ⟨2, .none, .get [1]⟩),
      .call (.request ⟨3, .none, .set [2] [1, 2]⟩), .call (.request ⟨4, .none, .set [2] [5]⟩),
      .call (.request ⟨5, .cacheOnly, .get [1]⟩), .work 1,
      .call (.request ⟨6, .none, .get [1]⟩), .call (.request ⟨7, .none, .get [3]⟩),
      .call (.request ⟨8, .none, .delete [3]⟩), .call (.request ⟨9, .none, .cas [1] [] [2]⟩),
      .call (.request ⟨10, .cacheOnly, .incr [3] 1⟩), .call (.evict [1])]
    let shown := (start ⟨some 1, 2⟩).run events
    (exchangesOf (callsOf events) shown.1).length + 1 < 0x10000000000000000
      ∧ ∃ values : List UInt64, (shown.2.handle ⟨11, .none, .stats⟩).1 = .stats 11 values
        ∧ values.map UInt64.toNat = [11, 1, 3, 1, 1, 2, 1, 1, 1] := by
  intro events shown
  have hfew : (exchangesOf (callsOf events) shown.1).length + 1 < 0x10000000000000000 := by decide
  obtain ⟨values, hreport, -, hexact, -, -⟩ :=
    counters_conserved ⟨some 1, 2⟩ events 11 Flags.none
  exact ⟨hfew, values, hreport, (hexact hfew).trans (by decide)⟩

end Server

end TieredStore
