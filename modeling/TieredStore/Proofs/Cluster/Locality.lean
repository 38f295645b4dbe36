import TieredStore.Proofs.Cluster.Servers
import TieredStore.Proofs.Server.Reached
import TieredStore.Proofs.Server.Undisturbed

/-!
# What a request leaves as it was

A request that is not answered with a success has changed nothing but the counters
(`Server.unchanged_unless_ok`).  One that is answered with a success has changed the value of its
own key, in the tiers that it was for, and has taken the place of the oldest key in the cache at
most (`Server.request_is_local`).
-/

namespace TieredStore

/-! ## Refused requests -/

namespace PromptServer

variable (server : PromptServer) {pairs : List (Bytes × Bytes)} {key : Bytes} {cacheOnly : Bool}

theorem get?_eq_none_of_current (h : server.current key cacheOnly = none) :
    server.cache.get? key = none ∧ (cacheOnly = false → server.table.get? key = none) := by
  obtain ⟨hcache, htable⟩ := Option.or_eq_none_iff.1 h
  refine ⟨hcache, ?_⟩
  intro hboth
  rw [if_neg (by simp [hboth])] at htable
  exact htable

/-- There is nothing to unbind where there is no value. -/
theorem unbind_of_current_eq_none (hlists : server.cache.Lists pairs)
    (h : server.current key cacheOnly = none) : server.unbind key cacheOnly = server := by
  obtain ⟨hcache, htable⟩ := server.get?_eq_none_of_current h
  unfold unbind
  rw [hlists.erase_of_get?_eq_none hcache]
  cases cacheOnly with
  | true => rfl
  | false =>
    rw [Table.erase_of_get?_eq_none (htable rfl)]
    rfl

theorem handle_of_code_ne_ok (hlists : server.cache.Lists pairs) {request : Request}
    (hcode : (server.handle request).1.code ≠ ReplyCode.ok.word) :
    ∃ counters, (server.handle request).2 = { server with counters } := by
  have heffect := server.effect_handle request
  generalize server.handle request = outcome at heffect hcode
  cases heffect with
  | kept reply counters => exact ⟨counters, rfl⟩
  | bound value counters cacheOnly hsubject hok => exact absurd hok hcode
  | unbound counters hsubject hok =>
    -- a removal that is no success has found nothing
    have hnone := hok.resolve_left hcode
    exact ⟨counters, unbind_of_current_eq_none { server with counters } hlists hnone⟩

end PromptServer

namespace Server

theorem flush_of_settle {server after : Server} {counters : Counters}
    (h : after.settle = { server.settle with counters }) :
    after.flush = { server.flush with counters := after.counters } := by
  obtain ⟨hmaxPayload, hcache, htable, -, hreachable⟩ := PromptServer.mk.inj h
  unfold flush
  rw [Database.flush_eq, Database.flush_eq, hmaxPayload, hcache, htable, hreachable]
  rfl

/-- A reply that is no success tells that the server is what it was, once its database has caught
up: the same entries are in the cache in the same order, and the same table is stored; only the
counters move.  A request that no server accepts changes nothing at all, at any endpoint. -/
theorem unchanged_unless_ok {options : ServerOptions} {server : Server} (h : Reached options server)
    (request : Request) :
    ((server.handle request).1.code ≠ ReplyCode.ok.word →
      (server.handle request).2.flush
        = { server.flush with counters := (server.handle request).2.counters })
      ∧ ∀ (cluster : Cluster) (endpoint : Endpoint),
        (∀ found, cluster.server? endpoint = some found → found.reachable = false) →
        ∃ text, cluster.roundTrip endpoint request
          = (.error (.io ⟨.connectionRefused, text⟩), cluster) := by
  constructor
  · intro hcode
    obtain ⟨pairs, hlists⟩ := h.exists_lists
    rw [handle_fst] at hcode
    obtain ⟨counters, hafter⟩ := server.settle.handle_of_code_ne_ok hlists hcode
    rw [← settle_handle_snd] at hafter
    exact flush_of_settle hafter
  · intro cluster endpoint hrefuses
    exact ⟨_, Cluster.roundTrip_of_refused hrefuses request⟩

/-- A key that is nowhere cannot be deleted; another is in a full cache, and its write waits. -/
theorem unchanged_unless_ok_not_in :
    let server := ((start ⟨some 1, 64⟩).run [.call (.request ⟨1, .none, .set [1] [5]⟩)]).2
    let after := (server.handle ⟨2, .none, .delete [2]⟩).2
    server.database.queue ≠ [] ∧ after.flush = { server.flush with counters := after.counters }
      ∧ ∃ text, Cluster.roundTrip (.tipc 10) ⟨3, .none, .delete [1]⟩
          ⟨⟨none, 64⟩, [(.tipc 10, { server with reachable := false })]⟩
        = (.error (.io ⟨.connectionRefused, text⟩),
          ⟨⟨none, 64⟩, [(.tipc 10, { server with reachable := false })]⟩) := by
  intro server after
  have hreached : Reached ⟨some 1, 64⟩ server := Reached.start.run _
  refine ⟨by decide, (unchanged_unless_ok hreached ⟨2, .none, .delete [2]⟩).1 (by decide), ?_⟩
  apply (unchanged_unless_ok hreached ⟨3, .none, .delete [1]⟩).2
  intro found hfound
  cases hfound
  rfl

/-! ## The reach of a request -/

/-- The cache alone is asked. -/
theorem current_cacheOnly (server : Server) (key : Bytes) :
    server.current key true = (some (server.cache.get? key), server) := by
  unfold current
  cases server.cache.get? key with
  | some value => rfl
  | none => rfl

/-- A request for the cache alone neither asks the database nor queues anything: whatever database
the server has, the reply is the same, and the database stays as it is. -/
theorem handle_of_cacheOnly (server : Server) {request : Request}
    (hflag : request.flags.isCacheOnly = true) (hsubject : request.command.subject? ≠ none)
    (database : Database) :
    ({ server with database } : Server).handle request
      = ((server.handle request).1, { (server.handle request).2 with database }) := by
  obtain ⟨id, flags, command⟩ := request
  have hflag : flags.isCacheOnly = true := hflag
  unfold handle
  simp only [hflag, tally]
  -- in every branch the database is carried along and not looked at
  by_cases hlimit : server.maxPayload < command.payloadLength
  · simp only [if_pos hlimit]
  · simp only [if_neg hlimit]
    cases command with
    | get key =>
      simp only [get, tally]
      cases server.cache.get? key with
      | some value => rfl
      | none => rfl
    | set key value => rfl
    | delete key => rfl
    | cas key old new =>
      simp only [cas, tally, current_cacheOnly]
      cases server.cache.get? key with
      | none => rfl
      | some value =>
        by_cases hmatch : value = old
        · simp [hmatch, remember]
        · simp [hmatch]
    | incr key delta =>
      simp only [incr, tally, current_cacheOnly]
      cases server.cache.get? key with
      | none => rfl
      | some value =>
        simp only
        cases readCounter value with
        | none => rfl
        | some number => rfl
    | stats => exact absurd rfl hsubject
    | firstKey => exact absurd rfl hsubject
    | nextKey key => exact absurd rfl hsubject

end Server

/-- Another key goes from the cache only where the request's own key has come in its place. -/
theorem PromptServer.displaced_by_handle (server : PromptServer) {pairs : List (Bytes × Bytes)}
    (hlists : server.cache.Lists pairs) (hsound : server.cache.Sound) {request : Request}
    {key : Bytes} (hkey : request.command.subject? ≠ some key)
    (hthere : server.cache.get? key ≠ none)
    (hgone : (server.handle request).2.cache.get? key = none) :
    ∃ new, request.command.subject? = some new
      ∧ server.cache.Displaced (server.handle request).2.cache key new := by
  have heffect := server.effect_handle request
  generalize server.handle request = outcome at heffect hgone
  cases heffect with
  | kept reply counters => exact absurd hgone hthere
  | bound value counters cacheOnly hsubject hcode =>
    have hne := Command.ne_of_subject? hkey hsubject
    exact ⟨_, hsubject, hlists.displaced hsound value hne hthere hgone⟩
  | @unbound subject reply counters hsubject hcode =>
    change (server.cache.erase subject).get? key = none at hgone
    rw [Cache.get?_erase, if_neg (Command.ne_of_subject? hkey hsubject)] at hgone
    exact absurd hgone hthere

theorem PromptServer.cache_handle_of_subject?_eq_none (server : PromptServer) {request : Request}
    (h : request.command.subject? = none) :
    (server.handle request).2.cache = server.cache := by
  have heffect := server.effect_handle request
  generalize server.handle request = outcome at heffect
  cases heffect with
  | kept reply counters => rfl
  | bound value counters cacheOnly hsubject hcode =>
    rw [h] at hsubject
    cases hsubject
  | unbound counters hsubject hcode =>
    rw [h] at hsubject
    cases hsubject

/-- A request leaves all keys but its own as they are stored, and shown by the cache, where the
oldest of them may have to make room: only if the cache is full and has not had the request's key.
For the cache alone, it has no use for the database.  Without a key of its own, it leaves the cache
as it is; and it is only ever seen by the server behind its endpoint. -/
theorem Server.request_is_local {options : ServerOptions} {server : Server}
    (h : Reached options server) (request : Request) :
    let after := (server.handle request).2
    (∀ key, request.command.subject? ≠ some key →
        after.database.settled.get? key = server.database.settled.get? key
          ∧ (after.cache.get? key = server.cache.get? key ∨ after.cache.get? key = none)
          ∧ (server.cache.get? key ≠ none → after.cache.get? key = none →
            ∃ new, request.command.subject? = some new
              ∧ server.cache.Displaced after.cache key new))
      ∧ (request.flags.isCacheOnly = true → request.command.subject? ≠ none →
        after.database = server.database
          ∧ ∀ database, ({ server with database } : Server).handle request
            = ((server.handle request).1, { after with database }))
      ∧ (request.command.subject? = none → after.cache = server.cache)
      ∧ ∀ (cluster : Cluster) (endpoint other : Endpoint), other ≠ endpoint →
        (cluster.roundTrip endpoint request).2.server? other = cluster.server? other := by
  intro after
  have hafter : after.settle = (server.settle.handle request).2 := settle_handle_snd ..
  refine ⟨?_, ?_, ?_, ?_⟩
  · -- the tiers are those of the prompt server, whose requests bind or unbind one key
    intro key hkey
    have hkept := server.settle.undisturbed_handle request hkey
    rw [← hafter] at hkept
    refine ⟨hkept.stored, hkept.shown.imp_right And.right, ?_⟩
    intro hthere hgone
    obtain ⟨pairs, hlists⟩ := h.exists_lists
    have hsettled : (server.settle.handle request).2.cache.get? key = none := by
      rw [← hafter]
      exact hgone
    obtain ⟨new, hsubject, hdisplaced⟩ :=
      server.settle.displaced_by_handle hlists h.sound hkey hthere hsettled
    rw [← hafter] at hdisplaced
    exact ⟨new, hsubject, hdisplaced⟩
  · intro hflag hsubject
    -- with its own database, the server itself is meant
    have hany := server.handle_of_cacheOnly hflag hsubject
    refine ⟨?_, hany⟩
    show (server.handle request).2.database = server.database
    have hsame : server.handle request
        = ((server.handle request).1,
          { (server.handle request).2 with database := server.database }) := hany server.database
    rw [hsame]
  · intro hsubject
    show after.settle.cache = server.settle.cache
    rw [hafter]
    exact server.settle.cache_handle_of_subject?_eq_none hsubject
  · intro cluster endpoint other hother
    exact Cluster.server?_roundTrip hother request

/-- Reading a key that the database has drives the only other one out of a cache for one.  Removed
from the cache alone, that one is still stored. -/
theorem Server.request_is_local_crowded :
    let server := ((start ⟨some 1, 64⟩).run
      [.call (.request ⟨1, .none, .set [2] [6]⟩), .call (.request ⟨2, .none, .set [1] [5]⟩)]).2
    let read := (server.handle ⟨3, .none, .get [2]⟩).2
    let removed := (server.handle ⟨4, .cacheOnly, .delete [1]⟩).2
    server.cache.Displaced read.cache [1] [2]
      ∧ read.database.settled.get? [1] = server.database.settled.get? [1]
      ∧ removed.database = server.database
      ∧ (server.handle ⟨5, .none, .firstKey⟩).2.cache = server.cache := by
  intro server read removed
  have hreached : Reached ⟨some 1, 64⟩ server := Reached.start.run _
  obtain ⟨hothers, -⟩ := request_is_local hreached ⟨3, .none, .get [2]⟩
  obtain ⟨hstored, -, hdropped⟩ := hothers [1] (by decide)
  obtain ⟨new, hnew, hdisplaced⟩ := hdropped (by decide) (by decide)
  obtain ⟨-, hcacheOnly, -⟩ := request_is_local hreached ⟨4, .cacheOnly, .delete [1]⟩
  obtain ⟨-, -, hcache, -⟩ := request_is_local hreached ⟨5, .none, .firstKey⟩
  have hkey : [2] = new := Option.some.inj hnew
  exact ⟨hkey ▸ hdisplaced, hstored, (hcacheOnly rfl (by decide)).1, hcache rfl⟩

end TieredStore
