import TieredStore.Proofs.Client.MapCall
import TieredStore.Proofs.Server.Tiers

/-!
# Servers like a map

A server whose two tiers agree with a table replies to a request for both tiers as the table tells,
and agrees with what becomes of the table (`PromptServer.serves_handle`).  So a call is answered as
on the table (`PromptServer.follows_handle`).
-/

namespace TieredStore

namespace PromptServer

/-- The outcome of a request is that of the call on a map: the reply is the same, and where the
server agreed with the map before, it does so after. -/
structure Serves (server : PromptServer) (map : Table) (id : UInt32) (call : MapCall)
    (outcome : Reply × PromptServer) : Prop where
  answered : call.Answered outcome.1 (map.reply id call)
  keeps : ∀ key, server.Holds key (map.get? key)
    → outcome.2.Holds key ((map.call call).2.get? key)

/-- The same of the answer that is read from the reply. -/
structure Follows (server : PromptServer) (map : Table) (call : MapCall)
    (outcome : Reply × PromptServer) : Prop where
  answer : call.read (.ok outcome.1) = (map.call call).1
  keeps : ∀ key, server.Holds key (map.get? key)
    → outcome.2.Holds key ((map.call call).2.get? key)

variable {server : PromptServer} {map : Table} {key : Bytes}

/-- The map stays as it is, and what the server does is not to be seen. -/
theorem serves_of_kept {id : UInt32} {call : MapCall} {reply : Reply} {after : PromptServer}
    (hcall : (map.call call).2 = map) (hreply : call.Answered reply (map.reply id call))
    (hkept : ∀ other value, server.Holds other value → after.Holds other value) :
    server.Serves map id call (reply, after) := by
  refine ⟨hreply, ?_⟩
  intro other hother
  rw [hcall]
  exact hkept other _ hother

/-- A key is bound on both sides. -/
theorem serves_of_bound {id : UInt32} {call : MapCall} {reply : Reply} {new : Bytes}
    (event : Counters → Counters) (hcall : (map.call call).2 = map.insert key new)
    (hreply : reply = map.reply id call) :
    server.Serves map id call (reply, (server.tally event).bind key new false) := by
  refine ⟨.inl hreply, ?_⟩
  intro other hother
  have hbind := (hother.tally event).bind key new
  rw [hcall, Table.get?_insert]
  exact hbind

theorem serves_get (id : UInt32) (h : server.Holds key (map.get? key)) :
    server.Serves map id (.get key) (server.get id key false) := by
  have hcall : (map.call (.get key)).2 = map := by
    unfold Table.call
    simp only
    split
    · rfl
    · rfl
  have hreply : (MapCall.get key).Answered (server.get id key false).1 (map.reply id (.get key)) := by
    unfold PromptServer.get
    simp only [Table.reply]
    cases hshown : server.cache.get? key with
    | some shown =>
      -- a hit has another code than the table's reply
      rw [h.fresh shown hshown]
      exact .inr ⟨⟨key, rfl⟩, rfl, rfl⟩
    | none =>
      have hstored : (server.tally fun c => { c with cacheMisses := c.cacheMisses + 1 }).table.get?
          key = map.get? key := h.stored
      simp only [Bool.false_eq_true, if_false, hstored]
      cases map.get? key with
      | none => exact .inl rfl
      | some value => exact .inl rfl
  exact serves_of_kept hcall hreply fun other value hother => hother.get id key false

theorem serves_set (id : UInt32) (confirmed : Bool) (value : Bytes) :
    server.Serves map id (.set confirmed key value) (server.set id key value false) :=
  serves_of_bound _ rfl rfl

theorem serves_delete (id : UInt32) (confirmed : Bool) (h : server.Holds key (map.get? key)) :
    server.Serves map id (.delete confirmed key) (server.delete id key false) := by
  have hmap : (map.call (.delete confirmed key)).2 = map.erase key := by
    unfold Table.call
    simp only
    cases hvalue : map.get? key with
    | some value => rfl
    | none => exact (Table.erase_of_get?_eq_none hvalue).symm
  constructor
  · left
    unfold PromptServer.delete
    rw [h.current_eq]
    rfl
  · intro other hother
    have hunbind := (hother.tally fun c => { c with deletes := c.deletes + 1 }).unbind key
    rw [hmap, Table.get?_erase]
    exact hunbind

theorem serves_cas (id : UInt32) (old new : Bytes) (h : server.Holds key (map.get? key)) :
    server.Serves map id (.cas key old new) (server.cas id key old new false) := by
  have hcurrent := (h.tally fun c => { c with swaps := c.swaps + 1 }).current_eq
  have hkept : ∀ other value, server.Holds other value →
      (server.tally fun c => { c with swaps := c.swaps + 1 }).Holds other value :=
    fun other value hother => hother.tally _
  unfold PromptServer.cas
  simp only [hcurrent]
  cases hvalue : map.get? key with
  | none =>
    apply serves_of_kept _ _ hkept
    · simp only [Table.call, hvalue]
    · left
      simp only [Table.reply, hvalue]
  | some value =>
    by_cases hmatch : value = old
    · simp only [if_pos hmatch]
      apply serves_of_bound
      · simp only [Table.call, hvalue, if_pos hmatch]
      · simp only [Table.reply, hvalue, if_pos hmatch]
    · simp only [if_neg hmatch]
      apply serves_of_kept _ _ hkept
      · simp only [Table.call, hvalue, if_neg hmatch]
      · left
        simp only [Table.reply, hvalue, if_neg hmatch]

theorem serves_incr (id : UInt32) (delta : Int64) (h : server.Holds key (map.get? key)) :
    server.Serves map id (.incr key delta) (server.incr id key delta false) := by
  have hcurrent := (h.tally fun c => { c with increments := c.increments + 1 }).current_eq
  have hkept : ∀ other value, server.Holds other value →
      (server.tally fun c => { c with increments := c.increments + 1 }).Holds other value :=
    fun other value hother => hother.tally _
  unfold PromptServer.incr
  simp only [hcurrent]
  cases hvalue : map.get? key with
  | none =>
    apply serves_of_kept _ _ hkept
    · simp only [Table.call, hvalue]
    · left
      simp only [Table.reply, hvalue]
  | some value =>
    simp only
    cases hnumber : readCounter value with
    | none =>
      apply serves_of_kept _ _ hkept
      · simp only [Table.call, hvalue, hnumber]
      · left
        simp only [Table.reply, hvalue, hnumber]
    | some number =>
      apply serves_of_bound
      · simp only [Table.call, hvalue, hnumber]
      · simp only [Table.reply, hvalue, hnumber]

/-- A request for both tiers that is not too large for the server has the outcome that its call has
on the map. -/
theorem serves_handle (request : Request) {call : MapCall}
    (hcommand : request.command = call.command) (hboth : request.flags.isCacheOnly = false)
    (h : server.Holds call.command.key (map.get? call.command.key))
    (hfits : call.command.payloadLength ≤ server.maxPayload) :
    server.Serves map request.id call (server.handle request) := by
  obtain ⟨id, flags, command⟩ := request
  simp only at hcommand hboth ⊢
  subst hcommand
  let counted := server.tally fun c => { c with requests := c.requests + 1 }
  have hcounted : counted.Holds call.command.key (map.get? call.command.key) := h.tally _
  have hlimit : ¬counted.maxPayload < call.command.payloadLength := Nat.not_lt.2 hfits
  suffices hserves : counted.Serves map id call (server.handle ⟨id, flags, call.command⟩) from
    ⟨hserves.answered, fun other hother => hserves.keeps other (hother.tally _)⟩
  unfold handle
  simp only [hboth]
  rw [if_neg hlimit]
  cases call with
  | set confirmed key value => exact serves_set id confirmed value
  | get key => exact serves_get id hcounted
  | delete confirmed key => exact serves_delete id confirmed hcounted
  | cas key old new => exact serves_cas id old new hcounted
  | incr key delta => exact serves_incr id delta hcounted

theorem follows_handle (id : UInt32) (call : MapCall)
    (h : server.Holds call.command.key (map.get? call.command.key)) (hshort : map.Short)
    (hfits : call.command.payloadLength ≤ server.maxPayload) :
    server.Follows map call (server.handle ⟨id, call.flags, call.command⟩) := by
  have hserves := serves_handle ⟨id, call.flags, call.command⟩ rfl call.isCacheOnly_flags h hfits
  exact ⟨map.read_of_answered hshort hserves.answered, hserves.keeps⟩

/-- A request that is too large is refused, and makes no difference. -/
theorem handle_of_large (server : PromptServer) (request : Request)
    (h : server.maxPayload < request.command.payloadLength) :
    server.handle request = (.error request.id .brokenRequest,
      server.tally fun c => { c with requests := c.requests + 1 }) :=
  if_pos h

end PromptServer

end TieredStore
