import TieredStore.Proofs.Server.Follows
import TieredStore.Proofs.Server.Schedule
import TieredStore.Proofs.Server.Settings
import TieredStore.Proofs.Server.Undisturbed

/-!
# Coherence of one key

Requests with any flags come to a server, many of them for the cache alone.  A key that is never
written to the cache alone has one value in both tiers for all that, and requests for both tiers are
answered from it as from a map that knows of nothing else (`coherent_unless_shadowed`).
-/

namespace TieredStore

/-- The key that a call writes to the cache alone. -/
def ServerCall.shadowed? : ServerCall → Option Bytes
  | .request ⟨_, flags, command⟩ =>
    if flags.isCacheOnly then
      match command with
      | .set key _ | .cas key _ _ | .incr key _ => some key
      | _ => none
    else none
  | .evict _ => none

/-- The call on a map that a request comes to, if it is for both tiers and not too large. -/
def Request.mapCall? (limit : Nat) (request : Request) : Option MapCall :=
  if request.flags.isCacheOnly ∨ limit < request.command.payloadLength then none
  else
    match request.command with
    | .get key => some (.get key)
    | .set key value => some (.set request.flags.isSync key value)
    | .delete key => some (.delete request.flags.isSync key)
    | .cas key old new => some (.cas key old new)
    | .incr key delta => some (.incr key delta)
    | .stats | .firstKey | .nextKey _ => none

/-- What a call makes of a map that is about one key. -/
def Table.heed (limit : Nat) (key : Bytes) (map : Table) : ServerCall → Table
  | .request request =>
    match request.mapCall? limit with
    | some call => if call.command.key = key then (map.call call).2 else map
    | none => map
  | .evict _ => map

theorem MapCall.subject?_command (call : MapCall) :
    call.command.subject? = some call.command.key := by
  cases call with
  | _ => rfl

theorem Request.of_mapCall? {limit : Nat} {request : Request} {call : MapCall}
    (h : request.mapCall? limit = some call) :
    request.command = call.command ∧ request.flags.isCacheOnly = false
      ∧ request.command.payloadLength ≤ limit := by
  obtain ⟨id, flags, command⟩ := request
  unfold mapCall? at h
  simp only at h ⊢
  by_cases hout : flags.isCacheOnly = true ∨ limit < command.payloadLength
  · rw [if_pos hout] at h
    cases h
  · rw [if_neg hout] at h
    rw [not_or, Bool.not_eq_true, Nat.not_lt] at hout
    refine ⟨?_, hout⟩
    cases command with
    | stats => cases h
    | firstKey => cases h
    | nextKey key => cases h
    | _ =>
      cases h
      rfl

namespace PromptServer

variable {server : PromptServer} {key : Bytes} {value : Option Bytes} {map : Table} {limit : Nat}

/-- A value that leaves the cache is still in the database. -/
theorem Holds.unbind_cacheOnly (h : server.Holds key value) (gone : Bytes) :
    (server.unbind gone true).Holds key value :=
  h.evict gone

/-- A request for the cache alone that does not write the key. -/
theorem Holds.handle_cacheOnly (h : server.Holds key value) {request : Request}
    (hcache : request.flags.isCacheOnly = true)
    (hquiet : (ServerCall.request request).shadowed? ≠ some key) :
    (server.handle request).2.Holds key value := by
  by_cases hsubject : request.command.subject? = some key
  · obtain ⟨id, flags, command⟩ := request
    simp only [ServerCall.shadowed?, hcache, if_true] at hquiet
    have hcounted := h.tally fun c => { c with requests := c.requests + 1 }
    unfold handle
    simp only [hcache]
    split
    · exact hcounted
    · cases command with
      | get subject => exact hcounted.get id subject true
      | delete subject => exact (hcounted.tally _).unbind_cacheOnly subject
      | _ => contradiction
  · exact (undisturbed_handle server request hsubject).holds h

theorem Holds.handle_mapCall (h : server.Holds key (map.get? key)) {request : Request}
    {call : MapCall} (hcall : request.mapCall? server.maxPayload = some call)
    (hkey : call.command.key = key) :
    (server.handle request).2.Holds key ((map.call call).2.get? key) := by
  obtain ⟨hcommand, hboth, hfits⟩ := Request.of_mapCall? hcall
  rw [hcommand] at hfits
  have hsubject : server.Holds call.command.key (map.get? call.command.key) := by
    rw [hkey]
    exact h
  exact (serves_handle request hcommand hboth hsubject hfits).keeps key h

/-- A request for both tiers that is not a call on the map reads and writes no key's value. -/
theorem subject?_eq_none {request : Request} (hboth : request.flags.isCacheOnly = false)
    (hfits : request.command.payloadLength ≤ limit) (h : request.mapCall? limit = none) :
    request.command.subject? = none := by
  obtain ⟨id, flags, command⟩ := request
  have hin : ¬(flags.isCacheOnly = true ∨ limit < command.payloadLength) := by
    simp only at hboth hfits
    simp [hboth, hfits]
  unfold Request.mapCall? at h
  simp only at h ⊢
  rw [if_neg hin] at h
  cases command with
  | stats => rfl
  | firstKey => rfl
  | nextKey key => rfl
  | _ => cases h

/-- A call keeps the key's value in both tiers as it is on the map. -/
theorem Holds.call (h : server.Holds key (map.get? key)) {call : ServerCall}
    (hquiet : call.shadowed? ≠ some key) :
    (server.call call).2.Holds key ((map.heed server.maxPayload key call).get? key) := by
  cases call with
  | evict dropped => exact h.evict dropped
  | request request =>
    change (server.handle request).2.Holds key _
    cases hcall : request.mapCall? server.maxPayload with
    | some call =>
      simp only [Table.heed, hcall]
      by_cases hkey : call.command.key = key
      · rw [if_pos hkey]
        exact h.handle_mapCall hcall hkey
      · rw [if_neg hkey]
        apply (undisturbed_handle server request _).holds h
        rw [(Request.of_mapCall? hcall).1, call.subject?_command]
        exact fun heq => hkey (Option.some.inj heq)
    | none =>
      simp only [Table.heed, hcall]
      by_cases hlarge : server.maxPayload < request.command.payloadLength
      · rw [handle_of_large server request hlarge]
        exact h.tally fun c => { c with requests := c.requests + 1 }
      by_cases hcache : request.flags.isCacheOnly = true
      · exact h.handle_cacheOnly hcache hquiet
      -- the request is for both tiers, and is not about the value of any key
      · apply (undisturbed_handle server request _).holds h
        rw [subject?_eq_none (Bool.not_eq_true _ ▸ hcache) (Nat.le_of_not_lt hlarge) hcall]
        simp

theorem Holds.run (h : server.Holds key (map.get? key)) {calls : List ServerCall}
    (hquiet : ∀ call ∈ calls, call.shadowed? ≠ some key) :
    (server.run calls).2.Holds key ((calls.foldl (Table.heed server.maxPayload key) map).get? key)
      ∧ (server.run calls).2.maxPayload = server.maxPayload := by
  induction calls generalizing server map with
  | nil => exact ⟨h, rfl⟩
  | cons call calls ih =>
    rw [List.forall_mem_cons] at hquiet
    have hnext := ih (h.call hquiet.1) hquiet.2
    rw [maxPayload_call] at hnext
    exact hnext

end PromptServer

namespace Server

/-- Of a key that no call writes to the cache alone, the cache shows what the database has, once its
jobs are done.  A request for both tiers that is about the key and not too large is answered from a
map that has taken no other requests than these.  This holds wherever a history is broken off, and
so at every point of one. -/
theorem coherent_unless_shadowed (options : ServerOptions) (events : List ServerEvent) (key : Bytes)
    (hquiet : ∀ call ∈ callsOf events, call.shadowed? ≠ some key) :
    let server := ((start options).run events).2
    let map := (callsOf events).foldl (Table.heed options.maxPayload key) .empty
    (∀ shown, server.cache.get? key = some shown → server.database.settled.get? key = some shown)
      ∧ server.database.settled.get? key = map.get? key
      ∧ ∀ (request : Request) (call : MapCall), request.command = call.command →
        call.command.key = key → request.flags.isCacheOnly = false →
        request.command.payloadLength ≤ options.maxPayload →
        call.Answered (server.handle request).1 (map.reply request.id call) := by
  intro server map
  have hsettle : server.settle = ((PromptServer.start options).run (callsOf events)).2 :=
    congrArg Prod.snd (settle_run (start options) events)
  have hstart : (PromptServer.start options).Holds key (Table.empty.get? key) :=
    PromptServer.holds_start options key
  obtain ⟨hholds, hlimit⟩ := hstart.run hquiet
  rw [← hsettle] at hholds hlimit
  have hholds : server.settle.Holds key (map.get? key) := hholds
  refine ⟨?_, hholds.stored, ?_⟩
  · intro shown hshown
    exact hholds.stored.trans (hholds.fresh shown hshown)
  · intro request call hcommand hkey hboth hfits
    rw [handle_fst]
    rw [hcommand] at hfits
    refine (PromptServer.serves_handle request hcommand hboth (hkey ▸ hholds) ?_).answered
    rw [hlimit]
    exact hfits

/-- The key 7 gets a value in both tiers, is dropped from the cache and read by the cache alone,
while the key 8 has a value in the cache alone. -/
theorem coherent_unless_shadowed_seven :
    let events : List ServerEvent := [
      .call (.request ⟨1, .sync, .set [7] [1]⟩), .call (.request ⟨2, .cacheOnly, .set [8] [2]⟩),
      .call (.request ⟨3, .cacheOnly, .delete [7]⟩), .work 1,
      .call (.request ⟨4, .none, .cas [7] [1] [3]⟩), .call (.evict [8]),
      .call (.request ⟨5, .cacheOnly, .get [7]⟩)]
    (∀ call ∈ callsOf events, call.shadowed? ≠ some [7])
      ∧ (MapCall.get [7]).Answered
        (((start ⟨some 1, 64⟩).run events).2.handle ⟨6, .none, .get [7]⟩).1 (.value 6 .ok [3]) := by
  intro events
  have hquiet : ∀ call ∈ callsOf events, call.shadowed? ≠ some [7] := by decide
  have hanswered := (coherent_unless_shadowed ⟨some 1, 64⟩ events [7] hquiet).2.2
    ⟨6, .none, .get [7]⟩ (.get [7]) rfl rfl (by decide) (by decide)
  exact ⟨hquiet, hanswered⟩

end Server

end TieredStore
