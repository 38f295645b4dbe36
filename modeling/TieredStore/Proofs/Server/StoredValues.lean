import TieredStore.Proofs.Server.StoredKeys
import TieredStore.Proofs.Store.CacheView
import TieredStore.Proofs.Store.StoredCounter
import TieredStore.Wire.Reply

/-!
# Stored values

A value gets into a tier from a request, from the other tier, or as a counter.  So what holds of all
values that requests bring, and of all counters, holds of everything that a server ever stores
(`Server.Reached.stocks`).  For lengths this means that no reply gets longer than a request of the
limit could make it (`PromptServer.length_handle_le`), although an increment may lengthen a value.
-/

namespace TieredStore

/-- The values that a command may have a server store. -/
def Command.values : Command → List Bytes
  | .set _ value => [value]
  | .cas _ _ new => [new]
  | .get _ | .delete _ | .incr .. | .stats | .firstKey | .nextKey _ => []

theorem Command.length_le_of_mem_values {command : Command} {value : Bytes}
    (h : value ∈ command.values) : value.length ≤ command.payloadLength := by
  cases command with
  | set key new =>
    rw [List.mem_singleton.1 h]
    exact Nat.le_add_left ..
  | cas key old new =>
    rw [List.mem_singleton.1 h]
    exact Nat.le_add_left ..
  | get key | delete key | incr key delta | stats | firstKey | nextKey key => cases h

/-! ## What holds of all values -/

namespace PromptServer

/-- All values in both tiers are of some kind. -/
structure Stocks (server : PromptServer) (P : Bytes → Prop) : Prop where
  cached : ∀ key value, server.cache.get? key = some value → P value
  stored : ∀ key value, server.table.get? key = some value → P value

variable {server : PromptServer} {P : Bytes → Prop}

theorem stocks_start (options : ServerOptions) (P : Bytes → Prop) : (start options).Stocks P := by
  constructor
  · intro key value h
    cases h
  · intro key value h
    cases h

namespace Stocks

/-- Only the tiers count. -/
theorem of_tiers {after : PromptServer} (h : server.Stocks P) (hcache : after.cache = server.cache)
    (htable : after.table = server.table) : after.Stocks P := by
  refine ⟨?_, ?_⟩
  · rw [hcache]
    exact h.cached
  · rw [htable]
    exact h.stored

theorem tally (h : server.Stocks P) (event : Counters → Counters) :
    (server.tally event).Stocks P :=
  h.of_tiers rfl rfl

theorem bind (h : server.Stocks P) {value : Bytes} (hvalue : P value) (key : Bytes)
    (cacheOnly : Bool) : (server.bind key value cacheOnly).Stocks P := by
  constructor
  · intro other shown hshown
    have hcache := Cache.get?_of_get?_insert hshown
    split at hcache
    · cases hcache
      exact hvalue
    · exact h.cached other shown hcache
  · intro other found hfound
    cases cacheOnly with
    | true => exact h.stored other found hfound
    | false =>
      have htable : (server.table.insert key value).get? other = some found := hfound
      rw [Table.get?_insert] at htable
      split at htable
      · cases htable
        exact hvalue
      · exact h.stored other found htable

theorem evict (h : server.Stocks P) (key : Bytes) : (server.evict key).2.Stocks P := by
  refine ⟨?_, h.stored⟩
  intro other shown hshown
  have hcache : (server.cache.erase key).get? other = some shown := hshown
  rw [Cache.get?_erase] at hcache
  split at hcache
  · cases hcache
  · exact h.cached other shown hcache

theorem unbind (h : server.Stocks P) (key : Bytes) (cacheOnly : Bool) :
    (server.unbind key cacheOnly).Stocks P := by
  refine ⟨(h.evict key).cached, ?_⟩
  intro other found hfound
  cases cacheOnly with
  | true => exact h.stored other found hfound
  | false =>
    have htable : (server.table.erase key).get? other = some found := hfound
    rw [Table.get?_erase] at htable
    split at htable
    · cases htable
    · exact h.stored other found htable

theorem get (h : server.Stocks P) (id : UInt32) (key : Bytes) (cacheOnly : Bool) :
    (server.get id key cacheOnly).2.Stocks P := by
  unfold PromptServer.get
  split
  · exact h.of_tiers rfl rfl
  · simp only
    split
    · exact h.of_tiers rfl rfl
    · split
      · exact h.of_tiers rfl rfl
      -- what was found is cached, as if it were written for the cache alone
      · next value hvalue => exact ((h.tally _).tally _).bind (h.stored key value hvalue) key true

theorem cas (h : server.Stocks P) (id : UInt32) (key old : Bytes) {new : Bytes} (hnew : P new)
    (cacheOnly : Bool) : (server.cas id key old new cacheOnly).2.Stocks P := by
  unfold PromptServer.cas
  simp only
  split
  · exact h.of_tiers rfl rfl
  · split
    · exact (h.tally _).bind hnew key cacheOnly
    · exact h.of_tiers rfl rfl

theorem incr (h : server.Stocks P) (id : UInt32) (key : Bytes) (delta : Int64)
    (hcounter : ∀ number, P (writeCounter number)) (cacheOnly : Bool) :
    (server.incr id key delta cacheOnly).2.Stocks P := by
  unfold PromptServer.incr
  simp only
  split
  · exact h.of_tiers rfl rfl
  · split
    · exact h.of_tiers rfl rfl
    · exact (h.tally _).bind (hcounter _) key cacheOnly

/-- The request counts only if it is not too large. -/
theorem handle (h : server.Stocks P) (request : Request)
    (hvalues : request.command.payloadLength ≤ server.maxPayload →
      ∀ value ∈ request.command.values, P value)
    (hcounter : ∀ number, P (writeCounter number)) :
    (server.handle request).2.Stocks P := by
  obtain ⟨id, flags, command⟩ := request
  have hcounted := h.tally fun c => { c with requests := c.requests + 1 }
  unfold PromptServer.handle
  simp only
  split
  · exact hcounted
  · next hfits =>
    have hbrought := hvalues (Nat.le_of_not_lt hfits)
    cases command with
    | get key => exact hcounted.get ..
    | set key value => exact (hcounted.tally _).bind (hbrought value List.mem_cons_self) ..
    | delete key => exact (hcounted.tally _).unbind ..
    | cas key old new => exact hcounted.cas _ _ _ (hbrought new List.mem_cons_self) _
    | incr key delta => exact hcounted.incr _ _ _ hcounter _
    | stats => exact hcounted
    | firstKey => exact hcounted
    | nextKey key => exact hcounted

end Stocks

end PromptServer

/-- What is true of every value within the limit and of every counter is true of all that a server
stores. -/
theorem Server.Reached.stocks {options : ServerOptions} {server : Server}
    (h : Reached options server) {P : Bytes → Prop}
    (hvalue : ∀ value : Bytes, value.length ≤ options.maxPayload → P value)
    (hcounter : ∀ number, P (writeCounter number)) : server.settle.Stocks P := by
  induction h with
  | start => exact PromptServer.stocks_start options P
  | @call server hreached call ih =>
    cases call with
    | request request =>
      have hlimit : server.settle.maxPayload = options.maxPayload := hreached.maxPayload_eq
      show (server.handle request).2.settle.Stocks P
      rw [settle_handle_snd]
      refine ih.handle request ?_ hcounter
      intro hfits value hmem
      have hlength := Command.length_le_of_mem_values hmem
      exact hvalue value (by omega)
    | evict key => exact ih.evict key
  | @work server _ jobs ih =>
    rw [settle_work]
    exact ih
  | @flush server _ ih =>
    rw [settle_flush]
    exact ih
  | setReachable _ reachable ih => exact ih.of_tiers rfl rfl

/-! ## Lengths of replies -/

namespace Reply

theorem length_encode (reply : Reply) : reply.encode.length = 8 + reply.payload.length := by
  unfold encode
  simp only [List.length_append, Bytes.length_bigEndian]

theorem length_encode_plain (id : UInt32) (code : ReplyCode) : (plain id code).encode.length = 8 :=
  length_encode _

theorem length_encode_error (id : UInt32) (error : ServerError) :
    (Reply.error id error).encode.length = 12 := by
  rw [length_encode, Reply.error, Bytes.length_bigEndian]

theorem length_encode_value (id : UInt32) (code : ReplyCode) (value : Bytes) :
    (Reply.value id code value).encode.length = 12 + value.length := by
  rw [length_encode, Reply.value, List.length_append, Bytes.length_bigEndian]
  omega

theorem length_encode_counter (id : UInt32) (value : Int64) :
    (counter id value).encode.length = 16 := by
  rw [length_encode, counter, Bytes.length_bigEndian]

/-- No server has more than its nine counters to tell. -/
theorem length_encode_stats (id : UInt32) (counters : Counters) :
    (stats id counters.toList).encode.length = 84 := by
  rw [length_encode, stats, List.length_append, Bytes.length_bigEndian, List.length_flatMap]
  simp [Counters.toList]

end Reply

namespace PromptServer

variable {server : PromptServer} {limit : Nat}

theorem length_get_le (h : server.Stocks (·.length ≤ limit)) (id : UInt32) (key : Bytes)
    (cacheOnly : Bool) : (server.get id key cacheOnly).1.encode.length ≤ 12 + limit := by
  have hplain (code : ReplyCode) : (Reply.plain id code).encode.length ≤ 12 + limit := by
    rw [Reply.length_encode_plain]
    omega
  have hvalue (code : ReplyCode) {value : Bytes} (hlength : value.length ≤ limit) :
      (Reply.value id code value).encode.length ≤ 12 + limit := by
    rw [Reply.length_encode_value]
    omega
  unfold PromptServer.get
  split
  · next value hcached => exact hvalue _ (h.cached key value hcached)
  · simp only
    split
    · exact hplain _
    · split
      · exact hplain _
      · next value hstored => exact hvalue _ (h.stored key value hstored)

theorem length_cas (server : PromptServer) (id : UInt32) (key old new : Bytes)
    (cacheOnly : Bool) : (server.cas id key old new cacheOnly).1.encode.length = 8 := by
  unfold PromptServer.cas
  simp only
  split
  · exact Reply.length_encode_plain ..
  · split
    · exact Reply.length_encode_plain ..
    · exact Reply.length_encode_plain ..

theorem length_incr_le (server : PromptServer) (id : UInt32) (key : Bytes) (delta : Int64)
    (cacheOnly : Bool) : (server.incr id key delta cacheOnly).1.encode.length ≤ 16 := by
  unfold PromptServer.incr
  simp only
  split
  · rw [Reply.length_encode_plain]
    decide
  · split
    · rw [Reply.length_encode_plain]
      decide
    · exact Nat.le_of_eq (Reply.length_encode_counter ..)

theorem length_keyReply_le (id : UInt32) {key : Option Bytes}
    (h : ∀ found ∈ key, found.length ≤ limit) :
    (Server.keyReply id key).encode.length ≤ 12 + limit := by
  cases key with
  | none =>
    show (Reply.plain id .notIn).encode.length ≤ _
    rw [Reply.length_encode_plain]
    omega
  | some key =>
    have hkey := h key rfl
    show (Reply.value id .ok key).encode.length ≤ _
    rw [Reply.length_encode_value]
    omega

/-- Whatever is asked for, the reply is short if all that is stored is. -/
theorem length_handle_le (h : server.Stocks (·.length ≤ limit)) (hkeys : server.table.KeysFit limit)
    (request : Request) :
    (server.handle request).1.encode.length ≤ 12 + limit
      ∨ (server.handle request).1.encode.length ≤ 84 := by
  obtain ⟨id, flags, command⟩ := request
  unfold PromptServer.handle
  simp only
  split
  · right
    rw [Reply.length_encode_error]
    decide
  · cases command with
    | get key => exact .inl (length_get_le (h.tally _) ..)
    | set key value =>
      right
      show (Reply.plain id .ok).encode.length ≤ _
      rw [Reply.length_encode_plain]
      decide
    | delete key =>
      right
      show (Reply.plain id _).encode.length ≤ _
      rw [Reply.length_encode_plain]
      decide
    | cas key old new =>
      right
      rw [length_cas]
      decide
    | incr key delta => exact .inr (Nat.le_trans (length_incr_le ..) (by decide))
    | stats => exact .inr (Nat.le_of_eq (Reply.length_encode_stats ..))
    | firstKey =>
      left
      apply length_keyReply_le
      intro found hfound
      have hafter : server.table.keyAfter? none = some found := hfound
      exact hkeys found (server.table.mem_keys_of_keyAfter? hafter)
    | nextKey key =>
      left
      apply length_keyReply_le
      intro found hfound
      have hafter : server.table.keyAfter? (some key) = some found := hfound
      exact hkeys found (server.table.mem_keys_of_keyAfter? hafter)

end PromptServer

end TieredStore
