import TieredStore.Proofs.Server.Writes
import TieredStore.Proofs.Store.KeyOrder

/-!
# Stored keys

A request that is too large is refused, so a key gets into the database only if it could be asked
for (`Server.Reached.keysFit`).  That is why an iteration may send back every key that it was given.
-/

namespace TieredStore

/-! ## Keys within the limit -/

/-- All keys are within a limit. -/
def Table.KeysFit (table : Table) (limit : Nat) : Prop :=
  ∀ key ∈ table.keys, key.length ≤ limit

/-- The key that a job binds. -/
def Job.bound? : Job → Option Bytes
  | .put key _ => some key
  | .erase _ | .find _ | .barrier => none

/-- A key that was given may be sent back. -/
theorem Table.KeysFit.length_le {table : Table} {limit : Nat} (h : table.KeysFit limit)
    {last : Option Bytes} (hlast : ∀ key ∈ last, key ∈ table.keys) :
    ∀ key ∈ last, key.length ≤ limit :=
  fun key hkey => h key (hlast key hkey)

theorem Table.KeysFit.apply {table : Table} {limit : Nat} (h : table.KeysFit limit) {job : Job}
    (hjob : ∀ key, job.bound? = some key → key.length ≤ limit) :
    (job.apply table).KeysFit limit := by
  intro key hkey
  obtain ⟨value, hvalue⟩ := (mem_keys _).1 hkey
  have hold : table.get? key = some value → key.length ≤ limit :=
    fun hfound => h key (table.mem_keys.2 ⟨value, hfound⟩)
  -- of all jobs a put alone brings a key in, and one only
  cases job with
  | put bound new =>
    by_cases heq : key = bound
    · exact hjob key (congrArg some heq.symm)
    · have hput : (table.insert bound new).get? key = some value := hvalue
      rw [get?_insert, if_neg heq] at hput
      exact hold hput
  | erase gone =>
    have herase : (table.erase gone).get? key = some value := hvalue
    rw [get?_erase] at herase
    by_cases heq : key = gone
    · rw [if_pos heq] at herase
      cases herase
    · rw [if_neg heq] at herase
      exact hold herase
  | find sought => exact hold hvalue
  | barrier => exact hold hvalue

/-- The key that a request binds is one of its arguments. -/
theorem Request.length_le_of_write? {request : Request} {reply : Reply} {job : Job}
    (h : request.write? reply = some job) {key : Bytes} (hkey : job.bound? = some key) :
    key.length ≤ request.command.payloadLength := by
  obtain ⟨id, flags, command⟩ := request
  unfold write? at h
  split at h
  · cases h
  · cases command with
    | set bound value =>
      cases h
      cases hkey
      exact Nat.le_add_right ..
    | cas bound old new =>
      cases h
      cases hkey
      show key.length ≤ key.length + old.length + new.length
      omega
    | incr bound delta =>
      simp only at h
      split at h
      · cases h
        cases hkey
        exact Nat.le_refl _
      · cases h
    | delete gone =>
      cases h
      cases hkey
    | get read => cases h
    | stats => cases h
    | firstKey => cases h
    | nextKey before => cases h

theorem PromptServer.keysFit_handle (server : PromptServer) (request : Request)
    (h : server.table.KeysFit server.maxPayload) :
    (server.handle request).2.table.KeysFit server.maxPayload := by
  by_cases hlarge : server.maxPayload < request.command.payloadLength
  · rw [server.handle_of_large request hlarge]
    exact h
  · have hrecords : (server.handle request).2.table
        = (request.write? (server.handle request).1).toList.foldl Job.apply server.table :=
      server.records_handle request
    rw [hrecords]
    cases hwrite : request.write? (server.handle request).1 with
    | none => exact h
    | some job =>
      apply h.apply
      intro key hkey
      have hargument := Request.length_le_of_write? hwrite hkey
      omega

theorem Server.Reached.keysFit {options : ServerOptions} {server : Server}
    (h : Reached options server) : server.database.settled.KeysFit options.maxPayload := by
  induction h with
  | start =>
    intro key hkey
    cases hkey
  | @call server hreached call ih =>
    cases call with
    | request request =>
      have hlimit : server.settle.maxPayload = options.maxPayload := hreached.maxPayload_eq
      rw [← hlimit] at ih ⊢
      have hafter := server.settle.keysFit_handle request ih
      rw [← settle_handle_snd] at hafter
      exact hafter
    | evict key => exact ih
  | @work server _ jobs ih =>
    show (server.database.work jobs).settled.KeysFit _
    rw [Database.settled_work]
    exact ih
  | @flush server _ ih =>
    show server.database.flush.settled.KeysFit _
    rw [Database.flush_eq]
    exact ih
  | setReachable _ reachable ih => exact ih

/-! ## Asking for keys -/

/-- Asks for the key that comes after one, or for the first. -/
def Command.keyAfter : Option Bytes → Command
  | none => .firstKey
  | some key => .nextKey key

theorem PromptServer.handle_keyAfter (server : PromptServer) (id : UInt32) (flags : Flags)
    {last : Option Bytes} (hlast : ∀ key ∈ last, key.length ≤ server.maxPayload) :
    server.handle ⟨id, flags, .keyAfter last⟩
      = (Server.keyReply id (server.table.keyAfter? last),
        server.tally fun c => { c with requests := c.requests + 1 }) := by
  have hlimit : ¬server.maxPayload < (Command.keyAfter last).payloadLength := by
    cases last with
    | none => exact Nat.not_lt_zero _
    | some key => exact Nat.not_lt.2 (hlast key rfl)
  have hroom : ¬(server.tally fun c => { c with requests := c.requests + 1 }).maxPayload
      < (Command.keyAfter last).payloadLength := hlimit
  unfold handle
  simp only
  rw [if_neg hroom]
  cases last with
  | none => rfl
  | some key => rfl

namespace Server

/-- How a key, or that there is none, is answered: the code of the reply and the key in it. -/
def keyAnswer : Option Bytes → Option ReplyCode × Option Bytes
  | some key => (some .ok, some key)
  | none => (some .notIn, none)

theorem keyAnswer_snd (key : Option Bytes) : (keyAnswer key).2 = key := by
  cases key <;> rfl

theorem keyReply_read (id : UInt32) {key : Option Bytes}
    (hshort : ∀ found, key = some found → found.length < 0x100000000) :
    ((keyReply id key).replyCode?, (keyReply id key).valueBytes.toOption) = keyAnswer key := by
  cases key with
  | none => rfl
  | some key =>
    have hvalue : (keyReply id (some key)).valueBytes = .ok key :=
      Reply.valueBytes_value id .ok (hshort key rfl)
    rw [hvalue]
    rfl

/-- One question of an iteration, under an id and with flags of any choice. -/
def askKey (ids : Option Bytes → UInt32) (flags : Option Bytes → Flags) (last : Option Bytes)
    (server : Server) : (Option ReplyCode × Option Bytes) × Server :=
  let (reply, server) := server.handle ⟨ids last, flags last, .keyAfter last⟩
  ((reply.replyCode?, reply.valueBytes.toOption), server)

/-- The server has a table once its jobs are done, and a limit that all keys in it are within, which
a reply has room for. -/
structure Stores (server : Server) (table : Table) (limit : Nat) : Prop where
  settled : server.database.settled = table
  maxPayload : server.maxPayload = limit
  keysFit : table.KeysFit limit
  short : limit < 0x100000000

variable {server : Server} {table : Table} {limit : Nat}

theorem Stores.handle_keyAfter (h : server.Stores table limit) (id : UInt32) (flags : Flags)
    {last : Option Bytes} (hlast : ∀ key ∈ last, key.length ≤ limit) :
    (server.handle ⟨id, flags, .keyAfter last⟩).1 = keyReply id (table.keyAfter? last)
      ∧ (server.handle ⟨id, flags, .keyAfter last⟩).2.Stores table limit := by
  obtain ⟨hsettled, hmaxPayload, hkeys, hshort⟩ := h
  have hprompt := server.settle.handle_keyAfter id flags (hmaxPayload ▸ hlast)
  have htable : server.settle.table = table := hsettled
  rw [htable] at hprompt
  constructor
  · rw [handle_fst, hprompt]
  · have hafter := server.settle_handle_snd ⟨id, flags, .keyAfter last⟩
    rw [hprompt] at hafter
    refine ⟨?_, (server.maxPayload_handle _).trans hmaxPayload, hkeys, hshort⟩
    exact (congrArg PromptServer.table hafter).trans htable

/-- What a table of keys within the limit answers can be read. -/
theorem Stores.length_lt (h : server.Stores table limit) {last : Option Bytes} {found : Bytes}
    (hfound : table.keyAfter? last = some found) : found.length < 0x100000000 :=
  Nat.lt_of_le_of_lt (h.keysFit found (table.mem_keys_of_keyAfter? hfound)) h.short

theorem Stores.askKey (h : server.Stores table limit) (ids : Option Bytes → UInt32)
    (flags : Option Bytes → Flags) {last : Option Bytes}
    (hlast : ∀ key ∈ last, key.length ≤ limit) :
    (server.askKey ids flags last).1 = keyAnswer (table.keyAfter? last)
      ∧ (server.askKey ids flags last).2.Stores table limit := by
  obtain ⟨hreply, hafter⟩ := h.handle_keyAfter (ids last) (flags last) hlast
  refine ⟨?_, hafter⟩
  show ((server.handle _).1.replyCode?, (server.handle _).1.valueBytes.toOption) = _
  rw [hreply]
  exact keyReply_read (ids last) fun found hfound => h.length_lt hfound

theorem Stores.walk_askKey (h : server.Stores table limit) (ids : Option Bytes → UInt32)
    (flags : Option Bytes → Flags) (requests : Nat) :
    walk (Server.askKey ids flags) Prod.snd requests none server
      = (table.keys.map (keyAnswer ∘ some) ++ [keyAnswer none]).take requests := by
  have hstep : ∀ last (server : Server), (∀ key ∈ last, key ∈ table.keys) →
      server.Stores table limit →
      (server.askKey ids flags last).1 = keyAnswer (table.keyAfter? last)
        ∧ (server.askKey ids flags last).2.Stores table limit :=
    fun last server hlast hs => hs.askKey ids flags (hs.keysFit.length_le hlast)
  exact walk_eq keyAnswer keyAnswer_snd hstep requests h

theorem Reached.stores {options : ServerOptions} (h : Reached options server)
    (hshort : options.maxPayload < 0x100000000) :
    server.Stores server.database.settled options.maxPayload :=
  ⟨rfl, h.maxPayload_eq, h.keysFit, hshort⟩

end Server

end TieredStore
