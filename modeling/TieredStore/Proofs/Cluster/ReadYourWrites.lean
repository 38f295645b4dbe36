import TieredStore.Proofs.Cluster.Fresh
import TieredStore.Proofs.Cluster.Sending
import TieredStore.Proofs.Server.Follows
import TieredStore.Proofs.Server.Writes

/-!
# Reading one's writes

What a client has written under a key it reads back, in whatever modes it works on other keys
meanwhile, and what it has deleted it misses (`Session.read_your_writes`).

A write that succeeds leaves the key with its value on the server that it belongs to, in the tiers
that the mode is for.  Other calls keep it there, but for the room in the cache; and a read asks the
same server.
-/

namespace TieredStore

namespace PromptServer

variable {server : PromptServer} {key value : Bytes}

/-- The cache has this value for a key, unless it has a limit and has dropped the key. -/
def Shows (server : PromptServer) (key value : Bytes) : Prop :=
  server.cache.get? key = some value ∨ server.cache.capacity ≠ none ∧ server.cache.get? key = none

theorem Shows.undisturbed (h : server.Shows key value) {after : PromptServer}
    (hquiet : Undisturbed key server after) : after.Shows key value := by
  unfold Shows
  rw [hquiet.capacity]
  rcases hquiet.shown with hsame | hgone
  · rw [hsame]
    exact h
  · exact .inr hgone

theorem Shows.current_eq (h : server.Shows key value) :
    server.current key true = some value
      ∨ server.cache.capacity ≠ none ∧ server.current key true = none := by
  have hcurrent : server.current key true = server.cache.get? key := Option.or_none
  rw [hcurrent]
  exact h

/-- A server after a write to both tiers or to the cache alone. -/
structure Written (both unlimited : Prop) (key value : Bytes) (server : PromptServer) : Prop where
  stored : both → server.Holds key (some value)
  shown : server.Shows key value
  room : unlimited → server.cache.capacity = none

theorem Written.undisturbed {both unlimited : Prop} (h : server.Written both unlimited key value)
    {after : PromptServer} (hquiet : Undisturbed key server after) :
    after.Written both unlimited key value where
  stored hboth := hquiet.holds (h.stored hboth)
  shown := h.shown.undisturbed hquiet
  room hunlimited := hquiet.capacity.trans (h.room hunlimited)

/-! ## After a write -/

theorem shows_bind (server : PromptServer) (key value : Bytes) (cacheOnly : Bool) :
    (server.bind key value cacheOnly).Shows key value := by
  have hinsert := server.cache.get?_insert key value key
  rw [if_pos rfl] at hinsert
  unfold Shows
  have hcapacity : (server.bind key value cacheOnly).cache.capacity = server.cache.capacity :=
    server.cache.capacity_insert key value
  rw [hcapacity]
  exact hinsert

/-! ## What is read -/

/-- What a read is told of the value that it finds. -/
def told : Option Bytes → Status × Option Bytes
  | some value => (.done, some value)
  | none => (.absent, none)

theorem value_get (server : PromptServer) (id : UInt32) (key : Bytes) (cacheOnly : Bool)
    (hshort : ∀ value, server.current key cacheOnly = some value → value.length < 0x100000000) :
    Answer.value (.ok (server.get id key cacheOnly).1) = told (server.current key cacheOnly) := by
  cases hshown : server.cache.get? key with
  | some shown =>
    have hcurrent : server.current key cacheOnly = some shown := by
      unfold current
      rw [hshown, Option.some_or]
    have hreply : (server.get id key cacheOnly).1 = .value id .cacheHit shown := by
      unfold get
      simp only [hshown]
    rw [hreply, hcurrent]
    exact Answer.value_value id (.inr rfl) (hshort shown hcurrent)
  | none =>
    cases cacheOnly with
    | true =>
      have hcurrent : server.current key true = none := by
        unfold current
        rw [hshown]
        rfl
      have hreply : (server.get id key true).1 = .plain id .cacheMiss := by
        unfold get
        simp only [hshown, if_true]
      rw [hreply, hcurrent]
      rfl
    | false =>
      have hcurrent : server.current key false = server.table.get? key := by
        unfold current
        rw [hshown, Option.none_or]
        rfl
      -- the database is asked, and counting does not change it
      have hcounted : (server.tally fun c => { c with cacheMisses := c.cacheMisses + 1 }).table.get?
          key = server.table.get? key := rfl
      rw [hcurrent] at hshort ⊢
      unfold get
      simp only [hshown, Bool.false_eq_true, if_false, hcounted]
      cases hstored : server.table.get? key with
      | none => rfl
      | some value => exact Answer.value_value id (.inl rfl) (hshort value hstored)

theorem value_handle_get (server : PromptServer) (id : UInt32) (flags : Flags) {key : Bytes}
    (hfits : (Command.get key).payloadLength ≤ server.maxPayload)
    (hshort : ∀ value, server.current key flags.isCacheOnly = some value →
      value.length < 0x100000000) :
    Answer.value (.ok (server.handle ⟨id, flags, .get key⟩).1)
      = told (server.current key flags.isCacheOnly) := by
  let counted := server.tally fun c => { c with requests := c.requests + 1 }
  have hlimit : ¬counted.maxPayload < (Command.get key).payloadLength := Nat.not_lt.2 hfits
  unfold handle
  simp only
  rw [if_neg hlimit]
  exact value_get counted id key flags.isCacheOnly hshort

end PromptServer

/-! ## Calls on the server of a key -/

theorem Mode.isCacheOnly_flags (mode : Mode) (type : CommandType) :
    (mode.flags type).isCacheOnly = decide (mode = .cache) := by
  cases mode <;> cases type <;> decide

/-- A server's refusal is no result. -/
theorem KeyCall.interpret_of_large {call : KeyCall} {client : Client} {server : Server}
    {request : Request} (h : server.maxPayload < request.command.payloadLength) :
    call.interpret client (.ok (server.handle request).1)
      = .error (.network (.server .brokenRequest)) := by
  rw [Server.handle_fst, PromptServer.handle_of_large server.settle request h]
  exact interpret_of_failed_reply (Reply.status_error request.id .brokenRequest) rfl

namespace Session

/-- The server that a key belongs to. -/
def serverOf? (session : Session Cluster) (key : Bytes) : Option Server :=
  (session.client.registry.select session.client.config.policy key).bind session.transport.server?

variable {session : Session Cluster} {mode : Mode} {key : Datum} {bytes : Bytes}

theorem dispatch_of_server {server : Server} (flags : Flags) {command : Command}
    (hserver : session.serverOf? command.key = some server) (hreachable : server.reachable = true) :
    (session.dispatch flags command).1
      = .ok (server.handle (.make session.client.nextId flags command)).1 := by
  obtain ⟨endpoint, hselect, hserver⟩ := Option.bind_eq_some_iff.1 hserver
  unfold dispatch
  rw [hselect, sendTo, send_of_reachable hserver hreachable flags command]

/-- A call that succeeds was carried out by the server that its key belongs to. -/
theorem ask_ok {call : KeyCall} {result : CallResult} (h : (session.ask mode call).1 = .ok result) :
    ∃ command server, call.command session.client = .ok command
      ∧ session.serverOf? command.key = some server ∧ server.reachable = true
      ∧ command.payloadLength ≤ server.maxPayload
      ∧ (session.ask mode call).2.client = session.client.advance
      ∧ (session.ask mode call).2.serverOf? command.key = some (server.handle
        (.make session.client.nextId (mode.flags command.type) command)).2 := by
  -- where nothing was answered there is no result
  have hfailed {answer : Answer} {failure : Failure} (hstatus : answer.status = .failed failure) :
      call.interpret session.client answer ≠ .ok result := by
    rw [KeyCall.interpret_of_failed hstatus]
    exact fun h => nomatch h
  cases hcommand : call.command session.client with
  | error error =>
    rw [ask_eq_call, hcommand] at h
    cases h
  | ok command =>
    rw [ask_of_command hcommand] at h ⊢
    cases hhome : session.client.home command with
    | none =>
      rw [hhome] at h
      exact absurd h (hfailed rfl)
    | some endpoint =>
      rw [hhome] at h
      simp only [sendTo] at h ⊢
      rcases session.send_cases endpoint (mode.flags command.type) command with
        ⟨server, hserver, hreachable⟩ | hsend
      · have hsend := send_of_reachable hserver hreachable (mode.flags command.type) command
        rw [hsend] at h ⊢
        refine ⟨command, server, rfl, ?_, hreachable, ?_, rfl, ?_⟩
        · exact Option.bind_eq_some_iff.2 ⟨endpoint, hhome, hserver⟩
        -- nor is there one when the server refuses
        · apply Nat.le_of_not_lt
          intro hlarge
          rw [Prod.map_fst, KeyCall.interpret_of_large hlarge] at h
          cases h
        · refine Option.bind_eq_some_iff.2 ⟨endpoint, hhome, ?_⟩
          change (session.transport.replace endpoint _).server? endpoint = _
          rw [Cluster.server?_replace, hserver, Option.map_some, if_pos rfl]
      · rw [hsend] at h
        exact absurd h (hfailed rfl)

/-- What a read in some mode finds. -/
theorem find_of_server {server : Server} (hkey : session.client.encode key = .ok bytes)
    (hserver : session.serverOf? bytes = some server) (hreachable : server.reachable = true)
    (hfits : (Command.get bytes).payloadLength ≤ server.maxPayload)
    (hshort : ∀ value, server.settle.current bytes (mode = .cache) = some value →
      value.length < 0x100000000) :
    (session.find mode key).1 = .ok (server.settle.current bytes (mode = .cache)) := by
  have hanswer : (session.dispatch (mode.flags .get) (.get bytes)).1
      = .ok (server.handle (.make session.client.nextId (mode.flags .get) (.get bytes))).1 :=
    dispatch_of_server _ hserver hreachable
  have hvalue := server.settle.value_handle_get (session.client.nextId &&& Request.maxId)
    (mode.flags .get) hfits
  rw [mode.isCacheOnly_flags] at hvalue
  unfold find Session.call
  rw [hkey]
  change (Outcome.ofRead (session.dispatch (mode.flags .get) (.get bytes)).1.value.1
    (session.dispatch (mode.flags .get) (.get bytes)).1.value.2).toResult = _
  have htold : (session.dispatch (mode.flags .get) (.get bytes)).1.value
      = PromptServer.told (server.settle.current bytes (mode = .cache)) := by
    rw [hanswer, Server.handle_fst, ← hvalue hshort]
    rfl
  rw [htold]
  cases server.settle.current bytes (mode = .cache) with
  | some value => rfl
  | none => rfl

/-- What is missing is given by the default, if there is one. -/
theorem get_fst (session : Session Cluster) (mode : Mode) (key : Datum) (shape : Shape) :
    (session.get mode key shape).1
      = (session.find mode key).1.bind fun found =>
        match found with
        | some value => (session.client.decode shape value).map some
        | none => session.client.missing shape := by
  unfold get Client.missing
  rw [Prod.map_fst]
  congr 1
  funext found
  cases found with
  | some value => rfl
  | none =>
    cases session.client.defaultBytes with
    | some default => rfl
    | none => rfl

/-- The server that a key belongs to is within reach, has room for the key in a request, and is in
such a state. -/
def Served (session : Session Cluster) (key : Bytes) (P : PromptServer → Prop) : Prop :=
  ∃ server, session.serverOf? key = some server ∧ server.reachable = true
    ∧ key.length ≤ server.maxPayload ∧ P server.settle

theorem Served.kept {before after : Session Cluster} {P : PromptServer → Prop}
    (h : before.Served bytes P) (hkept : Kept bytes before after)
    (hP : ∀ server later, Undisturbed bytes server later → P server → P later) :
    after.Served bytes P := by
  obtain ⟨server, hserver, hreachable, hfits, hstate⟩ := h
  obtain ⟨endpoint, hselect, hserver⟩ := Option.bind_eq_some_iff.1 hserver
  obtain ⟨later, hlater, hquiet, hsettings⟩ := hkept.server endpoint server hserver
  obtain ⟨nextId, hclient⟩ := hkept.client
  have hlimit : later.maxPayload = server.maxPayload := congrArg Prod.fst hsettings
  have hreach : later.reachable = server.reachable := congrArg Prod.snd hsettings
  refine ⟨later, ?_, hreach.trans hreachable, hlimit ▸ hfits, hP _ _ hquiet hstate⟩
  unfold serverOf?
  rw [hclient]
  exact Option.bind_eq_some_iff.2 ⟨endpoint, hselect, hlater⟩

/-- A read finds what the server has in the tiers that it asks. -/
theorem Served.find {P : PromptServer → Prop} (h : session.Served bytes P)
    (hkey : session.client.encode key = .ok bytes)
    (hshort : ∀ server, P server → ∀ value, server.current bytes (mode = .cache) = some value →
      value.length < 0x100000000) :
    ∃ server, P server
      ∧ (session.find mode key).1 = .ok (server.current bytes (decide (mode = .cache))) := by
  obtain ⟨server, hserver, hreachable, hfits, hstate⟩ := h
  exact ⟨server.settle, hstate,
    find_of_server hkey hserver hreachable hfits (hshort server.settle hstate)⟩

/-! ## Writes that succeed -/

/-- A server that has handled a request on a key still serves the key. -/
theorem Served.of_handled {server : Server} {request : Request} {P : PromptServer → Prop}
    (hserver : session.serverOf? bytes = some (server.handle request).2)
    (hreachable : server.reachable = true) (hfits : bytes.length ≤ server.maxPayload)
    (hstate : P (server.settle.handle request).2) : session.Served bytes P := by
  refine ⟨_, hserver, ?_, ?_, ?_⟩
  · rw [Server.reachable_handle]
    exact hreachable
  · rw [Server.maxPayload_handle]
    exact hfits
  · rw [Server.settle_handle_snd]
    exact hstate

theorem set_served {value : Datum} (h : (session.set mode key value).1 = .ok ())
    (hlimit : ∀ endpoint server, session.transport.server? endpoint = some server →
      server.maxPayload < 0x100000000) :
    ∃ bytes stored, session.client.encode key = .ok bytes ∧ session.client.encode value = .ok stored
      ∧ stored.length < 0x100000000
      ∧ (session.set mode key value).2.client = session.client.advance
      ∧ (session.set mode key value).2.Served bytes (PromptServer.Written (mode ≠ .cache)
        (∀ endpoint server, session.transport.server? endpoint = some server →
          server.cache.capacity = none) bytes stored) := by
  have hask : (session.ask mode (.set key value)).1 = .ok .unit := by
    change (session.set mode key value).1.map _ = _
    rw [h]
    rfl
  obtain ⟨command, server, hcommand, hserver, hreachable, hfits, hclient, hafter⟩ := ask_ok hask
  obtain ⟨bytes, hkey, hrest⟩ := bind_eq_ok_iff.1 hcommand
  obtain ⟨stored, hvalue, hset⟩ := bind_eq_ok_iff.1 hrest
  cases hset
  obtain ⟨endpoint, -, hbehind⟩ := Option.bind_eq_some_iff.1 hserver
  let request := Request.make session.client.nextId (mode.flags .set) (.set bytes stored)
  obtain ⟨counted, hcache, hbind⟩ := server.settle.handle_set request.id request.flags hfits
  have hhandle : (server.settle.handle request).2
      = counted.bind bytes stored (decide (mode = .cache)) := by
    rw [← mode.isCacheOnly_flags .set]
    exact congrArg Prod.snd hbind
  have hroom : bytes.length + stored.length ≤ server.maxPayload := hfits
  have hsmall := hlimit endpoint server hbehind
  have hkeyFits : bytes.length ≤ server.maxPayload := by omega
  refine ⟨bytes, stored, hkey, hvalue, by omega, hclient, ?_⟩
  apply Served.of_handled hafter hreachable hkeyFits
  change PromptServer.Written _ _ bytes stored (server.settle.handle request).2
  rw [hhandle]
  constructor
  · intro hboth
    rw [decide_eq_false hboth]
    exact counted.holds_bind bytes stored
  · exact counted.shows_bind bytes stored _
  · intro hunlimited
    change (counted.cache.insert bytes stored).capacity = none
    rw [Cache.capacity_insert, hcache]
    exact hunlimited endpoint server hbehind

theorem delete_served {found : Bool} (hboth : mode ≠ .cache)
    (h : (session.delete mode key).1 = .ok found) :
    ∃ bytes, session.client.encode key = .ok bytes
      ∧ (session.delete mode key).2.client = session.client.advance
      ∧ (session.delete mode key).2.Served bytes fun server => server.Holds bytes none := by
  have hask : (session.ask mode (.delete key)).1 = .ok (.truth found) := by
    change (session.delete mode key).1.map _ = _
    rw [h]
    rfl
  obtain ⟨command, server, hcommand, hserver, hreachable, hfits, hclient, hafter⟩ := ask_ok hask
  obtain ⟨bytes, hkey, hdelete⟩ := bind_eq_ok_iff.1 hcommand
  cases hdelete
  let request := Request.make session.client.nextId (mode.flags .delete) (.delete bytes)
  obtain ⟨counted, hunbind⟩ := server.settle.handle_delete request.id request.flags hfits
  have hhandle : (server.settle.handle request).2 = counted.unbind bytes false := by
    rw [← decide_eq_false hboth, ← mode.isCacheOnly_flags .delete]
    exact congrArg Prod.snd hunbind
  refine ⟨bytes, hkey, hclient, Served.of_handled hafter hreachable hfits ?_⟩
  change (server.settle.handle request).2.Holds bytes none
  rw [hhandle]
  exact counted.holds_unbind bytes

/-! ## Reading them later -/

section Later

variable {first : Session Cluster} {events : List ClientEvent} {shape : Shape} {stored : Bytes}
  {both unlimited : Prop}
  (hclient : first.client = session.client.advance) (hkey : session.client.encode key = .ok bytes)
  (hothers : ∀ call, .call call ∈ events → ∀ other ∈ call.key?,
    session.client.encode other ≠ session.client.encode key)

include hclient hkey hothers

/-- After a history of calls on other keys, the server is in a state that the history keeps, and the
client has its settings. -/
theorem Served.later {P : PromptServer → Prop} (h : first.Served bytes P)
    (hP : ∀ server later, Undisturbed bytes server later → P server → P later) :
    (∃ nextId, (first.play events).2.client = { session.client with nextId })
      ∧ (first.play events).2.Served bytes P := by
  have hkept : Kept bytes first (first.play events).2 := by
    apply Kept.play
    intro call hcall other hother
    rw [hclient, ← hkey]
    exact hothers call hcall other hother
  -- only the number of the next request is another
  obtain ⟨nextId, hlast⟩ := hkept.client
  rw [hclient] at hlast
  exact ⟨⟨nextId, hlast⟩, h.kept hkept hP⟩

/-- A read is told of that state. -/
theorem Served.found {P : PromptServer → Prop} (h : first.Served bytes P)
    (hP : ∀ server later, Undisturbed bytes server later → P server → P later)
    (hshort : ∀ server, P server → ∀ value, server.current bytes (mode = .cache) = some value →
      value.length < 0x100000000) :
    ∃ server, P server ∧ ((first.play events).2.find mode key).1
      = .ok (server.current bytes (decide (mode = .cache))) := by
  obtain ⟨⟨nextId, hlast⟩, hlater⟩ := h.later hclient hkey hothers hP
  have hencode : (first.play events).2.client.encode key = .ok bytes := by
    rw [hlast]
    exact hkey
  exact hlater.find hencode hshort

theorem Served.read {P : PromptServer → Prop} (h : first.Served bytes P)
    (hP : ∀ server later, Undisturbed bytes server later → P server → P later)
    (hshort : ∀ server, P server → ∀ value, server.current bytes (mode = .cache) = some value →
      value.length < 0x100000000) :
    ∃ server, P server ∧ ((first.play events).2.get mode key shape).1
      = match server.current bytes (mode = .cache) with
        | some value => (session.client.decode shape value).map some
        | none => session.client.missing shape := by
  obtain ⟨⟨nextId, hlast⟩, -⟩ := h.later hclient hkey hothers hP
  obtain ⟨server, hstate, hfind⟩ := h.found hclient hkey hothers hP hshort
  refine ⟨server, hstate, ?_⟩
  rw [get_fst, hfind, hlast]
  rfl

/-- The tiers agree on the key, so that it does not matter which of them answers. -/
theorem Served.found_both
    (h : first.Served bytes (PromptServer.Written both unlimited bytes stored)) (hboth : both)
    (hshort : stored.length < 0x100000000) (hmode : mode ≠ .cache) :
    ((first.play events).2.find mode key).1 = .ok (some stored) := by
  have hcurrent (server : PromptServer) (hstate : server.Written both unlimited bytes stored) :
      server.current bytes (decide (mode = .cache)) = some stored := by
    rw [decide_eq_false hmode]
    exact (hstate.stored hboth).current_eq
  obtain ⟨server, hstate, hfind⟩ := h.found hclient hkey hothers
    (fun _ _ hquiet hstate => hstate.undisturbed hquiet) fun server hstate value hvalue => by
      rw [hcurrent server hstate] at hvalue
      rwa [← Option.some.inj hvalue]
  rw [hfind, hcurrent server hstate]

theorem Served.read_both
    (h : first.Served bytes (PromptServer.Written both unlimited bytes stored)) (hboth : both)
    (hshort : stored.length < 0x100000000) (hmode : mode ≠ .cache) :
    ((first.play events).2.get mode key shape).1
      = (session.client.decode shape stored).map some := by
  obtain ⟨⟨nextId, hlast⟩, -⟩ := h.later hclient hkey hothers
    fun _ _ hquiet hstate => hstate.undisturbed hquiet
  rw [get_fst, h.found_both hclient hkey hothers hboth hshort hmode, hlast]
  rfl

/-- The cache alone may have dropped it. -/
theorem Served.read_cache
    (h : first.Served bytes (PromptServer.Written both unlimited bytes stored))
    (hshort : stored.length < 0x100000000) :
    ((first.play events).2.get .cache key shape).1 = (session.client.decode shape stored).map some
      ∨ ¬unlimited
        ∧ ((first.play events).2.get .cache key shape).1 = session.client.missing shape := by
  have hcurrent (server : PromptServer) (hstate : server.Written both unlimited bytes stored) :
      server.current bytes (decide (Mode.cache = .cache)) = some stored
        ∨ server.cache.capacity ≠ none
          ∧ server.current bytes (decide (Mode.cache = .cache)) = none :=
    hstate.shown.current_eq
  obtain ⟨server, hstate, hget⟩ := h.read hclient hkey hothers
    (fun _ _ hquiet hstate => hstate.undisturbed hquiet) fun server hstate value hvalue => by
      rcases hcurrent server hstate with hstored | ⟨-, hgone⟩
      · rw [hstored] at hvalue
        rwa [← Option.some.inj hvalue]
      · rw [hgone] at hvalue
        cases hvalue
  rcases hcurrent server hstate with hstored | ⟨hlimited, hgone⟩
  · left
    rw [hget, hstored]
  · right
    rw [hget, hgone]
    exact ⟨fun hunlimited => hlimited (hstate.room hunlimited), rfl⟩

theorem Served.read_erased (h : first.Served bytes (·.Holds bytes none)) :
    ((first.play events).2.get mode key shape).1 = session.client.missing shape := by
  have hcurrent (server : PromptServer) (hstate : server.Holds bytes none) :
      server.current bytes (decide (mode = .cache)) = none := by
    unfold PromptServer.current
    rw [hstate.hidden, hstate.stored, ite_self, Option.none_or]
  obtain ⟨server, hstate, hget⟩ := h.read hclient hkey hothers
    (fun _ _ hquiet hstate => hquiet.holds hstate) fun server hstate value hvalue => by
      rw [hcurrent server hstate] at hvalue
      cases hvalue
  rw [hget, hcurrent server hstate]

end Later

/-- What a client has set it reads later, after a history of calls on other keys, in all modes that
ask the tiers it was set in, unless the cache alone is asked and has dropped it.  What it has deleted
from both tiers it misses.  Only the default, where there is one, is given in place of a miss. -/
theorem read_your_writes (session : Session Cluster) (events : List ClientEvent) (key value : Datum)
    (shape : Shape)
    (hlimit : ∀ endpoint server, session.transport.server? endpoint = some server →
      server.maxPayload < 0x100000000)
    (hdecode : ∀ bytes, session.client.encode value = .ok bytes →
      session.client.decode shape bytes = .ok value)
    (hothers : ∀ call, .call call ∈ events → ∀ other ∈ call.key?,
      session.client.encode other ≠ session.client.encode key) :
    let read (first : Session Cluster) (mode : Mode) := ((first.play events).2.get mode key shape).1
    let missing := session.client.missing shape
    let unlimited := ∀ endpoint server, session.transport.server? endpoint = some server →
      server.cache.capacity = none
    (∀ mode, (session.set mode key value).1 = .ok () →
      (mode ≠ .cache → ∀ later, later ≠ .cache →
        read (session.set mode key value).2 later = .ok (some value))
      ∧ (read (session.set mode key value).2 .cache = .ok (some value)
        ∨ read (session.set mode key value).2 .cache = missing)
      ∧ (unlimited → read (session.set mode key value).2 .cache = .ok (some value)))
    ∧ ∀ mode found, mode ≠ .cache → (session.delete mode key).1 = .ok found →
      ∀ later, read (session.delete mode key).2 later = missing := by
  intro read missing unlimited
  constructor
  · intro mode hset
    obtain ⟨bytes, stored, hkey, hvalue, hshort, hclient, hserved⟩ := set_served hset hlimit
    have hfound : (session.client.decode shape stored).map some = .ok (some value) := by
      rw [hdecode stored hvalue]
      rfl
    have hcache : read (session.set mode key value).2 .cache = .ok (some value)
        ∨ ¬unlimited ∧ read (session.set mode key value).2 .cache = missing := by
      rw [← hfound]
      exact hserved.read_cache hclient hkey hothers hshort
    refine ⟨?_, ?_, ?_⟩
    · intro hboth later hlater
      rw [← hfound]
      exact hserved.read_both hclient hkey hothers hboth hshort hlater
    · rcases hcache with hsome | ⟨-, hgone⟩
      · exact .inl hsome
      · exact .inr hgone
    · intro hunlimited
      rcases hcache with hsome | ⟨hlimited, -⟩
      · exact hsome
      · exact absurd hunlimited hlimited
  · intro mode found hboth hdelete later
    obtain ⟨bytes, hkey, hclient, hserved⟩ := delete_served hboth hdelete
    exact hserved.read_erased hclient hkey hothers

/-- The cache has room for one key, and the database has not got round to its job. -/
theorem read_your_writes_crowded :
    let session := opened {} ⟨some 1, 64⟩ [.tipc 1]
    let events : List ClientEvent := [.call (.onKey .cache (.set .unit (.bool false))),
      .call (.onKey .direct (.delete (.bool false))), .call .stats,
      .call (.nextKey (.bool true) .bool), .work (.tipc 1) 0]
    let read (first : Session Cluster) (mode : Mode) :=
      ((first.play events).2.get mode (.bool true) (.option .bool)).1
    let set := session.set .direct (.bool true) (.present (.bool true))
    let delete := session.delete .direct (.bool true)
    (set.1 = .ok () ∧ read set.2 .direct = .ok (some (.present (.bool true)))
      ∧ (read set.2 .cache = .ok (some (.present (.bool true))) ∨ read set.2 .cache = .ok none))
      ∧ delete.1 = .ok false ∧ read delete.2 .synchronous = .ok none := by
  have hset : ((opened {} ⟨some 1, 64⟩ [.tipc 1]).set .direct (.bool true)
    (.present (.bool true))).1 = .ok () := by rfl
  have hdelete : ((opened {} ⟨some 1, 64⟩ [.tipc 1]).delete .direct (.bool true)).1
    = .ok false := by rfl
  intro session events read set delete
  have hlimit (endpoint : Endpoint) (server : Server)
      (hserver : session.transport.server? endpoint = some server) :
      server.maxPayload < 0x100000000 := by
    rw [(Fresh.opened {} ⟨some 1, 64⟩ [.tipc 1]).fresh endpoint server hserver]
    decide
  have hdecode (bytes : Bytes) (hvalue : session.client.encode (.present (.bool true)) = .ok bytes) :
      session.client.decode (.option .bool) bytes = .ok (.present (.bool true)) := by
    rw [← Except.ok.inj hvalue]
    rfl
  have hothers (call : ClientCall) (hcall : .call call ∈ events) (other : Datum)
      (hother : other ∈ call.key?) :
      session.client.encode other ≠ session.client.encode (.bool true) := by
    simp only [events, List.mem_cons, ClientEvent.call.injEq, reduceCtorEq, List.not_mem_nil,
      or_false] at hcall
    rcases hcall with rfl | rfl | rfl | rfl
    · cases hother
      exact fun h => nomatch h
    · cases hother
      exact fun h => nomatch h
    · cases hother
    · cases hother
  have hreads := read_your_writes session events (.bool true) (.present (.bool true))
    (.option .bool) hlimit hdecode hothers
  refine ⟨⟨hset, ?_⟩, hdelete, ?_⟩
  · obtain ⟨hboth, hcache, -⟩ := hreads.1 .direct hset
    exact ⟨hboth (by decide) .direct (by decide), hcache⟩
  · exact hreads.2 .direct false (by decide) hdelete .synchronous

end Session

end TieredStore
