import TieredStore.Proofs.Client.Verdict
import TieredStore.Proofs.Cluster.Servers
import TieredStore.Proofs.Server.Settings
import TieredStore.Proofs.Server.Undisturbed

/-!
# Calls on a cluster

A client calls on the servers of a cluster, whose databases work meanwhile.  Each request is handled
by one server or by none (`Session.send_cases`), so that a key which no request is about stays as it
is on all servers, but for the room in their caches (`Kept`).
-/

namespace TieredStore

/-- What takes place in a cluster that has one client. -/
inductive ClientEvent where
  | call (call : ClientCall)
  /-- The database behind an endpoint applies some of its jobs. -/
  | work (endpoint : Endpoint) (jobs : Nat)

/-- The calls of a history. -/
def clientCalls (events : List ClientEvent) : List ClientCall :=
  events.filterMap fun
    | .call call => some call
    | .work .. => none

namespace Session

/-- The database behind an endpoint applies some of its jobs. -/
def work (session : Session Cluster) (endpoint : Endpoint) (jobs : Nat) : Session Cluster :=
  { session with transport := session.transport.adjust endpoint (·.work jobs) }

/-- All that the calls of a history give, and the session at its end. -/
def play (session : Session Cluster) :
    List ClientEvent → List (Except Error CallResult) × Session Cluster
  | [] => ([], session)
  | .call call :: events =>
    let (result, session) := session.perform call
    let (results, session) := session.play events
    (result :: results, session)
  | .work endpoint jobs :: events => (session.work endpoint jobs).play events

/-! ## One request -/

theorem send_of_reachable {session : Session Cluster} {endpoint : Endpoint} {server : Server}
    (hserver : session.transport.server? endpoint = some server)
    (hreachable : server.reachable = true) (flags : Flags) (command : Command) :
    session.send endpoint flags command
      = (.ok (server.handle (.make session.client.nextId flags command)).1,
        ⟨session.client.advance, session.transport.replace endpoint
          (server.handle (.make session.client.nextId flags command)).2⟩) :=
  send_of_reply (Cluster.roundTrip_of_reachable hserver hreachable _) (Server.id_handle ..)

/-- A request that no server accepts. -/
theorem send_of_refused {session : Session Cluster} {endpoint : Endpoint}
    (h : ∀ server, session.transport.server? endpoint = some server → server.reachable = false)
    (flags : Flags) (command : Command) :
    session.send endpoint flags command
      = (.error .transport, ⟨session.client.advance, session.transport⟩) := by
  rw [send_eq]
  simp only [Transport.roundTrip]
  rw [Cluster.roundTrip_of_refused h]
  rfl

theorem send_of_unreachable {session : Session Cluster} {endpoint : Endpoint} {server : Server}
    (hserver : session.transport.server? endpoint = some server)
    (hreachable : server.reachable = false) (flags : Flags) (command : Command) :
    session.send endpoint flags command
      = (.error .transport, ⟨session.client.advance, session.transport⟩) := by
  apply send_of_refused
  intro found hfound
  rw [← Option.some.inj (hserver.symm.trans hfound)]
  exact hreachable

theorem send_of_no_server {session : Session Cluster} {endpoint : Endpoint}
    (hserver : session.transport.server? endpoint = none) (flags : Flags) (command : Command) :
    session.send endpoint flags command
      = (.error .transport, ⟨session.client.advance, session.transport⟩) := by
  apply send_of_refused
  intro found hfound
  rw [hserver] at hfound
  cases hfound

/-- A request is handled by the server behind its endpoint, or by none. -/
theorem send_cases (session : Session Cluster) (endpoint : Endpoint) (flags : Flags)
    (command : Command) :
    (∃ server, session.transport.server? endpoint = some server ∧ server.reachable = true)
      ∨ session.send endpoint flags command
        = (.error .transport, ⟨session.client.advance, session.transport⟩) := by
  cases hserver : session.transport.server? endpoint with
  | none => exact .inr (send_of_no_server hserver flags command)
  | some server =>
    cases hreachable : server.reachable with
    | true => exact .inl ⟨server, rfl, hreachable⟩
    | false => exact .inr (send_of_unreachable hserver hreachable flags command)

end Session

/-! ## Commands of calls -/

/-- A call on a key sends a command about this key. -/
theorem KeyCall.of_command {call : KeyCall} {client : Client} {command : Command}
    (h : call.command client = .ok command) :
    ∃ key, client.encode call.key = .ok key ∧ command.subject? = some key := by
  cases call with
  | get key shape | getItem key shape | has key | delete key | incr key delta =>
    obtain ⟨bytes, hkey, hcommand⟩ := bind_eq_ok_iff.1 h
    cases hcommand
    exact ⟨bytes, hkey, rfl⟩
  | set key value =>
    obtain ⟨bytes, hkey, hrest⟩ := bind_eq_ok_iff.1 h
    obtain ⟨_, -, hcommand⟩ := bind_eq_ok_iff.1 hrest
    cases hcommand
    exact ⟨bytes, hkey, rfl⟩
  | cas key old new =>
    obtain ⟨bytes, hkey, hrest⟩ := bind_eq_ok_iff.1 h
    obtain ⟨_, -, hrest⟩ := bind_eq_ok_iff.1 hrest
    obtain ⟨_, -, hcommand⟩ := bind_eq_ok_iff.1 hrest
    cases hcommand
    exact ⟨bytes, hkey, rfl⟩

namespace ClientCall

variable {σ : Type} [Transport σ] {key : Bytes} {session : Session σ}

theorem along_countersOf (endpoints : List Endpoint) :
    (countersOf endpoints).Along (fun _ _ _ command => command.subject? ≠ some key) session := by
  induction endpoints generalizing session with
  | nil => trivial
  | cons endpoint endpoints ih =>
    simp only [countersOf, Plan.Along, Plan.along_map]
    exact ⟨by simp [Command.subject?], ih⟩

/-- A call about other keys sends no command about a key. -/
theorem along_plan {client : Client} {call : ClientCall}
    (hothers : ∀ other ∈ call.key?, client.encode other ≠ .ok key) :
    (call.plan client).Along (fun _ _ _ command => command.subject? ≠ some key) session := by
  cases call with
  | onKey mode call =>
    simp only [plan, KeyCall.plan]
    cases hcommand : call.command client with
    | error error => trivial
    | ok command =>
      obtain ⟨bytes, hbytes, hsubject⟩ := KeyCall.of_command hcommand
      apply Plan.along_askAt
      intro _ _ heq
      rw [hsubject] at heq
      exact hothers call.key rfl (hbytes.trans (congrArg _ (Option.some.inj heq)))
  -- the iteration and the statistics are not about the value of any key
  | firstKey shape => exact Plan.along_askAt fun _ _ => by simp [Command.subject?]
  | nextKey start shape =>
    simp only [plan]
    cases client.encode start with
    | error error => trivial
    | ok bytes => exact Plan.along_askAt fun _ _ => by simp [Command.subject?]
  | stats =>
    simp only [plan, Plan.along_map]
    exact along_countersOf _

end ClientCall

/-! ## What a key keeps -/

/-- A session is as before, as far as it concerns a key. -/
structure Kept (key : Bytes) (before after : Session Cluster) : Prop where
  client : ∃ nextId, after.client = { before.client with nextId }
  server : ∀ endpoint server, before.transport.server? endpoint = some server →
    ∃ later, after.transport.server? endpoint = some later
      ∧ Undisturbed key server.settle later.settle
      ∧ later.settle.settings = server.settle.settings

namespace Kept

variable {key : Bytes} {before between after session : Session Cluster}

theorem refl (key : Bytes) (session : Session Cluster) : Kept key session session :=
  ⟨⟨session.client.nextId, rfl⟩, fun _ server h => ⟨server, h, .of_tiers rfl rfl, rfl⟩⟩

theorem trans (h : Kept key before between) (h' : Kept key between after) :
    Kept key before after := by
  constructor
  · obtain ⟨nextId, hbetween⟩ := h.client
    obtain ⟨nextId', hafter⟩ := h'.client
    refine ⟨nextId', ?_⟩
    rw [hafter, hbetween]
  · intro endpoint server hserver
    obtain ⟨late, hlate, hquiet, hsettings⟩ := h.server endpoint server hserver
    obtain ⟨later, hlater, hquiet', hsettings'⟩ := h'.server endpoint late hlate
    exact ⟨later, hlater, hquiet.trans hquiet', hsettings'.trans hsettings⟩

theorem work (key : Bytes) (session : Session Cluster) (endpoint : Endpoint) (jobs : Nat) :
    Kept key session (session.work endpoint jobs) := by
  refine ⟨⟨session.client.nextId, rfl⟩, ?_⟩
  intro other server hserver
  have hadjust : (session.work endpoint jobs).transport.server? other
      = some (if other = endpoint then server.work jobs else server) := by
    unfold Session.work
    rw [Cluster.server?_adjust, hserver]
    rfl
  refine ⟨_, hadjust, ?_⟩
  -- whether it has worked or not, the server stands for the same
  have hsettle : (if other = endpoint then server.work jobs else server).settle
      = server.settle := by
    split
    · exact server.settle_work jobs
    · rfl
  rw [hsettle]
  exact ⟨.of_tiers rfl rfl, rfl⟩

theorem send (key : Bytes) (session : Session Cluster) (endpoint : Endpoint) (flags : Flags)
    {command : Command} (hother : command.subject? ≠ some key) :
    Kept key session (session.send endpoint flags command).2 := by
  refine ⟨⟨session.client.nextId + 1, ?_⟩, ?_⟩
  · rw [Session.send_eq]
    rfl
  · intro other server hserver
    rcases session.send_cases endpoint flags command with ⟨home, hhome, hreachable⟩ | hsend
    · let request := Request.make session.client.nextId flags command
      have hreplace : (session.send endpoint flags command).2.transport.server? other
          = some (if other = endpoint then (home.handle request).2 else server) := by
        rw [Session.send_of_reachable hhome hreachable, Cluster.server?_replace, hserver]
        rfl
      refine ⟨_, hreplace, ?_⟩
      by_cases heq : other = endpoint
      · rw [heq, hhome] at hserver
        cases hserver
        rw [if_pos heq, Server.settle_handle_snd]
        exact ⟨PromptServer.undisturbed_handle _ request hother,
          PromptServer.settings_handle _ request⟩
      · rw [if_neg heq]
        exact ⟨.of_tiers rfl rfl, rfl⟩
    · rw [hsend]
      exact ⟨server, hserver, .of_tiers rfl rfl, rfl⟩

theorem perform {call : ClientCall}
    (hothers : ∀ other ∈ call.key?, session.client.encode other ≠ .ok key) :
    Kept key session (session.perform call).2 := by
  rw [Session.perform_eq_run]
  refine (ClientCall.along_plan hothers).run ?_ (refl key session)
  intro current endpoint flags command hother hkept
  exact hkept.trans (send key current endpoint flags hother)

/-- A history of calls about other keys. -/
theorem play {events : List ClientEvent} (hothers : ∀ call, .call call ∈ events →
      ∀ other ∈ call.key?, session.client.encode other ≠ .ok key) :
    Kept key session (session.play events).2 := by
  induction events generalizing session with
  | nil => exact refl key session
  | cons event events ih =>
    have hlater {next : Session Cluster} (hnext : Kept key session next) :
        Kept key session (next.play events).2 := by
      refine hnext.trans (ih ?_)
      intro call hcall
      -- what is encoded depends on the settings, which stay
      obtain ⟨nextId, hclient⟩ := hnext.client
      rw [hclient]
      exact hothers call (List.mem_cons_of_mem _ hcall)
    cases event with
    | call call => exact hlater (perform (hothers call List.mem_cons_self))
    | work endpoint jobs => exact hlater (work key session endpoint jobs)

end Kept

end TieredStore
