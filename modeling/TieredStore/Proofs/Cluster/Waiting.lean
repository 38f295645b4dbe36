import Mathlib.Data.List.Forall2
import TieredStore.Proofs.Cluster.ReadYourWrites
import TieredStore.Proofs.Cluster.Sending

/-!
# Waiting for writes

Whether an operation waits for the database makes no difference to what anybody is told, now or
later: of two histories with the same calls, in which any calls on both tiers are made without
waiting in one and acknowledged by the database in the other, every call has the same result, and
the servers are the same as soon as their queues are empty (`Session.waiting_unobservable`).  The
databases may work at a different pace in each.

A mode is a matter of flags, and servers differ in what they do with the flags of two modes on both
tiers only in what they leave in the queue.  So the clusters stay alike: the servers behind each
endpoint stand for the same.
-/

namespace TieredStore

/-- A prompt server takes nothing from the flags of a request but the tiers that it is for. -/
theorem PromptServer.handle_of_tiers (server : PromptServer) (id : UInt32) {flags other : Flags}
    (h : flags.isCacheOnly = other.isCacheOnly) (command : Command) :
    server.handle ⟨id, flags, command⟩ = server.handle ⟨id, other, command⟩ := by
  unfold handle
  simp only [h]

theorem Server.flush_eq_of_settle {server other : Server} (h : server.settle = other.settle) :
    server.flush = other.flush := by
  have hqueue (server : Server) : server.flush
      = ⟨server.settle.maxPayload, server.settle.cache, ⟨server.settle.table, []⟩,
        server.settle.counters, server.settle.reachable⟩ := by
    unfold flush
    rw [Database.flush_eq]
    rfl
  rw [hqueue, hqueue, h]

/-! ## Plans that differ in waiting -/

/-- Two plans that ask the same, for the same tiers. -/
inductive Plan.Alike {α : Type} : Plan α → Plan α → Prop where
  | done (result : α) : Alike (.done result) (.done result)
  | ask (endpoint : Endpoint) {flags other : Flags} (hflags : flags.isCacheOnly = other.isCacheOnly)
      (command : Command) {next next' : Answer → Plan α}
      (hnext : ∀ answer, Alike (next answer) (next' answer)) :
      Alike (.ask endpoint flags command next) (.ask endpoint other command next')

theorem Plan.Alike.refl {α : Type} (plan : Plan α) : plan.Alike plan := by
  induction plan with
  | done result => exact .done result
  | ask endpoint flags command next ih => exact .ask endpoint rfl command ih

/-- Two calls that are the same but for waiting: if their modes differ, both are for both tiers. -/
inductive ClientCall.Alike : ClientCall → ClientCall → Prop where
  | same (call : ClientCall) : Alike call call
  | onBoth {mode other : Mode} (hmode : mode ≠ .cache) (hother : other ≠ .cache) (call : KeyCall) :
      Alike (.onKey mode call) (.onKey other call)

theorem ClientCall.Alike.plan {call other : ClientCall} (h : call.Alike other) (client : Client) :
    (call.plan client).Alike (other.plan client) := by
  cases h with
  | same => exact .refl _
  | @onBoth mode other hmode hother call =>
    simp only [ClientCall.plan, KeyCall.plan]
    cases call.command client with
    | error error => exact .done _
    | ok command =>
      simp only
      cases client.home command with
      | none => exact .done _
      | some endpoint =>
        have hflags : (mode.flags command.type).isCacheOnly
            = (other.flags command.type).isCacheOnly := by
          rw [Mode.isCacheOnly_flags, Mode.isCacheOnly_flags, decide_eq_false hmode,
            decide_eq_false hother]
        exact .ask endpoint hflags command fun _ => .done _

namespace Session

/-! ## Sessions that are alike -/

/-- Two sessions of one client, in which the server behind each endpoint stands for the same. -/
structure Alike (first second : Session Cluster) : Prop where
  client : first.client = second.client
  servers : ∀ endpoint, (first.transport.server? endpoint).map Server.settle
    = (second.transport.server? endpoint).map Server.settle

namespace Alike

variable {first second : Session Cluster}

theorem refl (session : Session Cluster) : Alike session session :=
  ⟨rfl, fun _ => rfl⟩

theorem symm (h : Alike first second) : Alike second first :=
  ⟨h.client.symm, fun endpoint => (h.servers endpoint).symm⟩

theorem trans {third : Session Cluster} (h : Alike first second) (h' : Alike second third) :
    Alike first third :=
  ⟨h.client.trans h'.client, fun endpoint => (h.servers endpoint).trans (h'.servers endpoint)⟩

theorem server? (h : Alike first second) {endpoint : Endpoint} {server : Server}
    (hserver : first.transport.server? endpoint = some server) :
    ∃ other, second.transport.server? endpoint = some other ∧ other.settle = server.settle := by
  have hsame := h.servers endpoint
  rw [hserver] at hsame
  exact Option.map_eq_some_iff.1 hsame.symm

theorem no_server (h : Alike first second) {endpoint : Endpoint}
    (hserver : first.transport.server? endpoint = none) :
    second.transport.server? endpoint = none := by
  have hsame := h.servers endpoint
  rw [hserver] at hsame
  exact Option.map_eq_none_iff.1 hsame.symm

/-- What the database has applied of its jobs is not seen. -/
theorem work (h : Alike first second) (endpoint : Endpoint) (jobs : Nat) :
    Alike (first.work endpoint jobs) second := by
  refine ⟨h.client, fun other => ?_⟩
  rw [← h.servers other]
  unfold Session.work
  rw [Cluster.server?_adjust, Option.map_map]
  congr 1
  funext server
  simp only [Function.comp_apply]
  split
  · exact server.settle_work jobs
  · rfl

theorem replace (h : Alike first second) (client : Client) {endpoint : Endpoint}
    {server other : Server} (hsettle : server.settle = other.settle) :
    Alike ⟨client, first.transport.replace endpoint server⟩
      ⟨client, second.transport.replace endpoint other⟩ := by
  refine ⟨rfl, fun elsewhere => ?_⟩
  simp only [Cluster.server?_replace, Option.map_map]
  by_cases heq : elsewhere = endpoint
  · subst heq
    cases hserver : first.transport.server? elsewhere with
    | none => rw [h.no_server hserver]; rfl
    | some old =>
      obtain ⟨old', hserver', -⟩ := h.server? hserver
      simp [hserver', hsettle]
  · simp only [if_neg heq]
    exact h.servers elsewhere

theorem send (h : Alike first second) (endpoint : Endpoint) {flags other : Flags}
    (hflags : flags.isCacheOnly = other.isCacheOnly) (command : Command) :
    (first.send endpoint flags command).1 = (second.send endpoint other command).1
      ∧ Alike (first.send endpoint flags command).2 (second.send endpoint other command).2 := by
  have hnone : Alike ⟨first.client.advance, first.transport⟩
      ⟨second.client.advance, second.transport⟩ :=
    ⟨congrArg Client.advance h.client, h.servers⟩
  cases hserver : first.transport.server? endpoint with
  | none =>
    rw [send_of_no_server hserver, send_of_no_server (h.no_server hserver)]
    exact ⟨rfl, hnone⟩
  | some server =>
    obtain ⟨server', hserver', hsettle⟩ := h.server? hserver
    have hreach : server'.reachable = server.reachable := congrArg PromptServer.reachable hsettle
    cases hreachable : server.reachable with
    | false =>
      rw [send_of_unreachable hserver hreachable,
        send_of_unreachable hserver' (hreach.trans hreachable)]
      exact ⟨rfl, hnone⟩
    | true =>
      -- both servers handle the request as the one server that they stand for
      have hhandle : server.settle.handle (.make second.client.nextId flags command)
          = server'.settle.handle (.make second.client.nextId other command) := by
        rw [hsettle]
        exact PromptServer.handle_of_tiers _ _ hflags command
      rw [send_of_reachable hserver hreachable,
        send_of_reachable hserver' (hreach.trans hreachable), h.client, Server.handle_fst,
        Server.handle_fst, hhandle]
      refine ⟨rfl, h.replace _ ?_⟩
      rw [Server.settle_handle_snd, Server.settle_handle_snd, hhandle]

theorem run {α : Type} (h : Alike first second) {plan other : Plan α} (hplans : plan.Alike other) :
    (plan.run first).1 = (other.run second).1
      ∧ Alike (plan.run first).2 (other.run second).2 := by
  induction hplans generalizing first second with
  | done result => exact ⟨rfl, h⟩
  | ask endpoint hflags command hnext ih =>
    obtain ⟨hanswer, hafter⟩ := h.send endpoint hflags command
    simp only [Plan.run]
    rw [hanswer]
    exact ih _ hafter

theorem perform (h : Alike first second) {call other : ClientCall} (hcalls : call.Alike other) :
    (first.perform call).1 = (second.perform other).1
      ∧ Alike (first.perform call).2 (second.perform other).2 := by
  rw [perform_eq_run, perform_eq_run, h.client]
  exact h.run (hcalls.plan second.client)

theorem performAll (h : Alike first second) {calls others : List ClientCall}
    (hcalls : List.Forall₂ ClientCall.Alike calls others) :
    (first.performAll calls).1 = (second.performAll others).1
      ∧ Alike (first.performAll calls).2 (second.performAll others).2 := by
  induction hcalls generalizing first second with
  | nil => exact ⟨rfl, h⟩
  | cons hcall _ ih =>
    obtain ⟨hresult, hafter⟩ := h.perform hcall
    obtain ⟨hresults, hend⟩ := ih hafter
    simp only [Session.performAll]
    rw [hresult, hresults]
    exact ⟨rfl, hend⟩

/-- The calls of a history, at whatever pace the databases work between them. -/
theorem play (h : Alike first second) (events : List ClientEvent) :
    (first.play events).1 = (second.performAll (clientCalls events)).1
      ∧ Alike (first.play events).2 (second.performAll (clientCalls events)).2 := by
  induction events generalizing first second with
  | nil => exact ⟨rfl, h⟩
  | cons event events ih =>
    cases event with
    | call call =>
      obtain ⟨hresult, hafter⟩ := h.perform (.same call)
      obtain ⟨hresults, hend⟩ := ih hafter
      have hcalls : clientCalls (.call call :: events) = call :: clientCalls events := rfl
      rw [hcalls]
      simp only [Session.play, Session.performAll]
      rw [hresult, hresults]
      exact ⟨rfl, hend⟩
    -- progress is no call
    | work endpoint jobs => exact ih (h.work endpoint jobs)

end Alike

/-- Two histories that differ in waiting, and in the pace of the databases, and in nothing else. -/
theorem waiting_unobservable (session : Session Cluster) {events others : List ClientEvent}
    (h : List.Forall₂ ClientCall.Alike (clientCalls events) (clientCalls others)) :
    (session.play events).1 = (session.play others).1
      ∧ (session.play events).2.client = (session.play others).2.client
      ∧ ∀ endpoint, ((session.play events).2.transport.server? endpoint).map Server.flush
        = ((session.play others).2.transport.server? endpoint).map Server.flush := by
  obtain ⟨hresults, hevents⟩ := (Alike.refl session).play events
  obtain ⟨hresults', hothers⟩ := (Alike.refl session).play others
  obtain ⟨hsame, hcalls⟩ := (Alike.refl session).performAll h
  have hend : Alike (session.play events).2 (session.play others).2 :=
    (hevents.trans hcalls).trans hothers.symm
  refine ⟨?_, hend.client, ?_⟩
  · rw [hresults, hsame, hresults']
  · intro endpoint
    cases hserver : (session.play events).2.transport.server? endpoint with
    | none => rw [hend.no_server hserver]
    | some server =>
      obtain ⟨other, hother, hsettle⟩ := hend.server? hserver
      rw [hother, Option.map_some, Option.map_some, Server.flush_eq_of_settle hsettle]

/-- Two servers whose caches have room for one key.  Where nothing is waited for, the last write is
still in the queue at the end. -/
theorem waiting_unobservable_two_servers :
    let session := opened { policy := .keyHash } ⟨some 1, 64⟩ [.tcp "a" 1, .tipc 2]
    let history (mode other : Mode) (jobs : Nat) : List ClientEvent := [
      .call (.onKey mode (.set (.bool true) (.present (.bool false)))),
      .call (.onKey .cache (.incr (.bool false) 1)), .work (.tipc 2) jobs,
      .call (.onKey other (.cas (.bool true) (.present (.bool false)) .unit)),
      .call (.firstKey .bool), .call (.onKey mode (.delete (.bool true))), .call .stats]
    let plain := session.play (history .direct .synchronous 3)
    let waited := session.play (history .synchronous .direct 0)
    plain.1 = waited.1
      ∧ (∀ endpoint, (plain.2.transport.server? endpoint).map Server.flush
        = (waited.2.transport.server? endpoint).map Server.flush)
      ∧ plain.2.transport ≠ waited.2.transport := by
  intro session history plain waited
  have hcalls : List.Forall₂ ClientCall.Alike (clientCalls (history .direct .synchronous 3))
      (clientCalls (history .synchronous .direct 0)) := by
    have hplain : Mode.direct ≠ .cache := by decide
    have hwaited : Mode.synchronous ≠ .cache := by decide
    exact .cons (.onBoth hplain hwaited _) (.cons (.same _) (.cons (.onBoth hwaited hplain _)
      (.cons (.same _) (.cons (.onBoth hplain hwaited _) (.cons (.same _) .nil)))))
  obtain ⟨hresults, -, hservers⟩ := waiting_unobservable session hcalls
  exact ⟨hresults, hservers, by decide +kernel⟩

end Session

end TieredStore
