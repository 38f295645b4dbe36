import TieredStore.Proofs.Server.Effect
import TieredStore.Proofs.Server.Schedule

/-!
# What requests leave alone

A request changes what a server stores and counts, but not its limit, nor whether it accepts
connections.
-/

namespace TieredStore

namespace PromptServer

/-- A server's limit, and whether it accepts connections. -/
def settings (server : PromptServer) : Nat × Bool :=
  (server.maxPayload, server.reachable)

variable (server : PromptServer)

theorem settings_handle (request : Request) :
    (server.handle request).2.settings = server.settings := by
  have heffect := server.effect_handle request
  generalize server.handle request = outcome at heffect
  cases heffect with
  | kept reply counters => rfl
  | bound value counters cacheOnly hsubject hcode => rfl
  | unbound counters hsubject hcode => rfl

theorem maxPayload_call (call : ServerCall) :
    (server.call call).2.maxPayload = server.maxPayload := by
  cases call with
  | evict dropped => rfl
  | request request => exact congrArg Prod.fst (server.settings_handle request)

theorem maxPayload_run (calls : List ServerCall) :
    (server.run calls).2.maxPayload = server.maxPayload := by
  induction calls generalizing server with
  | nil => rfl
  | cons call calls ih => exact (ih (server.call call).2).trans (server.maxPayload_call call)

end PromptServer

namespace Server

theorem maxPayload_handle (server : Server) (request : Request) :
    (server.handle request).2.maxPayload = server.maxPayload := by
  change (server.handle request).2.settle.settings.1 = server.settle.settings.1
  rw [settle_handle_snd, PromptServer.settings_handle]

theorem maxPayload_run (server : Server) (events : List ServerEvent) :
    (server.run events).2.maxPayload = server.maxPayload := by
  have hend : (server.run events).2.settle = (server.settle.run (callsOf events)).2 :=
    congrArg Prod.snd (settle_run server events)
  change (server.run events).2.settle.maxPayload = server.settle.maxPayload
  rw [hend, PromptServer.maxPayload_run]

theorem reachable_handle (server : Server) (request : Request) :
    (server.handle request).2.reachable = server.reachable := by
  change (server.handle request).2.settle.settings.2 = server.settle.settings.2
  rw [settle_handle_snd, PromptServer.settings_handle]

end Server

end TieredStore
