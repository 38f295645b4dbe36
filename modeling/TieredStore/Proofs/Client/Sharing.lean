import TieredStore.Proofs.Client.DataCall

/-!
# Clients that share a transport

Any number of clients may hold one transport.  Each has its own endpoints and settings and numbers
its own requests; when one of them does something, the others go on with the transport as it leaves
it.
-/

namespace TieredStore

/-- Clients that hold one transport. -/
structure Sharing (ι σ : Type) where
  clients : ι → Client
  transport : σ

namespace Sharing

variable {ι σ : Type} [DecidableEq ι]

/-- What one of the clients has at hand. -/
def session (group : Sharing ι σ) (who : ι) : Session σ :=
  ⟨group.clients who, group.transport⟩

/-- The group when one of its clients has come to this. -/
def resume (group : Sharing ι σ) (who : ι) (session : Session σ) : Sharing ι σ :=
  ⟨fun other => if other = who then session.client else group.clients other, session.transport⟩

theorem clients_resume (group : Sharing ι σ) (who other : ι) (session : Session σ) :
    (group.resume who session).clients other
      = if other = who then session.client else group.clients other := rfl

theorem session_resume (group : Sharing ι σ) (who : ι) (session : Session σ) :
    (group.resume who session).session who = session := by
  have hclient : (group.resume who session).clients who = session.client := if_pos rfl
  unfold Sharing.session
  rw [hclient]
  rfl

/-- One of the clients makes a call. -/
def perform [Transport σ] (group : Sharing ι σ) (who : ι) (call : ClientCall) :
    Except Error CallResult × Sharing ι σ :=
  ((group.session who).perform call).map id (group.resume who)

end Sharing

end TieredStore
