import TieredStore.Proofs.Client.DataCall
import TieredStore.Proofs.Wire.RequestForm

/-!
# Ids

A client numbers its requests from 1 and sends 28 bits of the number, so a request has the id of
another if their numbers are `Wire.ids` apart, and no closer (`Session.Sent.id_inj`).  The counter
has 32 bits; that it starts again makes no difference, since 28 bits of it are used.
-/

namespace TieredStore

open Wire

theorem Request.toNat_id_make (counter : UInt32) (flags : Flags) (command : Command) :
    (Request.make counter flags command).id.toNat = counter.toNat % ids :=
  toNat_and_maxId counter

theorem Answer.received_eq_ok_iff {id : UInt32} {received : Except Error Reply} {reply : Reply} :
    Answer.received id received = .ok reply ↔ received = .ok reply ∧ reply.id = id := by
  cases received with
  | error error => simp [Answer.received]
  | ok other =>
    show (if other.id = id then Except.ok other else .error .malformed : Answer) = .ok reply ↔ _
    by_cases hid : other.id = id
    · simp only [if_pos hid, Except.ok.injEq]
      constructor
      · rintro rfl
        exact ⟨rfl, hid⟩
      · exact And.left
    · simp only [if_neg hid, reduceCtorEq, Except.ok.injEq, false_iff, not_and]
      rintro rfl
      exact hid

/-- The requests that a session has sent since its client was new, one after another.  Between them
anything may happen to the session that leaves the counter alone. -/
inductive Session.Sent {σ : Type} [Transport σ] : Session σ → List Request → Prop
  | new (session : Session σ) (h : session.client.nextId = 1) : Sent session []
  | send {session : Session σ} {sent : List Request} (h : Sent session sent) (endpoint : Endpoint)
    (flags : Flags) (command : Command) :
    Sent (session.send endpoint flags command).2
      (sent ++ [.make session.client.nextId flags command])
  | meanwhile {session later : Session σ} {sent : List Request} (h : Sent session sent)
    (hcounter : later.client.nextId = session.client.nextId) : Sent later sent

namespace Session.Sent

variable {σ : Type} [Transport σ] {session : Session σ} {sent : List Request}

theorem nextId_eq (h : session.Sent sent) :
    session.client.nextId = UInt32.ofNat (sent.length + 1) := by
  induction h with
  | new session h => exact h
  | @send session sent _ endpoint flags command ih =>
    rw [send_eq, List.length_append, List.length_singleton]
    show session.client.nextId + 1 = _
    rw [ih, UInt32.ofNat_add (sent.length + 1) 1]
    rfl
  | meanwhile _ hcounter ih => exact hcounter.trans ih

/-- The next request has the 28 bits of its own number. -/
theorem toNat_id_next (h : session.Sent sent) (flags : Flags) (command : Command) :
    (Request.make session.client.nextId flags command).id.toNat = (sent.length + 1) % ids := by
  rw [Request.toNat_id_make, h.nextId_eq, UInt32.toNat_ofNat']
  exact Nat.mod_mod_of_dvd _ (by decide)

theorem toNat_id (h : session.Sent sent) {n : Nat} {request : Request}
    (hrequest : sent[n]? = some request) : request.id.toNat = (n + 1) % ids := by
  induction h generalizing n with
  | new session h => cases hrequest
  | @send session sent hsent endpoint flags command ih =>
    by_cases hn : n < sent.length
    · rw [List.getElem?_append_left hn] at hrequest
      exact ih hrequest
    · rw [List.getElem?_append_right (Nat.not_lt.1 hn), List.getElem?_singleton] at hrequest
      split at hrequest
      · have hlast : n = sent.length := by omega
        rw [← Option.some.inj hrequest, hlast]
        exact hsent.toNat_id_next flags command
      · cases hrequest
  | meanwhile _ _ ih => exact ih hrequest

/-- Of as many requests in a row as there are ids each has an id of its own. -/
theorem id_inj (h : session.Sent sent) {n m : Nat} {one other : Request}
    (hone : sent[n]? = some one) (hother : sent[m]? = some other) (hid : one.id = other.id)
    (hle : n ≤ m) (hwindow : m < n + ids) : n = m := by
  have hn := h.toNat_id hone
  have hm := h.toNat_id hother
  rw [hid, hm] at hn
  -- the numbers leave the same remainder and are less than one round apart
  unfold ids at hn hwindow
  omega

theorem run {α : Type} {plan : Plan α} (h : session.Sent sent) :
    ∃ more, (plan.run session).2.Sent (sent ++ more) := by
  induction plan generalizing session sent with
  | done result => exact ⟨[], (List.append_nil sent).symm ▸ h⟩
  | ask endpoint flags command next ih =>
    obtain ⟨more, hmore⟩ := ih _ (h.send endpoint flags command)
    rw [List.append_assoc] at hmore
    exact ⟨_, hmore⟩

/-- Whatever a client is called for, all that it sends has the ids that come next. -/
theorem perform (h : session.Sent sent) (call : ClientCall) :
    ∃ more, (session.perform call).2.Sent (sent ++ more) := by
  rw [perform_eq_run]
  exact h.run

end Session.Sent

end TieredStore
