import TieredStore.Client

/-!
# Plans

What a call of a client does between its arguments and its result: it asks endpoints, one after
another, and what it asks next may depend on what it was told.  A plan is this without a session; in
a session each question is one round trip (`Plan.run`).
-/

namespace TieredStore

/-- The client after it has sent one request. -/
def Client.advance (client : Client) : Client :=
  { client with nextId := client.nextId + 1 }

/-- What a client takes from a round trip: only a reply with the request's id is an answer. -/
def Answer.received (id : UInt32) : Except Error Reply → Answer
  | .error error => .error error.toFailure
  | .ok reply => if reply.id = id then .ok reply else .error .malformed

theorem Session.send_eq {σ : Type} [Transport σ] (session : Session σ) (endpoint : Endpoint)
    (flags : Flags) (command : Command) :
    session.send endpoint flags command
      = (let request := Request.make session.client.nextId flags command
        let trip := Transport.roundTrip endpoint request session.transport
        (.received request.id trip.1, ⟨session.client.advance, trip.2⟩)) := by
  unfold Session.send
  simp only
  rcases Transport.roundTrip endpoint (.make session.client.nextId flags command)
    session.transport with ⟨received, transport⟩
  cases received with
  | error error => rfl
  | ok reply => rfl

/-- A reply that has the request's id is taken for the answer. -/
theorem Session.send_of_reply {σ : Type} [Transport σ] {session : Session σ} {endpoint : Endpoint}
    {flags : Flags} {command : Command} {reply : Reply} {transport : σ}
    (htrip : Transport.roundTrip endpoint (.make session.client.nextId flags command)
      session.transport = (.ok reply, transport))
    (hid : reply.id = (Request.make session.client.nextId flags command).id) :
    session.send endpoint flags command = (.ok reply, ⟨session.client.advance, transport⟩) := by
  rw [send_eq]
  simp only [htrip, Answer.received, if_pos hid]

inductive Plan (α : Type) where
  | done (result : α)
  | ask (endpoint : Endpoint) (flags : Flags) (command : Command) (next : Answer → Plan α)

namespace Plan

variable {α β : Type}

/-- Asks an endpoint, if there is one to ask. -/
def askAt (endpoint : Option Endpoint) (flags : Flags) (command : Command)
    (next : Answer → Plan α) : Plan α :=
  match endpoint with
  | none => next (.error .noEndpoint)
  | some endpoint => .ask endpoint flags command next

def map (f : α → β) : Plan α → Plan β
  | .done result => .done (f result)
  | .ask endpoint flags command next => .ask endpoint flags command fun answer => (next answer).map f

variable {σ : Type} [Transport σ]

def run : Plan α → Session σ → α × Session σ
  | .done result, session => (result, session)
  | .ask endpoint flags command next, session =>
    let (answer, session) := session.send endpoint flags command
    (next answer).run session

theorem run_map (f : α → β) (plan : Plan α) (session : Session σ) :
    (plan.map f).run session = (plan.run session).map f id := by
  induction plan generalizing session with
  | done result => rfl
  | ask endpoint flags command next ih => exact ih _ _

theorem run_askAt (endpoint : Option Endpoint) (flags : Flags) (command : Command)
    (next : Answer → Plan α) (session : Session σ) :
    (askAt endpoint flags command next).run session
      = (next (session.sendTo endpoint flags command).1).run
          (session.sendTo endpoint flags command).2 := by
  cases endpoint with
  | none => rfl
  | some endpoint => rfl

/-! ## What holds of all questions -/

/-- Every question that a plan comes to ask, in the session as it is then. -/
def Along (P : Session σ → Endpoint → Flags → Command → Prop) : Plan α → Session σ → Prop
  | .done _, _ => True
  | .ask endpoint flags command next, session =>
    P session endpoint flags command
      ∧ (next (session.send endpoint flags command).1).Along P
          (session.send endpoint flags command).2

variable {P : Session σ → Endpoint → Flags → Command → Prop}

theorem along_map {f : α → β} {plan : Plan α} {session : Session σ} :
    (plan.map f).Along P session ↔ plan.Along P session := by
  induction plan generalizing session with
  | done result => rfl
  | ask endpoint flags command next ih => exact and_congr_right fun _ => ih _

theorem along_askAt {endpoint : Option Endpoint} {flags : Flags} {command : Command}
    {f : Answer → α} {session : Session σ}
    (h : ∀ home ∈ endpoint, P session home flags command) :
    (askAt endpoint flags command fun answer => .done (f answer)).Along P session := by
  cases endpoint with
  | none => trivial
  | some endpoint => exact ⟨h endpoint rfl, trivial⟩

theorem Along.and {Q : Session σ → Endpoint → Flags → Command → Prop} {plan : Plan α}
    {session : Session σ} (h : plan.Along P session) (h' : plan.Along Q session) :
    plan.Along (fun session endpoint flags command => P session endpoint flags command
      ∧ Q session endpoint flags command) session := by
  induction plan generalizing session with
  | done result => trivial
  | ask endpoint flags command next ih => exact ⟨⟨h.1, h'.1⟩, ih _ h.2 h'.2⟩

instance decidableAlong [∀ session endpoint flags command,
      Decidable (P session endpoint flags command)] :
    (plan : Plan α) → (session : Session σ) → Decidable (plan.Along P session)
  | .done _, _ => isTrue trivial
  | .ask endpoint flags command next, session =>
    have := decidableAlong (next (session.send endpoint flags command).1)
      (session.send endpoint flags command).2
    inferInstanceAs (Decidable (_ ∧ _))

/-- What every question keeps, the plan keeps. -/
theorem Along.run {plan : Plan α} {session : Session σ} (h : plan.Along P session)
    {Q : Session σ → Prop}
    (hsend : ∀ session endpoint flags command, P session endpoint flags command → Q session →
      Q (session.send endpoint flags command).2)
    (hQ : Q session) : Q (plan.run session).2 := by
  induction plan generalizing session with
  | done result => exact hQ
  | ask endpoint flags command next ih =>
    obtain ⟨hask, hnext⟩ := h
    exact ih _ hnext (hsend session endpoint flags command hask hQ)

/-- What all requests keep, the plan keeps. -/
theorem run_keeps {Q : Session σ → Prop}
    (hsend : ∀ session endpoint flags command, Q session →
      Q (session.send endpoint flags command).2)
    {plan : Plan α} {session : Session σ} (hQ : Q session) : Q (plan.run session).2 := by
  induction plan generalizing session with
  | done result => exact hQ
  | ask endpoint flags command next ih => exact ih _ (hsend session endpoint flags command hQ)

/-- Sessions in which every question has the same answer give the plan the same result. -/
theorem Along.run_eq {τ : Type} [Transport τ] {plan : Plan α} {session : Session σ}
    (h : plan.Along P session) {R : Session τ → Session σ → Prop}
    (hsend : ∀ other session endpoint flags command, P session endpoint flags command →
      R other session →
      (other.send endpoint flags command).1 = (session.send endpoint flags command).1
        ∧ R (other.send endpoint flags command).2 (session.send endpoint flags command).2)
    {other : Session τ} (hR : R other session) :
    (plan.run other).1 = (plan.run session).1 ∧ R (plan.run other).2 (plan.run session).2 := by
  induction plan generalizing session other with
  | done result => exact ⟨rfl, hR⟩
  | ask endpoint flags command next ih =>
    obtain ⟨hask, hnext⟩ := h
    obtain ⟨hanswer, hafter⟩ := hsend other session endpoint flags command hask hR
    simp only [Plan.run]
    rw [hanswer]
    exact ih _ hnext hafter

end Plan

end TieredStore
