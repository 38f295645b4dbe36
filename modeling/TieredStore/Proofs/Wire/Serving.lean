import TieredStore.Proofs.StepAll
import TieredStore.Proofs.Wire.RequestForm
import TieredStore.Wire.Serve

/-!
# Messages that are served

A server answers exactly the messages that begin with a request, each as it handles the request
(`Server.serve_eq_ok_iff`); any other message it refuses and stays as it is
(`Server.serve_of_no_request`).  A sequence of messages is served as the requests in them are
handled one after another (`Server.stepAll_serve`).
-/

namespace TieredStore

/-- A message begins with the encoding of the request, and no part of the request is lost in it. -/
def Request.Begins (request : Request) (message : Bytes) : Prop :=
  request.Fits ∧ request.encode <+: message

theorem Request.decode_eq_ok_iff_begins {message : Bytes} {request : Request} :
    decode message = .ok request ↔ request.Begins message := by
  constructor
  · exact of_decode
  · rintro ⟨hfits, hbegin⟩
    exact (decode_eq_ok_iff hfits).2 hbegin

namespace Server

theorem serve_of_begins {request : Request} {message : Bytes} (h : request.Begins message)
    (server : Server) :
    server.serve message
      = (.ok (server.handle request).1.encode, (server.handle request).2) := by
  rw [serve, Request.decode_eq_ok_iff_begins.2 h]
  rfl

theorem serve_of_no_request {message : Bytes} (h : ¬∃ request : Request, request.Begins message)
    (server : Server) : ∃ fault, server.serve message = (.error (.protocol fault), server) := by
  obtain ⟨fault, hfault⟩ := Request.decode_eq_error_of_no_prefix h
  refine ⟨fault, ?_⟩
  rw [serve, hfault]

/-- Every answer is that to a request in the message, and the server is left as by the request. -/
theorem serve_eq_ok_iff {server after : Server} {message answer : Bytes} :
    server.serve message = (.ok answer, after)
      ↔ ∃ request : Request, request.Begins message
        ∧ (server.handle request).1.encode = answer ∧ (server.handle request).2 = after := by
  constructor
  · intro h
    cases hread : Request.decode message with
    | error fault =>
      rw [serve, hread] at h
      cases h
    | ok request =>
      have hbegins : request.Begins message := Request.decode_eq_ok_iff_begins.1 hread
      rw [serve_of_begins hbegins] at h
      cases h
      exact ⟨request, hbegins, rfl, rfl⟩
  · rintro ⟨request, hbegins, rfl, rfl⟩
    exact serve_of_begins hbegins server

/-- Messages are served one after another as the requests in them are handled. -/
theorem stepAll_serve {requests : List Request} {messages : List Bytes}
    (h : List.Forall₂ Request.Begins requests messages) (server : Server) :
    stepAll serve server messages
      = (stepAll handle server requests).map (List.map fun reply => .ok reply.encode) id := by
  induction h generalizing server with
  | nil => rfl
  | cons hbegins hrest ih =>
    -- the first message leaves the server as its request does, and the others are served from there
    simp only [stepAll, serve_of_begins hbegins, ih]
    rfl

end Server

end TieredStore
