import TieredStore.Proofs.Sockets.Connections
import TieredStore.Proofs.Sockets.Recorded
import TieredStore.Proofs.Wire.CutStream
import TieredStore.Transport.Loopback

/-!
# Requests on frame boundaries

Over TCP a request is written only where the reply to the one before it has ended: to a connection
that is new, or on which every exchange so far has read one whole reply.  After anything else the
connection is gone, and the next request gets a new one (`Sockets.written_at_frame_boundary`).
-/

namespace TieredStore

open Wire

/-! ## The record of one endpoint -/

/-- Addresses are tried until one of them gives a link, or none has. -/
inductive Dialing : Option Nat → List NetworkAct → Prop where
  | gaveUp : Dialing none []
  | opened (address : Address) (link : Nat) : Dialing (some link) [.dialed address (.ok link)]
  | refused (address : Address) (error : IoError) {link? : Option Nat} {acts : List NetworkAct}
      (h : Dialing link? acts) : Dialing link? (.dialed address (.error error) :: acts)

/-- A connection on which every exchange has read one whole reply: all that it was used for since it
was opened, and the bytes behind the last reply. -/
inductive InStep (max link : Nat) : List NetworkAct → Bytes → Prop where
  | opened (address : Address) : InStep max link [.dialed address (.ok link)] []
  | exchanged {acts : List NetworkAct} {unread : Bytes} (h : InStep max link acts unread)
      (request : Request) (arrival : Inflow) {message rest : Bytes} {reply : Reply}
      (hbytes : unread ++ arrival.bytes = frame message ++ rest) (hfits : FitsFrame max message)
      (hdecode : Reply.decode message = .ok reply) :
      InStep max link (acts ++ [.transferred link (frame request.encode) (.ok arrival)]) rest

/-- The last that is recorded is the use of a connection that is in step. -/
def Ready (max link : Nat) (acts : List NetworkAct) (unread : Bytes) : Prop :=
  ∃ before conversation, acts = before ++ conversation ∧ InStep max link conversation unread

/-- Every write was that of a request, to a connection that was in step. -/
def AllReady (max : Nat) (acts : List NetworkAct) : Prop :=
  ∀ past link bytes result later, acts = past ++ .transferred link bytes result :: later →
    (∃ request : Request, bytes = frame request.encode) ∧ ∃ unread, Ready max link past unread

section Acts

variable {max link : Nat} {acts : List NetworkAct} {unread : Bytes}

theorem AllReady.concat (h : AllReady max acts) {act : NetworkAct}
    (hact : ∀ link bytes result, act = .transferred link bytes result →
      (∃ request : Request, bytes = frame request.encode)
        ∧ ∃ unread, Ready max link acts unread) :
    AllReady max (acts ++ [act]) := by
  intro past link bytes result later heq
  rcases List.eq_nil_or_concat later with rfl | ⟨earlier, last, rfl⟩
  · obtain ⟨rfl, hlast⟩ := List.append_inj' heq rfl
    exact hact link bytes result (List.cons.inj hlast).1
  -- then it was written before the last act
  · have hinit : acts ++ [act] = (past ++ .transferred link bytes result :: earlier) ++ [last] := by
      rw [heq, List.concat_eq_append, List.append_assoc, List.cons_append]
    obtain ⟨hacts, -⟩ := List.append_inj' hinit rfl
    exact h past link bytes result earlier hacts

theorem AllReady.dialed (h : AllReady max acts) (address : Address) (result : Except IoError Nat) :
    AllReady max (acts ++ [.dialed address result]) := by
  apply h.concat
  intro link bytes result heq
  cases heq

theorem AllReady.dialing {link? : Option Nat} {more : List NetworkAct} (h : AllReady max acts)
    (hmore : Dialing link? more) : AllReady max (acts ++ more) := by
  induction hmore generalizing acts with
  | gaveUp =>
    rw [List.append_nil]
    exact h
  | opened address link => exact h.dialed address (.ok link)
  | refused address error _ ih =>
    rw [List.append_cons]
    exact ih (h.dialed address (.error error))

theorem AllReady.transferred (h : AllReady max acts) (hready : Ready max link acts unread)
    (request : Request) (result : Except IoError Inflow) :
    AllReady max (acts ++ [.transferred link (frame request.encode) result]) := by
  apply h.concat
  intro link bytes result heq
  cases heq
  exact ⟨⟨request, rfl⟩, unread, hready⟩

theorem Ready.dialing {link? : Option Nat} {more : List NetworkAct} (hmore : Dialing link? more)
    (hlink : link? = some link) : Ready max link (acts ++ more) [] := by
  induction hmore generalizing acts with
  | gaveUp => cases hlink
  | opened address found =>
    cases hlink
    exact ⟨acts, _, rfl, .opened address⟩
  | refused address error _ ih =>
    rw [List.append_cons]
    exact ih hlink

theorem Dialing.filterMap_written? {link? : Option Nat} {more : List NetworkAct}
    (h : Dialing link? more) : more.filterMap NetworkAct.written? = [] := by
  induction h with
  | gaveUp => rfl
  | opened address link => rfl
  | refused address error _ ih => exact ih

theorem Ready.exchanged (h : Ready max link acts unread) (request : Request) (arrival : Inflow)
    {message rest : Bytes} {reply : Reply} (hbytes : unread ++ arrival.bytes = frame message ++ rest)
    (hfits : FitsFrame max message) (hdecode : Reply.decode message = .ok reply) :
    Ready max link (acts ++ [.transferred link (frame request.encode) (.ok arrival)]) rest := by
  obtain ⟨before, conversation, rfl, hstep⟩ := h
  exact ⟨before, _, List.append_assoc .., hstep.exchanged request arrival hbytes hfits hdecode⟩

end Acts

namespace Sockets

section Steps

variable {ν : Type}

/-! ## What becomes of a connection -/

/-- What becomes of the search for a connection. -/
inductive Reaches (endpoint : Endpoint) (sockets : Sockets (Recorded ν)) :
    Except Error Connection → Sockets (Recorded ν) → Prop where
  | had {connection : Connection} (hslot : sockets.connection? endpoint = some connection) :
      Reaches endpoint sockets (.ok connection) sockets
  | refused {network : Recorded ν} {dials : List NetworkAct} (error : Error)
      (hslot : sockets.connection? endpoint = none) (hdials : Dialing none dials)
      (hacts : network.acts = sockets.network.acts ++ dials) :
      Reaches endpoint sockets (.error error) { sockets with network }
  | opened {network : Recorded ν} {dials : List NetworkAct} {link : Nat}
      (hslot : sockets.connection? endpoint = none) (hdials : Dialing (some link) dials)
      (hacts : network.acts = sockets.network.acts ++ dials) :
      Reaches endpoint sockets (.ok ⟨link, []⟩)
        (({ sockets with network } : Sockets (Recorded ν)).keep endpoint ⟨link, []⟩)

theorem Reaches.slot {endpoint : Endpoint} {sockets after : Sockets (Recorded ν)}
    {connection : Connection} (h : Reaches endpoint sockets (.ok connection) after) :
    after.connection? endpoint = some connection := by
  cases h with
  | had hslot => exact hslot
  | opened hslot hdials hacts => rw [connection?_keep, if_pos rfl]

/-- What becomes of an exchange of frames. -/
inductive Exchanges (endpoint : Endpoint) (connection : Connection) (request : Request)
    (sockets : Sockets (Recorded ν)) : Except Error Reply → Sockets (Recorded ν) → Prop where
  | failed {network : Recorded ν} {result : Except IoError Inflow} (error : Error)
      (hacts : network.acts = sockets.network.acts
        ++ [.transferred connection.link (frame request.encode) result]) :
      Exchanges endpoint connection request sockets (.error error)
        { sockets.close endpoint with network }
  | answered {network : Recorded ν} {arrival : Inflow} {message : Bytes} {rest : List Bytes}
      {reply : Reply}
      (hacts : network.acts = sockets.network.acts
        ++ [.transferred connection.link (frame request.encode) (.ok arrival)])
      (hbytes : connection.waiting.flatten ++ arrival.bytes = frame message ++ rest.flatten)
      (hfits : FitsFrame sockets.maxMessage message) (hdecode : Reply.decode message = .ok reply) :
      Exchanges endpoint connection request sockets (.ok reply)
        { sockets.keep endpoint ⟨connection.link, rest⟩ with network }

/-- All that was written for an endpoint was written in step, and so is its connection. -/
structure Aligned (endpoint : Endpoint) (maxPayload : Nat) (sockets : Sockets (Recorded ν)) :
    Prop where
  limit : sockets.maxPayload = maxPayload
  writes : AllReady (maxPayload + frameOverhead) sockets.network.acts
  slot : ∀ connection, sockets.connection? endpoint = some connection →
    Ready (maxPayload + frameOverhead) connection.link sockets.network.acts
      connection.waiting.flatten

namespace Aligned

variable {endpoint : Endpoint} {maxPayload : Nat} {sockets after : Sockets (Recorded ν)}

theorem start (endpoint : Endpoint) (maxPayload : Nat) (network : ν) :
    Aligned endpoint maxPayload (Sockets.start maxPayload ⟨network, []⟩) := by
  refine ⟨rfl, ?_, ?_⟩
  · intro past link bytes result later heq
    have hempty : [] = past ++ .transferred link bytes result :: later := heq
    simp at hempty
  · intro connection hconnection
    cases hconnection

theorem reach (h : Aligned endpoint maxPayload sockets) {result : Except Error Connection}
    (hreach : Reaches endpoint sockets result after) : Aligned endpoint maxPayload after := by
  cases hreach with
  | had hslot => exact h
  | @refused network dials error hslot hdials hacts =>
    refine ⟨h.limit, ?_, ?_⟩
    · show AllReady _ network.acts
      rw [hacts]
      exact h.writes.dialing hdials
    · intro connection hconnection
      have hsome : sockets.connection? endpoint = some connection := hconnection
      rw [hslot] at hsome
      cases hsome
  | @opened network dials link hslot hdials hacts =>
    refine ⟨h.limit, ?_, ?_⟩
    · show AllReady _ network.acts
      rw [hacts]
      exact h.writes.dialing hdials
    · intro connection hconnection
      rw [connection?_keep, if_pos rfl] at hconnection
      cases hconnection
      show Ready _ link network.acts []
      rw [hacts]
      exact .dialing hdials rfl

theorem exchange (h : Aligned endpoint maxPayload sockets) {connection : Connection}
    (hslot : sockets.connection? endpoint = some connection) {request : Request}
    {result : Except Error Reply}
    (hexchange : Exchanges endpoint connection request sockets result after) :
    Aligned endpoint maxPayload after := by
  have hready := h.slot connection hslot
  cases hexchange with
  | @failed network _ error hacts =>
    refine ⟨h.limit, ?_, ?_⟩
    · show AllReady _ network.acts
      rw [hacts]
      exact h.writes.transferred hready request _
    -- the connection is given up
    · intro other hother
      have hclosed : (sockets.close endpoint).connection? endpoint = some other := hother
      rw [connection?_close, if_pos rfl] at hclosed
      cases hclosed
  | @answered network arrival message rest reply hacts hbytes hfits hdecode =>
    refine ⟨h.limit, ?_, ?_⟩
    · show AllReady _ network.acts
      rw [hacts]
      exact h.writes.transferred hready request _
    · intro other hother
      have hkept : (sockets.keep endpoint ⟨connection.link, rest⟩).connection? endpoint
        = some other := hother
      rw [connection?_keep, if_pos rfl] at hkept
      cases hkept
      show Ready _ connection.link network.acts rest.flatten
      rw [hacts]
      have hmax : sockets.maxMessage = maxPayload + frameOverhead :=
        congrArg (· + frameOverhead) h.limit
      rw [hmax] at hfits
      exact hready.exchanged request arrival hbytes hfits hdecode

end Aligned

end Steps

/-- What a round trip asks of the network, by the connection that it finds: its request is written
once at most, and over a link that was dialed for it if there was no connection. -/
inductive Attempt (request : Request) : Option Connection → List NetworkAct → Prop where
  | kept (connection : Connection) (result : Except IoError Inflow) :
      Attempt request (some connection)
        [.transferred connection.link (frame request.encode) result]
  | refused {dials : List NetworkAct} (h : Dialing none dials) : Attempt request none dials
  | anew {dials : List NetworkAct} {link : Nat} (h : Dialing (some link) dials)
      (result : Except IoError Inflow) :
      Attempt request none (dials ++ [.transferred link (frame request.encode) result])

theorem Attempt.written {request : Request} {slot : Option Connection} {acts : List NetworkAct}
    (h : Attempt request slot acts) :
    acts.filterMap NetworkAct.written? = []
      ∨ acts.filterMap NetworkAct.written? = [frame request.encode] := by
  cases h with
  | kept connection result => exact .inr rfl
  | refused h => exact .inl h.filterMap_written?
  | anew h result =>
    right
    rw [List.filterMap_append, h.filterMap_written?]
    rfl

/-! ## Round trips over a recorded network -/

variable {ν : Type} [Network ν]

theorem exists_dialing (kind : TransportKind) (refusal : IoError) (addresses : List Address)
    (recorded : Recorded ν) :
    ∃ dials, Dialing (dialFirst kind refusal addresses recorded).1.toOption dials
      ∧ (dialFirst kind refusal addresses recorded).2.acts = recorded.acts ++ dials := by
  induction addresses generalizing refusal recorded with
  | nil => exact ⟨[], .gaveUp, (List.append_nil _).symm⟩
  | cons address addresses ih =>
    unfold dialFirst
    rcases hdial : Network.dial kind address recorded with ⟨error | link, after⟩
    · obtain ⟨dials, hdials, hacts⟩ := ih error after
      refine ⟨_, .refused address error hdials, ?_⟩
      rw [hacts, Recorded.acts_of_dial hdial, List.append_assoc, List.singleton_append]
    · exact ⟨_, .opened address link, Recorded.acts_of_dial hdial⟩

theorem connect_cases (endpoint : Endpoint) (sockets : Sockets (Recorded ν)) :
    ∃ dials network, network.acts = sockets.network.acts ++ dials
      ∧ ((∃ error, sockets.connect endpoint = (.error error, { sockets with network })
          ∧ Dialing none dials)
        ∨ ∃ link, sockets.connect endpoint = (.ok ⟨link, []⟩, { sockets with network })
          ∧ Dialing (some link) dials) := by
  unfold connect
  -- without an address of a kind that is served nothing is dialed
  cases sockets.resolve endpoint with
  | error error =>
    exact ⟨[], sockets.network, (List.append_nil _).symm, .inl ⟨error, rfl, .gaveUp⟩⟩
  | ok addresses =>
    simp only
    split
    · exact ⟨[], sockets.network, (List.append_nil _).symm, .inl ⟨_, rfl, .gaveUp⟩⟩
    · obtain ⟨dials, hdials, hacts⟩ := exists_dialing endpoint.kind
        ⟨.addrNotAvailable, "no address to connect to"⟩
        (if endpoint.kind.isStream then addresses else addresses.take 1) sockets.network
      rcases hdial : dialFirst endpoint.kind _ _ sockets.network with ⟨error | link, network⟩
      · rw [hdial] at hdials hacts
        exact ⟨dials, network, hacts, .inl ⟨.io error, rfl, hdials⟩⟩
      · rw [hdial] at hdials hacts
        exact ⟨dials, network, hacts, .inr ⟨link, rfl, hdials⟩⟩

theorem reaches {endpoint : Endpoint} {sockets after : Sockets (Recorded ν)}
    {result : Except Error Connection} (h : sockets.reach endpoint = (result, after)) :
    Reaches endpoint sockets result after := by
  unfold reach at h
  cases hslot : sockets.connection? endpoint with
  | some connection =>
    rw [hslot] at h
    cases h
    exact .had hslot
  | none =>
    obtain ⟨dials, network, hacts, hconnect⟩ := connect_cases endpoint sockets
    rcases hconnect with ⟨error, hconnect, hdials⟩ | ⟨link, hconnect, hdials⟩
    · rw [hslot, hconnect] at h
      cases h
      exact .refused error hslot hdials hacts
    · rw [hslot, hconnect] at h
      cases h
      exact .opened hslot hdials hacts

theorem exchanges {endpoint : Endpoint} (hkind : endpoint.kind = .tcp) {connection : Connection}
    {request : Request} {sockets after : Sockets (Recorded ν)} {result : Except Error Reply}
    (h : sockets.exchange endpoint connection request = (result, after)) :
    Exchanges endpoint connection request sockets result after := by
  unfold exchange exchangeFrames at h
  rw [hkind] at h
  simp only [TransportKind.isStream, if_true] at h
  rcases htransfer : Network.transfer connection.link (frame request.encode) sockets.network with
    ⟨error | arrival, network⟩
  · rw [htransfer] at h
    cases h
    exact .failed (.io error) (Recorded.acts_of_transfer htransfer)
  · rw [htransfer] at h
    simp only at h
    rcases hread : readReply sockets.maxMessage ⟨connection.waiting ++ arrival.pieces, arrival.stop⟩
      with ⟨error | reply, rest⟩
    · rw [hread] at h
      cases h
      exact .failed error (Recorded.acts_of_transfer htransfer)
    · rw [hread] at h
      cases h
      obtain ⟨message, hfits, hbytes, hdecode⟩ := bytes_of_readReply hread
      refine .answered (Recorded.acts_of_transfer htransfer) ?_ hfits hdecode
      rw [Inflow.bytes, List.flatten_append] at hbytes
      exact hbytes

theorem prepare_cases (endpoint : Endpoint) (sockets : Sockets (Recorded ν)) :
    (sockets.prepare endpoint).2 = sockets
      ∨ (sockets.prepare endpoint).2 = (sockets.reach endpoint).2 := by
  unfold prepare reach
  split
  · exact .inl rfl
  · cases sockets.resolve endpoint with
    | error error => exact .inl rfl
    | ok addresses =>
      cases sockets.connection? endpoint with
      | some connection => exact .inl rfl
      | none =>
        right
        simp only
        rcases sockets.connect endpoint with ⟨error | connection, after⟩
        · rfl
        · rfl

namespace Aligned

variable {endpoint : Endpoint} {maxPayload : Nat} {sockets : Sockets (Recorded ν)}

theorem prepare (h : Aligned endpoint maxPayload sockets) :
    Aligned endpoint maxPayload (sockets.prepare endpoint).2 := by
  rcases prepare_cases endpoint sockets with hsame | hreach
  · rw [hsame]
    exact h
  · rw [hreach]
    exact h.reach (reaches rfl)

theorem roundTrip (h : Aligned endpoint maxPayload sockets) (hkind : endpoint.kind = .tcp)
    (request : Request) : Aligned endpoint maxPayload (sockets.roundTrip endpoint request).2 := by
  by_cases hlarge : sockets.maxPayload < request.command.payloadLength
  · rw [roundTrip_of_large hlarge]
    exact h
  · rw [roundTrip_eq_exchange (Nat.not_lt.1 hlarge)]
    rcases hreach : sockets.reach endpoint with ⟨error | connection, after⟩
    · exact h.reach (reaches hreach)
    · exact (h.reach (reaches hreach)).exchange (reaches hreach).slot (exchanges hkind rfl)

theorem performAll (h : Aligned endpoint maxPayload sockets) (hkind : endpoint.kind = .tcp)
    (calls : List SocketCall) :
    Aligned endpoint maxPayload (sockets.performAll endpoint calls).2 := by
  induction calls generalizing sockets with
  | nil => exact h
  | cons call calls ih =>
    cases call with
    | prepare => exact ih h.prepare
    | roundTrip request => exact ih (h.roundTrip hkind request)

end Aligned

section RoundTrip

variable {endpoint : Endpoint} (hkind : endpoint.kind = .tcp) {request : Request}
  {sockets : Sockets (Recorded ν)} (hfits : request.command.payloadLength ≤ sockets.maxPayload)

include hkind hfits

end RoundTrip

end Sockets

end TieredStore
