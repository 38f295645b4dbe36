import TieredStore.Proofs.Wire.Exchange
import TieredStore.Transport.Loopback

/-!
# Peers

A network in which servers listen for TCP connections, each at an address of its own.  A peer serves
its end of a connection request after request, waits for the rest of what has arrived only in part,
and gives the connection up over what cannot be a request.

An exchange over a connection on which nothing is on its way is the server's own answer, and leaves
the connection like that (`Peers.transfer_of_idle`).
-/

namespace TieredStore

open Wire

/-! ## Serving a connection -/

/-- Handles requests one after another. -/
def Server.handleAll (server : Server) : List Request → List Reply × Server
  | [] => ([], server)
  | request :: requests =>
    let (reply, server) := server.handle request
    let (replies, server) := server.handleAll requests
    (reply :: replies, server)

namespace Conversation

/-- Answers requests for some rounds, while there are whole ones.  Tells whether the connection is
still served. -/
def serve (max : Nat) : (rounds : Nat) → Conversation → Bool × Conversation
  | 0, talk => (true, talk)
  | rounds + 1, talk =>
    match talk.round max with
    | (.ok (), talk) => serve max rounds talk
    -- the rest of a frame is yet to arrive, and what there is of it is kept
    | (.error (.io _), _) => (true, talk)
    | (.error _, talk) => (false, talk)

theorem round_end {max : Nat} {talk : Conversation} (h : talk.inflow.bytes = []) :
    ∃ next, talk.round max = (.error (.io talk.inflow.stop), next) := by
  have hread : readRequest max talk.inflow
      = (.error (.io talk.inflow.stop), ⟨[], talk.inflow.stop⟩) := readAs_end h
  unfold round
  rw [hread]
  exact ⟨_, rfl⟩

/-- A peer answers all requests that it has got, in their order, and waits for more. -/
theorem serve_frames {max rounds : Nat} {inflow : Inflow} {requests : List Request}
    (hrequests : ∀ request ∈ requests,
      request.id ≤ Request.maxId ∧ FitsFrame max request.encode)
    (h : inflow.bytes = frames Request.encode requests) (hrounds : requests.length < rounds)
    (written : Bytes) (server : Server) :
    ∃ pieces, pieces.flatten = [] ∧ serve max rounds ⟨inflow, ⟨written, none⟩, server⟩
      = (true, ⟨⟨pieces, inflow.stop⟩,
        ⟨written ++ frames Reply.encode (server.handleAll requests).1, none⟩,
        (server.handleAll requests).2⟩) := by
  induction requests generalizing rounds inflow written server with
  | nil =>
    obtain ⟨last, rfl⟩ : ∃ last, rounds = last + 1 := Nat.exists_eq_add_one.2 hrounds
    -- nothing more has arrived
    obtain ⟨_, hend⟩ : ∃ next, round max ⟨inflow, ⟨written, none⟩, server⟩
        = (.error (.io inflow.stop), next) := round_end h
    refine ⟨inflow.pieces, h, ?_⟩
    rw [serve, hend]
    simp only [Server.handleAll, frames, List.flatMap_nil, List.append_nil]
  | cons request requests ih =>
    obtain ⟨more, rfl⟩ : ∃ more, rounds = more + 1 :=
      Nat.exists_eq_add_one.2 (Nat.zero_lt_of_lt hrounds)
    obtain ⟨hid, hfits⟩ := hrequests request List.mem_cons_self
    obtain ⟨next, hround, hrest, hstop⟩ := round_whole hid hfits h written server
    have hlater : ∀ other ∈ requests, other.id ≤ Request.maxId ∧ FitsFrame max other.encode :=
      fun other hother => hrequests other (List.mem_cons_of_mem request hother)
    obtain ⟨pieces, hpieces, hserve⟩ := ih hlater hrest (Nat.lt_of_succ_lt_succ hrounds)
      (written ++ frame (server.handle request).1.encode) (server.handle request).2
    refine ⟨pieces, hpieces, ?_⟩
    rw [serve, hround]
    simp only
    rw [hserve, hstop, List.append_assoc]
    rfl

end Conversation

/-! ## The network -/

/-- What is fixed about a network of peers, and what nobody has a say in. -/
structure Site where
  address : Endpoint → Address
  /-- The longest request that a peer reads. -/
  peerMax : Nat
  /-- How the bytes of each exchange are cut on their way to the peer. -/
  there : Nat → Cutting
  back : Nat → Cutting
  /-- The jobs that a database applies before each exchange. -/
  pace : Nat → Nat

/-- A connection as its peer has it. -/
structure PeerLink where
  address : Address
  /-- What has arrived without being read. -/
  unread : List Bytes
  /-- The peer has given it up. -/
  closed : Bool

structure Peers where
  site : Site
  /-- The number of exchanges so far. -/
  exchanges : Nat
  server? : Address → Option Server
  links : List PeerLink

namespace Peers

def replace (peers : Peers) (address : Address) (server : Server) : Peers :=
  { peers with
    server? := fun other => if other = address then some server else peers.server? other }

def dial (kind : TransportKind) (address : Address) (peers : Peers) : Except IoError Nat × Peers :=
  if kind = .tcp ∧ (peers.server? address).any (·.reachable) then
    (.ok peers.links.length, { peers with links := peers.links ++ [⟨address, [], false⟩] })
  else
    (.error Loopback.refused, peers)

/-- What is sent arrives before the sender gives up waiting, and so do the replies.  Every request
has bytes, so that there are no more rounds than bytes. -/
def deliver (number : Nat) (link : PeerLink) (server : Server) (bytes : Bytes) (peers : Peers) :
    Inflow × Peers :=
  let site := peers.site
  let unread := link.unread ++ (site.there peers.exchanges).pieces bytes
  let talk : Conversation :=
    ⟨⟨unread, Loopback.silence⟩, .fresh, server.work (site.pace peers.exchanges)⟩
  let (served, talk) := talk.serve site.peerMax unread.flatten.length
  let stop := if served then Loopback.silence else .endOfStream
  let link := { link with unread := talk.inflow.pieces, closed := !served }
  (⟨(site.back peers.exchanges).pieces talk.outflow.written, stop⟩,
    { peers.replace link.address talk.server with
      exchanges := peers.exchanges + 1
      links := peers.links.set number link })

def transfer (number : Nat) (bytes : Bytes) (peers : Peers) : Except IoError Inflow × Peers :=
  match peers.links[number]? with
  | none => (.error ⟨.notConnected, "Transport endpoint is not connected (os error 107)"⟩, peers)
  | some link =>
    match link.closed, peers.server? link.address with
    | false, some server => (peers.deliver number link server bytes).map .ok id
    | _, _ => (.ok ⟨[], .endOfStream⟩, peers)

instance : Network Peers where
  resolve peers endpoint := .ok [peers.site.address endpoint]
  dial := dial
  transfer := transfer

/-! ## Idle links -/

/-- A link to a peer that waits for a request of which it has nothing yet. -/
def Idle (peers : Peers) (number : Nat) (address : Address) : Prop :=
  ∃ link, peers.links[number]? = some link ∧ link.address = address ∧ link.closed = false
    ∧ link.unread.flatten = []

theorem Idle.set {peers after : Peers} {number other : Nat} {address there : Address}
    {link : PeerLink} (hlinks : after.links = peers.links.set number link)
    (hidle : peers.Idle number address) (hother : peers.Idle other there)
    (haddress : link.address = address) (hopen : link.closed = false)
    (hunread : link.unread.flatten = []) : after.Idle other there := by
  obtain ⟨found, hfound, hthere, hrest⟩ := hother
  unfold Idle
  rw [hlinks, List.getElem?_set]
  by_cases heq : number = other
  · -- the link leads to where it led before
    obtain ⟨same, hsame, hhere, -⟩ := hidle
    have hbound : number < peers.links.length := (List.getElem?_eq_some_iff.1 hsame).1
    rw [heq, hfound] at hsame
    rw [if_pos heq, if_pos hbound]
    refine ⟨link, rfl, ?_, hopen, hunread⟩
    rw [haddress, ← hhere, ← Option.some.inj hsame, hthere]
  · rw [if_neg heq]
    exact ⟨found, hfound, hthere, hrest⟩

theorem deliver_of_open {peers : Peers} {link : PeerLink} {request : Request}
    (hunread : link.unread.flatten = []) (hid : request.id ≤ Request.maxId)
    (hfits : FitsFrame peers.site.peerMax request.encode) (number : Nat) (server : Server) :
    let handled := (server.work (peers.site.pace peers.exchanges)).handle request
    ∃ rest, rest.flatten = [] ∧ peers.deliver number link server (frame request.encode)
      = (⟨(peers.site.back peers.exchanges).pieces (frame handled.1.encode), Loopback.silence⟩,
        { peers.replace link.address handled.2 with
          exchanges := peers.exchanges + 1
          links := peers.links.set number ⟨link.address, rest, false⟩ }) := by
  intro handled
  let unread := link.unread ++ (peers.site.there peers.exchanges).pieces (frame request.encode)
  have hbytes : Inflow.bytes ⟨unread, Loopback.silence⟩ = frames Request.encode [request] := by
    change unread.flatten = frames Request.encode [request]
    rw [List.flatten_append, hunread, Cutting.flatten_pieces, frames_singleton]
    rfl
  -- one round for the request, one that finds nothing more
  have hlength : 1 < unread.flatten.length := by
    change 1 < (Inflow.bytes ⟨unread, Loopback.silence⟩).length
    rw [hbytes, frames_singleton, frame, List.length_append, Bytes.length_bigEndian]
    unfold lengthSize
    omega
  have hrequests : ∀ other ∈ [request],
      other.id ≤ Request.maxId ∧ FitsFrame peers.site.peerMax other.encode := by
    intro other hother
    rw [List.mem_singleton.1 hother]
    exact ⟨hid, hfits⟩
  obtain ⟨rest, hrest, hserve⟩ := Conversation.serve_frames hrequests hbytes hlength []
    (server.work (peers.site.pace peers.exchanges))
  refine ⟨rest, hrest, ?_⟩
  unfold deliver Outflow.fresh
  simp only [unread] at hserve ⊢
  rw [hserve]
  simp only [Server.handleAll, frames_singleton, List.nil_append, handled]
  rfl

theorem transfer_of_idle {peers : Peers} {number : Nat} {address : Address} {server : Server}
    {request : Request} (hidle : peers.Idle number address)
    (hserver : peers.server? address = some server) (hid : request.id ≤ Request.maxId)
    (hfits : FitsFrame peers.site.peerMax request.encode) :
    let handled := (server.work (peers.site.pace peers.exchanges)).handle request
    ∃ arrival after, transfer number (frame request.encode) peers = (.ok arrival, after)
      ∧ arrival.bytes = frame handled.1.encode
      ∧ after.site = peers.site ∧ after.server? = (peers.replace address handled.2).server?
      ∧ ∀ other there, peers.Idle other there → after.Idle other there := by
  intro handled
  obtain ⟨link, hlink, haddress, hopen, hunread⟩ := id hidle
  obtain ⟨rest, hrest, hdeliver⟩ := deliver_of_open hunread hid hfits number server
  have htransfer : transfer number (frame request.encode) peers
      = (peers.deliver number link server (frame request.encode)).map .ok id := by
    unfold transfer
    rw [hlink]
    simp only [hopen, haddress, hserver]
  rw [htransfer, hdeliver]
  refine ⟨_, _, rfl, ?_, rfl, ?_, ?_⟩
  · exact Cutting.flatten_pieces ..
  · rw [haddress]
    rfl
  · intro other there hother
    exact Idle.set rfl hidle hother haddress rfl hrest

end Peers

end TieredStore
