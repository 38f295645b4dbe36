import TieredStore.Proofs.Client.Ids
import TieredStore.Proofs.Sockets.Connections
import TieredStore.Proofs.Wire.ReplyForm
import TieredStore.Transport.Loopback

/-!
# Datagrams

Datagrams get lost, are late, come twice or in another order.  A client waits for the first one that
has the id of its request, so what it takes for the reply was produced for that request, unless a
datagram is still around that is `Wire.ids` requests old (`Session.replies_matched`).

What the datagrams were produced for is not to be seen from them.  It is written beside each of them
as the number of the request, and is only there to be spoken about.
-/

namespace TieredStore

open Wire

namespace Sockets

/-! ## Picking a reply -/

section

variable {id : UInt32} {stop : IoError}

/-- A reply to another request. -/
def PassedOver (id : UInt32) (datagram : Bytes) : Prop :=
  ∃ reply, Reply.decode datagram = .ok reply ∧ reply.id ≠ id

theorem pickReply_match {datagram : Bytes} {rest : List Bytes} {reply : Reply}
    (hdecode : Reply.decode datagram = .ok reply) (hid : reply.id = id) :
    pickReply id stop (datagram :: rest) = (.ok reply, rest) := by
  rw [pickReply, hdecode]
  exact if_pos hid

theorem pickReply_fault {datagram : Bytes} {rest : List Bytes} {fault : Fault}
    (hdecode : Reply.decode datagram = .error fault) :
    pickReply id stop (datagram :: rest) = (.error (.protocol fault), rest) := by
  rw [pickReply, hdecode]

theorem pickReply_append {past : List Bytes} (hpast : ∀ datagram ∈ past, PassedOver id datagram)
    (rest : List Bytes) : pickReply id stop (past ++ rest) = pickReply id stop rest := by
  induction past with
  | nil => rfl
  | cons datagram past ih =>
    rw [List.forall_mem_cons] at hpast
    obtain ⟨reply, hdecode, hid⟩ := hpast.1
    rw [List.cons_append, pickReply, hdecode]
    simp only [if_neg hid]
    exact ih hpast.2

/-- A datagram that has room for an id tells it. -/
theorem passedOver_of_le {datagram : Bytes} (hlength : replyHeaderSize ≤ datagram.length)
    (hid : UInt32.ofNat (Bytes.ofBigEndian (datagram.take 4)) ≠ id) : PassedOver id datagram := by
  obtain ⟨reply, hdecode, hreply⟩ := Reply.decode_of_le hlength
  exact ⟨reply, hdecode, hreply ▸ hid⟩

end

/-! ## What a round trip has before it -/

variable {ν : Type} [Network ν]

/-- Sends a request as a datagram.  What there is to be read over the link are the datagrams that
were left by earlier requests, and then those that arrive while the sender waits. -/
def await (connection : Connection) (request : Request) (sockets : Sockets ν) :
    Except Error (Nat × Inflow) × Sockets ν :=
  let message := request.encode
  if maxDatagram < message.length then
    (.error (.protocol (.noDatagram message.length)), sockets)
  else
    match Network.transfer connection.link message sockets.network with
    | (.error error, network) => (.error (.io error), { sockets with network })
    | (.ok arrival, network) =>
      (.ok (connection.link, ⟨connection.waiting ++ arrival.pieces, arrival.stop⟩),
        { sockets with network })

/-- All that a round trip does before it reads. -/
def receive (endpoint : Endpoint) (request : Request) (sockets : Sockets ν) :
    Except Error (Nat × Inflow) × Sockets ν :=
  let length := request.command.payloadLength
  if sockets.maxPayload < length then
    (.error (.protocol (.payloadTooLarge length sockets.maxPayload)), sockets)
  else
    match sockets.reach endpoint with
    | (.error error, sockets) => (.error error, sockets)
    | (.ok connection, sockets) => sockets.await connection request

/-- Picks a reply from what was received, if anything was, and leaves the rest for later. -/
def pick (endpoint : Endpoint) (request : Request) :
    Except Error (Nat × Inflow) × Sockets ν → Except Error Reply × Sockets ν
  | (.error error, sockets) => (.error error, sockets)
  | (.ok (link, inflow), sockets) =>
    ((pickReply request.id inflow.stop inflow.pieces).1,
      sockets.keep endpoint ⟨link, (pickReply request.id inflow.stop inflow.pieces).2⟩)

/-- The datagrams that a request finds before it, none if it was not sent. -/
def queued (endpoint : Endpoint) (request : Request) (sockets : Sockets ν) : List Bytes :=
  match (sockets.receive endpoint request).1 with
  | .ok (_, inflow) => inflow.pieces
  | .error _ => []

section Udp

variable {endpoint : Endpoint} (hkind : endpoint.kind = .udp) (request : Request)

include hkind

theorem exchange_eq_pick (connection : Connection) (sockets : Sockets ν) :
    sockets.exchange endpoint connection request
      = pick endpoint request (sockets.await connection request) := by
  have hdatagrams : sockets.exchange endpoint connection request
      = exchangeDatagrams endpoint connection request sockets := by
    unfold exchange
    rw [hkind]
    rfl
  rw [hdatagrams]
  unfold exchangeDatagrams await
  simp only
  split
  · rfl
  · rcases Network.transfer connection.link request.encode sockets.network with ⟨arrived, network⟩
    cases arrived with
    | error error => rfl
    | ok arrival => rfl

theorem roundTrip_eq_pick (sockets : Sockets ν) :
    sockets.roundTrip endpoint request
      = pick endpoint request (sockets.receive endpoint request) := by
  unfold roundTrip receive reach
  simp only
  split
  · rfl
  · cases sockets.connection? endpoint with
    | some connection => exact exchange_eq_pick hkind request connection sockets
    | none =>
      rcases sockets.connect endpoint with ⟨connected, after⟩
      cases connected with
      | error error => rfl
      | ok connection => exact exchange_eq_pick hkind request connection _

end Udp

/-! ## What the datagrams were produced for -/

/-- The reply is read from the first datagram that was produced for a request. -/
def FirstFor (tagged : List (Nat × Bytes)) (n : Nat) (reply : Reply) : Prop :=
  ∃ past datagram later, tagged = past ++ (n, datagram) :: later
    ∧ (∀ entry ∈ past, entry.1 ≠ n) ∧ Reply.decode datagram = .ok reply

theorem firstFor_cons_self {n : Nat} {datagram : Bytes} {tagged : List (Nat × Bytes)}
    {reply : Reply} :
    FirstFor ((n, datagram) :: tagged) n reply ↔ Reply.decode datagram = .ok reply := by
  constructor
  · rintro ⟨past, found, later, heq, hpast, hdecode⟩
    cases past with
    | nil =>
      cases heq
      exact hdecode
    | cons entry past =>
      -- then the first one would be among those for other requests
      cases heq
      exact absurd rfl (hpast _ (List.mem_cons_self ..))
  · intro hdecode
    exact ⟨[], datagram, tagged, rfl, List.forall_mem_nil _, hdecode⟩

theorem firstFor_cons_of_ne {n : Nat} {entry : Nat × Bytes} {tagged : List (Nat × Bytes)}
    {reply : Reply} (hne : entry.1 ≠ n) :
    FirstFor (entry :: tagged) n reply ↔ FirstFor tagged n reply := by
  constructor
  · rintro ⟨past, found, later, heq, hpast, hdecode⟩
    cases past with
    | nil =>
      cases heq
      exact absurd rfl hne
    | cons first past =>
      cases heq
      exact ⟨past, found, later, rfl, (List.forall_mem_cons.1 hpast).2, hdecode⟩
  · rintro ⟨past, found, later, rfl, hpast, hdecode⟩
    exact ⟨entry :: past, found, later, rfl, List.forall_mem_cons.2 ⟨hne, hpast⟩, hdecode⟩

/-- Where the id tells what a datagram was produced for, so does what is picked. -/
theorem pickReply_eq_ok_iff {id : UInt32} {stop : IoError} {n : Nat} {tagged : List (Nat × Bytes)}
    (htagged : ∀ entry ∈ tagged, ∃ read, Reply.decode entry.2 = .ok read
      ∧ (read.id = id ↔ entry.1 = n)) {reply : Reply} :
    (pickReply id stop (tagged.map Prod.snd)).1 = .ok reply ↔ FirstFor tagged n reply := by
  induction tagged with
  | nil =>
    constructor
    · intro h
      cases h
    · rintro ⟨past, datagram, later, heq, -⟩
      simp at heq
  | cons entry tagged ih =>
    rw [List.forall_mem_cons] at htagged
    obtain ⟨⟨read, hdecode, hid⟩, hrest⟩ := htagged
    obtain ⟨m, datagram⟩ := entry
    rw [List.map_cons]
    -- the first datagram ends the search or makes no difference to it
    by_cases hm : m = n
    · subst hm
      rw [pickReply_match hdecode (hid.2 rfl), firstFor_cons_self, hdecode]
      show (Except.ok read : Except Error Reply) = .ok reply ↔ _
      rw [Except.ok.injEq, Except.ok.injEq]
    · have hother : PassedOver id datagram := ⟨read, hdecode, fun h => hm (hid.1 h)⟩
      have hskip : pickReply id stop ([datagram] ++ tagged.map Prod.snd)
          = pickReply id stop (tagged.map Prod.snd) :=
        pickReply_append (List.forall_mem_singleton.2 hother) _
      rw [List.singleton_append] at hskip
      rw [hskip, ih hrest, firstFor_cons_of_ne hm]

theorem roundTrip_eq_ok_iff {endpoint : Endpoint} (hkind : endpoint.kind = .udp)
    {request : Request} {sockets : Sockets ν} {n : Nat} {tagged : List (Nat × Bytes)}
    (hqueued : tagged.map Prod.snd = sockets.queued endpoint request)
    (htagged : ∀ entry ∈ tagged, ∃ read, Reply.decode entry.2 = .ok read
      ∧ (read.id = request.id ↔ entry.1 = n)) {reply : Reply} :
    (sockets.roundTrip endpoint request).1 = .ok reply ↔ FirstFor tagged n reply := by
  rw [roundTrip_eq_pick hkind]
  unfold queued at hqueued
  rcases hreceive : sockets.receive endpoint request with ⟨received, after⟩
  rw [hreceive] at hqueued
  cases received with
  | ok arrived =>
    obtain ⟨link, inflow⟩ := arrived
    have hpieces : inflow.pieces = tagged.map Prod.snd := hqueued.symm
    show (pickReply request.id inflow.stop inflow.pieces).1 = .ok reply ↔ _
    rw [hpieces]
    exact pickReply_eq_ok_iff htagged
  | error error =>
    -- nothing was received, so nothing was produced for anyone
    have hnone : tagged = [] := List.map_eq_nil_iff.1 hqueued
    subst hnone
    constructor
    · intro h
      cases h
    · rintro ⟨past, datagram, later, heq, -⟩
      simp at heq

/-! ## A queue of datagrams -/

section Queue

variable {endpoint : Endpoint} {connection : Connection} {request : Request} {sockets : Sockets ν}
  {arrival : Inflow} {network : ν} {past : List Bytes} {datagram : Bytes} {rest : List Bytes}
  (hkind : endpoint.kind = .udp) (hfits : request.encode.length ≤ maxDatagram)
  (htransfer : Network.transfer connection.link request.encode sockets.network
    = (.ok arrival, network))
  (hqueue : connection.waiting ++ arrival.pieces = past ++ datagram :: rest)
  (hpast : ∀ earlier ∈ past, replyHeaderSize ≤ earlier.length
    ∧ UInt32.ofNat (Bytes.ofBigEndian (earlier.take 4)) ≠ request.id)

include hkind hfits htransfer hqueue hpast

/-- The datagrams with other ids make no difference. -/
theorem exchange_of_past :
    sockets.exchange endpoint connection request
      = ((pickReply request.id arrival.stop (datagram :: rest)).1,
        ({ sockets with network } : Sockets ν).keep endpoint
          ⟨connection.link, (pickReply request.id arrival.stop (datagram :: rest)).2⟩) := by
  have hawait : sockets.await connection request
      = (.ok (connection.link, ⟨past ++ datagram :: rest, arrival.stop⟩),
        { sockets with network }) := by
    unfold await
    simp only
    rw [if_neg (Nat.not_lt.2 hfits)]
    simp only [htransfer, hqueue]
  have hother : ∀ earlier ∈ past, PassedOver request.id earlier :=
    fun earlier hearlier => passedOver_of_le (hpast earlier hearlier).1 (hpast earlier hearlier).2
  rw [exchange_eq_pick hkind, hawait, pick, pickReply_append hother]

theorem exchange_of_match (hlength : replyHeaderSize ≤ datagram.length)
    (hid : UInt32.ofNat (Bytes.ofBigEndian (datagram.take 4)) = request.id) :
    ∃ reply, Reply.decode datagram = .ok reply
      ∧ (sockets.exchange endpoint connection request).1 = .ok reply
      ∧ (sockets.exchange endpoint connection request).2.connection? endpoint
        = some ⟨connection.link, rest⟩ := by
  obtain ⟨reply, hdecode, hreply⟩ := Reply.decode_of_le hlength
  refine ⟨reply, hdecode, ?_⟩
  rw [exchange_of_past hkind hfits htransfer hqueue hpast,
    pickReply_match hdecode (hreply.trans hid), connection?_keep, if_pos rfl]
  exact ⟨rfl, rfl⟩

theorem exchange_of_short (hlength : datagram.length < replyHeaderSize) :
    (sockets.exchange endpoint connection request).1
        = .error (.protocol (.shortReply replyHeaderSize datagram.length))
      ∧ (sockets.exchange endpoint connection request).2.connection? endpoint
        = some ⟨connection.link, rest⟩ := by
  rw [exchange_of_past hkind hfits htransfer hqueue hpast,
    pickReply_fault (Reply.decode_of_lt hlength), connection?_keep, if_pos rfl]
  exact ⟨rfl, rfl⟩

end Queue

end Sockets

namespace Session

open Sockets

/-- A datagram was produced for one of some requests: it is a reply with the id of that request. -/
def Echoes (sent : List Request) (n : Nat) (datagram : Bytes) : Prop :=
  ∃ request reply, sent[n]? = some request ∧ Reply.decode datagram = .ok reply
    ∧ reply.id = request.id

variable {ν : Type} [Network ν] {session : Session (Sockets ν)} {sent : List Request}

/-- While no datagram is too old, the id of a datagram tells whether it was produced for the request
that was sent last. -/
theorem Sent.id_eq_iff (h : session.Sent sent) (endpoint : Endpoint) {flags : Flags}
    {command : Command} {n : Nat} {datagram : Bytes}
    (hechoes : Echoes (sent ++ [.make session.client.nextId flags command]) n datagram)
    (hwindow : sent.length < n + ids) :
    ∃ read, Reply.decode datagram = .ok read
      ∧ (read.id = (Request.make session.client.nextId flags command).id ↔ n = sent.length) := by
  obtain ⟨asked, read, hasked, hdecode, hid⟩ := hechoes
  have hlast : (sent ++ [Request.make session.client.nextId flags command])[sent.length]?
      = some (.make session.client.nextId flags command) := List.getElem?_concat_length
  refine ⟨read, hdecode, ?_⟩
  rw [hid]
  constructor
  · intro hsame
    have hbound := (List.getElem?_eq_some_iff.1 hasked).1
    rw [List.length_append, List.length_singleton] at hbound
    exact (h.send endpoint flags command).id_inj hasked hlast hsame (by omega) hwindow
  · intro heq
    rw [heq, hlast] at hasked
    exact congrArg Request.id (Option.some.inj hasked).symm

/-- What a client takes for the answer is what its transport picks. -/
theorem send_eq_ok_iff {endpoint : Endpoint} (hkind : endpoint.kind = .udp) {flags : Flags}
    {command : Command} {n : Nat} {tagged : List (Nat × Bytes)}
    (hqueued : tagged.map Prod.snd
      = session.transport.queued endpoint (.make session.client.nextId flags command))
    (htagged : ∀ entry ∈ tagged, ∃ read, Reply.decode entry.2 = .ok read
      ∧ (read.id = (Request.make session.client.nextId flags command).id ↔ entry.1 = n))
    {reply : Reply} :
    (session.send endpoint flags command).1 = .ok reply ↔ FirstFor tagged n reply := by
  let request := Request.make session.client.nextId flags command
  have hsend : (session.send endpoint flags command).1
      = Answer.received request.id (session.transport.roundTrip endpoint request).1 := by
    rw [send_eq]
    rfl
  rw [hsend, Answer.received_eq_ok_iff, Sockets.roundTrip_eq_ok_iff hkind hqueued htagged]
  -- what was produced for the request has its id
  refine and_iff_left_of_imp ?_
  rintro ⟨past, datagram, later, rfl, -, hdecode⟩
  obtain ⟨read, hread, hid⟩ := htagged (n, datagram) (by simp)
  rw [hdecode] at hread
  rw [Except.ok.inj hread]
  exact hid.2 rfl

section Tagged

variable {endpoint : Endpoint} {flags : Flags} {command : Command} {tagged : List (Nat × Bytes)}
  {reply : Reply} (h : session.Sent sent) (hkind : endpoint.kind = .udp)
  (hqueued : tagged.map Prod.snd
    = session.transport.queued endpoint (.make session.client.nextId flags command))
  (htagged : ∀ entry ∈ tagged,
    Echoes (sent ++ [.make session.client.nextId flags command]) entry.1 entry.2
      ∧ sent.length < entry.1 + ids)

include h hkind hqueued htagged

theorem Sent.roundTrip_eq_ok_iff :
    (session.transport.roundTrip endpoint (.make session.client.nextId flags command)).1 = .ok reply
      ↔ FirstFor tagged sent.length reply :=
  Sockets.roundTrip_eq_ok_iff hkind hqueued fun entry hentry =>
    h.id_eq_iff endpoint (htagged entry hentry).1 (htagged entry hentry).2

theorem Sent.send_eq_ok_iff :
    (session.send endpoint flags command).1 = .ok reply ↔ FirstFor tagged sent.length reply :=
  Session.send_eq_ok_iff hkind hqueued fun entry hentry =>
    h.id_eq_iff endpoint (htagged entry hentry).1 (htagged entry hentry).2

end Tagged

/-- Whatever a network does to the datagrams, a reply that a client gets over UDP was produced for
its own request, as long as no datagram that it finds was produced for a request that is `2 ^ 28`
(`Wire.ids`) or more requests old; and it gets the first of these if there is one.  The number of a
request, from 1, gives its id by the remainder, through all that the client is called for and
however often id and counter start again.  Of any queue the first datagram with the id is picked if
all before it have room for an id and have another one, while a shorter one before it is an error;
the datagrams behind it are left for later. -/
theorem replies_matched (h : session.Sent sent) {endpoint : Endpoint} (hkind : endpoint.kind = .udp)
    (flags : Flags) (command : Command) :
    let request := Request.make session.client.nextId flags command
    let history := sent ++ [request]
    (∀ n asked, history[n]? = some asked → asked.id.toNat = (n + 1) % ids)
      ∧ (∀ call, ∃ more, (session.perform call).2.Sent (sent ++ more))
      ∧ (∀ tagged : List (Nat × Bytes),
        tagged.map Prod.snd = session.transport.queued endpoint request →
        (∀ entry ∈ tagged, Echoes history entry.1 entry.2 ∧ sent.length < entry.1 + ids) →
        ∀ reply,
          ((session.transport.roundTrip endpoint request).1 = .ok reply
            ↔ FirstFor tagged sent.length reply)
          ∧ ((session.send endpoint flags command).1 = .ok reply
            ↔ FirstFor tagged sent.length reply))
      ∧ ∀ (sockets : Sockets ν) (connection : Connection) (asked : Request) (arrival : Inflow)
        (network : ν), asked.encode.length ≤ maxDatagram →
        Network.transfer connection.link asked.encode sockets.network = (.ok arrival, network) →
        ∀ past datagram rest, connection.waiting ++ arrival.pieces = past ++ datagram :: rest →
        (∀ earlier ∈ past, replyHeaderSize ≤ earlier.length
          ∧ UInt32.ofNat (Bytes.ofBigEndian (earlier.take 4)) ≠ asked.id) →
        let outcome := sockets.exchange endpoint connection asked
        (replyHeaderSize ≤ datagram.length →
          UInt32.ofNat (Bytes.ofBigEndian (datagram.take 4)) = asked.id →
          ∃ reply, Reply.decode datagram = .ok reply ∧ outcome.1 = .ok reply
            ∧ outcome.2.connection? endpoint = some ⟨connection.link, rest⟩)
        ∧ (datagram.length < replyHeaderSize →
          outcome.1 = .error (.protocol (.shortReply replyHeaderSize datagram.length))
            ∧ outcome.2.connection? endpoint = some ⟨connection.link, rest⟩) := by
  intro request history
  refine ⟨?_, h.perform, ?_, ?_⟩
  · intro n asked hasked
    exact (h.send endpoint flags command).toNat_id hasked
  · intro tagged hqueued htagged reply
    exact ⟨h.roundTrip_eq_ok_iff hkind hqueued htagged, h.send_eq_ok_iff hkind hqueued htagged⟩
  · intro sockets connection asked arrival network hfits htransfer past datagram rest hqueue hpast
      outcome
    exact ⟨exchange_of_match hkind hfits htransfer hqueue hpast,
      exchange_of_short hkind hfits htransfer hqueue hpast⟩

/-- Nobody answers the first request in time.  While the client waits for the answer to the second,
the first is answered twice, and so is the second. -/
theorem replies_matched_late :
    let first : Bytes := Reply.encode (.value 1 .ok [7])
    let second : Bytes := Reply.encode (.value 2 .ok [8])
    let endpoint : Endpoint := .udp "peer" 1
    let machine : Loopback := ⟨true, some (.udp, "peer"),
      [⟨[], false⟩, ⟨[first, first, second, second], false⟩], [], [⟨.udp, "peer", false⟩]⟩
    let start : Session (Sockets Loopback) := ⟨.new {}, ⟨64, [(endpoint, ⟨0, []⟩)], machine⟩⟩
    let asked := start.send endpoint .none (.get [1])
    asked.1 = .error .timeout
      ∧ asked.2.transport.queued endpoint (.make 2 .none (.get [2])) = [first, first, second, second]
      ∧ (asked.2.send endpoint .none (.get [2])).1 = .ok (.value 2 .ok [8]) := by
  intro first second endpoint machine start asked
  have hsent : asked.2.Sent [.make 1 .none (.get [1])] :=
    (Sent.new start rfl).send endpoint .none (.get [1])
  obtain ⟨-, -, hmatched, -⟩ := replies_matched hsent (show endpoint.kind = .udp from rfl) .none
    (.get [2])
  have htagged : ∀ entry ∈ [(0, first), (0, first), (1, second), (1, second)],
      Echoes [.make 1 .none (.get [1]), .make 2 .none (.get [2])] entry.1 entry.2
        ∧ 1 < entry.1 + ids := by
    have hfirst : Echoes [.make 1 .none (.get [1]), .make 2 .none (.get [2])] 0 first :=
      ⟨_, _, rfl, Reply.decode_encode _, rfl⟩
    have hsecond : Echoes [.make 1 .none (.get [1]), .make 2 .none (.get [2])] 1 second :=
      ⟨_, _, rfl, Reply.decode_encode _, rfl⟩
    simp only [List.forall_mem_cons]
    exact ⟨⟨hfirst, by decide⟩, ⟨hfirst, by decide⟩, ⟨hsecond, by decide⟩, ⟨hsecond, by decide⟩,
      List.forall_mem_nil _⟩
  refine ⟨rfl, rfl, ?_⟩
  apply ((hmatched [(0, first), (0, first), (1, second), (1, second)] rfl htagged _).2).2
  refine ⟨[(0, first), (0, first)], second, [(1, second)], rfl, ?_, Reply.decode_encode _⟩
  simp

end Session

end TieredStore
