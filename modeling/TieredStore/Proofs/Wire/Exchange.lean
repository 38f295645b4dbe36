import TieredStore.Proofs.Wire.CutStream
import TieredStore.Proofs.Wire.Serving
import TieredStore.Transport.Sockets

/-!
# Exchanges over streams

A request is written to one stream, read from it and handled, and the reply comes back over another.
Within the limits of the readers this is the same as handing the request to the server, in whatever
pieces the streams deliver what they carry (`Server.exchange_eq_handle`).
-/

namespace TieredStore

open Wire

namespace Wire

/-- A way to cut what a stream carries into pieces. -/
structure Cutting where
  pieces : Bytes → List Bytes
  flatten_pieces : ∀ bytes, (pieces bytes).flatten = bytes

/-- Every piece has the same length, except perhaps for the last. -/
def Cutting.every (length : Nat) : Cutting :=
  ⟨cut length, flatten_cut length⟩

end Wire

/-! ## Lengths of messages -/

theorem Command.length_encode_le (command : Command) :
    command.encode.length ≤ command.payloadLength + 12 := by
  cases command with
  | get key | delete key | nextKey key | set key value | cas key old new | incr key delta =>
    simp only [encode, size, payloadLength, Command.key, List.length_append, Bytes.length_bigEndian]
    omega
  | stats | firstKey => exact Nat.zero_le _

/-- No message of a request has more bytes beyond the keys and values in it than a frame may. -/
theorem Request.length_encode_le (request : Request) :
    request.encode.length ≤ request.command.payloadLength + 20 := by
  have hcommand := request.command.length_encode_le
  rw [encode_eq, List.length_append, length_header, requestHeaderSize]
  omega

/-- An exchange that the limits on both sides allow.  The client's limit is on the keys and values
of a request, and four bytes hold the length of every frame that is read under it. -/
structure WithinLimits (limit peerMax : Nat) (request : Request) (reply : Reply) : Prop where
  id : request.id ≤ Request.maxId
  payload : request.command.payloadLength ≤ limit
  bound : limit ≤ 4294967267
  peer : limit + frameOverhead ≤ peerMax
  reply : reply.encode.length ≤ limit + frameOverhead

namespace WithinLimits

variable {limit peerMax : Nat} {request : Request} {reply : Reply}

instance : Decidable (WithinLimits limit peerMax request reply) :=
  decidable_of_iff
    (request.id ≤ Request.maxId ∧ request.command.payloadLength ≤ limit ∧ limit ≤ 4294967267
      ∧ limit + frameOverhead ≤ peerMax ∧ reply.encode.length ≤ limit + frameOverhead)
    ⟨fun ⟨hid, hpayload, hlimit, hpeer, hreply⟩ => ⟨hid, hpayload, hlimit, hpeer, hreply⟩,
      fun h => ⟨h.id, h.payload, h.bound, h.peer, h.reply⟩⟩

theorem request_fits (h : WithinLimits limit peerMax request reply) :
    FitsFrame peerMax request.encode := by
  have hlength := request.length_encode_le
  have hoverhead : frameOverhead = 24 := rfl
  obtain ⟨-, hpayload, hlimit, hpeer, -⟩ := h
  constructor
  · omega
  · omega

theorem reply_fits (h : WithinLimits limit peerMax request reply) :
    FitsFrame (limit + frameOverhead) reply.encode := by
  have hoverhead : frameOverhead = 24 := rfl
  have hlimit := h.bound
  have hreply := h.reply
  constructor
  · exact hreply
  · omega

end WithinLimits

/-! ## One message -/

namespace Wire

variable {inflow : Inflow} {rest : Bytes}

theorem readRequest_whole {request : Request} {max : Nat} (hid : request.id ≤ Request.maxId)
    (hfits : FitsFrame max request.encode) (h : inflow.bytes = frame request.encode ++ rest) :
    ∃ next, readRequest max inflow = (.ok request, next)
      ∧ next.bytes = rest ∧ next.stop = inflow.stop := by
  have hlength : request.encode.length < 0x100000000 := Nat.lt_of_lt_of_le hfits.2 (by decide)
  rw [readRequest_eq_readAs]
  apply readAs_whole hfits _ h
  rw [Request.decode_encode (Request.fits_of_length_encode hid hlength)]
  rfl

theorem readReply_whole {reply : Reply} {max : Nat} (hfits : FitsFrame max reply.encode)
    (h : inflow.bytes = frame reply.encode ++ rest) :
    ∃ next, readReply max inflow = (.ok reply, next)
      ∧ next.bytes = rest ∧ next.stop = inflow.stop := by
  rw [readReply_eq_readAs]
  apply readAs_whole hfits _ h
  rw [Reply.decode_encode]
  rfl

end Wire

/-! ## Conversations -/

/-- A server at its end of a stream. -/
structure Conversation where
  inflow : Inflow
  outflow : Outflow
  server : Server

namespace Conversation

/-- Reads a request, has it handled, and writes the reply. -/
def round (max : Nat) (talk : Conversation) : Except Error Unit × Conversation :=
  match readRequest max talk.inflow with
  | (.error error, inflow) => (.error error, { talk with inflow })
  | (.ok request, inflow) =>
    let (reply, server) := talk.server.handle request
    let (result, outflow) := writeReply reply talk.outflow
    (result, ⟨inflow, outflow, server⟩)

/-- A message that the server answers is answered by a frame. -/
theorem round_of_serve {max : Nat} {talk : Conversation} {message answer : Bytes} {next : Inflow}
    {after : Server} (hread : readFrame max talk.inflow = (.ok message, next))
    (hserve : talk.server.serve message = (.ok answer, after)) :
    talk.round max = ((writeFrame answer talk.outflow).1,
      ⟨next, (writeFrame answer talk.outflow).2, after⟩) := by
  obtain ⟨request, hbegins, rfl, rfl⟩ := Server.serve_eq_ok_iff.1 hserve
  have hrequest : readRequest max talk.inflow = (.ok request, next) := by
    simp only [readRequest, hread, Prod.map_apply, Except.bind,
      Request.decode_eq_ok_iff_begins.2 hbegins]
    rfl
  unfold round
  simp only [hrequest]
  rfl

theorem round_whole {request : Request} {max : Nat} {inflow : Inflow} {rest : Bytes}
    (hid : request.id ≤ Request.maxId) (hfits : FitsFrame max request.encode)
    (h : inflow.bytes = frame request.encode ++ rest) (written : Bytes) (server : Server) :
    ∃ next, round max ⟨inflow, ⟨written, none⟩, server⟩
        = (.ok (), ⟨next, ⟨written ++ frame (server.handle request).1.encode, none⟩,
          (server.handle request).2⟩)
      ∧ next.bytes = rest ∧ next.stop = inflow.stop := by
  have hlength : request.encode.length < 0x100000000 := Nat.lt_of_lt_of_le hfits.2 (by decide)
  have hbegins : request.Begins request.encode :=
    ⟨Request.fits_of_length_encode hid hlength, List.prefix_refl _⟩
  obtain ⟨next, hread, hrest, hstop⟩ := readFrame_whole hfits h
  refine ⟨next, ?_, hrest, hstop⟩
  exact round_of_serve hread (Server.serve_of_begins hbegins server)

end Conversation

/-- A request goes to a server over one stream, and its reply comes back over another. -/
def Server.exchange (there back : Cutting) (peerMax max : Nat) (request : Request)
    (server : Server) : Except Error Reply × Server :=
  match writeRequest request .fresh with
  | (.error error, _) => (.error error, server)
  | (.ok (), sent) =>
    let inflow : Inflow := ⟨there.pieces sent.written, .endOfStream⟩
    let (_, talk) := Conversation.round peerMax ⟨inflow, .fresh, server⟩
    ((readReply max ⟨back.pieces talk.outflow.written, .endOfStream⟩).1, talk.server)

theorem Server.exchange_eq_handle {server : Server} {request : Request} {limit peerMax : Nat}
    (h : WithinLimits limit peerMax request (server.handle request).1) (there back : Cutting) :
    server.exchange there back peerMax (limit + frameOverhead) request
      = (.ok (server.handle request).1, (server.handle request).2) := by
  have hthere : Inflow.bytes ⟨there.pieces (frame request.encode), .endOfStream⟩
      = frame request.encode ++ [] := by
    rw [List.append_nil]
    exact there.flatten_pieces _
  have hback : Inflow.bytes ⟨back.pieces (frame (server.handle request).1.encode), .endOfStream⟩
      = frame (server.handle request).1.encode ++ [] := by
    rw [List.append_nil]
    exact back.flatten_pieces _
  have hwrite : writeRequest request .fresh = (.ok (), ⟨frame request.encode, none⟩) := rfl
  obtain ⟨next, htalk, -⟩ := Conversation.round_whole h.id h.request_fits hthere [] server
  obtain ⟨_, hread, -⟩ := readReply_whole h.reply_fits hback
  -- nothing was written before
  have hround : Conversation.round peerMax
      ⟨⟨there.pieces (frame request.encode), .endOfStream⟩, .fresh, server⟩
      = (.ok (), ⟨next, ⟨frame (server.handle request).1.encode, none⟩,
        (server.handle request).2⟩) := htalk
  unfold exchange
  simp only [hwrite, hround, hread]

end TieredStore
