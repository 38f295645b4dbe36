import TieredStore.Proofs.Server.StoredValues
import TieredStore.Proofs.Wire.Exchange

/-!
# Limits on both sides

A client and a server with the same limit on keys and values never refuse each other's messages for
their length.  What a message has beyond keys and values fits into `frameOverhead`, in requests as
in replies, and a reply carries nothing longer than what a request could have carried
(`Sockets.size_limits_agree`).
-/

namespace TieredStore

open Wire

theorem Request.fitsFrame {request : Request} {limit : Nat}
    (h : request.command.payloadLength ≤ limit) (hhigh : limit ≤ 4294967267) :
    FitsFrame (limit + frameOverhead) request.encode := by
  have hlength := request.length_encode_le
  have hoverhead : frameOverhead = 24 := rfl
  constructor
  · omega
  · omega

/-- A request is read from its frame, with the part of its id that travels. -/
theorem Wire.readRequest_masked {request : Request} {max : Nat} {inflow : Inflow} {rest : Bytes}
    (hfits : FitsFrame max request.encode) (h : inflow.bytes = frame request.encode ++ rest) :
    ∃ next, readRequest max inflow = (.ok { request with id := request.id &&& Request.maxId }, next)
      ∧ next.bytes = rest := by
  let masked : Request := { request with id := request.id &&& Request.maxId }
  have hmasked : masked.encode = request.encode := request.encode_and_maxId
  have hid : masked.id ≤ Request.maxId := by
    rw [UInt32.le_iff_toNat_le, Request.toNat_and_maxId]
    exact Nat.le_of_lt_succ (Nat.mod_lt _ (by decide))
  rw [← hmasked] at hfits h
  obtain ⟨next, hread, hrest, -⟩ := readRequest_whole hid hfits h
  exact ⟨next, hread, hrest⟩

/-- A limit that has room for the counters has room for every reply. -/
theorem Server.Reached.fitsFrame {options : ServerOptions} {server : Server}
    (h : Reached options server) (hlow : 60 ≤ options.maxPayload)
    (hhigh : options.maxPayload ≤ 4294967267) (request : Request) :
    FitsFrame (options.maxPayload + frameOverhead) (server.handle request).1.encode := by
  have hvalues : server.settle.Stocks (·.length ≤ options.maxPayload) := by
    refine h.stocks (fun value hvalue => hvalue) ?_
    intro number
    have hcounter := length_writeCounter_le number
    omega
  have hlength := PromptServer.length_handle_le hvalues h.keysFit request
  rw [← handle_fst] at hlength
  have hoverhead : frameOverhead = 24 := rfl
  constructor
  · omega
  · omega

namespace Sockets

/-- Under one limit on both sides, no message is too long for who is to read it: not a request of as
many bytes in keys and values as the limit allows, nor a reply of a server in any state that it can
come to, increments that lengthen values included.  The limit has to leave room for the counters,
which take 60 bytes of it. -/
theorem size_limits_agree {limit : Nat} (hlow : 60 ≤ limit) (hhigh : limit ≤ 4294967267) :
    (∀ request : Request, request.command.payloadLength ≤ limit →
      request.encode.length ≤ limit + frameOverhead
        ∧ ∀ (inflow : Inflow) (rest : Bytes), inflow.bytes = frame request.encode ++ rest →
          ∃ next, readRequest (limit + frameOverhead) inflow
              = (.ok { request with id := request.id &&& Request.maxId }, next)
            ∧ next.bytes = rest)
    ∧ (∀ (options : ServerOptions) (server : Server), options.maxPayload = limit →
      server.Reached options → ∀ request : Request,
      let reply := (server.handle request).1
      reply.encode.length ≤ limit + frameOverhead
        ∧ ∀ (ν : Type) (sockets : Sockets ν), sockets.maxPayload = limit →
          ∀ (inflow : Inflow) (rest : Bytes), inflow.bytes = frame reply.encode ++ rest →
          ∃ next, readReply sockets.maxMessage inflow = (.ok reply, next) ∧ next.bytes = rest)
    ∧ ∀ (id : UInt32) (counters : Counters),
      (Reply.stats id counters.toList).encode.length = 60 + frameOverhead := by
  refine ⟨?_, ?_, Reply.length_encode_stats⟩
  · intro request hpayload
    have hfits := Request.fitsFrame hpayload hhigh
    exact ⟨hfits.1, fun inflow rest => readRequest_masked hfits⟩
  · intro options server hlimit hreached request reply
    subst hlimit
    have hfits := hreached.fitsFrame hlow hhigh request
    refine ⟨hfits.1, ?_⟩
    intro ν sockets hsockets inflow rest hbytes
    have hmax : sockets.maxMessage = options.maxPayload + frameOverhead :=
      congrArg (· + frameOverhead) hsockets
    obtain ⟨next, hread, hrest, -⟩ := readReply_whole hfits hbytes
    rw [hmax]
    exact ⟨next, hread, hrest⟩

/-- The least limit, a stored counter that has become longer, and a reply in pieces of five bytes. -/
theorem size_limits_agree_sixty :
    let options : ServerOptions := ⟨none, 60⟩
    let stored := (Server.start options).call (.request ⟨1, .none, .set [7] (writeCounter 9)⟩)
    let longer := stored.2.call (.request ⟨2, .none, .incr [7] 1⟩)
    let reply := (longer.2.handle ⟨3, .cacheOnly, .get [7]⟩).1
    reply = .value 3 .cacheHit (writeCounter 10)
      ∧ reply.encode.length ≤ 60 + frameOverhead
      ∧ ∃ next, readReply (maxMessage (⟨60, [], ()⟩ : Sockets Unit))
          ⟨cut 5 (frame reply.encode), .endOfStream⟩ = (.ok reply, next)
        ∧ next.bytes = [] := by
  intro options stored longer reply
  have hreached : longer.2.Reached options := (Server.Reached.start.call _).call _
  obtain ⟨-, hreplies, -⟩ := size_limits_agree (Nat.le_refl 60) (by decide)
  obtain ⟨hlength, hread⟩ := hreplies options longer.2 rfl hreached ⟨3, .cacheOnly, .get [7]⟩
  refine ⟨by decide, hlength, ?_⟩
  apply hread Unit ⟨60, [], ()⟩ rfl
  rw [List.append_nil]
  exact flatten_cut 5 _

end Sockets

end TieredStore
