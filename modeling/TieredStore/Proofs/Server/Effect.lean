import TieredStore.Proofs.Server.Prompt

/-!
# What a request does to the tiers

Whatever a request asks for, it binds one key, unbinds one, or changes nothing but the counters, and
it binds a key only if it is answered with a success (`PromptServer.effect_handle`).  What holds of
these three holds of every request.
-/

namespace TieredStore

/-- The key whose value a command reads or writes. -/
def Command.subject? : Command → Option Bytes
  | .get key | .set key _ | .delete key | .cas key _ _ | .incr key _ => some key
  | .stats | .firstKey | .nextKey _ => none

theorem Command.ne_of_subject? {command : Command} {key subject : Bytes}
    (h : command.subject? ≠ some key) (hsubject : command.subject? = some subject) :
    key ≠ subject := by
  intro heq
  exact h (heq ▸ hsubject)

namespace PromptServer

/-- The outcomes that a request can have on a server. -/
inductive Effect (server : PromptServer) (request : Request) : Reply × PromptServer → Prop where
  | kept (reply : Reply) (counters : Counters) :
    Effect server request (reply, { server with counters })
  /-- The key gets a value, in the cache alone or in both tiers. -/
  | bound {key : Bytes} {reply : Reply} (value : Bytes) (counters : Counters) (cacheOnly : Bool)
      (hsubject : request.command.subject? = some key) (hcode : reply.code = ReplyCode.ok.word) :
    Effect server request
      (reply, ({ server with counters } : PromptServer).bind key value cacheOnly)
  /-- The key loses its value, if it has one. -/
  | unbound {key : Bytes} {reply : Reply} (counters : Counters)
      (hsubject : request.command.subject? = some key)
      (hcode : reply.code = ReplyCode.ok.word
        ∨ server.current key request.flags.isCacheOnly = none) :
    Effect server request
      (reply, ({ server with counters } : PromptServer).unbind key request.flags.isCacheOnly)

variable (server : PromptServer) (id : UInt32) (flags : Flags) (key : Bytes)

/-- What was counted before makes no difference. -/
theorem Effect.of_tally {server : PromptServer} {request : Request} {event : Counters → Counters}
    {outcome : Reply × PromptServer} (h : (server.tally event).Effect request outcome) :
    server.Effect request outcome := by
  cases h with
  | kept reply counters => exact .kept reply counters
  | bound value counters cacheOnly hsubject hcode =>
    exact .bound value counters cacheOnly hsubject hcode
  | unbound counters hsubject hcode => exact .unbound counters hsubject hcode

theorem effect_get :
    server.Effect ⟨id, flags, .get key⟩ (server.get id key flags.isCacheOnly) := by
  unfold get
  split
  · exact .kept _ _
  · simp only
    split
    · exact .kept _ _
    · split
      · exact .kept _ _
      -- what the database has is brought into the cache
      · exact .bound _ _ true rfl rfl

theorem effect_delete :
    server.Effect ⟨id, flags, .delete key⟩ (server.delete id key flags.isCacheOnly) := by
  unfold delete
  cases hcurrent : server.current key flags.isCacheOnly with
  | none => exact .unbound _ rfl (.inr hcurrent)
  | some value => exact .unbound _ rfl (.inl rfl)

theorem effect_cas (old new : Bytes) :
    server.Effect ⟨id, flags, .cas key old new⟩ (server.cas id key old new flags.isCacheOnly) := by
  unfold cas
  simp only
  split
  · exact .kept _ _
  · split
    · exact .bound new _ flags.isCacheOnly rfl rfl
    · exact .kept _ _

theorem effect_incr (delta : Int64) :
    server.Effect ⟨id, flags, .incr key delta⟩ (server.incr id key delta flags.isCacheOnly) := by
  unfold incr
  simp only
  split
  · exact .kept _ _
  · split
    · exact .kept _ _
    · exact .bound _ _ flags.isCacheOnly rfl rfl

theorem effect_handle (request : Request) : server.Effect request (server.handle request) := by
  obtain ⟨id, flags, command⟩ := request
  unfold handle
  simp only
  split
  · exact .kept _ _
  · cases command with
    | get key => exact (effect_get _ id flags key).of_tally
    | set key value => exact .bound value _ flags.isCacheOnly rfl rfl
    | delete key => exact (effect_delete _ id flags key).of_tally
    | cas key old new => exact (effect_cas _ id flags key old new).of_tally
    | incr key delta => exact (effect_incr _ id flags key delta).of_tally
    | stats => exact .kept _ _
    | firstKey => exact .kept _ _
    | nextKey key => exact .kept _ _

end PromptServer

end TieredStore
