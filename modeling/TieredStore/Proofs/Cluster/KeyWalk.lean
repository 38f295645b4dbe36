import TieredStore.Proofs.Cluster.ReadYourWrites
import TieredStore.Proofs.Server.StoredKeys

/-!
# Iterations

Who asks a server for its first key and then for the key after each that is given is told all keys
of its database, in their order and once each, and at the end that there are no more
(`Server.keys_enumerated`).  A client that iterates does so on the endpoint that was registered
first.
-/

namespace TieredStore

open PromptServer (told)

theorem PromptServer.told_snd (value : Option Bytes) : (told value).2 = value := by
  cases value <;> rfl

namespace Session

/-- One question of an iteration. -/
def askKey {σ : Type} [Transport σ] (last : Option Bytes) (session : Session σ) :
    (Status × Option Bytes) × Session σ :=
  match last with
  | none => session.firstKeyBytes
  | some key => session.nextKeyBytes key

theorem askKey_eq {σ : Type} [Transport σ] (last : Option Bytes) (session : Session σ) :
    session.askKey last
      = (session.sendTo session.client.registry.first? .none (.keyAfter last)).map Answer.value id := by
  cases last with
  | none => rfl
  | some key => rfl

/-- The server of the first endpoint accepts connections, and stores a table of keys within a limit. -/
def Iterates (session : Session Cluster) (table : Table) (limit : Nat) : Prop :=
  ∃ endpoint server, session.client.registry.first? = some endpoint
    ∧ session.transport.server? endpoint = some server ∧ server.reachable = true
    ∧ server.Stores table limit

variable {session : Session Cluster} {table : Table} {limit : Nat}

theorem Iterates.keysFit (h : session.Iterates table limit) : table.KeysFit limit := by
  obtain ⟨_, _, -, -, -, hstores⟩ := h
  exact hstores.keysFit

theorem Iterates.askKey (h : session.Iterates table limit) {last : Option Bytes}
    (hlast : ∀ key ∈ last, key.length ≤ limit) :
    (session.askKey last).1 = told (table.keyAfter? last)
      ∧ (session.askKey last).2.Iterates table limit := by
  obtain ⟨endpoint, server, hfirst, hserver, hreachable, hstores⟩ := h
  let request := Request.make session.client.nextId .none (.keyAfter last)
  obtain ⟨hreply, hafter⟩ := hstores.handle_keyAfter request.id .none hlast
  have hsend : session.sendTo session.client.registry.first? .none (.keyAfter last)
      = (.ok (server.handle request).1, ⟨session.client.advance,
        session.transport.replace endpoint (server.handle request).2⟩) := by
    rw [hfirst]
    exact send_of_reachable hserver hreachable .none (.keyAfter last)
  rw [askKey_eq, hsend]
  constructor
  · show Answer.value (.ok (server.handle request).1) = _
    have hanswer : (server.handle request).1 = Server.keyReply request.id (table.keyAfter? last) :=
      hreply
    rw [hanswer]
    cases hfound : table.keyAfter? last with
    | none => rfl
    | some found => exact Answer.value_value request.id (.inl rfl) (hstores.length_lt hfound)
  · refine ⟨endpoint, (server.handle request).2, hfirst, ?_, ?_, hafter⟩
    · show (session.transport.replace endpoint _).server? endpoint = _
      rw [Cluster.server?_replace, hserver, Option.map_some, if_pos rfl]
    · rw [Server.reachable_handle]
      exact hreachable

theorem Iterates.walk_askKey (h : session.Iterates table limit) (requests : Nat) :
    walk Session.askKey Prod.snd requests none session
      = (table.keys.map (told ∘ some) ++ [told none]).take requests := by
  have hstep : ∀ last (session : Session Cluster), (∀ key ∈ last, key ∈ table.keys) →
      session.Iterates table limit →
      (session.askKey last).1 = told (table.keyAfter? last)
        ∧ (session.askKey last).2.Iterates table limit :=
    fun last session hlast hs => hs.askKey (hs.keysFit.length_le hlast)
  exact walk_eq told PromptServer.told_snd hstep requests h

end Session

namespace Server

/-- A server answers an iteration with the keys that its database has once its jobs are done, in the
order of their bytes and each once, and then that there are no more; so it takes one request more
than there are keys.  No key in the database is over the limit, so no request of an iteration is
refused.  After any key that is within the limit comes the least that is above it.  A client is
told the same of the server behind the endpoint that was registered first, whatever its policy. -/
theorem keys_enumerated {options : ServerOptions} {server : Server} (h : Reached options server)
    (hshort : options.maxPayload < 0x100000000) :
    let keys := server.database.settled.keys
    keys.Pairwise (· < ·)
      ∧ (∀ key, key ∈ keys ↔ ∃ value, server.database.settled.get? key = some value)
      ∧ (∀ key ∈ keys, key.length ≤ options.maxPayload)
      ∧ (∀ ids flags requests, walk (askKey ids flags) Prod.snd requests none server
        = (keys.map (keyAnswer ∘ some) ++ [keyAnswer none]).take requests)
      ∧ (∀ ids flags key, key.length ≤ options.maxPayload →
        ∃ next, LeastAbove keys key next
          ∧ (server.askKey ids flags (some key)).1 = keyAnswer next)
      ∧ ∀ (session : Session Cluster) (endpoint : Endpoint),
        session.client.registry.first? = some endpoint →
        session.transport.server? endpoint = some server → server.reachable = true →
        (∀ requests, walk Session.askKey Prod.snd requests none session
          = (keys.map (told ∘ some) ++ [told none]).take requests)
          ∧ ∀ key, key.length ≤ options.maxPayload →
            ∃ next, LeastAbove keys key next ∧ (session.nextKeyBytes key).1 = told next := by
  intro keys
  let table := server.database.settled
  have hstores : server.Stores table options.maxPayload := h.stores hshort
  have hone : ∀ key : Bytes, key.length ≤ options.maxPayload →
      ∀ other ∈ some key, other.length ≤ options.maxPayload := by
    intro key hfits other hother
    rwa [← Option.some.inj hother]
  refine ⟨table.pairwise_keys, fun key => table.mem_keys, h.keysFit, hstores.walk_askKey, ?_, ?_⟩
  · intro ids flags key hfits
    exact ⟨table.nextKey? key, table.leastAbove_nextKey? key,
      (hstores.askKey ids flags (hone key hfits)).1⟩
  · intro session endpoint hfirst hserver hreachable
    have hiterates : session.Iterates table options.maxPayload :=
      ⟨endpoint, server, hfirst, hserver, hreachable, hstores⟩
    refine ⟨hiterates.walk_askKey, ?_⟩
    intro key hfits
    exact ⟨table.nextKey? key, table.leastAbove_nextKey? key, (hiterates.askKey (hone key hfits)).1⟩

/-- A key, its beginning and the empty key are still to be written, another is in the cache alone. -/
theorem keys_enumerated_beginnings :
    let options : ServerOptions := ⟨none, 8⟩
    let server := ((start options).run [.call (.request ⟨1, .none, .set [2, 0] [1]⟩),
      .call (.request ⟨2, .none, .set [] [1]⟩), .call (.request ⟨3, .cacheOnly, .set [1] [1]⟩),
      .call (.request ⟨4, .none, .set [2] [1]⟩), .call (.evict [2])]).2
    let opened := Session.opened {} options [.tipc 1]
    let session : Session Cluster :=
      { opened with transport := opened.transport.replace (.tipc 1) server }
    server.database.queue.length = 3
      ∧ walk (askKey (fun _ => 7) fun _ => .sync) Prod.snd 9 none server
        = [(some .ok, some []), (some .ok, some [2]), (some .ok, some [2, 0]), (some .notIn, none)]
      ∧ walk Session.askKey Prod.snd 9 none session
        = [(.done, some []), (.done, some [2]), (.done, some [2, 0]), (.absent, none)]
      ∧ ∃ next, LeastAbove [[], [2], [2, 0]] [1] next ∧ (session.nextKeyBytes [1]).1 = told next := by
  intro options server opened session
  have hserver : Reached options server := Reached.start.run _
  have hkeys : server.database.settled.keys = [[], [2], [2, 0]] := by decide
  have henumerated := keys_enumerated hserver (by decide)
  rw [hkeys] at henumerated
  obtain ⟨-, -, -, hwalk, -, hclient⟩ := henumerated
  obtain ⟨hsession, hnext⟩ := hclient session (.tipc 1) rfl rfl rfl
  exact ⟨by decide, hwalk _ _ 9, hsession 9, hnext [1] (by decide)⟩

end Server

end TieredStore
