import TieredStore.Proofs.Client.Defaults
import TieredStore.Proofs.Cluster.ReadYourWrites

/-!
# Stored, or the default

The three ways to read a key fail alike.  Where they do not fail, a value that is written like the
default is read like any other, but counts as missing when it is asked whether there is one.  So a
client is given back what it has set in any case, and is told that it is there just if it is not the
default (`Session.default_or_stored`).
-/

namespace TieredStore.Session

/-- How a value that was set shows in the three ways to read it. -/
theorem readings_of_stored {session : Session Cluster} {mode : Mode} {key value default : Datum}
    {shape : Shape} {stored : Bytes} (hfind : (session.find mode key).1 = .ok (some stored))
    (hgiven : session.client.HasDefault (some default)) (hvalue : shape.Holds value)
    (hdefault : shape.Holds default) (hstored : session.client.encode value = .ok stored)
    (hdecode : session.client.decode shape stored = .ok value) :
    (∃ there, (session.has mode key).1 = .ok there ∧ (there = true ↔ value ≠ default))
      ∧ (session.getItem mode key shape).1 = .ok value
      ∧ (session.get mode key shape).1 = .ok (some value) := by
  obtain ⟨hhas, hitem, hget⟩ := readings_of_found (Prod.ext hfind rfl) shape
  rw [hhas, hitem, hget]
  refine ⟨⟨_, rfl, ?_⟩, hdecode, congrArg (Except.map some) hdecode⟩
  -- of two values of one type only the same is written the same
  have hsame := hgiven.defaultBytes_eq_some_iff hvalue hdefault hstored
  rw [decide_eq_true_iff, Option.some_or, ne_comm, ne_eq, hsame]

/-- A key that cannot be encoded, or whose read fails, gives one error whichever way it is read.
Otherwise what is given is what is found, or else the default: the key counts as there if this is
not the default, an item has to be found, and a value is read from what is given.

The default is the last value that could be taken as such, unless it was cleared since, in the form
of the encoding in use.  A value that cannot be taken changes nothing, nor do other encodings in
between.

What a client has set under a key in both tiers it is given back there, after calls on other keys,
and the key counts as there just if the value is not the default. -/
theorem default_or_stored :
    (∀ {σ : Type} [Transport σ] (session : Session σ) (mode : Mode) (key : Datum) (shape : Shape),
      let client := session.client
      let default := client.defaultBytes
      (∀ error, client.encode key = .error error →
        session.has mode key = (.error error, session)
        ∧ session.getItem mode key shape = (.error error, session)
        ∧ session.get mode key shape = (.error error, session))
      ∧ ∀ bytes, client.encode key = .ok bytes →
        let after := (session.read mode bytes).2
        (∀ error, (session.read mode bytes).1 = .error error →
          session.has mode key = (.error error, after)
          ∧ session.getItem mode key shape = (.error error, after)
          ∧ session.get mode key shape = (.error error, after))
        ∧ ∀ found, (session.read mode bytes).1 = .ok found →
          let given := found.or default
          session.has mode key = (.ok (decide (given ≠ default)), after)
          ∧ session.getItem mode key shape
            = (found.elim (.error .keyNotFound) (client.decode shape), after)
          ∧ session.get mode key shape
            = (given.elim (.ok none) fun bytes => (client.decode shape bytes).map some, after))
    ∧ (∀ (config : Config) (settings : List Setting),
      let client := (Client.new config).adjustAll settings
      let value? := settings.foldl Setting.defaultAfter none
      client.HasDefault value?
      ∧ client.defaultBytes
        = value?.bind fun value => (client.config.encoding.encode value).toOption)
    ∧ (∀ (client : Client) (value : Datum),
      (∀ error, client.setDefault value = .error error → client.adjust (.default value) = client)
      ∧ ∀ after, client.setDefault value = .ok after → after.HasDefault (some value))
    ∧ (∀ (client : Client) (others : List Encoding),
      ((others.foldl Client.setEncoding client).setEncoding client.config.encoding).defaultBytes
        = client.defaultBytes)
    ∧ ∀ (session : Session Cluster) (events : List ClientEvent) (mode later : Mode)
      (key value default : Datum) (shape : Shape),
      session.client.HasDefault (some default) → shape.Holds value → shape.Holds default →
      (∀ bytes, session.client.encode value = .ok bytes →
        session.client.decode shape bytes = .ok value) →
      (∀ endpoint server, session.transport.server? endpoint = some server →
        server.maxPayload < 0x100000000) →
      (∀ call, .call call ∈ events → ∀ other ∈ call.key?,
        session.client.encode other ≠ session.client.encode key) →
      mode ≠ .cache → later ≠ .cache → (session.set mode key value).1 = .ok () →
      let after := ((session.set mode key value).2.play events).2
      (∃ there, (after.has later key).1 = .ok there ∧ (there = true ↔ value ≠ default))
      ∧ (after.getItem later key shape).1 = .ok value
      ∧ (after.get later key shape).1 = .ok (some value) := by
  refine ⟨?_, ?_, ?_, ?_, ?_⟩
  · intro σ _ session mode key shape client default
    refine ⟨fun error hkey => readings_of_error (find_of_not_encode hkey) shape, ?_⟩
    intro bytes hkey after
    have hfind : session.find mode key = session.read mode bytes := find_of_encode hkey
    constructor
    · intro error hread
      exact readings_of_error (hfind.trans (Prod.ext hread rfl)) shape
    · intro found hread
      exact readings_of_found (hfind.trans (Prod.ext hread rfl)) shape
  · intro config settings client value?
    have hgiven : client.HasDefault value? := (Client.HasDefault.new config).adjustAll settings
    exact ⟨hgiven, hgiven.defaultBytes_eq⟩
  · intro client value
    refine ⟨?_, fun after hset => .of_setDefault hset⟩
    intro error hset
    simp only [Client.adjust, hset]
  · intro client others
    rw [client.setEncoding_foldl]
    rfl
  · intro session events mode later key value default shape hgiven hvalue hdefault hdecode hlimit
      hothers hmode hlater hset after
    obtain ⟨bytes, stored, hkey, hstored, hshort, hclient, hserved⟩ := set_served hset hlimit
    obtain ⟨⟨nextId, hlast⟩, -⟩ := hserved.later hclient hkey hothers
      fun _ _ hquiet hstate => hstate.undisturbed hquiet
    have hafter : after.client = { session.client with nextId } := hlast
    have hfind : (after.find later key).1 = .ok (some stored) :=
      hserved.found_both hclient hkey hothers hmode hshort hlater
    -- the settings are those of before
    apply readings_of_stored hfind _ hvalue hdefault
    · rw [hafter]
      exact hstored
    · rw [hafter]
      exact hdecode stored hstored
    · rw [hafter]
      exact hgiven

/-- The default itself and another value, under a key that the plain encoding does not take. -/
theorem default_or_stored_truth :
    let first := opened {} ⟨some 1, 64⟩ [.tipc 1]
    let settings : List Setting :=
      [.default (.bool true), .default (.seq false []), .encoding .plain, .encoding .packed]
    let session : Session Cluster := { first with client := first.client.adjustAll settings }
    let plain : Session Cluster := { session with client := session.client.setEncoding .plain }
    let events : List ClientEvent := [.call (.onKey .cache (.set (.bool true) (.bool false))),
      .work (.tipc 1) 0]
    let after (value : Datum) := ((session.set .direct .unit value).2.play events).2
    ((after (.bool true)).has .synchronous .unit).1 = .ok false
      ∧ ((after (.bool true)).get .synchronous .unit .bool).1 = .ok (some (.bool true))
      ∧ ((after (.bool false)).has .synchronous .unit).1 = .ok true
      ∧ ((after (.bool false)).get .synchronous .unit .bool).1 = .ok (some (.bool false))
      ∧ plain.has .direct .unit = (.error (.codec (.plain (.unsupported "unit"))), plain) := by
  intro first settings session plain events after
  have hnone : first.client.HasDefault none := fun _ => rfl
  have hgiven : session.client.HasDefault (some (.bool true)) := hnone.adjustAll settings
  have hlimit (endpoint : Endpoint) (server : Server)
      (hserver : session.transport.server? endpoint = some server) :
      server.maxPayload < 0x100000000 := by
    rw [(Fresh.opened {} ⟨some 1, 64⟩ [.tipc 1]).fresh endpoint server hserver]
    decide
  have hothers (call : ClientCall) (hcall : .call call ∈ events) (other : Datum)
      (hother : other ∈ call.key?) :
      session.client.encode other ≠ session.client.encode .unit := by
    simp only [events, List.mem_cons, ClientEvent.call.injEq, reduceCtorEq, List.not_mem_nil,
      or_false] at hcall
    rw [hcall] at hother
    cases hother
    exact fun h => nomatch h
  have hdecode (b : Bool) (bytes : Bytes) (hvalue : session.client.encode (.bool b) = .ok bytes) :
      session.client.decode .bool bytes = .ok (.bool b) := by
    rw [← Except.ok.inj hvalue]
    cases b with
    | true => rfl
    | false => rfl
  have hset (b : Bool) : (session.set .direct .unit (.bool b)).1 = .ok () := by
    cases b with
    | true => decide +kernel
    | false => decide +kernel
  obtain ⟨hreadings, -, -, -, hstored⟩ := default_or_stored
  have hafter (b : Bool) := hstored session events .direct .synchronous .unit (.bool b)
    (.bool true) .bool hgiven (.bool b) (.bool true) (hdecode b) hlimit hothers (by decide)
    (by decide) (hset b)
  obtain ⟨⟨there, hhas, hthere⟩, -, hget⟩ := hafter true
  obtain ⟨⟨there', hhas', hthere'⟩, -, hget'⟩ := hafter false
  refine ⟨?_, hget, ?_, hget', ?_⟩
  · cases there with
    | false => exact hhas
    | true => exact absurd rfl (hthere.1 rfl)
  · rw [hthere'.2 fun h => nomatch h] at hhas'
    exact hhas'
  · obtain ⟨hrefused, -⟩ := hreadings plain .direct .unit .bool
    exact (hrefused _ rfl).1

end TieredStore.Session
