import TieredStore.Proofs.Client.DataCall
import TieredStore.Proofs.Except
import TieredStore.Proofs.Routing.Registrations
import TieredStore.Transport.Script

/-!
# One attempt

A call on a key is made with all of its arguments or not at all.  Where one of them cannot be
encoded, or there is no endpoint to ask, nothing is sent and nothing changes; else one request goes
to the home of the encoded key, and the client is done with it whatever comes back
(`Session.one_attempt`).  What is sent is read from a transport that keeps a record.
-/

namespace TieredStore

/-! ## What a call sends -/

/-- A datum that cannot be encoded is an error of the encoding. -/
theorem Encoding.codec_of_encode {encoding : Encoding} {value : Datum} {error : Error}
    (h : encoding.encode value = .error error) : ∃ fault, error = .codec fault := by
  cases encoding with
  | packed =>
    obtain ⟨fault, -, hfault⟩ := mapError_eq_error_iff.1 h
    exact ⟨.packed fault, hfault.symm⟩
  | plain =>
    obtain ⟨fault, -, hfault⟩ := mapError_eq_error_iff.1 h
    exact ⟨.plain fault, hfault.symm⟩

namespace KeyCall

/-- What a call has to encode, in this order. -/
def arguments : KeyCall → List Datum
  | .set key value => [key, value]
  | .get key _ | .getItem key _ | .has key | .delete key | .incr key _ => [key]
  | .cas key old new => [key, old, new]

/-- The command of a call whose arguments are encoded as some bytes. -/
inductive Yields : KeyCall → List Bytes → Command → Prop
  | set (key value : Datum) (k v : Bytes) : Yields (.set key value) [k, v] (.set k v)
  | get (key : Datum) (shape : Shape) (k : Bytes) : Yields (.get key shape) [k] (.get k)
  | getItem (key : Datum) (shape : Shape) (k : Bytes) : Yields (.getItem key shape) [k] (.get k)
  | has (key : Datum) (k : Bytes) : Yields (.has key) [k] (.get k)
  | delete (key : Datum) (k : Bytes) : Yields (.delete key) [k] (.delete k)
  | cas (key old new : Datum) (k o n : Bytes) : Yields (.cas key old new) [k, o, n] (.cas k o n)
  | incr (key : Datum) (delta : Int64) (k : Bytes) : Yields (.incr key delta) [k] (.incr k delta)

theorem Yields.head? {call : KeyCall} {encoded : List Bytes} {command : Command}
    (h : call.Yields encoded command) : encoded.head? = some command.key := by
  cases h <;> rfl

theorem Yields.type {call : KeyCall} {encoded : List Bytes} {command : Command}
    (h : call.Yields encoded command) : command.type = call.type := by
  cases h <;> rfl

/-- The command of a call is made of its arguments when all of them are encoded. -/
theorem command_cases (client : Client) (call : KeyCall) :
    (∃ error, call.arguments.mapM client.encode = .error error
      ∧ call.command client = .error error)
    ∨ ∃ encoded command, call.arguments.mapM client.encode = .ok encoded
      ∧ call.command client = .ok command ∧ call.Yields encoded command := by
  cases call with
  | set key value =>
    simp only [arguments, command, List.mapM_cons, List.mapM_nil]
    cases client.encode key with
    | error error => exact .inl ⟨error, rfl, rfl⟩
    | ok k =>
      cases client.encode value with
      | error error => exact .inl ⟨error, rfl, rfl⟩
      | ok v => exact .inr ⟨[k, v], _, rfl, rfl, .set key value k v⟩
  | get key _ | getItem key _ | has key | delete key | incr key _ =>
    simp only [arguments, command, List.mapM_cons, List.mapM_nil]
    cases client.encode key with
    | error error => exact .inl ⟨error, rfl, rfl⟩
    | ok k => exact .inr ⟨[k], _, rfl, rfl, by constructor⟩
  | cas key old new =>
    simp only [arguments, command, List.mapM_cons, List.mapM_nil]
    cases client.encode key with
    | error error => exact .inl ⟨error, rfl, rfl⟩
    | ok k =>
      cases client.encode old with
      | error error => exact .inl ⟨error, rfl, rfl⟩
      | ok o =>
        cases client.encode new with
        | error error => exact .inl ⟨error, rfl, rfl⟩
        | ok n => exact .inr ⟨[k, o, n], _, rfl, rfl, .cas key old new k o n⟩

/-- The request of a call in some mode, sent to an endpoint when the client has come to a number. -/
structure Sends (client : Client) (number : UInt32) (mode : Mode) (call : KeyCall)
    (endpoint : Endpoint) (request : Request) : Prop where
  /-- The command is made of the encoded arguments, and the first of them, the key, selects the
  endpoint. -/
  encoded : ∃ key others,
    List.Forall₂ (fun argument bytes => client.encode argument = .ok bytes) call.arguments
      (key :: others)
    ∧ call.Yields (key :: others) request.command
    ∧ client.registry.select client.config.policy key = some endpoint
  id : request.id = number &&& Request.maxId
  flags : request.flags =
    if mode = .cache then .cacheOnly
    else if mode = .synchronous ∧ (call.type = .set ∨ call.type = .delete) then .sync
    else .none

theorem flags_eq (mode : Mode) (type : CommandType) :
    mode.flags type =
      if mode = .cache then .cacheOnly
      else if mode = .synchronous ∧ (type = .set ∨ type = .delete) then .sync
      else .none := by
  cases mode with
  | direct => rfl
  | cache => rfl
  | synchronous => cases type <;> rfl

end KeyCall

/-! ## A record of what is sent -/

/-- A transport that keeps a record of all requests that go through it. -/
structure Traced (σ : Type) where
  transport : σ
  carried : List (Endpoint × Request)

instance {σ : Type} [Transport σ] : Transport (Traced σ) where
  supports traced := Transport.supports traced.transport
  prepare endpoint traced :=
    (Transport.prepare endpoint traced.transport).map id
      fun transport => { traced with transport }
  roundTrip endpoint request traced :=
    (Transport.roundTrip endpoint request traced.transport).map id
      fun transport => ⟨transport, traced.carried ++ [(endpoint, request)]⟩

namespace Session

variable {σ : Type} [Transport σ]

/-- The same client over a transport that keeps a record, which is empty yet. -/
def traced (session : Session σ) : Session (Traced σ) :=
  ⟨session.client, ⟨session.transport, []⟩⟩

def untraced (session : Session (Traced σ)) : Session σ :=
  ⟨session.client, session.transport.transport⟩

/-- Makes calls on keys, one after another. -/
def askAll (session : Session σ) (calls : List (Mode × KeyCall)) :
    List (Except Error CallResult) × Session σ :=
  stepAll (fun session call => session.ask call.1 call.2) session calls

theorem send_untraced (session : Session (Traced σ)) (endpoint : Endpoint) (flags : Flags)
    (command : Command) :
    session.untraced.send endpoint flags command
      = (session.send endpoint flags command).map id untraced := by
  rw [send_eq, send_eq]
  rfl

theorem run_untraced {α : Type} (plan : Plan α) (session : Session (Traced σ)) :
    plan.run session.untraced = (plan.run session).map id untraced := by
  induction plan generalizing session with
  | done result => rfl
  | ask endpoint flags command next ih =>
    simp only [Plan.run]
    rw [send_untraced]
    exact ih _ _

/-- The record makes no difference. -/
theorem ask_untraced (session : Session (Traced σ)) (mode : Mode) (call : KeyCall) :
    session.untraced.ask mode call = (session.ask mode call).map id untraced := by
  rw [ask_eq_run, ask_eq_run]
  exact run_untraced (call.plan session.client mode) session

theorem askAll_untraced (session : Session (Traced σ)) (calls : List (Mode × KeyCall)) :
    session.untraced.askAll calls = (session.askAll calls).map id untraced :=
  stepAll_view (fun session call => session.ask_untraced call.1 call.2) session calls

/-- What can come of a call on a key. -/
inductive Attempt (session : Session σ) (mode : Mode) (call : KeyCall) :
    Except Error CallResult × Session σ → Prop
  | unencoded (error : Error)
    (hencode : call.arguments.mapM session.client.encode = .error error) :
    Attempt session mode call (.error error, session)
  | nowhere (encoded : List Bytes)
    (hencode : call.arguments.mapM session.client.encode = .ok encoded)
    (hnone : session.client.registry.endpoints = []) :
    Attempt session mode call (.error (.network .noEndpoint), session)
  | sent (encoded : List Bytes) (endpoint : Endpoint) (request : Request)
    (hencode : call.arguments.mapM session.client.encode = .ok encoded)
    (hsome : session.client.registry.endpoints ≠ [])
    (hsends : call.Sends session.client session.client.nextId mode endpoint request) :
    Attempt session mode call
      (call.interpret session.client
        (.received request.id (Transport.roundTrip endpoint request session.transport).1),
      ⟨session.client.advance, (Transport.roundTrip endpoint request session.transport).2⟩)

variable {session : Session σ} {mode : Mode} {call : KeyCall}

/-- Without a command nothing happens. -/
theorem ask_of_error {error : Error} (h : call.command session.client = .error error) :
    session.ask mode call = (.error error, session) := by
  rw [ask_eq_call]
  unfold Session.call
  rw [h]

theorem ask_of_endpoints_nil {command : Command}
    (hcommand : call.command session.client = .ok command)
    (hnone : session.client.registry.endpoints = []) :
    session.ask mode call = (.error (.network .noEndpoint), session) := by
  have hhome : session.client.home command = none :=
    (Registry.select_eq_none_iff _ _ _).2 hnone
  rw [ask_of_command hcommand, hhome]
  cases call <;> rfl

theorem attempt_ask (session : Session σ) (mode : Mode) (call : KeyCall) :
    session.Attempt mode call (session.ask mode call) := by
  rcases call.command_cases session.client with
    ⟨error, hencode, hcommand⟩ | ⟨encoded, command, hencode, hcommand, hyields⟩
  · rw [ask_of_error hcommand]
    exact .unencoded error hencode
  · cases hhome : session.client.home command with
    | none =>
      have hnone := (Registry.select_eq_none_iff _ _ _).1 hhome
      rw [ask_of_endpoints_nil hcommand hnone]
      exact .nowhere encoded hencode hnone
    | some endpoint =>
      have hsome : session.client.registry.endpoints ≠ [] := by
        intro hnone
        cases hhome.symm.trans ((Registry.select_eq_none_iff _ _ _).2 hnone)
      -- the key is the first argument
      obtain ⟨others, rfl⟩ : ∃ others, encoded = command.key :: others :=
        List.head?_eq_some_iff.1 hyields.head?
      rw [ask_of_command hcommand, hhome, sendTo, send_eq]
      refine .sent _ endpoint _ hencode hsome
        ⟨⟨command.key, others, mapM_eq_ok_iff.1 hencode, hyields, hhome⟩, rfl, ?_⟩
      rw [← hyields.type]
      exact KeyCall.flags_eq mode command.type

end Session

/-! ## Calls one after another -/

/-- What is sent for some calls, from a number on: for each of them one request under the next
number, or none. -/
inductive Client.SendsAll (client : Client) :
    UInt32 → List (Mode × KeyCall) → List (Endpoint × Request) → Prop
  | nil (number : UInt32) : SendsAll client number [] []
  | skip {number : UInt32} {mode : Mode} {call : KeyCall} {calls : List (Mode × KeyCall)}
    {sent : List (Endpoint × Request)}
    (h : (∃ argument ∈ call.arguments, ∃ error, client.encode argument = .error error)
      ∨ client.registry.endpoints = [])
    (later : SendsAll client number calls sent) :
    SendsAll client number ((mode, call) :: calls) sent
  | send {number : UInt32} {mode : Mode} {call : KeyCall} {calls : List (Mode × KeyCall)}
    {sent : List (Endpoint × Request)} {endpoint : Endpoint} {request : Request}
    (h : call.Sends client number mode endpoint request)
    (later : SendsAll client (number + 1) calls sent) :
    SendsAll client number ((mode, call) :: calls) ((endpoint, request) :: sent)

namespace Session

variable {σ : Type} [Transport σ]

theorem sendsAll_askAll (client : Client) (number : UInt32) (traced : Traced σ)
    (calls : List (Mode × KeyCall)) :
    ∃ sent, client.SendsAll number calls sent
      ∧ (askAll ⟨{ client with nextId := number }, traced⟩ calls).2.client
        = { client with nextId := number + UInt32.ofNat sent.length }
      ∧ (askAll ⟨{ client with nextId := number }, traced⟩ calls).2.transport.carried
        = traced.carried ++ sent := by
  induction calls generalizing number traced with
  | nil =>
    refine ⟨[], .nil number, ?_, (List.append_nil traced.carried).symm⟩
    show ({ client with nextId := number } : Client) = { client with nextId := number + 0 }
    rw [UInt32.add_zero]
  | cons call calls ih =>
    obtain ⟨mode, call⟩ := call
    -- the client differs from the one at the beginning in its number alone
    let session : Session (Traced σ) := ⟨{ client with nextId := number }, traced⟩
    have hattempt := session.attempt_ask mode call
    have hrest : (session.askAll ((mode, call) :: calls)).2
        = ((session.ask mode call).2.askAll calls).2 := rfl
    show ∃ sent, client.SendsAll number ((mode, call) :: calls) sent
      ∧ (session.askAll ((mode, call) :: calls)).2.client = _
      ∧ (session.askAll ((mode, call) :: calls)).2.transport.carried = _
    rw [hrest]
    generalize session.ask mode call = outcome at hattempt
    cases hattempt with
    | unencoded error hencode =>
      obtain ⟨sent, hsent, hclient, hcarried⟩ := ih number traced
      obtain ⟨argument, hmem, hargument⟩ := exists_error_of_mapM hencode
      exact ⟨sent, .skip (.inl ⟨argument, hmem, error, hargument⟩) hsent, hclient, hcarried⟩
    | nowhere encoded hencode hnone =>
      obtain ⟨sent, hsent, hclient, hcarried⟩ := ih number traced
      exact ⟨sent, .skip (.inr hnone) hsent, hclient, hcarried⟩
    | sent encoded endpoint request hencode hsome hsends =>
      let after := (Transport.roundTrip endpoint request traced).2
      obtain ⟨sent, hsent, hclient, hcarried⟩ := ih (number + 1) after
      have hnumber : number + 1 + UInt32.ofNat sent.length
          = number + UInt32.ofNat ((endpoint, request) :: sent).length := by
        rw [List.length_cons, Nat.add_comm, UInt32.ofNat_add, UInt32.add_assoc]
        rfl
      -- the number does not bear on what is sent under it
      have hsends : call.Sends client number mode endpoint request :=
        ⟨hsends.encoded, hsends.id, hsends.flags⟩
      refine ⟨(endpoint, request) :: sent, .send hsends hsent, ?_, ?_⟩
      · rw [← hnumber]
        exact hclient
      · exact hcarried.trans (List.append_assoc traced.carried [(endpoint, request)] sent)

/-- A call on a key makes one attempt at most.  The first argument that cannot be encoded is what
the call fails with; without an endpoint there is nothing to ask; and neither sends a request, uses
an id or changes anything at all.  Otherwise one request is sent, to the endpoint that the encoded
key selects: the encoded arguments under the next id, with the flags of the mode.  The client has
used that id whatever the transport gives back, also where the call then fails.  In a row of calls
the ones that send a request send theirs under one number after another. -/
theorem one_attempt (session : Session σ) :
    (∀ (mode : Mode) (call : KeyCall),
      (session.traced.ask mode call).map id untraced = session.ask mode call
      ∧ (∀ (earlier : List Datum) (argument : Datum) (later : List Datum) (error : Error),
        call.arguments = earlier ++ argument :: later →
        (∀ other ∈ earlier, ∃ bytes, session.client.encode other = .ok bytes) →
        session.client.encode argument = .error error →
        (∃ fault, error = .codec fault)
          ∧ session.traced.ask mode call = (.error error, session.traced))
      ∧ ((∀ argument ∈ call.arguments, ∃ bytes, session.client.encode argument = .ok bytes) →
        (session.client.registry.endpoints = [] →
          session.traced.ask mode call = (.error (.network .noEndpoint), session.traced))
        ∧ (session.client.registry.endpoints ≠ [] → ∃ endpoint request,
          call.Sends session.client session.client.nextId mode endpoint request
          ∧ let trip := Transport.roundTrip endpoint request session.transport
            session.traced.ask mode call
              = (call.interpret session.client (.received request.id trip.1),
                ⟨{ session.client with nextId := session.client.nextId + 1 },
                  ⟨trip.2, [(endpoint, request)]⟩⟩))))
    ∧ ∀ calls : List (Mode × KeyCall),
      let after := (session.traced.askAll calls).2
      (session.traced.askAll calls).map id untraced = session.askAll calls
      ∧ session.client.SendsAll session.client.nextId calls after.transport.carried
      ∧ after.client = { session.client with
          nextId := session.client.nextId + UInt32.ofNat after.transport.carried.length } := by
  constructor
  · intro mode call
    refine ⟨(session.traced.ask_untraced mode call).symm, ?_, ?_⟩
    · intro earlier argument later error harguments hearlier hargument
      have hencode : call.arguments.mapM session.client.encode = .error error :=
        mapM_eq_error_iff.2 ⟨earlier, argument, later, harguments, hearlier, hargument⟩
      refine ⟨Encoding.codec_of_encode hargument, ?_⟩
      have hattempt := session.traced.attempt_ask mode call
      generalize session.traced.ask mode call = outcome at hattempt
      cases hattempt with
      | unencoded other hother =>
        cases hother.symm.trans hencode
        rfl
      | nowhere encoded hother hnone => cases hother.symm.trans hencode
      | sent encoded endpoint request hother hsome hsends => cases hother.symm.trans hencode
    · intro hall
      have hattempt := session.traced.attempt_ask mode call
      generalize session.traced.ask mode call = outcome at hattempt
      cases hattempt with
      | unencoded error hencode =>
        obtain ⟨argument, hmem, hargument⟩ := exists_error_of_mapM hencode
        obtain ⟨bytes, hbytes⟩ := hall argument hmem
        cases hargument.symm.trans hbytes
      | nowhere encoded hencode hnone => exact ⟨fun _ => rfl, fun hsome => absurd hnone hsome⟩
      | sent encoded endpoint request hencode hsome hsends =>
        exact ⟨fun hnone => absurd hnone hsome, fun _ => ⟨endpoint, request, hsends, rfl⟩⟩
  · intro calls after
    obtain ⟨sent, hsent, hclient, hcarried⟩ :=
      sendsAll_askAll session.client session.client.nextId session.traced.transport calls
    have hcarried : after.transport.carried = sent := hcarried
    refine ⟨(session.traced.askAll_untraced calls).symm, ?_, ?_⟩
    · rw [hcarried]
      exact hsent
    · rw [hcarried]
      exact hclient

/-- A client that writes plain, over a transport that has one answer ready, a value of one byte. -/
def plainScripted (endpoints : List Endpoint) : Session Script :=
  endpoints.foldl (fun session endpoint => (session.register endpoint).2)
    ⟨.new { encoding := .plain }, ⟨[.tipc], none, [.reply 0x801 [0, 0, 0, 1, 7] 0], []⟩⟩

/-- Bytes can be written plain and a truth value cannot.  A byte that cannot be read as a truth value
has been asked for all the same.  In a row of calls the one that is not sent leaves its number to the
next. -/
theorem one_attempt_plain :
    let session := plainScripted [.tipc 1]
    let key := Datum.buffer [1]
    session.traced.ask .synchronous (.cas key (.bool true) (.buffer [2]))
        = (.error (.codec (.plain (.unsupported "bool"))), session.traced)
      ∧ (plainScripted []).traced.ask .cache (.delete key)
        = (.error (.network .noEndpoint), (plainScripted []).traced)
      ∧ (∃ endpoint request, KeyCall.Sends session.client 1 .direct (.get key .bool) endpoint request
        ∧ (session.traced.ask .direct (.get key .bool)).2.transport.carried
          = [(endpoint, request)])
      ∧ (session.ask .direct (.get key .bool)).1
        = .error (.codec (.plain (.unexpectedBlock "a boolean")))
      ∧ (session.traced.askAll [(.cache, .get key .bool), (.direct, .set key (.bool true)),
          (.synchronous, .set key (.buffer [2]))]).2.transport.carried
        = [(.tipc 1, ⟨1, .cacheOnly, .get [1]⟩), (.tipc 1, ⟨2, .sync, .set [1] [2]⟩)] := by
  have hkey (session : Session Script) (hplain : session.client.config.encoding = .plain) :
      ∀ argument ∈ [Datum.buffer [1]], ∃ bytes, session.client.encode argument = .ok bytes := by
    refine List.forall_mem_singleton.2 ⟨[1], ?_⟩
    unfold Client.encode
    rw [hplain]
    rfl
  refine ⟨?_, ?_, ?_, rfl, by decide⟩
  · exact (((one_attempt (plainScripted [.tipc 1])).1 .synchronous _).2.1 [.buffer [1]] (.bool true)
      [.buffer [2]] _ rfl (hkey _ rfl) rfl).2
  · exact (((one_attempt (plainScripted [])).1 .cache (.delete (.buffer [1]))).2.2 (hkey _ rfl)).1
      rfl
  · have hsome : (plainScripted [.tipc 1]).client.registry.endpoints ≠ [] := by decide
    obtain ⟨endpoint, request, hsends, hask⟩ := (((one_attempt (plainScripted [.tipc 1])).1 .direct
      (.get (.buffer [1]) .bool)).2.2 (hkey _ rfl)).2 hsome
    refine ⟨endpoint, request, hsends, ?_⟩
    rw [hask]

end Session

end TieredStore
