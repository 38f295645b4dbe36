import TieredStore.Proofs.Client.Sharing
import TieredStore.Proofs.Sockets.Datagrams

/-!
# Clients that share sockets

Clients that hold the same sockets have one queue of datagrams for each endpoint, but each of them
numbers its own requests, from 1.  So a request has the id of every request of another client that
has the same number there, and a late reply to one of these is taken for its own
(`Sharing.replies_confused`).  A reply is known by the number that its request has at its client,
and no better (`Sharing.replies_matched_by_number`).
-/

namespace TieredStore

open Wire Session Sockets

namespace Sharing

variable {ι σ : Type} [DecidableEq ι]

/-! ## The requests of each client -/

/-- What one of the clients has sent. -/
def requestsOf (who : ι) (sent : List (ι × Request)) : List Request :=
  (sent.filter (·.1 = who)).map Prod.snd

/-- How many requests the client that sent the `n`-th one had sent before it. -/
def number (sent : List (ι × Request)) (n : Nat) : Nat :=
  match sent[n]? with
  | some (who, _) => (requestsOf who (sent.take n)).length
  | none => 0

section Requests

variable {sent : List (ι × Request)} {n : Nat} {who : ι} {request : Request}

theorem requestsOf_append (who : ι) (sent more : List (ι × Request)) :
    requestsOf who (sent ++ more) = requestsOf who sent ++ requestsOf who more := by
  simp [requestsOf]

theorem requestsOf_cons_self (who : ι) (request : Request) (sent : List (ι × Request)) :
    requestsOf who ((who, request) :: sent) = request :: requestsOf who sent := by
  simp [requestsOf]

theorem requestsOf_cons_of_ne {other : ι} (h : other ≠ who) (request : Request)
    (sent : List (ι × Request)) :
    requestsOf who ((other, request) :: sent) = requestsOf who sent := by
  simp [requestsOf, h]

theorem length_requestsOf_le (who : ι) (sent : List (ι × Request)) :
    (requestsOf who sent).length ≤ sent.length := by
  rw [requestsOf, List.length_map]
  exact List.length_filter_le ..

theorem number_of_getElem? (h : sent[n]? = some (who, request)) :
    number sent n = (requestsOf who (sent.take n)).length := by
  rw [number, h]

omit [DecidableEq ι] in
theorem eq_take_append (h : sent[n]? = some (who, request)) :
    sent = sent.take n ++ (who, request) :: sent.drop (n + 1) := by
  obtain ⟨hbound, hget⟩ := List.getElem?_eq_some_iff.1 h
  rw [← hget, List.getElem_cons_drop hbound, List.take_append_drop]

theorem getElem?_requestsOf (h : sent[n]? = some (who, request)) :
    (requestsOf who sent)[number sent n]? = some request := by
  have hsplit : requestsOf who sent = requestsOf who (sent.take n)
      ++ request :: requestsOf who (sent.drop (n + 1)) := by
    conv => lhs; rw [eq_take_append h]
    rw [requestsOf_append, requestsOf_cons_self]
  rw [hsplit, number_of_getElem? h, List.getElem?_append_right (Nat.le_refl _), Nat.sub_self]
  rfl

/-- A client's own numbers grow with its requests, and no faster than all requests do. -/
theorem number_lt {m : Nat} {later : Request} (hnm : n < m) (hn : sent[n]? = some (who, request))
    (hm : sent[m]? = some (who, later)) :
    number sent n < number sent m ∧ number sent m ≤ number sent n + (m - n) := by
  let middle := (sent.take m).drop (n + 1)
  have hfirst : (sent.take m)[n]? = some (who, request) :=
    (List.getElem?_take_of_lt hnm).trans hn
  have htake : (sent.take m).take n = sent.take n := by
    rw [List.take_take, Nat.min_eq_left (Nat.le_of_lt hnm)]
  have hsplit : requestsOf who (sent.take m)
      = requestsOf who (sent.take n) ++ request :: requestsOf who middle := by
    conv => lhs; rw [eq_take_append hfirst]
    rw [requestsOf_append, requestsOf_cons_self, htake]
  have hmiddle : middle.length ≤ m - (n + 1) := by
    rw [List.length_drop]
    exact Nat.sub_le_sub_right (List.length_take_le ..) _
  have hown := length_requestsOf_le who middle
  rw [number_of_getElem? hn, number_of_getElem? hm, hsplit, List.length_append, List.length_cons]
  omega

end Requests

/-! ## Calls of the clients -/

variable [Transport σ]

/-- One of the clients sends a command. -/
def send (group : Sharing ι σ) (who : ι) (endpoint : Endpoint) (flags : Flags)
    (command : Command) : Answer × Sharing ι σ :=
  ((group.session who).send endpoint flags command).map id (group.resume who)

theorem send_fst (group : Sharing ι σ) (who : ι) (endpoint : Endpoint) (flags : Flags)
    (command : Command) : (group.send who endpoint flags command).1
      = ((group.session who).send endpoint flags command).1 := rfl

/-- The requests that a group has sent since its clients were new, one after another, each with its
client.  Between them anything may happen that leaves the counters alone. -/
inductive Sent : Sharing ι σ → List (ι × Request) → Prop
  | new (group : Sharing ι σ) (h : ∀ who, (group.clients who).nextId = 1) : Sent group []
  | send {group : Sharing ι σ} {sent : List (ι × Request)} (h : Sent group sent) (who : ι)
    (endpoint : Endpoint) (flags : Flags) (command : Command) :
    Sent (group.send who endpoint flags command).2
      (sent ++ [(who, .make (group.clients who).nextId flags command)])
  | meanwhile {group later : Sharing ι σ} {sent : List (ι × Request)} (h : Sent group sent)
    (hcounters : ∀ who, (later.clients who).nextId = (group.clients who).nextId) :
    Sent later sent

namespace Sent

variable {group : Sharing ι σ} {sent : List (ι × Request)}

/-- Each client has sent its own requests, as if it were alone. -/
theorem session (h : group.Sent sent) (who : ι) :
    (group.session who).Sent (requestsOf who sent) := by
  induction h with
  | new group h => exact .new _ (h who)
  | @send group sent _ sender endpoint flags command ih =>
    rw [requestsOf_append]
    by_cases hsender : sender = who
    · subst hsender
      rw [requestsOf_cons_self]
      refine (ih.send endpoint flags command).meanwhile ?_
      exact congrArg Client.nextId (if_pos rfl)
    · rw [requestsOf_cons_of_ne hsender]
      refine (List.append_nil (requestsOf who sent)).symm ▸ ih.meanwhile ?_
      exact congrArg Client.nextId (if_neg (Ne.symm hsender))
  | meanwhile _ hcounters ih => exact ih.meanwhile (hcounters who)

theorem toNat_id (h : group.Sent sent) {n : Nat} {who : ι} {request : Request}
    (hrequest : sent[n]? = some (who, request)) :
    request.id.toNat = (number sent n + 1) % ids :=
  (h.session who).toNat_id (getElem?_requestsOf hrequest)

theorem run {α : Type} {plan : Plan α} (h : group.Sent sent) (who : ι) :
    ∃ more : List Request, (group.resume who (plan.run (group.session who)).2).Sent
      (sent ++ more.map (Prod.mk who)) := by
  induction plan generalizing group sent with
  | done result =>
    refine ⟨[], (List.append_nil sent).symm ▸ h.meanwhile ?_⟩
    intro other
    rw [clients_resume]
    split
    · next hother =>
      rw [hother]
      rfl
    · rfl
  | ask endpoint flags command next ih =>
    have hsend := h.send who endpoint flags command
    have hsession : (group.send who endpoint flags command).2.session who
        = ((group.session who).send endpoint flags command).2 := session_resume ..
    obtain ⟨more, hmore⟩ := ih ((group.session who).send endpoint flags command).1 hsend
    rw [hsession, List.append_assoc] at hmore
    refine ⟨_ :: more, hmore.meanwhile ?_⟩
    -- the others were left alone, one request after another
    intro other
    simp only [clients_resume, Plan.run]
    split
    · rfl
    · next hother => rw [Sharing.send, Prod.map_snd, clients_resume, if_neg hother]

theorem perform (h : group.Sent sent) (who : ι) (call : ClientCall) :
    ∃ more : List Request,
      (group.perform who call).2.Sent (sent ++ more.map (Prod.mk who)) := by
  have hrun : (group.perform who call).2 = group.resume who
      ((call.plan (group.clients who)).run (group.session who)).2 := by
    unfold Sharing.perform
    rw [perform_eq_run]
    rfl
  rw [hrun]
  exact h.run who

end Sent

/-! ## Replies over one socket -/

section Replies

variable {ν : Type} [Network ν] {group : Sharing ι (Sockets ν)} {sent : List (ι × Request)}

/-- A reply has the id of the last request if the number that its own request has at its client is
the same, but for whole rounds of ids. -/
theorem Sent.id_eq_iff (h : group.Sent sent) (who : ι) (endpoint : Endpoint) (flags : Flags)
    (command : Command) {n : Nat} {datagram : Bytes} :
    let request := Request.make (group.clients who).nextId flags command
    let history := sent ++ [(who, request)]
    Echoes (history.map Prod.snd) n datagram →
      ∃ read, Reply.decode datagram = .ok read
        ∧ (read.id = request.id ↔ number history n % ids = number history sent.length % ids) := by
  intro request history hechoes
  obtain ⟨asked, read, hasked, hdecode, hid⟩ := hechoes
  rw [List.getElem?_map, Option.map_eq_some_iff] at hasked
  obtain ⟨⟨asker, _⟩, hentry, rfl⟩ := hasked
  have hhistory : (group.send who endpoint flags command).2.Sent history :=
    h.send who endpoint flags command
  have hn := hhistory.toNat_id hentry
  have hlast := hhistory.toNat_id List.getElem?_concat_length
  refine ⟨read, hdecode, ?_⟩
  rw [hid, ← UInt32.toNat_inj, hn, hlast]
  unfold ids
  omega

/-- While no reply is too old, the number tells a client's own requests apart. -/
theorem number_eq_iff {history : List (ι × Request)} {n m : Nat} {who : ι} {asked request : Request}
    (hn : history[n]? = some (who, asked)) (hm : history[m]? = some (who, request)) (hle : n ≤ m)
    (hwindow : m < n + ids) : number history n % ids = number history m % ids ↔ n = m := by
  constructor
  · intro hsame
    rcases Nat.lt_or_eq_of_le hle with hlt | heq
    -- then the numbers are apart, by less than one round
    · have hnumber := number_lt hlt hn hm
      unfold ids at hsame hwindow
      omega
    · exact heq
  · intro heq
    rw [heq]

/-- The requests of each client are numbered from 1, and the number gives the id by the remainder,
through all that the clients are called for in any order.  Over UDP a client takes for its reply the
first datagram in the shared queue whose request has the same number at its client as this one, but
for whole rounds; this is one for its own request whenever nothing in the queue is for a request of
another client that has the same number, nor for one that is `2 ^ 28` (`Wire.ids`) requests old. -/
theorem replies_matched_by_number (h : group.Sent sent) {endpoint : Endpoint}
    (hkind : endpoint.kind = .udp) (who : ι) (flags : Flags) (command : Command) :
    let request := Request.make (group.clients who).nextId flags command
    let history := sent ++ [(who, request)]
    let last := number history sent.length % ids
    (∀ n asker asked, history[n]? = some (asker, asked) →
        asked.id.toNat = (number history n + 1) % ids)
      ∧ (∀ asker call, ∃ more : List Request,
        (group.perform asker call).2.Sent (sent ++ more.map (Prod.mk asker)))
      ∧ ∀ tagged : List (Nat × Bytes),
        tagged.map Prod.snd = group.transport.queued endpoint request →
        (∀ entry ∈ tagged, Echoes (history.map Prod.snd) entry.1 entry.2) →
        ∀ reply,
          ((group.send who endpoint flags command).1 = .ok reply
            ↔ FirstFor (tagged.map fun entry => (number history entry.1 % ids, entry.2)) last reply)
          ∧ ((∀ entry ∈ tagged, sent.length < entry.1 + ids
              ∧ ∀ asker asked, history[entry.1]? = some (asker, asked) → asker ≠ who →
                number history entry.1 % ids ≠ last) →
            ((group.send who endpoint flags command).1 = .ok reply
              ↔ FirstFor tagged sent.length reply)) := by
  intro request history last
  refine ⟨?_, fun asker call => h.perform asker call, ?_⟩
  · intro n asker asked hasked
    exact (h.send who endpoint flags command).toNat_id hasked
  · intro tagged hqueued hechoes reply
    have hids : ∀ entry ∈ tagged, ∃ read, Reply.decode entry.2 = .ok read
        ∧ (read.id = request.id ↔ number history entry.1 % ids = last) :=
      fun entry hentry => h.id_eq_iff who endpoint flags command (hechoes entry hentry)
    rw [send_fst]
    constructor
    · apply Session.send_eq_ok_iff hkind
      · rw [List.map_map]
        exact hqueued
      · intro entry hentry
        obtain ⟨original, horiginal, rfl⟩ := List.mem_map.1 hentry
        exact hids original horiginal
    · intro hapart
      apply Session.send_eq_ok_iff hkind hqueued
      intro entry hentry
      obtain ⟨read, hdecode, hid⟩ := hids entry hentry
      obtain ⟨hwindow, hothers⟩ := hapart entry hentry
      refine ⟨read, hdecode, hid.trans ?_⟩
      obtain ⟨asked, _, hasked, -, -⟩ := hechoes entry hentry
      rw [List.getElem?_map, Option.map_eq_some_iff] at hasked
      obtain ⟨⟨asker, _⟩, hfound, -⟩ := hasked
      have hbound := (List.getElem?_eq_some_iff.1 hfound).1
      rw [List.length_append, List.length_singleton] at hbound
      have hlast : history[sent.length]? = some (who, request) := List.getElem?_concat_length
      by_cases hown : asker = who
      · subst hown
        exact number_eq_iff hfound hlast (by omega) hwindow
      -- another client's request has another number, and is another one
      · constructor
        · intro hsame
          exact absurd hsame (hothers asker _ hfound hown)
        · intro heq
          rw [heq]

/-- Nobody answers the first client in time.  While the second waits for the answer to its first
request, both are answered, and it takes what a server answered to the other. -/
theorem replies_confused :
    let endpoint : Endpoint := .udp "peer" 1
    let server : Server := (((Server.start {}).handle ⟨1, .none, .set [1] [7]⟩).2.handle
      ⟨2, .none, .set [2] [8]⟩).2
    let first : Request := .make 1 .none (.get [1])
    let second : Request := .make 1 .none (.get [2])
    let toFirst := (server.handle first).1
    let toSecond := ((server.handle first).2.handle second).1
    let machine : Loopback := ⟨true, some (.udp, "peer"),
      [⟨[], false⟩, ⟨[toFirst.encode, toSecond.encode], false⟩], [], [⟨.udp, "peer", false⟩]⟩
    let start : Sharing Bool (Sockets Loopback) :=
      ⟨fun _ => .new {}, ⟨64, [(endpoint, ⟨0, []⟩)], machine⟩⟩
    let asked := start.send false endpoint .none (.get [1])
    let answered := asked.2.send true endpoint .none (.get [2])
    let tagged := [(0, toFirst.encode), (1, toSecond.encode)]
    asked.1 = .error .timeout ∧ asked.2.Sent [(false, first)]
      ∧ tagged.map Prod.snd = asked.2.transport.queued endpoint second
      ∧ (∀ entry ∈ tagged, Echoes [first, second] entry.1 entry.2 ∧ 1 + 1 < entry.1 + ids)
      ∧ answered.1 = .ok toFirst ∧ ¬FirstFor tagged 1 toFirst := by
  intro endpoint server first second toFirst toSecond machine start asked answered tagged
  have hechoes : ∀ entry ∈ tagged, Echoes [first, second] entry.1 entry.2
      ∧ 1 + 1 < entry.1 + ids := by
    have hfirst : Echoes [first, second] 0 toFirst.encode :=
      ⟨first, toFirst, rfl, Reply.decode_encode _, rfl⟩
    have hsecond : Echoes [first, second] 1 toSecond.encode :=
      ⟨second, toSecond, rfl, Reply.decode_encode _, rfl⟩
    simp only [tagged, List.forall_mem_cons]
    exact ⟨⟨hfirst, by decide⟩, ⟨hsecond, by decide⟩, List.forall_mem_nil _⟩
  have hqueued : tagged.map Prod.snd = asked.2.transport.queued endpoint second := by
    decide +kernel
  have hanswered : answered.1 = .ok toFirst := by
    -- both replies have the id that is waited for
    let alike := [(1, toFirst.encode), (1, toSecond.encode)]
    have hids : ∀ entry ∈ alike,
        ∃ read, Reply.decode entry.2 = .ok read ∧ (read.id = second.id ↔ entry.1 = 1) := by
      simp only [alike, List.forall_mem_cons]
      exact ⟨⟨toFirst, Reply.decode_encode _, by decide⟩,
        ⟨toSecond, Reply.decode_encode _, by decide⟩, List.forall_mem_nil _⟩
    have hsame : alike.map Prod.snd = (asked.2.session true).transport.queued endpoint second :=
      hqueued
    simp only [answered, send_fst]
    apply (Session.send_eq_ok_iff (show endpoint.kind = .udp from rfl) hsame hids).2
    exact firstFor_cons_self.2 (Reply.decode_encode _)
  have htimeout : asked.1 = .error .timeout := rfl
  have hsent : asked.2.Sent [(false, first)] :=
    (Sent.new start fun _ => rfl).send false endpoint .none (.get [1])
  refine ⟨htimeout, hsent, hqueued, hechoes, hanswered, ?_⟩
  -- the only datagram for the request says something else
  have hskip : (0, toFirst.encode).1 ≠ 1 := by decide
  rw [firstFor_cons_of_ne hskip, firstFor_cons_self, Reply.decode_encode, Except.ok.injEq]
  decide

/-- The late reply is one to the second request of the other client. -/
theorem replies_matched_by_number_apart :
    let late : Bytes := Reply.encode (.value 2 .ok [7])
    let own : Bytes := Reply.encode (.value 1 .ok [8])
    let endpoint : Endpoint := .udp "peer" 1
    let machine : Loopback := ⟨true, some (.udp, "peer"),
      [⟨[], false⟩, ⟨[], false⟩, ⟨[late, own], false⟩], [], [⟨.udp, "peer", false⟩]⟩
    let start : Sharing Bool (Sockets Loopback) :=
      ⟨fun _ => .new {}, ⟨64, [(endpoint, ⟨0, []⟩)], machine⟩⟩
    let asked := (start.send false endpoint .none (.get [1])).2.send false endpoint .none (.get [1])
    asked.2.Sent [(false, .make 1 .none (.get [1])), (false, .make 2 .none (.get [1]))]
      ∧ asked.2.transport.queued endpoint (.make 1 .none (.get [2])) = [late, own]
      ∧ (asked.2.send true endpoint .none (.get [2])).1 = .ok (.value 1 .ok [8]) := by
  intro late own endpoint machine start asked
  let history : List (Bool × Request) := [(false, .make 1 .none (.get [1])),
    (false, .make 2 .none (.get [1])), (true, .make 1 .none (.get [2]))]
  have hsent : asked.2.Sent [(false, .make 1 .none (.get [1])), (false, .make 2 .none (.get [1]))] :=
    ((Sent.new start fun _ => rfl).send false endpoint .none (.get [1])).send false endpoint .none
      (.get [1])
  obtain ⟨-, -, hmatched⟩ := replies_matched_by_number hsent (show endpoint.kind = .udp from rfl) true
    .none (.get [2])
  have hechoes : ∀ entry ∈ [(1, late), (2, own)], Echoes (history.map Prod.snd) entry.1 entry.2 := by
    have hlate : Echoes (history.map Prod.snd) 1 late := ⟨_, _, rfl, Reply.decode_encode _, rfl⟩
    have hown : Echoes (history.map Prod.snd) 2 own := ⟨_, _, rfl, Reply.decode_encode _, rfl⟩
    simp only [List.forall_mem_cons]
    exact ⟨hlate, hown, List.forall_mem_nil _⟩
  have hapart : ∀ entry ∈ [(1, late), (2, own)], 2 < entry.1 + ids
      ∧ ∀ asker request, history[entry.1]? = some (asker, request) → asker ≠ true →
        number history entry.1 % ids ≠ number history 2 % ids := by
    simp only [List.forall_mem_cons]
    refine ⟨⟨by decide, ?_⟩, ⟨by decide, ?_⟩, List.forall_mem_nil _⟩
    · intro asker request _ _
      decide
    · intro asker request hlast hother
      cases hlast
      exact absurd rfl hother
  have hqueued : asked.2.transport.queued endpoint (.make 1 .none (.get [2])) = [late, own] := by
    decide +kernel
  refine ⟨hsent, hqueued, ?_⟩
  have hfirst : FirstFor [(1, late), (2, own)] 2 (.value 1 .ok [8]) :=
    ⟨[(1, late)], own, [], rfl, by simp, Reply.decode_encode _⟩
  have hreply := hmatched [(1, late), (2, own)] hqueued.symm hechoes (.value 1 .ok [8])
  exact (hreply.2 hapart).2 hfirst

end Replies

end Sharing

end TieredStore
