import TieredStore.Proofs.Except
import TieredStore.Proofs.FailureCode
import TieredStore.Proofs.Reply.Payload
import TieredStore.Proofs.Wire.ReplyForm

/-!
# Values in replies

Messages with room for a header and replies are the same thing (`Reply.decode_eq_ok_iff`).  Each
accessor takes a value out of exactly those payloads that begin with the value's form
(`Reply.Carries`), so a value arrives as it was sent, and a payload that was cut short carries
nothing (`Reply.Carries.delivers`).
-/

namespace TieredStore.Reply

open Wire

/-! ## Messages -/

theorem bigEndian_toNat_ofBigEndian {bs : Bytes} (h : bs.length = 4) :
    Bytes.bigEndian 4 (UInt32.ofNat (Bytes.ofBigEndian bs)).toNat = bs := by
  have hlt : Bytes.ofBigEndian bs < Bytes.words 4 := h ▸ Bytes.ofBigEndian_lt bs
  have hword : (UInt32.ofNat (Bytes.ofBigEndian bs)).toNat = Bytes.ofBigEndian bs :=
    UInt32.toNat_ofNat_of_lt hlt
  rw [hword, ← h, Bytes.bigEndian_ofBigEndian]

theorem decode_eq_ok_iff {bs : Bytes} {reply : Reply} :
    decode bs = .ok reply ↔ reply.encode = bs := by
  constructor
  · intro h
    rw [decode] at h
    cases hsplit : Bytes.split? replyHeaderSize bs with
    | none =>
      rw [hsplit] at h
      cases h
    | some parts =>
      obtain ⟨header, payload⟩ := parts
      obtain ⟨rfl, hlen⟩ := Bytes.split?_eq_some_iff.1 hsplit
      rw [hsplit] at h
      cases h
      have hid : (header.take 4).length = 4 := by
        rw [List.length_take, hlen]
        rfl
      have hcode : (header.drop 4).length = 4 := by
        rw [List.length_drop, hlen]
        rfl
      rw [encode, bigEndian_toNat_ofBigEndian hid, bigEndian_toNat_ofBigEndian hcode,
        List.take_append_drop]
  · rintro rfl
    exact decode_encode reply

/-! ## Rows of counters -/

theorem takeCounters?_succ_eq_some_iff {count : Nat} {bs : Bytes} {counters : List UInt64} :
    takeCounters? (count + 1) bs = some counters ↔ ∃ word rest others,
      Bytes.takeBig? 8 bs = some (word, rest) ∧ takeCounters? count rest = some others
        ∧ UInt64.ofNat word :: others = counters := by
  rw [takeCounters?]
  cases Bytes.takeBig? 8 bs with
  | none => simp
  | some taken =>
    obtain ⟨word, rest⟩ := taken
    simp [and_assoc]

theorem takeCounters?_eq_some_iff {count : Nat} {bs : Bytes} {counters : List UInt64} :
    takeCounters? count bs = some counters ↔ counters.length = count
      ∧ (counters.flatMap fun counter => Bytes.bigEndian 8 counter.toNat) <+: bs := by
  induction count generalizing bs counters with
  | zero =>
    simp only [takeCounters?, Option.some.injEq, List.length_eq_zero_iff]
    constructor
    · rintro rfl
      exact ⟨rfl, List.nil_prefix⟩
    · rintro ⟨rfl, -⟩
      rfl
  | succ count ih =>
    rw [takeCounters?_succ_eq_some_iff]
    constructor
    · rintro ⟨word, rest, others, htake, hothers, rfl⟩
      obtain ⟨rfl, hword⟩ := Bytes.takeBig?_eq_some_iff.1 htake
      obtain ⟨hlen, hrow⟩ := ih.1 hothers
      have hback : (UInt64.ofNat word).toNat = word := UInt64.toNat_ofNat_of_lt hword
      refine ⟨congrArg Nat.succ hlen, ?_⟩
      rw [List.flatMap_cons, hback, List.prefix_append_right_inj]
      exact hrow
    · rintro ⟨hlen, rest, rfl⟩
      cases counters with
      | nil => cases hlen
      | cons counter others =>
        rw [List.flatMap_cons, List.append_assoc]
        refine ⟨counter.toNat, _, others, Bytes.takeBig?_eq_some_iff.2 ⟨rfl, counter.toNat_lt⟩,
          ih.2 ⟨Nat.succ.inj hlen, List.prefix_append ..⟩, ?_⟩
        rw [UInt64.ofNat_toNat]

/-! ## What a payload begins with -/

theorem statsValues_eq_ok_iff {reply : Reply} {counters : List UInt64} :
    reply.statsValues = .ok counters ↔ counters.length < 0x100000000
      ∧ (Bytes.bigEndian 4 counters.length
        ++ counters.flatMap fun counter => Bytes.bigEndian 8 counter.toNat) <+: reply.payload := by
  unfold statsValues
  constructor
  · intro h
    cases htake : Bytes.takeBig? 4 reply.payload with
    | none => simp [htake] at h
    | some taken =>
      obtain ⟨count, bs⟩ := taken
      obtain ⟨hpayload, hcount⟩ := Bytes.takeBig?_eq_some_iff.1 htake
      simp only [htake] at h
      cases hrow : takeCounters? count bs with
      | none => simp [hrow] at h
      | some counters =>
        simp only [hrow] at h
        cases h
        obtain ⟨rfl, hbegins⟩ := takeCounters?_eq_some_iff.1 hrow
        refine ⟨hcount, ?_⟩
        rw [hpayload, List.prefix_append_right_inj]
        exact hbegins
  · rintro ⟨hcount, rest, hpayload⟩
    rw [List.append_assoc] at hpayload
    have htake := Bytes.takeBig?_eq_some_iff.2 ⟨hpayload.symm, hcount⟩
    simp only [htake, takeCounters?_eq_some_iff.2 ⟨rfl, List.prefix_append ..⟩]

/-- The error of a reply is under its name, if its number has one. -/
theorem serverError_eq_ok_iff {reply : Reply} {error : ServerError} :
    reply.serverError = .ok error
      ↔ .ofCode error.code = error ∧ Bytes.bigEndian 4 error.code.toNat <+: reply.payload := by
  constructor
  · intro h
    rcases errorCode_or_short reply with ⟨code, hbegins⟩ | hshort
    · rw [serverError_of_begins hbegins] at h
      cases h
      rw [ServerError.code_ofCode]
      exact ⟨rfl, hbegins⟩
    · rw [serverError_of_short hshort] at h
      cases h
  · rintro ⟨hname, hbegins⟩
    rw [serverError_of_begins hbegins, hname]

/-- An accessor gives a value where the payload begins with the value's form, and a fault where it
begins with the form of none. -/
structure Carries {α : Type} (accessor : Reply → Except Fault α) (fits : α → Prop)
    (form : α → Bytes) : Prop where
  ok_iff : ∀ {reply a}, accessor reply = .ok a ↔ fits a ∧ form a <+: reply.payload
  error_iff : ∀ {reply},
    (∃ fault, accessor reply = .error fault) ↔ ∀ a, fits a → ¬form a <+: reply.payload

/-- A reply brings a value to whoever reads its encoding, and with a part of its payload only it
brings none. -/
structure Delivers {α : Type} (accessor : Reply → Except Fault α) (reply : Reply) (a : α) :
    Prop where
  arrives : (decode reply.encode >>= accessor) = .ok a
  refuses : ∀ front, front <+: reply.payload → front ≠ reply.payload →
    ∃ fault, accessor { reply with payload := front } = .error fault

namespace Carries

variable {α : Type} {accessor : Reply → Except Fault α} {fits : α → Prop} {form : α → Bytes}

theorem of_ok_iff
    (h : ∀ {reply a}, accessor reply = .ok a ↔ fits a ∧ form a <+: reply.payload) :
    Carries accessor fits form where
  ok_iff := h
  error_iff := by
    intro reply
    constructor
    · rintro ⟨fault, hfault⟩ a hfits hbegins
      rw [h.2 ⟨hfits, hbegins⟩] at hfault
      cases hfault
    · intro hnone
      exact exists_error_of_forall_ne_ok fun a ha => hnone a (h.1 ha).1 (h.1 ha).2

/-- No form is the beginning of another, since the accessor would give both values. -/
theorem eq_of_prefix (h : Carries accessor fits form) {a b : α} (ha : fits a) (hb : fits b)
    (hbegins : form a <+: form b) : a = b := by
  have hread : accessor ⟨0, 0, form b⟩ = .ok a := h.ok_iff.2 ⟨ha, hbegins⟩
  rw [h.ok_iff.2 ⟨hb, List.prefix_rfl⟩] at hread
  exact (Except.ok.inj hread).symm

theorem delivers (h : Carries accessor fits form) {reply : Reply} {a : α} (ha : fits a)
    (hpayload : reply.payload = form a) : Delivers accessor reply a where
  arrives := by
    rw [decode_encode]
    exact h.ok_iff.2 ⟨ha, hpayload ▸ List.prefix_rfl⟩
  refuses := by
    intro front hfront hne
    refine h.error_iff.2 fun b hb hbegins => hne ?_
    -- the only form in the whole payload is that of the value
    have hwhole : form b <+: form a := hpayload ▸ hbegins.trans hfront
    obtain rfl := h.eq_of_prefix hb ha hwhole
    exact hfront.eq_of_length_le (hpayload ▸ hbegins.length_le)

end Carries

theorem carries_value :
    Carries valueBytes (·.length < 0x100000000) fun v => Bytes.bigEndian 4 v.length ++ v :=
  .of_ok_iff valueBytes_eq_ok_iff

theorem carries_stats : Carries statsValues (·.length < 0x100000000) fun counters =>
    Bytes.bigEndian 4 counters.length
      ++ counters.flatMap fun counter => Bytes.bigEndian 8 counter.toNat :=
  .of_ok_iff statsValues_eq_ok_iff

theorem carries_counter :
    Carries counterValue (fun _ => True) fun n => Bytes.bigEndian 8 n.toUInt64.toNat :=
  .of_ok_iff (counterValue_eq_ok_iff.trans (iff_of_eq (true_and _).symm))

theorem carries_error :
    Carries serverError (fun error => .ofCode error.code = error) fun error =>
      Bytes.bigEndian 4 error.code.toNat :=
  .of_ok_iff serverError_eq_ok_iff

/-- Replies and messages determine each other, an accessor takes out of a payload the value that it
begins with and nothing else, and what a reply was made with arrives. -/
theorem values_exact :
    (∀ bs reply, decode bs = .ok reply ↔ reply.encode = bs)
      ∧ (∀ bs, (∃ reply : Reply, reply.encode = bs) ↔ 8 ≤ bs.length)
      ∧ (∀ bs, bs.length < 8 → decode bs = .error (.shortReply 8 bs.length))
      ∧ Carries valueBytes (·.length < 0x100000000) (fun v => Bytes.bigEndian 4 v.length ++ v)
      ∧ Carries statsValues (·.length < 0x100000000) (fun counters =>
          Bytes.bigEndian 4 counters.length
            ++ counters.flatMap fun counter => Bytes.bigEndian 8 counter.toNat)
      ∧ Carries counterValue (fun _ => True) (fun n => Bytes.bigEndian 8 n.toUInt64.toNat)
      ∧ Carries serverError (fun error => .ofCode error.code = error) (fun error =>
          Bytes.bigEndian 4 error.code.toNat)
      ∧ (∀ id code (v : Bytes), v.length < 0x100000000 →
          Delivers valueBytes (value id code v) v)
      ∧ (∀ id (counters : List UInt64), counters.length < 0x100000000 →
          Delivers statsValues (stats id counters) counters)
      ∧ (∀ id n, Delivers counterValue (counter id n) n)
      ∧ ∀ id e, Delivers serverError (error id e) (.ofCode e.code) := by
  refine ⟨fun bs reply => decode_eq_ok_iff, fun bs => ?_, fun bs => decode_of_lt, carries_value,
    carries_stats, carries_counter, carries_error,
    fun id code v hv => carries_value.delivers hv rfl,
    fun id counters hcounters => carries_stats.delivers hcounters rfl,
    fun id n => carries_counter.delivers trivial rfl, fun id e => ?_⟩
  · constructor
    · rintro ⟨reply, rfl⟩
      simp only [encode, List.length_append, Bytes.length_bigEndian]
      omega
    · intro hlen
      obtain ⟨reply, hread, -⟩ := decode_of_le hlen
      exact ⟨reply, decode_eq_ok_iff.1 hread⟩
  · have hcode : (ServerError.ofCode e.code).code = e.code := ServerError.code_ofCode e.code
    refine carries_error.delivers (by rw [hcode]) ?_
    rw [hcode]
    rfl

/-- Two counters, a value with a NUL in it, an error by the number of a named one, and three bytes
that are no reply. -/
theorem values_exact_named :
    let counters : List UInt64 := [0, 0xFFFFFFFFFFFFFFFF]
    let v : Bytes := [118, 0, 118]
    counters.length < 0x100000000 ∧ Delivers statsValues (stats 7 counters) counters
      ∧ v.length < 0x100000000 ∧ Delivers valueBytes (value 7 .cacheHit v) v
      ∧ Delivers serverError (error 7 (.other 0x106)) .database
      ∧ v.length < 8 ∧ decode v = .error (.shortReply 8 3) := by
  intro counters v
  obtain ⟨-, -, hshort, -, -, -, -, hvalue, hstats, -, herror⟩ := values_exact
  exact ⟨by decide, hstats 7 counters (by decide), by decide, hvalue 7 .cacheHit v (by decide),
    herror 7 (.other 0x106), by decide, hshort v (by decide)⟩

end TieredStore.Reply
