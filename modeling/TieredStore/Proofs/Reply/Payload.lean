import TieredStore.Client.Answer

/-!
# What replies carry

An accessor reads the beginning of a payload, and takes out of it what the reply was made with.
-/

namespace TieredStore

namespace ReplyCode

theorem word_inj {a b : ReplyCode} : a.word = b.word ↔ a = b := by
  constructor
  · intro h
    have hread := congrArg ofWord? h
    rw [ofWord?_word, ofWord?_word] at hread
    exact Option.some.inj hread
  · intro h
    rw [h]

theorem ofWord?_eq_some_iff {word : UInt32} {code : ReplyCode} :
    ofWord? word = some code ↔ word = code.word := by
  constructor
  · intro h
    unfold ofWord? at h
    -- six words have a meaning
    iterate 6
      split at h
      · rename_i hword
        rw [← Option.some.inj h, hword]
        rfl
    cases h
  · intro h
    rw [h, ofWord?_word]

end ReplyCode

/-- Bytes begin with a word, or there are too few of them. -/
theorem Bytes.word_or_short (width : Nat) (bs : Bytes) :
    (∃ word < words width, bigEndian width word <+: bs) ∨ bs.length < width := by
  cases htake : takeBig? width bs with
  | none => exact .inr (split?_eq_none_iff.1 (Option.map_eq_none_iff.1 htake))
  | some taken =>
    obtain ⟨word, rest⟩ := taken
    obtain ⟨hbs, hword⟩ := takeBig?_eq_some_iff.1 htake
    exact .inl ⟨word, hword, rest, hbs.symm⟩

namespace Reply

/-! ## What a payload begins with -/

theorem valueBytes_eq_ok_iff {reply : Reply} {v : Bytes} :
    reply.valueBytes = .ok v
      ↔ v.length < 0x100000000 ∧ Bytes.bigEndian 4 v.length ++ v <+: reply.payload := by
  unfold valueBytes
  constructor
  · intro h
    cases htake : Bytes.takeBig? 4 reply.payload with
    | none => simp [htake] at h
    | some taken =>
      obtain ⟨n, bs⟩ := taken
      obtain ⟨hpayload, hn⟩ := Bytes.takeBig?_eq_some_iff.1 htake
      simp only [htake] at h
      cases hsplit : Bytes.split? n bs with
      | none => simp [hsplit] at h
      | some split =>
        obtain ⟨front, rest⟩ := split
        obtain ⟨hbs, hfront⟩ := Bytes.split?_eq_some_iff.1 hsplit
        simp only [hsplit] at h
        -- the bytes taken are as many as the length in front of them says
        cases h
        rw [hfront]
        refine ⟨hn, rest, ?_⟩
        rw [hpayload, hbs, List.append_assoc]
  · rintro ⟨hv, rest, hpayload⟩
    have htake : Bytes.takeBig? 4 reply.payload = some (v.length, v ++ rest) := by
      rw [Bytes.takeBig?_eq_some_iff, ← hpayload, List.append_assoc]
      exact ⟨rfl, hv⟩
    simp only [htake, Bytes.split?_append]

theorem counterValue_eq_ok_iff {reply : Reply} {n : Int64} :
    reply.counterValue = .ok n ↔ Bytes.bigEndian 8 n.toUInt64.toNat <+: reply.payload := by
  unfold counterValue
  constructor
  · intro h
    cases htake : Bytes.takeBig? 8 reply.payload with
    | none => simp [htake] at h
    | some taken =>
      obtain ⟨word, rest⟩ := taken
      obtain ⟨hpayload, hword⟩ := Bytes.takeBig?_eq_some_iff.1 htake
      simp only [htake] at h
      cases h
      have hback : (UInt64.ofNat word).toNat = word := UInt64.toNat_ofNat_of_lt hword
      rw [UInt64.toUInt64_toInt64, hback]
      exact ⟨rest, hpayload.symm⟩
  · rintro ⟨rest, hpayload⟩
    have htake : Bytes.takeBig? 8 reply.payload = some (n.toUInt64.toNat, rest) :=
      Bytes.takeBig?_eq_some_iff.2 ⟨hpayload.symm, n.toUInt64.toNat_lt⟩
    simp only [htake, UInt64.ofNat_toNat, Int64.toInt64_toUInt64]

theorem serverError_of_begins {reply : Reply} {code : UInt32}
    (h : Bytes.bigEndian 4 code.toNat <+: reply.payload) :
    reply.serverError = .ok (.ofCode code) := by
  obtain ⟨rest, hpayload⟩ := h
  have htake : Bytes.takeBig? 4 reply.payload = some (code.toNat, rest) :=
    Bytes.takeBig?_eq_some_iff.2 ⟨hpayload.symm, code.toNat_lt⟩
  unfold serverError
  simp only [htake, UInt32.ofNat_toNat]

theorem serverError_of_short {reply : Reply} (h : reply.payload.length < 4) :
    reply.serverError = .error .missingErrorCode := by
  have htake : Bytes.takeBig? 4 reply.payload = none :=
    Option.map_eq_none_iff.2 (Bytes.split?_eq_none_iff.2 h)
  unfold serverError
  simp only [htake]

theorem counterValue_of_short {reply : Reply} (h : reply.payload.length < 8) :
    reply.counterValue = .error (.shortCounter reply.payload.length) := by
  have htake : Bytes.takeBig? 8 reply.payload = none :=
    Option.map_eq_none_iff.2 (Bytes.split?_eq_none_iff.2 h)
  unfold counterValue
  simp only [htake]

theorem errorCode_or_short (reply : Reply) :
    (∃ code : UInt32, Bytes.bigEndian 4 code.toNat <+: reply.payload)
      ∨ reply.payload.length < 4 := by
  rcases Bytes.word_or_short 4 reply.payload with ⟨word, hword, hbegins⟩ | hshort
  · have hback : (UInt32.ofNat word).toNat = word := UInt32.toNat_ofNat_of_lt hword
    exact .inl ⟨UInt32.ofNat word, hback.symm ▸ hbegins⟩
  · exact .inr hshort

theorem number_or_short (reply : Reply) :
    (∃ number : Int64, Bytes.bigEndian 8 number.toUInt64.toNat <+: reply.payload)
      ∨ reply.payload.length < 8 := by
  rcases Bytes.word_or_short 8 reply.payload with ⟨word, hword, hbegins⟩ | hshort
  · have hback : (UInt64.ofNat word).toInt64.toUInt64.toNat = word := by
      rw [UInt64.toUInt64_toInt64]
      exact UInt64.toNat_ofNat_of_lt hword
    exact .inl ⟨(UInt64.ofNat word).toInt64, hback.symm ▸ hbegins⟩
  · exact .inr hshort

/-! ## Replies that are made -/

theorem valueBytes_value (id : UInt32) (code : ReplyCode) {v : Bytes} (h : v.length < 0x100000000) :
    (value id code v).valueBytes = .ok v :=
  valueBytes_eq_ok_iff.2 ⟨h, List.prefix_rfl⟩

theorem counterValue_counter (id : UInt32) (n : Int64) : (counter id n).counterValue = .ok n :=
  counterValue_eq_ok_iff.2 List.prefix_rfl

theorem serverError_error (id : UInt32) (e : ServerError) :
    (error id e).serverError = .ok (.ofCode e.code) :=
  serverError_of_begins List.prefix_rfl

end Reply

theorem Reply.status_error (id : UInt32) (e : ServerError) :
    (Reply.error id e).status = .failed (.server (.ofCode e.code)) := by
  unfold Reply.status
  rw [Reply.serverError_error]
  rfl

/-! ## Answers with a value -/

theorem Answer.value_value (id : UInt32) {code : ReplyCode} {bytes : Bytes}
    (hcode : code = .ok ∨ code = .cacheHit) (hshort : bytes.length < 0x100000000) :
    Answer.value (.ok (.value id code bytes)) = (.done, some bytes) := by
  have hstatus : (Reply.value id code bytes).status = .done := by
    rcases hcode with rfl | rfl
    · rfl
    · rfl
  unfold Answer.value Answer.carrying
  simp only [hstatus, Reply.valueBytes_value id code hshort]

theorem Answer.counter_counter (id : UInt32) (number : Int64) :
    Answer.counter (.ok (.counter id number)) = (.done, some number) := by
  have hstatus : (Reply.counter id number).status = .done := rfl
  unfold Answer.counter Answer.carrying
  simp only [hstatus, Reply.counterValue_counter]

end TieredStore
