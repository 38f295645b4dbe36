import TieredStore.Proofs.Except
import TieredStore.Wire.Request

/-!
# The wire form of a request is its only one

A request whose parts have sizes that four bytes hold is read from exactly the messages that begin
with its encoding.  Readers are characterised first, each by the bytes from which it takes a value;
arguments and headers are put together from them, once in the direction of writing
(`decode_encode_append`) and once in the direction of reading (`of_decode`).
-/

namespace TieredStore

theorem Bytes.words_four : Bytes.words 4 = 0x100000000 := rfl

namespace Wire

/-! ## Readers -/

theorem takeSize_eq_ok_iff {part : Part} {n : Nat} {bs rest : Bytes} :
    takeSize part bs = .ok (n, rest) ↔ bs = Bytes.bigEndian 4 n ++ rest ∧ n < Bytes.words 4 := by
  rw [← Bytes.takeBig?_eq_some_iff, takeSize]
  cases h : Bytes.takeBig? 4 bs with
  | none => simp
  | some taken => simp

theorem takePart_eq_ok_iff {part : Part} {n : Nat} {bs front rest : Bytes} :
    takePart part n bs = .ok (front, rest) ↔ bs = front ++ rest ∧ front.length = n := by
  rw [← Bytes.split?_eq_some_iff, takePart]
  cases h : Bytes.split? n bs with
  | none => simp
  | some taken => simp

theorem takeKey_eq_ok_iff {type : CommandType} {bs key rest : Bytes} :
    takeKey type bs = .ok (key, rest)
      ↔ bs = size key ++ key ++ rest ∧ key.length < Bytes.words 4 := by
  simp only [takeKey, bind_eq_ok_iff, Prod.exists, takeSize_eq_ok_iff, takePart_eq_ok_iff, size]
  constructor
  · rintro ⟨n, bs, ⟨rfl, hlt⟩, rfl, rfl⟩
    exact ⟨by rw [List.append_assoc], hlt⟩
  · rintro ⟨rfl, hlt⟩
    exact ⟨key.length, key ++ rest, ⟨by rw [List.append_assoc], hlt⟩, rfl, rfl⟩

theorem takeSize_size {part : Part} {bs : Bytes} (h : bs.length < Bytes.words 4) (rest : Bytes) :
    takeSize part (size bs ++ rest) = .ok (bs.length, rest) :=
  takeSize_eq_ok_iff.2 ⟨rfl, h⟩

theorem takePart_append {part : Part} (bs rest : Bytes) :
    takePart part bs.length (bs ++ rest) = .ok (bs, rest) :=
  takePart_eq_ok_iff.2 ⟨rfl, rfl⟩

theorem takeKey_append {type : CommandType} {key : Bytes} (h : key.length < Bytes.words 4)
    (rest : Bytes) : takeKey type (size key ++ (key ++ rest)) = .ok (key, rest) :=
  takeKey_eq_ok_iff.2 ⟨by rw [List.append_assoc], h⟩

end Wire

open Wire

/-! ## Arguments -/

namespace Command

/-- The keys and values that a command carries. -/
def parts : Command → List Bytes
  | .get key | .delete key | .nextKey key | .incr key _ => [key]
  | .set key value => [key, value]
  | .cas key old new => [key, old, new]
  | .stats | .firstKey => []

/-- Every part has a size that four bytes hold. -/
def Fits (command : Command) : Prop :=
  ∀ part ∈ command.parts, part.length < 0x100000000

instance (command : Command) : Decidable command.Fits :=
  inferInstanceAs (Decidable (∀ part ∈ command.parts, part.length < 0x100000000))

theorem length_le_of_mem_parts {command : Command} {part : Bytes} (h : part ∈ command.parts) :
    part.length ≤ command.encode.length := by
  cases command with
  | get key | delete key | nextKey key | incr key delta =>
    have hpart : part = key := List.mem_singleton.1 h
    rw [hpart]
    simp only [encode, List.length_append]
    omega
  | set key value =>
    simp only [parts, List.mem_cons, List.not_mem_nil, or_false] at h
    simp only [encode, List.length_append]
    rcases h with rfl | rfl <;> omega
  | cas key old new =>
    simp only [parts, List.mem_cons, List.not_mem_nil, or_false] at h
    simp only [encode, List.length_append]
    rcases h with rfl | rfl | rfl <;> omega
  | stats | firstKey => cases h

theorem fits_of_length_encode {command : Command} (h : command.encode.length < 0x100000000) :
    command.Fits :=
  fun _ hpart => Nat.lt_of_le_of_lt (length_le_of_mem_parts hpart) h

theorem decode_encode_append {command : Command} (h : command.Fits) (rest : Bytes) :
    decode command.type (command.encode ++ rest) = .ok command := by
  -- the sizes are all read before the first part is, so both are opened in the order of reading
  cases command with
  | get key | delete key | nextKey key =>
    have hkey : key.length < Bytes.words 4 := h key (by simp [parts])
    simp only [encode, type, decode, List.append_assoc, takeKey_append hkey]
    rfl
  | set key value =>
    have hkey : key.length < Bytes.words 4 := h key (by simp [parts])
    have hvalue : value.length < Bytes.words 4 := h value (by simp [parts])
    simp only [encode, type, decode, List.append_assoc, takeSize_size hkey, bind, Except.bind,
      takeSize_size hvalue, takePart_append]
    rfl
  | cas key old new =>
    have hkey : key.length < Bytes.words 4 := h key (by simp [parts])
    have hold : old.length < Bytes.words 4 := h old (by simp [parts])
    have hnew : new.length < Bytes.words 4 := h new (by simp [parts])
    simp only [encode, type, decode, List.append_assoc, takeSize_size hkey, bind, Except.bind,
      takeSize_size hold, takeSize_size hnew, takePart_append]
    rfl
  | incr key delta =>
    have hkey : key.length < Bytes.words 4 := h key (by simp [parts])
    have hdelta : Bytes.takeBig? 8 (Bytes.bigEndian 8 delta.toUInt64.toNat ++ rest)
        = some (delta.toUInt64.toNat, rest) :=
      Bytes.takeBig?_eq_some_iff.2 ⟨rfl, delta.toUInt64.toNat_lt⟩
    have hback : (UInt64.ofNat delta.toUInt64.toNat).toInt64 = delta := by
      rw [UInt64.ofNat_toNat, Int64.toInt64_toUInt64]
    simp only [encode, type, decode, List.append_assoc, takeKey_append hkey, bind, Except.bind,
      hdelta, hback]
    rfl
  | stats => rfl
  | firstKey => rfl

theorem of_decode {type : CommandType} {bs : Bytes} {command : Command}
    (h : decode type bs = .ok command) :
    command.type = type ∧ command.Fits ∧ command.encode <+: bs := by
  cases type with
  | get | delete | nextKey =>
    simp only [decode, bind_eq_ok_iff, Prod.exists, takeKey_eq_ok_iff] at h
    obtain ⟨key, rest, ⟨rfl, hkey⟩, hcommand⟩ := h
    cases hcommand
    refine ⟨rfl, ?_, List.prefix_append ..⟩
    simpa [Fits, parts, Bytes.words_four] using hkey
  | set =>
    simp only [decode, bind_eq_ok_iff, Prod.exists, takeSize_eq_ok_iff, takePart_eq_ok_iff] at h
    -- two sizes, then the key and the value, whose lengths the sizes turn out to be
    obtain ⟨_, _, ⟨rfl, hkey⟩, _, _, ⟨rfl, hvalue⟩, key, _, ⟨rfl, rfl⟩, value, rest, ⟨rfl, rfl⟩,
      hcommand⟩ := h
    cases hcommand
    refine ⟨rfl, ?_, rest, ?_⟩
    · simpa [Fits, parts, Bytes.words_four] using And.intro hkey hvalue
    · simp only [encode, size, List.append_assoc]
  | cas =>
    simp only [decode, bind_eq_ok_iff, Prod.exists, takeSize_eq_ok_iff, takePart_eq_ok_iff] at h
    obtain ⟨_, _, ⟨rfl, hkey⟩, _, _, ⟨rfl, hold⟩, _, _, ⟨rfl, hnew⟩, key, _, ⟨rfl, rfl⟩, old, _,
      ⟨rfl, rfl⟩, new, rest, ⟨rfl, rfl⟩, hcommand⟩ := h
    cases hcommand
    refine ⟨rfl, ?_, rest, ?_⟩
    · simpa [Fits, parts, Bytes.words_four] using And.intro hkey (And.intro hold hnew)
    · simp only [encode, size, List.append_assoc]
  | incr =>
    simp only [decode, bind_eq_ok_iff, Prod.exists, takeKey_eq_ok_iff] at h
    obtain ⟨key, rest, ⟨rfl, hkey⟩, h⟩ := h
    cases htake : Bytes.takeBig? 8 rest with
    | none => simp [htake] at h
    | some taken =>
      obtain ⟨delta, rest'⟩ := taken
      -- eight bytes are one word, so writing the number gives them back
      obtain ⟨rfl, hdelta⟩ := Bytes.takeBig?_eq_some_iff.1 htake
      simp only [htake] at h
      cases h
      refine ⟨rfl, ?_, rest', ?_⟩
      · simpa [Fits, parts, Bytes.words_four] using hkey
      · have hword : (UInt64.ofNat delta).toNat = delta := UInt64.toNat_ofNat_of_lt hdelta
        simp only [encode, UInt64.toUInt64_toInt64, hword, List.append_assoc]
  | stats | firstKey =>
    -- nothing is read, and nothing is written
    cases h
    refine ⟨rfl, ?_, List.nil_prefix⟩
    simp [Fits, parts]

end Command

/-! ## Requests -/

namespace CommandType

theorem code_of_ofCode? {code : UInt16} {type : CommandType} (h : ofCode? code = some type) :
    type.code = code := by
  unfold ofCode? at h
  grind [CommandType.code]

end CommandType

namespace Request

/-- The id travels whole, and so does every part. -/
def Fits (request : Request) : Prop :=
  request.id ≤ maxId ∧ request.command.Fits

instance (request : Request) : Decidable request.Fits :=
  inferInstanceAs (Decidable (_ ∧ _))

def header (request : Request) : Bytes :=
  Bytes.bigEndian 4 (version * ids + request.id.toNat % ids)
    ++ Bytes.bigEndian 2 request.command.type.code.toNat
    ++ Bytes.bigEndian 2 request.flags.bits.toNat

theorem length_header (request : Request) : request.header.length = requestHeaderSize := by
  simp [header, requestHeaderSize]

theorem encode_eq (request : Request) :
    request.encode = request.header ++ request.command.encode := rfl

theorem toNat_ofNat_mod_ids (n : Nat) : (UInt32.ofNat (n % ids)).toNat = n % ids :=
  UInt32.toNat_ofNat_of_lt (Nat.lt_trans (Nat.mod_lt n (by decide)) (by decide))

theorem ofNat_mod_ids_le (n : Nat) : UInt32.ofNat (n % ids) ≤ maxId := by
  have hlt := Nat.mod_lt n (show 0 < ids by decide)
  have hmax : maxId.toNat = ids - 1 := rfl
  rw [UInt32.le_iff_toNat_le, toNat_ofNat_mod_ids]
  omega

theorem toNat_and_maxId (id : UInt32) : (id &&& maxId).toNat = id.toNat % ids := by
  rw [UInt32.toNat_and]
  exact Nat.and_two_pow_sub_one_eq_mod id.toNat 28

theorem and_maxId_of_le {id : UInt32} (h : id ≤ maxId) : id &&& maxId = id := by
  apply UInt32.toNat_inj.1
  rw [toNat_and_maxId]
  apply Nat.mod_eq_of_lt
  have hle : id.toNat ≤ maxId.toNat := UInt32.le_iff_toNat_le.1 h
  have hmax : maxId.toNat = ids - 1 := rfl
  unfold ids at *
  omega

theorem header_fields (request : Request) :
    request.header.take 4 = Bytes.bigEndian 4 (version * ids + request.id.toNat % ids)
      ∧ (request.header.drop 4).take 2 = Bytes.bigEndian 2 request.command.type.code.toNat
      ∧ request.header.drop 6 = Bytes.bigEndian 2 request.flags.bits.toNat := by
  unfold header
  refine ⟨?_, ?_, ?_⟩
  · rw [List.append_assoc]
    exact List.take_left' (Bytes.length_bigEndian ..)
  · rw [List.append_assoc, List.drop_left' (Bytes.length_bigEndian ..)]
    exact List.take_left' (Bytes.length_bigEndian ..)
  · exact List.drop_left' (by simp)

/-- The first word holds the version above the id. -/
theorem tag_lt (id : UInt32) : version * ids + id.toNat % ids < Bytes.words 4 := by
  have hlt := Nat.mod_lt id.toNat (show 0 < ids by decide)
  rw [Bytes.words_four]
  unfold version ids at *
  omega

theorem tag_div_ids (id : UInt32) : (version * ids + id.toNat % ids) / ids = version := by
  have hlt := Nat.mod_lt id.toNat (show 0 < ids by decide)
  unfold version ids at *
  omega

theorem tag_mod_ids (id : UInt32) : (version * ids + id.toNat % ids) % ids = id.toNat % ids := by
  unfold version ids
  omega

theorem ofBigEndian_take_encode (request : Request) :
    Bytes.ofBigEndian (request.encode.take 4) = version * ids + request.id.toNat % ids := by
  have htake : request.encode.take 4 = request.header.take 4 := by
    rw [encode_eq, List.take_append_of_le_length]
    rw [length_header]
    decide
  rw [htake, request.header_fields.1, Bytes.ofBigEndian_bigEndian, Nat.mod_eq_of_lt (tag_lt _)]

theorem ofNat_toNat_mod_words (word : UInt16) :
    UInt16.ofNat (word.toNat % Bytes.words 2) = word := by
  have hlt : word.toNat < Bytes.words 2 := word.toNat_lt
  rw [Nat.mod_eq_of_lt hlt, UInt16.ofNat_toNat]

theorem decode_encode_append {request : Request} (h : request.command.Fits) (rest : Bytes) :
    decode (request.encode ++ rest) = .ok { request with id := request.id &&& maxId } := by
  have hsplit : Bytes.split? requestHeaderSize (request.encode ++ rest)
      = some (request.header, request.command.encode ++ rest) := by
    rw [Bytes.split?_eq_some_iff, encode_eq, List.append_assoc]
    exact ⟨rfl, request.length_header⟩
  have hid : UInt32.ofNat (request.id.toNat % ids) = request.id &&& maxId := by
    rw [← toNat_and_maxId, UInt32.ofNat_toNat]
  obtain ⟨htag, htype, hbits⟩ := request.header_fields
  -- only the id may change on the way, by the bits above the version
  rw [decode, hsplit]
  simp only [htag, htype, hbits, Bytes.ofBigEndian_bigEndian, Nat.mod_eq_of_lt (tag_lt _),
    tag_div_ids, tag_mod_ids, ofNat_toNat_mod_words, hid, CommandType.ofCode?_code,
    Command.decode_encode_append h]
  rfl

/-- Eight bytes that are read as a version, an id, a code and flags are the header of these. -/
theorem header_of_fields {front : Bytes} (hlength : front.length = requestHeaderSize)
    (hversion : Bytes.ofBigEndian (front.take 4) / ids = version) {command : Command}
    (hcode : command.type.code = UInt16.ofNat (Bytes.ofBigEndian ((front.drop 4).take 2))) :
    header ⟨UInt32.ofNat (Bytes.ofBigEndian (front.take 4) % ids),
      ⟨UInt16.ofNat (Bytes.ofBigEndian (front.drop 6))⟩, command⟩ = front := by
  unfold requestHeaderSize at hlength
  have htag : version * ids
      + (UInt32.ofNat (Bytes.ofBigEndian (front.take 4) % ids)).toNat % ids
        = Bytes.ofBigEndian (front.take 4) := by
    rw [toNat_ofNat_mod_ids, Nat.mod_mod, ← hversion, Nat.mul_comm, Nat.div_add_mod]
  -- each field is written in as many bytes as it was read from
  have hfield : ∀ {n : Nat} {bs : Bytes}, bs.length = n →
      Bytes.bigEndian n (Bytes.ofBigEndian bs) = bs := by
    intro n bs hn
    rw [← hn, Bytes.bigEndian_ofBigEndian]
  have hfirst : (front.take 4).length = 4 := by simp [hlength]
  have hsecond : ((front.drop 4).take 2).length = 2 := by simp [hlength]
  have hthird : (front.drop 6).length = 2 := by simp [hlength]
  have hword : ∀ {bs : Bytes}, bs.length = 2 →
      (UInt16.ofNat (Bytes.ofBigEndian bs)).toNat = Bytes.ofBigEndian bs := by
    intro bs hbs
    apply UInt16.toNat_ofNat_of_lt
    have hlt := Bytes.ofBigEndian_lt bs
    rw [hbs] at hlt
    exact hlt
  unfold header
  simp only [htag, hcode, hword hsecond, hword hthird, hfield hfirst, hfield hsecond,
    hfield hthird]
  have hdrop : front.drop 6 = (front.drop 4).drop 2 := by rw [List.drop_drop]
  rw [hdrop, List.append_assoc, List.take_append_drop, List.take_append_drop]

/-- A message that is read as a request begins with its encoding. -/
theorem of_decode {bs : Bytes} {request : Request} (h : decode bs = .ok request) :
    request.Fits ∧ request.encode <+: bs := by
  unfold decode at h
  split at h
  · cases h
  · next front arguments hsplit =>
    obtain ⟨rfl, hlength⟩ := Bytes.split?_eq_some_iff.1 hsplit
    simp only at h
    split at h
    · cases h
    · next hversion =>
      split at h
      · cases h
      · next type htype =>
        obtain ⟨command, hcommand, hrequest⟩ := bind_eq_ok_iff.1 h
        cases hrequest
        obtain ⟨rfl, hfits, rest, rfl⟩ := Command.of_decode hcommand
        have hheader := header_of_fields hlength (Decidable.not_not.1 hversion)
          (CommandType.code_of_ofCode? htype)
        refine ⟨⟨ofNat_mod_ids_le _, hfits⟩, rest, ?_⟩
        rw [encode_eq, hheader, List.append_assoc]

theorem decode_encode {request : Request} (h : request.Fits) :
    decode request.encode = .ok request := by
  have hread := decode_encode_append h.2 []
  rwa [List.append_nil, and_maxId_of_le h.1] at hread

theorem decode_eq_ok_iff {bs : Bytes} {request : Request} (h : request.Fits) :
    decode bs = .ok request ↔ request.encode <+: bs := by
  constructor
  · intro hread
    exact (of_decode hread).2
  · rintro ⟨rest, rfl⟩
    rw [decode_encode_append h.2, and_maxId_of_le h.1]

theorem decode_eq_error_of_no_prefix {bs : Bytes}
    (h : ¬∃ request : Request, request.Fits ∧ request.encode <+: bs) :
    ∃ fault, decode bs = .error fault := by
  apply exists_error_of_forall_ne_ok
  intro request hread
  exact h ⟨request, of_decode hread⟩

theorem fits_of_length_encode {request : Request} (hid : request.id ≤ maxId)
    (h : request.encode.length < 0x100000000) : request.Fits := by
  refine ⟨hid, Command.fits_of_length_encode ?_⟩
  rw [encode_eq, List.length_append] at h
  omega

theorem eq_of_encode_eq {a b : Request} (ha : a.Fits) (hb : b.Fits) (h : a.encode = b.encode) :
    a = b := by
  have hread := decode_encode ha
  rw [h, decode_encode hb] at hread
  exact (Except.ok.inj hread).symm

theorem decode_take_encode {request : Request} (h : request.Fits) {n : Nat}
    (hn : n < request.encode.length) : ∃ fault, decode (request.encode.take n) = .error fault := by
  apply exists_error_of_forall_ne_ok
  intro other hread
  -- what a beginning is read as, the whole encoding is read as too, so it is the request itself
  have hbegin : other.encode <+: request.encode.take n := (of_decode hread).2
  have hwhole : decode request.encode = .ok other :=
    (decode_eq_ok_iff (of_decode hread).1).2 (hbegin.trans (List.take_prefix n _))
  have hother : request = other := Except.ok.inj ((decode_encode h).symm.trans hwhole)
  have hle := hbegin.length_le
  rw [← hother, List.length_take] at hle
  omega

theorem encode_and_maxId (request : Request) :
    encode { request with id := request.id &&& maxId } = request.encode := by
  unfold encode
  rw [toNat_and_maxId, Nat.mod_mod]

/-- Reading takes exactly what writing gives.  A request is read from the messages that begin with
its encoding and from no others; a message that begins with none is refused, and so is an encoding
that is cut short.  Of an id, 28 bits are written below the version. -/
theorem decode_ok_iff_begins_with_encode :
    (∀ (bs : Bytes) (request : Request), request.Fits →
      (decode bs = .ok request ↔ request.encode <+: bs))
    ∧ (∀ bs : Bytes, (¬∃ request : Request, request.Fits ∧ request.encode <+: bs) →
      ∃ fault, decode bs = .error fault)
    ∧ (∀ request : Request, request.Fits → decode request.encode = .ok request)
    ∧ (∀ (bs : Bytes) (request : Request), decode bs = .ok request →
      request.Fits ∧ bs = request.encode ++ bs.drop request.encode.length)
    ∧ (∀ a b : Request, a.Fits → b.Fits → a.encode = b.encode → a = b)
    ∧ (∀ (request : Request) (n : Nat), request.Fits → n < request.encode.length →
      ∃ fault, decode (request.encode.take n) = .error fault)
    ∧ (∀ request : Request,
      request.encode = encode { request with id := request.id &&& maxId }
        ∧ Bytes.ofBigEndian (request.encode.take 4) / 0x10000000 = 1
        ∧ Bytes.ofBigEndian (request.encode.take 4) % 0x10000000
          = request.id.toNat % 0x10000000) := by
  refine ⟨?_, ?_, ?_, ?_, ?_, ?_, ?_⟩
  · intro bs request h
    exact decode_eq_ok_iff h
  · intro bs h
    exact decode_eq_error_of_no_prefix h
  · intro request h
    exact decode_encode h
  · intro bs request h
    obtain ⟨hfits, hprefix⟩ := of_decode h
    exact ⟨hfits, (List.prefix_iff_eq_append.1 hprefix).symm⟩
  · intro a b ha hb h
    exact eq_of_encode_eq ha hb h
  · intro request n h hn
    exact decode_take_encode h hn
  · intro request
    rw [encode_and_maxId, ofBigEndian_take_encode]
    exact ⟨rfl, tag_div_ids request.id, tag_mod_ids request.id⟩

/-- A swap with an empty part, the largest id and all flags set, before a byte that is ignored. -/
theorem decode_ok_iff_begins_with_encode_swap :
    Fits ⟨maxId, ⟨0xFFFF⟩, .cas [1] [] [2, 3]⟩
      ∧ decode (encode ⟨maxId, ⟨0xFFFF⟩, .cas [1] [] [2, 3]⟩ ++ [9])
        = .ok ⟨maxId, ⟨0xFFFF⟩, .cas [1] [] [2, 3]⟩
      ∧ ∃ fault, decode ((encode ⟨maxId, ⟨0xFFFF⟩, .cas [1] [] [2, 3]⟩).take 22)
        = .error fault := by
  have hfits : Fits ⟨maxId, ⟨0xFFFF⟩, .cas [1] [] [2, 3]⟩ := by decide
  refine ⟨hfits, ?_, ?_⟩
  · exact (decode_ok_iff_begins_with_encode.1 _ _ hfits).2 (List.prefix_append ..)
  · exact decode_ok_iff_begins_with_encode.2.2.2.2.2.1 _ 22 hfits (by decide)

end Request

end TieredStore
