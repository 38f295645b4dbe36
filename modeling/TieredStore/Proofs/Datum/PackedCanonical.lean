import TieredStore.Datum.Encoding
import TieredStore.Proofs.Datum.PackedRoundTrip

/-!
# The packed form is exact

A packed value is read back whatever follows it, and from no beginning of its form; where reading
neither orders nor drops anything, what is read was written so (`Encoding.packed_exact`).

That a beginning is refused follows from what more bytes do to a reader: one that takes a value
takes the same value when there are more bytes, and leaves them over (`Extends`).
-/

namespace TieredStore

namespace Packed

/-! ## More bytes -/

/-- Where a reader takes something, another takes the same with more bytes behind, and leaves these
over. -/
def Extends {α : Type} (take more : Take α) : Prop :=
  ∀ bs a rest, take bs = .ok (a, rest) → ∀ tail, more (bs ++ tail) = .ok (a, rest ++ tail)

/-- A reader that may call another is extended with it. -/
def Steady (body : Reader → Reader) : Prop :=
  ∀ self more, Extends self more → Extends (body self) (body more)

variable {α : Type}

theorem Exact.extends {around : Option Shape} {shape : Shape} {reader : Reader}
    (h : Exact around shape reader) : Extends reader reader := by
  intro bs d rest hread tail
  obtain ⟨hholds, front, hfront, rfl⟩ := (h bs d rest).1 hread
  exact (h _ _ _).2 ⟨hholds, front, hfront, List.append_assoc ..⟩

theorem extends_takeWord (width : Nat) : Extends (takeWord width) (takeWord width) := by
  intro bs n rest h tail
  obtain ⟨rfl, hlt⟩ := takeWord_eq_ok_iff.1 h
  exact takeWord_eq_ok_iff.2 ⟨List.append_assoc .., hlt⟩

variable {take more : Take α}

theorem Extends.takeMany (h : Extends take more) (n : Nat) :
    Extends (takeMany take n) (takeMany more n) := by
  induction n with
  | zero =>
    intro bs as rest hread tail
    cases hread
    rfl
  | succ n ih =>
    intro bs as rest hread tail
    obtain ⟨⟨a, bs'⟩, hhead, hread⟩ := bind_eq_ok_iff.1 hread
    obtain ⟨⟨as', bs''⟩, htail, hread⟩ := bind_eq_ok_iff.1 hread
    cases hread
    simp only [Packed.takeMany, h bs a bs' hhead tail, ih bs' as' rest htail tail, bind,
      Except.bind]
    rfl

theorem Extends.takeCounted (h : Extends take more) :
    Extends (takeCounted take) (takeCounted more) := by
  intro bs as rest hread tail
  obtain ⟨⟨n, bs'⟩, hcount, hread⟩ := bind_eq_ok_iff.1 hread
  have hcount := extends_takeWord 8 bs n bs' hcount tail
  simp only [Packed.takeCounted, hcount, bind, Except.bind]
  exact h.takeMany n bs' as rest hread tail

theorem Extends.takeEntry {key key' value value' : Reader} (hkey : Extends key key')
    (hvalue : Extends value value') : Extends (takeEntry key value) (takeEntry key' value') := by
  intro bs pair rest hread tail
  obtain ⟨⟨k, bs'⟩, hk, hread⟩ := bind_eq_ok_iff.1 hread
  obtain ⟨⟨v, bs''⟩, hv, hread⟩ := bind_eq_ok_iff.1 hread
  cases hread
  simp only [Packed.takeEntry, hkey bs k bs' hk tail, hvalue bs' v rest hv tail, bind, Except.bind]
  rfl

theorem Extends.readOption {reader reader' : Reader} (h : Extends reader reader') :
    Extends (readOption reader) (readOption reader') := by
  intro bs d rest hread tail
  obtain ⟨⟨tag, bs'⟩, htag, hread⟩ := bind_eq_ok_iff.1 hread
  have htag := extends_takeWord 1 bs tag bs' htag tail
  simp only [Packed.readOption, htag, bind, Except.bind] at hread ⊢
  by_cases hzero : tag = 0
  · rw [if_pos hzero] at hread ⊢
    cases hread
    rfl
  · rw [if_neg hzero] at hread ⊢
    by_cases hone : tag = 1
    · rw [if_pos hone] at hread ⊢
      cases hd : reader bs' with
      | error fault =>
        rw [hd] at hread
        cases hread
      | ok taken =>
        rw [hd] at hread
        cases hread
        simp only [h bs' _ _ hd tail]
        rfl
    · rw [if_neg hone] at hread
      cases hread

/-- More depth does no harm. -/
theorem Steady.nested {body : Reader → Reader} (hbody : Steady body) {depth deeper : Nat}
    (h : depth ≤ deeper) : Extends (nested body depth) (nested body deeper) := by
  induction depth generalizing deeper with
  | zero =>
    intro bs d rest hread
    cases hread
  | succ depth ih =>
    cases deeper with
    | zero => cases h
    | succ deeper => exact hbody _ _ (ih (Nat.le_of_succ_le_succ h))

theorem extends_readAll {shapes : List Shape} (h : ∀ shape ∈ shapes, Steady (read shape))
    {self more : Reader} (hself : Extends self more) :
    Extends (readAll shapes self) (readAll shapes more) := by
  induction shapes with
  | nil =>
    intro bs ds rest hread tail
    cases hread
    rfl
  | cons shape shapes ih =>
    rw [List.forall_mem_cons] at h
    intro bs ds rest hread tail
    obtain ⟨⟨d, bs'⟩, hhead, hread⟩ := bind_eq_ok_iff.1 hread
    obtain ⟨⟨ds', bs''⟩, htail, hread⟩ := bind_eq_ok_iff.1 hread
    cases hread
    simp only [readAll, h.1 self more hself bs d bs' hhead tail, ih h.2 bs' ds' rest htail tail,
      bind, Except.bind]
    rfl

theorem readVariant_of_none {self : Reader} {variants : List Shape} {index : Nat}
    (h : variants[index]? = none) (bs : Bytes) : readVariant variants self index bs = none := by
  induction variants generalizing index with
  | nil => rfl
  | cons first variants ih =>
    cases index with
    | zero => cases h
    | succ index => exact ih h

theorem Extends.map {β : Type} (h : Extends take more) (make : α → β) :
    Extends (Take.map make take) (Take.map make more) := by
  intro bs b rest hread tail
  obtain ⟨a, ha, rfl⟩ := Take.map_eq_ok_iff.1 hread
  exact Take.map_eq_ok_iff.2 ⟨a, h bs a rest ha tail, rfl⟩

theorem extends_stuck : Extends stuck stuck := by
  intro bs d rest hread
  cases hread

theorem steady_read (shape : Shape) : Steady (read shape) := by
  induction shape using Shape.induction with
  | step shape ih =>
    intro self more hself
    have hpart {part : Shape} (h : part ∈ shape.parts) :
        Extends (read part self) (read part more) :=
      ih part h self more hself
    cases shape with
    | unit => exact (exact_unit none).extends
    | bool => exact (exact_bool none).extends
    | char => exact (exact_char none).extends
    | int type => exact (exact_int none type).extends
    | float32 => exact (exact_float32 none).extends
    | float64 => exact (exact_float64 none).extends
    | text => exact (exact_text none).extends
    | buffer => exact (exact_buffer none).extends
    | marker name => exact (exact_marker none name).extends
    | anyBuffer => exact fun _ _ _ h => nomatch h
    | refused => exact fun _ _ _ h => nomatch h
    | ignored => exact fun _ _ _ h => nomatch h
    | option shape => exact (hpart (List.mem_singleton_self shape)).readOption
    | seq counted shape =>
      exact (hpart (List.mem_singleton_self shape)).takeCounted.map (Datum.seq counted)
    | set shape => exact (hpart (List.mem_singleton_self shape)).takeCounted.map Datum.setOf
    | map key value =>
      have hkey := hpart (List.mem_cons_self ..)
      have hvalue := hpart (List.mem_cons_of_mem _ (List.mem_singleton_self value))
      exact (hkey.takeEntry hvalue).takeCounted.map Datum.mapOf
    | array n shape => exact ((hpart (List.mem_singleton_self shape)).takeMany n).map Datum.tuple
    | tuple shapes => exact (extends_readAll ih hself).map Datum.tuple
    | record name shapes => exact (extends_readAll ih hself).map (Datum.record name)
    | tupleRecord name shapes => exact (extends_readAll ih hself).map (Datum.record name)
    | wrapped name shape => exact (hpart (List.mem_singleton_self shape)).map (Datum.wrapped name)
    | choice name expected variants =>
      intro bs d rest hread tail
      obtain ⟨⟨index, bs'⟩, hindex, hread⟩ := bind_eq_ok_iff.1 hread
      have hindex := extends_takeWord 4 bs index bs' hindex tail
      simp only [read, hindex, bind, Except.bind]
      simp only at hread
      cases hshape : variants[index]? with
      | none =>
        rw [readVariant_of_none hshape] at hread
        cases hread
      | some shape =>
        rw [readVariant_eq hshape] at hread ⊢
        cases hd : read shape self bs' with
        | error fault =>
          rw [hd] at hread
          cases hread
        | ok taken =>
          rw [hd] at hread
          cases hread
          rw [hpart (List.mem_of_getElem? hshape) bs' _ _ hd tail]
    | recursive body =>
      intro bs d rest hread tail
      rw [read] at hread ⊢
      -- the depth is that of the bytes, so more bytes only make it greater
      have hdepth : bs.length + 1 ≤ (bs ++ tail).length + 1 := by simp
      exact (ih body (List.mem_singleton_self body)).nested hdepth bs d rest hread tail
    | self => exact hself

/-! ## Writing what was read -/

/-- What a reader takes is a value of the shape, and is taken from its packed form. -/
def Faithful (around : Option Shape) (shape : Shape) (reader : Reader) : Prop :=
  ∀ bs d rest, reader bs = .ok (d, rest) →
    shape.HoldsIn around d ∧ ∃ front, encode d = .ok front ∧ bs = front ++ rest

theorem Exact.faithful {around : Option Shape} {shape : Shape} {reader : Reader}
    (h : Exact around shape reader) : Faithful around shape reader :=
  fun bs d rest hread => (h bs d rest).1 hread

variable {around : Option Shape} {shape : Shape} {reader : Reader}

theorem Faithful.takeMany (h : Faithful around shape reader) {n : Nat} {bs rest : Bytes}
    {ds : List Datum} (hread : takeMany reader n bs = .ok (ds, rest)) :
    ds.length = n ∧ (∀ d ∈ ds, shape.HoldsIn around d)
      ∧ ∃ front, encodeAll ds = .ok front ∧ bs = front ++ rest := by
  induction n generalizing bs ds with
  | zero =>
    cases hread
    exact ⟨rfl, List.forall_mem_nil _, [], rfl, rfl⟩
  | succ n ih =>
    obtain ⟨⟨d, bs'⟩, hhead, hread⟩ := bind_eq_ok_iff.1 hread
    obtain ⟨⟨ds', bs''⟩, htail, hread⟩ := bind_eq_ok_iff.1 hread
    cases hread
    obtain ⟨hd, front, hfront, rfl⟩ := h bs d bs' hhead
    obtain ⟨rfl, hds, back, hback, rfl⟩ := ih htail
    refine ⟨rfl, List.forall_mem_cons.2 ⟨hd, hds⟩, front ++ back, ?_, ?_⟩
    · exact encodeAll_cons_eq_ok_iff.2 ⟨front, back, hfront, hback, rfl⟩
    · rw [List.append_assoc]

theorem faithful_readAll {self : Reader} {shapes : List Shape}
    (h : ∀ shape ∈ shapes, Faithful around shape (read shape self)) {bs rest : Bytes}
    {ds : List Datum} (hread : readAll shapes self bs = .ok (ds, rest)) :
    ds.length = shapes.length ∧ (∀ pair ∈ shapes.zip ds, pair.1.HoldsIn around pair.2)
      ∧ ∃ front, encodeAll ds = .ok front ∧ bs = front ++ rest := by
  induction shapes generalizing bs ds with
  | nil =>
    cases hread
    exact ⟨rfl, List.forall_mem_nil _, [], rfl, rfl⟩
  | cons shape shapes ih =>
    rw [List.forall_mem_cons] at h
    obtain ⟨⟨d, bs'⟩, hhead, hread⟩ := bind_eq_ok_iff.1 hread
    obtain ⟨⟨ds', bs''⟩, htail, hread⟩ := bind_eq_ok_iff.1 hread
    cases hread
    obtain ⟨hd, front, hfront, rfl⟩ := h.1 bs d bs' hhead
    obtain ⟨hlen, hds, back, hback, rfl⟩ := ih h.2 htail
    refine ⟨by simp [hlen], ?_, front ++ back, ?_, ?_⟩
    · exact List.forall_mem_cons.2 ⟨hd, hds⟩
    · exact encodeAll_cons_eq_ok_iff.2 ⟨front, back, hfront, hback, rfl⟩
    · rw [List.append_assoc]

theorem faithful_of_row {self : Reader} {shapes : List Shape} {whole : Shape}
    (make : List Datum → Datum)
    (hread : ∀ bs, read whole self bs = Take.map make (readAll shapes self) bs)
    (hform : ∀ ds, encode (make ds) = encodeAll ds)
    (hholds : ∀ {ds}, ds.length = shapes.length →
      (∀ pair ∈ shapes.zip ds, pair.1.HoldsIn around pair.2) → whole.HoldsIn around (make ds))
    (h : ∀ shape ∈ shapes, Faithful around shape (read shape self)) :
    Faithful around whole (read whole self) := by
  intro bs d rest htake
  rw [hread] at htake
  obtain ⟨ds, hds, rfl⟩ := Take.map_eq_ok_iff.1 htake
  obtain ⟨hlen, hitems, hfront⟩ := faithful_readAll h hds
  rw [hform]
  exact ⟨hholds hlen hitems, hfront⟩

theorem Faithful.takeCounted (h : Faithful around shape reader) {bs rest : Bytes} {ds : List Datum}
    (hread : takeCounted reader bs = .ok (ds, rest)) :
    ds.length < 0x10000000000000000 ∧ (∀ d ∈ ds, shape.HoldsIn around d)
      ∧ ∃ front, encodeAll ds = .ok front ∧ bs = length ds.length ++ front ++ rest := by
  obtain ⟨⟨n, bs'⟩, hcount, hmany⟩ := bind_eq_ok_iff.1 hread
  obtain ⟨rfl, hlt⟩ := takeWord_eq_ok_iff.1 hcount
  obtain ⟨rfl, hholds, front, hfront, rfl⟩ := h.takeMany hmany
  exact ⟨hlt, hholds, front, hfront, by rw [length, List.append_assoc]⟩

theorem Faithful.readOption (h : Faithful around shape reader) :
    Faithful around (.option shape) (readOption reader) := by
  intro bs d rest hread
  obtain ⟨⟨tag, bs'⟩, htag, hafter⟩ := bind_eq_ok_iff.1 hread
  obtain ⟨rfl, hlt⟩ := takeWord_eq_ok_iff.1 htag
  rw [littleEndian_one]
  dsimp only at hafter
  by_cases hzero : tag = 0
  · rw [if_pos hzero] at hafter
    cases hafter
    exact ⟨.absent, [0], rfl, by rw [hzero]; rfl⟩
  · rw [if_neg hzero] at hafter
    by_cases hone : tag = 1
    · rw [if_pos hone] at hafter
      obtain ⟨⟨d', bs''⟩, hd, hend⟩ := bind_eq_ok_iff.1 hafter
      cases hend
      obtain ⟨hholds, front, hfront, rfl⟩ := h bs' d' _ hd
      refine ⟨.present hholds, 1 :: front, ?_, by rw [hone]; rfl⟩
      exact map_eq_ok_iff.2 ⟨front, hfront, rfl⟩
    · rw [if_neg hone] at hafter
      cases hafter

theorem faithful_stuck : Faithful around shape stuck := by
  intro bs d rest hread
  cases hread

theorem Faithful.nested {body : Shape}
    (h : ∀ self, Faithful (some body) .self self → Faithful (some body) body (read body self))
    (depth : Nat) : Faithful (some body) body (nested (read body) depth) := by
  induction depth with
  | zero => exact faithful_stuck
  | succ depth ih =>
    apply h
    intro bs d rest hread
    obtain ⟨hholds, hfront⟩ := ih bs d rest hread
    exact ⟨.self hholds, hfront⟩

theorem faithful_read (shape : Shape) (hkeeps : shape.every Shape.keeps = true)
    (around : Option Shape) {self : Reader} (hself : Faithful around .self self) :
    Faithful around shape (read shape self) := by
  induction shape using Shape.induction generalizing around self with
  | step shape ih =>
    have hpart {part : Shape} (h : part ∈ shape.parts) : Faithful around part (read part self) :=
      ih part h (Shape.every_part hkeeps h) around hself
    cases shape with
    | unit => exact (exact_unit around).faithful
    | bool => exact (exact_bool around).faithful
    | char => exact (exact_char around).faithful
    | int type => exact (exact_int around type).faithful
    | float32 => exact (exact_float32 around).faithful
    | float64 => exact (exact_float64 around).faithful
    | text => exact (exact_text around).faithful
    | buffer => exact (exact_buffer around).faithful
    | marker name => exact (exact_marker around name).faithful
    | anyBuffer | refused | ignored => exact fun _ _ _ h => nomatch h
    -- what was out of order would come back in order
    | set shape | map key value => cases hkeeps
    | self => exact hself
    | option shape => exact (hpart (List.mem_singleton_self shape)).readOption
    | seq counted shape =>
      cases counted with
      -- it is read like any other, but it is not written
      | false => cases hkeeps
      | true =>
        intro bs d rest hread
        obtain ⟨ds, hds, rfl⟩ := Take.map_eq_ok_iff.1 hread
        obtain ⟨hlen, hholds, front, hfront, hbs⟩ :=
          (hpart (List.mem_singleton_self shape)).takeCounted hds
        exact ⟨.seq hlen hholds, _, map_eq_ok_iff.2 ⟨front, hfront, rfl⟩, hbs⟩
    | array n shape =>
      intro bs d rest hread
      obtain ⟨ds, hds, rfl⟩ := Take.map_eq_ok_iff.1 hread
      obtain ⟨hlen, hholds, hfront⟩ := (hpart (List.mem_singleton_self shape)).takeMany hds
      exact ⟨.array hlen hholds, hfront⟩
    | tuple shapes =>
      exact faithful_of_row .tuple (fun _ => rfl) (fun _ => rfl) .tuple fun _ => hpart
    | record name shapes =>
      exact faithful_of_row (.record name) (fun _ => rfl) (fun _ => rfl) .record fun _ => hpart
    | tupleRecord name shapes =>
      exact faithful_of_row (.record name) (fun _ => rfl) (fun _ => rfl) .tupleRecord fun _ => hpart
    | wrapped name shape =>
      intro bs d rest hread
      obtain ⟨d', hd, rfl⟩ := Take.map_eq_ok_iff.1 hread
      obtain ⟨hholds, hfront⟩ := hpart (List.mem_singleton_self shape) _ _ _ hd
      exact ⟨.wrapped hholds, hfront⟩
    | choice name expected variants =>
      intro bs d rest hread
      obtain ⟨⟨index, bs'⟩, hindex, hafter⟩ := bind_eq_ok_iff.1 hread
      obtain ⟨rfl, hlt⟩ := takeWord_eq_ok_iff.1 hindex
      dsimp only at hafter
      cases hshape : variants[index]? with
      | none =>
        rw [readVariant_of_none hshape] at hafter
        cases hafter
      | some shape =>
        rw [readVariant_eq hshape] at hafter
        cases hd : read shape self bs' with
        | error fault =>
          rw [hd] at hafter
          cases hafter
        | ok taken =>
          rw [hd] at hafter
          cases hafter
          obtain ⟨hholds, front, hfront, rfl⟩ := hpart (List.mem_of_getElem? hshape) _ _ _ hd
          refine ⟨.variant hshape hlt hholds, Bytes.littleEndian 4 index ++ front, ?_, ?_⟩
          · exact map_eq_ok_iff.2 ⟨front, hfront, rfl⟩
          · rw [List.append_assoc]
    | recursive body =>
      intro bs d rest hread
      have hmem : body ∈ (Shape.recursive body).parts := List.mem_singleton_self body
      have hbody := Faithful.nested fun _ h =>
        ih body hmem (Shape.every_part hkeeps hmem) (some body) h
      obtain ⟨hholds, hfront⟩ := hbody (bs.length + 1) bs d rest hread
      exact ⟨.recursive hholds, hfront⟩

/-! ## Whole values -/

variable {d : Datum} {bs : Bytes}

theorem decode_eq_ok_iff :
    decode shape bs = .ok d ↔ ∃ rest, read shape stuck bs = .ok (d, rest) := by
  simp only [decode, map_eq_ok_iff, Prod.exists]
  constructor
  · rintro ⟨d', rest, hread, rfl⟩
    exact ⟨rest, hread⟩
  · rintro ⟨rest, hread⟩
    exact ⟨d, rest, hread, rfl⟩

/-- No beginning of the form of a value can be read, for what is read of it could be read of the
whole. -/
theorem decode_cut_ne_ok (h : shape.Holds d) (htells : shape.every Shape.tells = true)
    (henc : encode d = .ok bs) {cut : Bytes} (hcut : cut <+: bs) (hne : cut ≠ bs) (d' : Datum) :
    decode shape cut ≠ .ok d' := by
  obtain ⟨tail, rfl⟩ := hcut
  intro hdec
  obtain ⟨rest, hread⟩ := decode_eq_ok_iff.1 hdec
  have hmore := steady_read shape stuck stuck extends_stuck cut d' rest hread tail
  have hwhole := read_encode h htells henc []
  rw [List.append_nil, hmore] at hwhole
  have hleft : rest ++ tail = [] := congrArg Prod.snd (Except.ok.inj hwhole)
  rw [(List.append_eq_nil_iff.1 hleft).2, List.append_nil] at hne
  exact hne rfl

theorem holds_of_decode (hkeeps : shape.every Shape.keeps = true) (hdec : decode shape bs = .ok d) :
    shape.Holds d ∧ ∃ front, encode d = .ok front ∧ front <+: bs := by
  obtain ⟨rest, hread⟩ := decode_eq_ok_iff.1 hdec
  obtain ⟨hholds, front, hfront, rfl⟩ :=
    faithful_read shape hkeeps none faithful_stuck bs d rest hread
  exact ⟨hholds, front, hfront, List.prefix_append front rest⟩

end Packed

namespace Encoding

theorem packed_encode_eq_ok_iff {d : Datum} {bs : Bytes} :
    Encoding.packed.encode d = .ok bs ↔ Packed.encode d = .ok bs :=
  mapError_eq_ok_iff

theorem packed_decode_eq_ok_iff {shape : Shape} {d : Datum} {bs : Bytes} :
    Encoding.packed.decode shape bs = .ok d ↔ Packed.decode shape bs = .ok d :=
  mapError_eq_ok_iff

theorem exists_fault_of_packed_decode_ne_ok {shape : Shape} {bs : Bytes}
    (h : ∀ d, Packed.decode shape bs ≠ .ok d) :
    ∃ fault, Encoding.packed.decode shape bs = .error (.codec fault) := by
  obtain ⟨fault, hfault⟩ := exists_error_of_forall_ne_ok h
  exact ⟨.packed fault, by rw [decode, hfault]; rfl⟩

/-- The packed form of a value is read back as that value, whatever follows it, and no beginning of
it is read as anything; and if the shape keeps what it finds, a value is read from nothing but its
packed form and what follows it. -/
theorem packed_exact {shape : Shape} (htells : shape.every Shape.tells = true) :
    (∀ v bs, shape.Holds v → Encoding.packed.encode v = .ok bs →
      (∀ rest, Encoding.packed.decode shape (bs ++ rest) = .ok v)
      ∧ ∀ cut, cut <+: bs → cut ≠ bs →
        ∃ fault, Encoding.packed.decode shape cut = .error (.codec fault))
    ∧ (shape.every Shape.keeps = true → ∀ bs v, Encoding.packed.decode shape bs = .ok v →
      shape.Holds v ∧ ∃ front, Encoding.packed.encode v = .ok front ∧ front <+: bs) := by
  constructor
  · intro v bs hv henc
    rw [packed_encode_eq_ok_iff] at henc
    constructor
    · intro rest
      rw [packed_decode_eq_ok_iff, Packed.decode_eq_ok_iff]
      exact ⟨rest, Packed.read_encode hv htells henc rest⟩
    · intro cut hcut hne
      exact exists_fault_of_packed_decode_ne_ok (Packed.decode_cut_ne_ok hv htells henc hcut hne)
  · intro hkeeps bs v hdec
    rw [packed_decode_eq_ok_iff] at hdec
    obtain ⟨hv, front, hfront, hprefix⟩ := Packed.holds_of_decode hkeeps hdec
    exact ⟨hv, front, packed_encode_eq_ok_iff.2 hfront, hprefix⟩

/-- A tree of a type that contains itself, with a byte behind it and without its last byte. -/
theorem packed_exact_tree :
    let body := Shape.record "Tree" [.int (.uint .w16), .option .self, .option .self]
    let leaf := Datum.record "Tree" [.int (.uint .w16) 258, .absent, .absent]
    let v := Datum.record "Tree" [.int (.uint .w16) 3, .absent, .present leaf]
    let bs : Bytes := [3, 0, 0, 1, 2, 1, 0, 0]
    (Shape.recursive body).every Shape.tells = true
      ∧ (Shape.recursive body).every Shape.keeps = true
      ∧ (Shape.recursive body).Holds v ∧ Encoding.packed.encode v = .ok bs
      ∧ Encoding.packed.decode (.recursive body) (bs ++ [7]) = .ok v
      ∧ (∃ fault, Encoding.packed.decode (.recursive body) bs.dropLast = .error (.codec fault))
      ∧ ∃ front, Encoding.packed.encode v = .ok front ∧ front <+: bs ++ [7] := by
  intro body leaf v bs
  have htells : (Shape.recursive body).every Shape.tells = true := by decide
  have hkeeps : (Shape.recursive body).every Shape.keeps = true := by decide
  have htree {n : Int} {left right : Datum} (hn : IntType.Holds (.uint .w16) n)
      (hleft : (Shape.option .self).HoldsIn (some body) left)
      (hright : (Shape.option .self).HoldsIn (some body) right) :
      body.HoldsIn (some body) (.record "Tree" [.int (.uint .w16) n, left, right]) := by
    refine .record rfl ?_
    simp only [List.zip_cons_cons, List.zip_nil_right, List.forall_mem_cons]
    exact ⟨.int hn, hleft, hright, List.forall_mem_nil _⟩
  have hv : (Shape.recursive body).Holds v :=
    .recursive (htree (by decide) .absent (.present (.self (htree (by decide) .absent .absent))))
  have henc : Encoding.packed.encode v = .ok bs := rfl
  obtain ⟨hforth, hback⟩ := packed_exact htells
  obtain ⟨hread, hcut⟩ := hforth v bs hv henc
  have hlast : bs.dropLast ≠ bs := by decide
  exact ⟨htells, hkeeps, hv, henc, hread [7], hcut _ (List.dropLast_prefix bs) hlast,
    (hback hkeeps _ v (hread [7])).2⟩

end Encoding

end TieredStore
