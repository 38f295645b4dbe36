import TieredStore.Proofs.Datum.PackedScalar

/-!
# Reading what was packed

A value is read back from its packed form, whatever follows it (`read_encode`).

Values that contain values of their own type are read to a depth that the number of bytes limits.
This is deep enough: on the way from a type to a value of the same type inside it there is a choice
to be made, and so a byte to be read, or else the type would have no values (`HoldsIn.guarded`).
-/

namespace TieredStore

namespace Shape

/-! ## Types without an alternative -/

mutual

/-- Whether all values of a shape contain a value of the type around. -/
def endless : Shape → Bool
  | .self => true
  | .array length shape => length != 0 && endless shape
  | .tuple shapes | .record _ shapes | .tupleRecord _ shapes => someEndless shapes
  | .wrapped _ shape => endless shape
  | _ => false

def someEndless : List Shape → Bool
  | [] => false
  | shape :: shapes => endless shape || someEndless shapes

end

theorem someEndless_iff {shapes : List Shape} :
    someEndless shapes = true ↔ ∃ shape ∈ shapes, endless shape = true := by
  induction shapes with
  | nil => simp [someEndless]
  | cons shape shapes ih => simp [someEndless, ih]

variable {body shape : Shape} {d : Datum}

/-- Of a row of shapes that has values, none is endless if the values are not. -/
theorem someEndless_eq_false {shapes : List Shape} {items : List Datum}
    (hlen : items.length = shapes.length)
    (hitems : ∀ pair ∈ shapes.zip items, pair.1.endless = false) : someEndless shapes = false := by
  rw [Bool.eq_false_iff, ne_eq, someEndless_iff]
  rintro ⟨shape, hshape, hendless⟩
  obtain ⟨i, hi, rfl⟩ := List.getElem_of_mem hshape
  have hpair : (shapes[i], items[i]) ∈ shapes.zip items := by
    rw [List.mem_iff_getElem]
    exact ⟨i, by simp; omega, by simp⟩
  rw [hitems _ hpair] at hendless
  cases hendless

/-- A descent through values of an endless type would not end. -/
theorem HoldsIn.endless_eq_false {around : Option Shape} (h : HoldsIn around shape d)
    (haround : around = some body) (hbody : body.endless = true) : shape.endless = false := by
  induction h with
  | self h ih =>
    -- the value inside is one of the body too, and it is smaller
    cases haround
    exact absurd hbody (by simp [ih rfl])
  | @array _ length shape items hlen _ ih =>
    cases items with
    | nil =>
      subst hlen
      rfl
    | cons item items => simp [endless, ih item (List.mem_cons_self ..) haround]
  | tuple hlen _ ih => exact someEndless_eq_false hlen fun pair hpair => ih pair hpair haround
  | record hlen _ ih => exact someEndless_eq_false hlen fun pair hpair => ih pair hpair haround
  | tupleRecord hlen _ ih => exact someEndless_eq_false hlen fun pair hpair => ih pair hpair haround
  | wrapped _ ih =>
    rw [endless]
    exact ih haround
  | _ => rfl

/-- A type that has a value is not endless. -/
theorem HoldsIn.guarded (h : HoldsIn (some body) body d) : body.endless = false := by
  cases hbody : body.endless with
  | false => rfl
  | true => rw [← hbody, h.endless_eq_false rfl hbody]

end Shape

/-! ## Order -/

namespace Datum

variable {α : Type} {key : α → Datum} {items : List α}

theorem place_of_forall_lt {item : α} (h : ∀ other ∈ items, cmp (key other) (key item) = .lt) :
    place key item items = items ++ [item] := by
  induction items with
  | nil => rfl
  | cons other rest ih =>
    rw [List.forall_mem_cons] at h
    rw [place, h.1]
    simp only [ih h.2, List.cons_append]

/-- What is in order stays as it is. -/
theorem ordered_of_pairwise (h : items.Pairwise fun a b => cmp (key a) (key b) = .lt) :
    ordered key items = items := by
  suffices hfold : ∀ done : List α,
      (done ++ items).Pairwise (fun a b => cmp (key a) (key b) = .lt) →
      items.foldl (fun done item => place key item done) done = done ++ items from hfold [] h
  clear h
  induction items with
  | nil => simp
  | cons item items ih =>
    intro done hdone
    have hplace : place key item done = done ++ [item] := by
      apply place_of_forall_lt
      intro other hother
      exact (List.pairwise_append.1 hdone).2.2 other hother item (List.mem_cons_self ..)
    rw [List.foldl_cons, hplace]
    simpa using ih (done ++ [item]) (by simpa using hdone)

theorem setOf_of_pairwise {members : List Datum} (h : members.Pairwise fun a b => cmp a b = .lt) :
    setOf members = .seq true members :=
  congrArg (Datum.seq true) (ordered_of_pairwise h)

theorem mapOf_of_pairwise {pairs : List (Datum × Datum)}
    (h : pairs.Pairwise fun a b => cmp a.1 b.1 = .lt) : mapOf pairs = .map (pairs.map entry) := by
  rw [mapOf, ordered_of_pairwise h]

end Datum

namespace Packed

/-! ## Rows -/

theorem encodeAll_cons_eq_ok_iff {d : Datum} {ds : List Datum} {bs : Bytes} :
    encodeAll (d :: ds) = .ok bs
      ↔ ∃ front back, encode d = .ok front ∧ encodeAll ds = .ok back ∧ bs = front ++ back :=
  bind_map_eq_ok_iff

/-- A reader takes a value back from its packed form, if that is not too long. -/
def Restores {α : Type} (limit : Nat) (take : Take α) (form : Datum) (a : α) : Prop :=
  ∀ front, encode form = .ok front → front.length ≤ limit →
    ∀ rest, take (front ++ rest) = .ok (a, rest)

variable {limit : Nat} {bs : Bytes}

theorem takeMany_encodeAll {α : Type} {take : Take α} {form : α → Datum} {as : List α}
    (htake : ∀ a ∈ as, Restores limit take (form a) a) (henc : encodeAll (as.map form) = .ok bs)
    (hlen : bs.length ≤ limit) (rest : Bytes) :
    takeMany take as.length (bs ++ rest) = .ok (as, rest) := by
  induction as generalizing bs with
  | nil =>
    cases henc
    rfl
  | cons a as ih =>
    rw [List.forall_mem_cons] at htake
    obtain ⟨front, back, hfront, hback, rfl⟩ := encodeAll_cons_eq_ok_iff.1 henc
    rw [List.length_append] at hlen
    have hhead := htake.1 front hfront (by omega) (back ++ rest)
    have htail := ih htake.2 hback (by omega)
    simp only [List.length_cons, takeMany, List.append_assoc, hhead, htail, bind, Except.bind]
    rfl

theorem takeCounted_encodeAll {α : Type} {take : Take α} {form : α → Datum} {as : List α}
    (hcount : as.length < 0x10000000000000000) (htake : ∀ a ∈ as, Restores limit take (form a) a)
    (henc : encodeAll (as.map form) = .ok bs) (hlen : bs.length ≤ limit) (rest : Bytes) :
    takeCounted take (length as.length ++ bs ++ rest) = .ok (as, rest) := by
  have hword : takeWord 8 (length as.length ++ (bs ++ rest)) = .ok (as.length, bs ++ rest) :=
    takeWord_append hcount _
  simp only [takeCounted, List.append_assoc, hword, bind, Except.bind]
  exact takeMany_encodeAll htake henc hlen rest

theorem readAll_encodeAll {self : Reader} {shapes : List Shape} {items : List Datum}
    (hcount : items.length = shapes.length)
    (hread : ∀ pair ∈ shapes.zip items, Restores limit (read pair.1 self) pair.2 pair.2)
    (henc : encodeAll items = .ok bs) (hlen : bs.length ≤ limit) (rest : Bytes) :
    readAll shapes self (bs ++ rest) = .ok (items, rest) := by
  induction shapes generalizing items bs with
  | nil =>
    obtain rfl := List.length_eq_zero_iff.1 hcount
    cases henc
    rfl
  | cons shape shapes ih =>
    cases items with
    | nil => cases hcount
    | cons item items =>
      rw [List.zip_cons_cons, List.forall_mem_cons] at hread
      obtain ⟨front, back, hfront, hback, rfl⟩ := encodeAll_cons_eq_ok_iff.1 henc
      rw [List.length_append] at hlen
      have hhead := hread.1 front hfront (by omega) (back ++ rest)
      have htail := ih (Nat.succ.inj hcount) hread.2 hback (by omega)
      simp only [readAll, List.append_assoc, hhead, htail, bind, Except.bind]
      rfl

theorem readVariant_eq {self : Reader} {variants : List Shape} {index : Nat} {shape : Shape}
    (h : variants[index]? = some shape) (bs : Bytes) :
    readVariant variants self index bs = some (read shape self bs) := by
  induction variants generalizing index with
  | nil => cases h
  | cons first variants ih =>
    cases index with
    | zero =>
      cases h
      rfl
    | succ index => exact ih h

theorem restores_entry {key value : Reader} {pair : Datum × Datum}
    (hkey : Restores limit key pair.1 pair.1) (hvalue : Restores limit value pair.2 pair.2) :
    Restores limit (takeEntry key value) (Datum.entry pair) pair := by
  intro front henc hlen rest
  obtain ⟨k, vs, hk, hvs, rfl⟩ := encodeAll_cons_eq_ok_iff.1 henc
  obtain ⟨v, none, hv, hnone, rfl⟩ := encodeAll_cons_eq_ok_iff.1 hvs
  cases hnone
  simp only [List.length_append] at hlen
  have hkey := hkey k hk (by omega) (v ++ rest)
  have hvalue := hvalue v hv (by omega) rest
  simp only [takeEntry, List.append_nil, List.append_assoc, hkey, hvalue, bind, Except.bind]
  rfl

/-! ## Depth -/

/-- The reader of the type around reads its values nested to a depth. -/
def SelfAt (around : Option Shape) (depth : Nat) (self : Reader) : Prop :=
  ∀ body, around = some body → self = nested (read body) depth

/-- A depth at which a value of so many bytes can be read, one more if it contains another value of
the type around for certain. -/
def Deep (shape : Shape) (size depth : Nat) : Prop :=
  if shape.endless then size < depth else size ≤ depth

theorem Deep.le {shape : Shape} {size depth : Nat} (h : Deep shape size depth) : size ≤ depth := by
  unfold Deep at h
  split at h <;> omega

theorem Deep.of_lt {shape : Shape} {size depth : Nat} (h : size < depth) :
    Deep shape size depth := by
  unfold Deep
  split <;> omega

theorem Deep.of_le {shape : Shape} {size depth : Nat} (hshape : shape.endless = false)
    (h : size ≤ depth) : Deep shape size depth := by
  rw [Deep, hshape]
  exact h

/-- A part that is endless makes the whole so. -/
theorem Deep.part {whole part : Shape} {size depth front : Nat} (h : Deep whole size depth)
    (hpart : part.endless = true → whole.endless = true) (hfront : front ≤ size) :
    Deep part front depth := by
  cases hend : part.endless with
  | false => exact .of_le hend (Nat.le_trans hfront h.le)
  | true =>
    rw [Deep, hpart hend] at h
    exact .of_lt (Nat.lt_of_le_of_lt hfront h)

/-! ## Values -/

variable {around : Option Shape} {shape : Shape} {d : Datum} {self : Reader} {depth : Nat}

/-- A value is read back from its packed form, at every depth that is enough. -/
def Reads (around : Option Shape) (shape : Shape) (d : Datum) : Prop :=
  ∀ self depth bs, SelfAt around depth self → encode d = .ok bs → Deep shape bs.length depth →
    ∀ rest, read shape self (bs ++ rest) = .ok (d, rest)

theorem Exact.reads (h : ∀ self, Exact around shape (read shape self))
    (hholds : shape.HoldsIn around d) : Reads around shape d := by
  intro self depth bs _ henc _ rest
  exact (h self (bs ++ rest) d rest).2 ⟨hholds, bs, henc, rfl⟩

/-- A part of a value of `size` bytes. -/
theorem Reads.restores (h : Reads around shape d) (hself : SelfAt around depth self) {size : Nat}
    {whole : Shape} (hdepth : Deep whole size depth)
    (hpart : shape.endless = true → whole.endless = true) :
    Restores size (read shape self) d d := by
  intro front hfront hlen rest
  exact h self depth front hself hfront (hdepth.part hpart hlen) rest

/-- A part after a tag or a count of the whole. -/
theorem Reads.restores_of_lt (h : Reads around shape d) (hself : SelfAt around depth self)
    {size : Nat} (hdepth : size < depth) : Restores size (read shape self) d d := by
  intro front hfront hlen rest
  exact h self depth front hself hfront (.of_lt (Nat.lt_of_le_of_lt hlen hdepth)) rest

theorem readAll_of_reads {shapes : List Shape} {items : List Datum}
    (hlen : items.length = shapes.length)
    (hitems : ∀ pair ∈ shapes.zip items, Reads around pair.1 pair.2)
    (hself : SelfAt around depth self) {whole : Shape}
    (hwhole : whole.endless = Shape.someEndless shapes) {bs : Bytes}
    (henc : encodeAll items = .ok bs) (hdepth : Deep whole bs.length depth) (rest : Bytes) :
    readAll shapes self (bs ++ rest) = .ok (items, rest) := by
  refine readAll_encodeAll hlen (fun pair hpair => ?_) henc (Nat.le_refl _) rest
  apply (hitems pair hpair).restores hself hdepth
  intro hend
  rw [hwhole, Shape.someEndless_iff]
  exact ⟨pair.1, (List.of_mem_zip hpair).1, hend⟩

/-- A value that is its parts in a row. -/
theorem reads_of_row {shapes : List Shape} {items : List Datum} {whole : Shape}
    (make : List Datum → Datum)
    (hread : ∀ self bs, read whole self bs = Take.map make (readAll shapes self) bs)
    (hform : encode (make items) = encodeAll items)
    (hwhole : whole.endless = Shape.someEndless shapes) (hlen : items.length = shapes.length)
    (hitems : ∀ pair ∈ shapes.zip items, Reads around pair.1 pair.2) :
    Reads around whole (make items) := by
  intro self depth bs hself henc hdepth rest
  rw [hform] at henc
  rw [hread, Take.map_eq_ok_iff]
  exact ⟨items, readAll_of_reads hlen hitems hself hwhole henc hdepth rest, rfl⟩

/-- The items of a sequence or a set, after their number. -/
theorem takeCounted_of_reads {items : List Datum} (hlen : items.length < 0x10000000000000000)
    (hitems : ∀ d ∈ items, Reads around shape d) (hself : SelfAt around depth self) {bs : Bytes}
    (henc : encodeAll items = .ok bs) (hdepth : bs.length < depth) (rest : Bytes) :
    takeCounted (read shape self) (length items.length ++ bs ++ rest) = .ok (items, rest) := by
  have henc : encodeAll (items.map id) = .ok bs := by rwa [List.map_id]
  exact takeCounted_encodeAll hlen (fun d hd => (hitems d hd).restores_of_lt hself hdepth) henc
    (Nat.le_refl _) rest

/-- The entries of a map, after their number. -/
theorem takeEntries_of_reads {key value : Shape} {pairs : List (Datum × Datum)}
    (hlen : pairs.length < 0x10000000000000000) (hkeys : ∀ pair ∈ pairs, Reads around key pair.1)
    (hvalues : ∀ pair ∈ pairs, Reads around value pair.2) (hself : SelfAt around depth self)
    {bs : Bytes} (henc : encodeAll (pairs.map Datum.entry) = .ok bs) (hdepth : bs.length < depth)
    (rest : Bytes) :
    takeCounted (takeEntry (read key self) (read value self)) (length pairs.length ++ bs ++ rest)
      = .ok (pairs, rest) := by
  refine takeCounted_encodeAll hlen (fun pair hpair => ?_) henc (Nat.le_refl _) rest
  exact restores_entry ((hkeys pair hpair).restores_of_lt hself hdepth)
    ((hvalues pair hpair).restores_of_lt hself hdepth)

/-- A number in front takes bytes of its own. -/
theorem Deep.lt_of_length {shape : Shape} {count : Nat} {bs : Bytes} {depth : Nat}
    (h : Deep shape (length count ++ bs).length depth) : bs.length < depth := by
  have hle := h.le
  simp [length] at hle
  omega

/-- A value of a shape that tells its reader what comes is read back, whatever follows it. -/
theorem reads_of_holds (h : shape.HoldsIn around d) (htells : shape.every Shape.tells = true)
    (haround : ∀ body, around = some body → body.every Shape.tells = true) :
    Reads around shape d := by
  induction h with
  | unit => exact Exact.reads (fun _ => exact_unit _) .unit
  | bool b => exact Exact.reads (fun _ => exact_bool _) (.bool b)
  | char c => exact Exact.reads (fun _ => exact_char _) (.char c)
  | int hrange => exact Exact.reads (fun _ => exact_int _ _) (.int hrange)
  | float32 bits => exact Exact.reads (fun _ => exact_float32 _) (.float32 bits)
  | float64 bits => exact Exact.reads (fun _ => exact_float64 _) (.float64 bits)
  | text hlen => exact Exact.reads (fun _ => exact_text _) (.text hlen)
  | buffer hlen => exact Exact.reads (fun _ => exact_buffer _) (.buffer hlen)
  | marker => exact Exact.reads (fun _ => exact_marker _ _) .marker
  | anyBuffer => cases htells
  | ignored => cases htells
  | refused =>
    intro self depth bs _ henc
    cases henc
  | absent =>
    intro self depth bs _ henc _ rest
    cases henc
    rfl
  | @present _ shape d _ ih =>
    intro self depth bs hself henc hdepth rest
    obtain ⟨front, hfront, rfl⟩ := map_eq_ok_iff.1 henc
    have htells := Shape.every_part htells (List.mem_singleton_self _)
    have hread := (ih htells haround).restores_of_lt hself hdepth.le front hfront
      (Nat.le_refl _) rest
    have htag : takeWord 1 (1 :: (front ++ rest)) = .ok (1, front ++ rest) :=
      takeWord_append (show 1 < Bytes.words 1 by decide) _
    simp only [read, readOption, List.cons_append, htag, bind, Except.bind, hread]
    rfl
  | @seq _ counted shape items hlen _ ih =>
    intro self depth bs hself henc hdepth rest
    cases counted with
    | false => cases henc
    | true =>
      obtain ⟨front, hfront, rfl⟩ := map_eq_ok_iff.1 henc
      have htells := Shape.every_part htells (List.mem_singleton_self _)
      have hread := takeCounted_of_reads hlen (fun d hd => ih d hd htells haround) hself hfront
        hdepth.lt_of_length rest
      exact Take.map_eq_ok_iff.2 ⟨items, hread, rfl⟩
  | @set _ shape members hlen horder _ ih =>
    intro self depth bs hself henc hdepth rest
    obtain ⟨front, hfront, rfl⟩ := map_eq_ok_iff.1 henc
    have htells := Shape.every_part htells (List.mem_singleton_self _)
    have hread := takeCounted_of_reads hlen (fun d hd => ih d hd htells haround) hself hfront
      hdepth.lt_of_length rest
    exact Take.map_eq_ok_iff.2 ⟨members, hread, Datum.setOf_of_pairwise horder⟩
  | @map _ key value pairs hlen horder _ _ ihkeys ihvalues =>
    intro self depth bs hself henc hdepth rest
    obtain ⟨front, hfront, rfl⟩ := map_eq_ok_iff.1 henc
    have hkey := Shape.every_part htells (List.mem_cons_self ..)
    have hvalue := Shape.every_part htells (List.mem_cons_of_mem _ (List.mem_singleton_self value))
    have hread := takeEntries_of_reads hlen (fun pair hpair => ihkeys pair hpair hkey haround)
      (fun pair hpair => ihvalues pair hpair hvalue haround) hself hfront hdepth.lt_of_length rest
    rw [List.length_map]
    exact Take.map_eq_ok_iff.2 ⟨pairs, hread, Datum.mapOf_of_pairwise horder⟩
  | @array _ n shape items hlen _ ih =>
    intro self depth bs hself henc hdepth rest
    subst hlen
    have htells := Shape.every_part htells (List.mem_singleton_self _)
    have hitems : encodeAll (items.map id) = .ok bs := by rwa [List.map_id]
    have hread := takeMany_encodeAll (fun d hd => by
      apply (ih d hd htells haround).restores hself hdepth
      intro hend
      -- there is an item, so the array is as endless as its items are
      cases items with
      | nil => cases hd
      | cons item items => simp [Shape.endless, hend]) hitems (Nat.le_refl _) rest
    exact Take.map_eq_ok_iff.2 ⟨items, hread, rfl⟩
  | tuple hlen _ ih =>
    exact reads_of_row Datum.tuple (fun _ _ => rfl) rfl rfl hlen fun pair hpair =>
      ih pair hpair (Shape.every_part htells (List.of_mem_zip hpair).1) haround
  | @record _ name _ _ hlen _ ih =>
    exact reads_of_row (Datum.record name) (fun _ _ => rfl) rfl rfl hlen fun pair hpair =>
      ih pair hpair (Shape.every_part htells (List.of_mem_zip hpair).1) haround
  | @tupleRecord _ name _ _ hlen _ ih =>
    exact reads_of_row (Datum.record name) (fun _ _ => rfl) rfl rfl hlen fun pair hpair =>
      ih pair hpair (Shape.every_part htells (List.of_mem_zip hpair).1) haround
  | @wrapped _ name shape d _ ih =>
    intro self depth bs hself henc hdepth rest
    have htells := Shape.every_part htells (List.mem_singleton_self _)
    have hread := (ih htells haround).restores hself hdepth id bs henc (Nat.le_refl _) rest
    exact Take.map_eq_ok_iff.2 ⟨d, hread, rfl⟩
  | @variant _ name expected variants index shape payload hshape hindex _ ih =>
    intro self depth bs hself henc hdepth rest
    obtain ⟨front, hfront, rfl⟩ := map_eq_ok_iff.1 henc
    have hcount : front.length < depth := by
      have hle := hdepth.le
      simp at hle
      omega
    have htells := Shape.every_part htells (List.mem_of_getElem? hshape)
    have hread := (ih htells haround).restores_of_lt hself hcount front hfront (Nat.le_refl _) rest
    have hword : takeWord 4 (Bytes.littleEndian 4 index ++ (front ++ rest))
        = .ok (index, front ++ rest) := takeWord_append hindex _
    simp only [read, List.append_assoc, hword, bind, Except.bind, readVariant_eq hshape, hread]
  | @recursive _ body d h ih =>
    intro self depth bs _ henc _ rest
    have htells := Shape.every_part htells (List.mem_singleton_self _)
    have hbody : ∀ inner, some body = some inner → inner.every Shape.tells = true := by
      rintro inner ⟨⟩
      exact htells
    have hself : SelfAt (some body) (bs ++ rest).length
        (nested (read body) (bs ++ rest).length) := by
      rintro inner ⟨⟩
      rfl
    -- a level for each byte is enough, because the body has a value and so is not endless
    have hdeep : Deep body bs.length (bs ++ rest).length := .of_le h.guarded (by simp)
    rw [read]
    exact ih htells hbody _ _ bs hself henc hdeep rest
  | @self body d h ih =>
    intro self depth bs hself henc hdepth rest
    obtain rfl := hself body rfl
    have hlt : bs.length < depth := hdepth
    -- `self` itself is endless, which leaves it the one level more that it uses up
    cases depth with
    | zero => cases hlt
    | succ depth =>
      have hbelow : SelfAt (some body) depth (nested (read body) depth) := by
        rintro inner ⟨⟩
        rfl
      rw [read]
      exact ih (haround body rfl) haround _ depth bs hbelow henc
        (.of_le h.guarded (Nat.le_of_lt_succ hlt)) rest

/-! ## Outside any type that contains itself -/

theorem selfAt_none (depth : Nat) (self : Reader) : SelfAt none depth self :=
  fun _ h => nomatch h

theorem reads_of_holds_none (h : shape.Holds d) (htells : shape.every Shape.tells = true) :
    Reads none shape d :=
  reads_of_holds h htells fun _ h => nomatch h

/-- No depth is asked for. -/
theorem read_encode {bs : Bytes} (h : shape.Holds d) (htells : shape.every Shape.tells = true)
    (henc : encode d = .ok bs) (rest : Bytes) : read shape stuck (bs ++ rest) = .ok (d, rest) :=
  reads_of_holds_none h htells stuck (bs.length + 1) bs (selfAt_none _ _) henc
    (.of_lt (Nat.lt_succ_self _)) rest

end Packed

end TieredStore
