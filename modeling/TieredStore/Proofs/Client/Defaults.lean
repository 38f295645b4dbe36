import TieredStore.Client.Mode
import TieredStore.Proofs.Datum.OneForm

/-!
# The default

A client's default is the last value that was set as such and has a packed form, unless it was
cleared since.  What values are compared with, and what is read in place of a missing one, is its
form in the encoding in use (`Client.HasDefault.adjustAll`).

The three ways to read a key send the same request and fail alike (`Session.readings_of_error`).
Where it is answered, they differ in what they make of the default (`Session.readings_of_found`).
-/

namespace TieredStore

/-! ## Settings -/

/-- A change of a client's settings. -/
inductive Setting where
  | default (value : Datum)
  | noDefault
  | encoding (encoding : Encoding)
  | policy (policy : Policy)

/-- What the default is after a setting, where it was `value?` before. -/
def Setting.defaultAfter (value? : Option Datum) : Setting → Option Datum
  | .default value =>
    match Encoding.packed.encode value with
    | .ok _ => some value
    | .error _ => value?
  | .noDefault => none
  | .encoding _ | .policy _ => value?

namespace Client

/-- A client that cannot take a default stays as it is. -/
def adjust (client : Client) : Setting → Client
  | .default value =>
    match client.setDefault value with
    | .ok client => client
    | .error _ => client
  | .noDefault => client.clearDefault
  | .encoding encoding => client.setEncoding encoding
  | .policy policy => client.setPolicy policy

def adjustAll (client : Client) (settings : List Setting) : Client :=
  settings.foldl adjust client

/-- Settings do not touch the endpoints. -/
theorem registry_adjust (client : Client) (setting : Setting) :
    (client.adjust setting).registry = client.registry := by
  cases setting with
  | default value =>
    simp only [adjust, setDefault]
    cases Encoding.packed.encode value with
    | error error => rfl
    | ok packed => rfl
  | _ => rfl

/-- The client's default is this value, if any: in each encoding in which the value has a form, its
bytes are that form, and in the others there are none. -/
def HasDefault (client : Client) (value? : Option Datum) : Prop :=
  ∀ encoding, (client.setEncoding encoding).defaultBytes
    = value?.bind fun value => (encoding.encode value).toOption

variable {client : Client} {value? : Option Datum}

theorem HasDefault.new (config : Config) : (Client.new config).HasDefault none :=
  fun _ => rfl

theorem HasDefault.of_setDefault {after : Client} {value : Datum}
    (h : client.setDefault value = .ok after) : after.HasDefault (some value) := by
  unfold setDefault at h
  cases hpacked : Encoding.packed.encode value with
  | error error =>
    rw [hpacked] at h
    cases h
  | ok packed =>
    rw [hpacked] at h
    cases h
    intro encoding
    cases encoding with
    | packed => exact (congrArg Except.toOption hpacked).symm
    | plain => rfl

/-- Every client takes the same values as defaults. -/
theorem defaultAfter_default (client : Client) (value? : Option Datum) (value : Datum) :
    Setting.defaultAfter value? (.default value)
      = match client.setDefault value with
        | .ok _ => some value
        | .error _ => value? := by
  simp only [Setting.defaultAfter, setDefault]
  cases Encoding.packed.encode value with
  | error error => rfl
  | ok packed => rfl

theorem HasDefault.adjust (h : client.HasDefault value?) (setting : Setting) :
    (client.adjust setting).HasDefault (setting.defaultAfter value?) := by
  cases setting with
  | default value =>
    simp only [client.defaultAfter_default, Client.adjust]
    cases hset : client.setDefault value with
    | error error => exact h
    | ok after => exact .of_setDefault hset
  | noDefault => exact fun _ => rfl
  -- the encoding that the client had is of no importance
  | encoding other => exact fun encoding => h encoding
  | policy policy => exact fun encoding => h encoding

theorem HasDefault.adjustAll (h : client.HasDefault value?) (settings : List Setting) :
    (client.adjustAll settings).HasDefault (settings.foldl Setting.defaultAfter value?) := by
  induction settings generalizing client value? with
  | nil => exact h
  | cons setting settings ih => exact ih (h.adjust setting)

/-- It does not matter which encodings were in use meanwhile. -/
theorem setEncoding_foldl (client : Client) (encodings : List Encoding) (encoding : Encoding) :
    (encodings.foldl setEncoding client).setEncoding encoding = client.setEncoding encoding := by
  induction encodings generalizing client with
  | nil => rfl
  | cons other encodings ih => exact ih (client.setEncoding other)

theorem HasDefault.defaultBytes_eq (h : client.HasDefault value?) :
    client.defaultBytes
      = value?.bind fun value => (client.config.encoding.encode value).toOption :=
  h client.config.encoding

/-- A value is written like the default only if it is the default. -/
theorem HasDefault.defaultBytes_eq_some_iff {value default : Datum} {shape : Shape} {stored : Bytes}
    (h : client.HasDefault (some default)) (hvalue : shape.Holds value)
    (hdefault : shape.Holds default) (hstored : client.encode value = .ok stored) :
    client.defaultBytes = some stored ↔ value = default := by
  unfold Client.encode at hstored
  rw [h.defaultBytes_eq, Option.bind_some]
  constructor
  · intro hsame
    have hform : client.config.encoding.encode default = .ok stored := by
      cases hdefault : client.config.encoding.encode default with
      | error error =>
        rw [hdefault] at hsame
        cases hsame
      | ok form =>
        rw [hdefault] at hsame
        exact congrArg Except.ok (Option.some.inj hsame)
    cases hencoding : client.config.encoding with
    | packed =>
      rw [hencoding] at hstored hform
      exact Packed.eq_of_encode hvalue hdefault (mapError_eq_ok_iff.1 hstored)
        (mapError_eq_ok_iff.1 hform)
    | plain =>
      rw [hencoding] at hstored hform
      exact Plain.unique_of_holds hvalue false default hdefault stored
        (mapError_eq_ok_iff.1 hstored) (mapError_eq_ok_iff.1 hform)
  · rintro rfl
    rw [hstored]
    rfl

end Client

/-! ## Ways to read -/

namespace Session

variable {σ : Type} [Transport σ] {session after : Session σ} {mode : Mode} {key : Datum}
  {bytes : Bytes} {found : Option Bytes} {error : Error}

/-- What the read of a mode finds under an encoded key. -/
def read (session : Session σ) (mode : Mode) (key : Bytes) :
    Except Error (Option Bytes) × Session σ :=
  (session.fetch (mode.flags .get) key).map
    (fun value => (Outcome.ofRead value.1 value.2).toResult) id

theorem find_of_encode (hkey : session.client.encode key = .ok bytes) :
    session.find mode key = session.read mode bytes := by
  unfold find call
  rw [hkey]
  rfl

theorem find_of_not_encode (hkey : session.client.encode key = .error error) :
    session.find mode key = (.error error, session) := by
  unfold find call
  rw [hkey]
  rfl

/-- A key that cannot be encoded or read cannot in any of the three ways. -/
theorem readings_of_error (h : session.find mode key = (.error error, after)) (shape : Shape) :
    session.has mode key = (.error error, after)
      ∧ session.getItem mode key shape = (.error error, after)
      ∧ session.get mode key shape = (.error error, after) := by
  unfold has getItem get
  rw [h]
  exact ⟨rfl, rfl, rfl⟩

/-- A key is there if what would be given for it is not what would be given without it. -/
theorem isSome_and_ne (found default : Option Bytes) :
    (found.isSome && found != default) = decide (found.or default ≠ default) := by
  cases found with
  | none => simp
  | some bytes =>
    rw [Option.isSome_some, Bool.true_and, Option.some_or, bne, Bool.beq_eq_decide_eq, decide_not]

theorem readings_of_found (h : session.find mode key = (.ok found, after)) (shape : Shape) :
    let client := session.client
    let given := found.or client.defaultBytes
    session.has mode key = (.ok (decide (given ≠ client.defaultBytes)), after)
      ∧ session.getItem mode key shape
        = (found.elim (.error .keyNotFound) (client.decode shape), after)
      ∧ session.get mode key shape
        = (given.elim (.ok none) fun bytes => (client.decode shape bytes).map some, after) := by
  intro client given
  unfold has getItem get
  rw [h]
  refine ⟨?_, ?_, ?_⟩
  · rw [← isSome_and_ne]
    rfl
  · cases found with
    | none => rfl
    | some bytes => rfl
  · show _ = ((found.or session.client.defaultBytes).elim _ _, after)
    simp only [Prod.map_apply, Except.bind, id]
    cases found.or session.client.defaultBytes with
    | none => rfl
    | some bytes => rfl

end Session

end TieredStore
