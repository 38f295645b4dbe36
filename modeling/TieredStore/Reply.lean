import TieredStore.Failure
import TieredStore.Wire.Fault

/-!
# Replies

What a server answers: the id of the request, a code, and a payload whose form depends on what was
asked.  The code is kept as it came, because one outside the protocol is something a caller has to
see.  Each payload form has a constructor and an accessor, which ignores what follows its value.
-/

namespace TieredStore

inductive ReplyCode where
  | error
  | cacheHit
  | cacheMiss
  | ok
  | notIn
  | noMatch
  deriving DecidableEq, Repr

namespace ReplyCode

def word : ReplyCode → UInt32
  | .error => 0x800
  | .cacheHit => 0x801
  | .cacheMiss => 0x802
  | .ok => 0x803
  | .notIn => 0x804
  | .noMatch => 0x805

def ofWord? (word : UInt32) : Option ReplyCode :=
  if word = 0x800 then some .error
  else if word = 0x801 then some .cacheHit
  else if word = 0x802 then some .cacheMiss
  else if word = 0x803 then some .ok
  else if word = 0x804 then some .notIn
  else if word = 0x805 then some .noMatch
  else none

def name : ReplyCode → String
  | .error => "Error"
  | .cacheHit => "CacheHit"
  | .cacheMiss => "CacheMiss"
  | .ok => "Ok"
  | .notIn => "NotIn"
  | .noMatch => "NoMatch"

@[simp] theorem ofWord?_word (code : ReplyCode) : ofWord? code.word = some code := by
  cases code <;> rfl

end ReplyCode

structure Reply where
  /-- Id of the request that it answers. -/
  id : UInt32
  code : UInt32
  payload : Bytes
  deriving DecidableEq, Repr

namespace Reply

/-! ## Replies that servers give -/

def plain (id : UInt32) (code : ReplyCode) : Reply :=
  ⟨id, code.word, []⟩

def error (id : UInt32) (error : ServerError) : Reply :=
  ⟨id, ReplyCode.error.word, Bytes.bigEndian 4 error.code.toNat⟩

/-- A value with its length in front. -/
def value (id : UInt32) (code : ReplyCode) (value : Bytes) : Reply :=
  ⟨id, code.word, Bytes.bigEndian 4 value.length ++ value⟩

def counter (id : UInt32) (value : Int64) : Reply :=
  ⟨id, ReplyCode.ok.word, Bytes.bigEndian 8 value.toUInt64.toNat⟩

/-- Counters with their number in front. -/
def stats (id : UInt32) (counters : List UInt64) : Reply :=
  ⟨id, ReplyCode.ok.word, Bytes.bigEndian 4 counters.length
    ++ counters.flatMap fun counter => Bytes.bigEndian 8 counter.toNat⟩

/-! ## What a reply carries -/

def replyCode? (reply : Reply) : Option ReplyCode :=
  ReplyCode.ofWord? reply.code

def serverError (reply : Reply) : Except Wire.Fault ServerError :=
  match Bytes.takeBig? 4 reply.payload with
  | none => .error .missingErrorCode
  | some (code, _) => .ok (.ofCode (UInt32.ofNat code))

def valueBytes (reply : Reply) : Except Wire.Fault Bytes :=
  match Bytes.takeBig? 4 reply.payload with
  | none => .error .missingValueLength
  | some (length, bs) =>
    match Bytes.split? length bs with
    | none => .error (.shortValue length bs.length)
    | some (value, _) => .ok value

def counterValue (reply : Reply) : Except Wire.Fault Int64 :=
  match Bytes.takeBig? 8 reply.payload with
  | none => .error (.shortCounter reply.payload.length)
  | some (value, _) => .ok (UInt64.ofNat value).toInt64

/-- The first `count` words of eight bytes, if there are that many. -/
def takeCounters? : (count : Nat) → Bytes → Option (List UInt64)
  | 0, _ => some []
  | count + 1, bs =>
    match Bytes.takeBig? 8 bs with
    | none => none
    | some (counter, bs) => (takeCounters? count bs).map (UInt64.ofNat counter :: ·)

def statsValues (reply : Reply) : Except Wire.Fault (List UInt64) :=
  match Bytes.takeBig? 4 reply.payload with
  | none => .error .missingCounterCount
  | some (count, bs) =>
    match takeCounters? count bs with
    | none => .error (.shortCounters count bs.length)
    | some counters => .ok counters

end Reply

end TieredStore
