import TieredStore.Bytes.Word

/-!
# Requests

What a client asks of a server: a command on keys and values, flags that choose the tiers it
touches, and an id of 28 bits by which the reply is recognised.
-/

namespace TieredStore

/-! ## Commands -/

inductive CommandType where
  | get
  | set
  | delete
  | cas
  | incr
  | stats
  | firstKey
  | nextKey
  deriving DecidableEq, Repr

namespace CommandType

def code : CommandType → UInt16
  | .get => 0x101
  | .set => 0x102
  | .delete => 0x103
  | .cas => 0x104
  | .incr => 0x105
  | .stats => 0x106
  | .firstKey => 0x107
  | .nextKey => 0x108

def ofCode? (code : UInt16) : Option CommandType :=
  if code = 0x101 then some .get
  else if code = 0x102 then some .set
  else if code = 0x103 then some .delete
  else if code = 0x104 then some .cas
  else if code = 0x105 then some .incr
  else if code = 0x106 then some .stats
  else if code = 0x107 then some .firstKey
  else if code = 0x108 then some .nextKey
  else none

def name : CommandType → String
  | .get => "Get"
  | .set => "Set"
  | .delete => "Delete"
  | .cas => "Cas"
  | .incr => "Incr"
  | .stats => "Stats"
  | .firstKey => "FirstKey"
  | .nextKey => "NextKey"

/-- The command's name in messages about its bytes. -/
def label : CommandType → String
  | .get => "GET"
  | .set => "SET"
  | .delete => "DEL"
  | .cas => "CAS"
  | .incr => "INCR"
  | .stats => "STATS"
  | .firstKey => "FIRSTKEY"
  | .nextKey => "NEXTKEY"

@[simp] theorem ofCode?_code (type : CommandType) : ofCode? type.code = some type := by
  cases type <;> rfl

end CommandType

inductive Command where
  | get (key : Bytes)
  | set (key value : Bytes)
  | delete (key : Bytes)
  /-- Rebinds a key to `new` if its value is `old`. -/
  | cas (key old new : Bytes)
  /-- Adds to a value that is a decimal numeral with a NUL after it. -/
  | incr (key : Bytes) (delta : Int64)
  | stats
  | firstKey
  /-- The key of the database that follows a given one. -/
  | nextKey (key : Bytes)
  deriving DecidableEq, Repr

namespace Command

def type : Command → CommandType
  | .get .. => .get
  | .set .. => .set
  | .delete .. => .delete
  | .cas .. => .cas
  | .incr .. => .incr
  | .stats => .stats
  | .firstKey => .firstKey
  | .nextKey .. => .nextKey

/-- The key that the command works on; empty for a command without one. -/
def key : Command → Bytes
  | .get key | .set key _ | .delete key | .cas key _ _ | .incr key _ | .nextKey key => key
  | .stats | .firstKey => []

/-- Bytes of keys and values carried. -/
def payloadLength : Command → Nat
  | .set key value => key.length + value.length
  | .cas key old new => key.length + old.length + new.length
  | command => command.key.length

end Command

/-! ## Flags -/

/-- Sixteen bits that choose how a command is carried out. -/
structure Flags where
  bits : UInt16
  deriving DecidableEq, Repr

namespace Flags

/-- Cache and database, without waiting for the database. -/
def none : Flags := ⟨0⟩

/-- Touches the cache tier only. -/
def cacheOnly : Flags := ⟨1⟩

/-- Answers a write once the database has it. -/
def sync : Flags := ⟨2⟩

def isCacheOnly (flags : Flags) : Bool :=
  flags.bits &&& 1 ≠ 0

def isSync (flags : Flags) : Bool :=
  flags.bits &&& 2 ≠ 0

end Flags

/-! ## Requests -/

structure Request where
  /-- The reply carries it back; 28 bits of it travel. -/
  id : UInt32
  flags : Flags
  command : Command
  deriving DecidableEq, Repr

namespace Request

/-- The largest id that travels whole. -/
def maxId : UInt32 := 0x0FFFFFFF

/-- A request whose id is cut down to 28 bits. -/
def make (id : UInt32) (flags : Flags) (command : Command) : Request :=
  ⟨id &&& maxId, flags, command⟩

end Request

end TieredStore
