import TieredStore.Text.Numeral

/-!
# Failures

Why a request produced no answer.  A failure has a negative code, so that it can share one integer
with the answers of a compare-and-swap, which are not negative: five codes for what goes wrong on
the way, and one below `-0x1000` for each error that a server can report.
-/

namespace TieredStore

/-! ## What a server reports -/

inductive ServerError where
  | versionMismatch
  | send
  | brokenRequest
  | unknownRequest
  | memory
  | database
  | readOnly
  /-- An error without a name. -/
  | other (code : UInt32)
  deriving DecidableEq, Repr

namespace ServerError

def code : ServerError → UInt32
  | .versionMismatch => 0x101
  | .send => 0x102
  | .brokenRequest => 0x103
  | .unknownRequest => 0x104
  | .memory => 0x105
  | .database => 0x106
  | .readOnly => 0x107
  | .other code => code

/-- The error of a code, by its name if it has one. -/
def ofCode (code : UInt32) : ServerError :=
  if code = 0x101 then .versionMismatch
  else if code = 0x102 then .send
  else if code = 0x103 then .brokenRequest
  else if code = 0x104 then .unknownRequest
  else if code = 0x105 then .memory
  else if code = 0x106 then .database
  else if code = 0x107 then .readOnly
  else .other code

def name : ServerError → String
  | .versionMismatch => "VersionMismatch"
  | .send => "Send"
  | .brokenRequest => "BrokenRequest"
  | .unknownRequest => "UnknownRequest"
  | .memory => "Memory"
  | .database => "Database"
  | .readOnly => "ReadOnly"
  | .other code => s!"Other({code.toNat})"

def message : ServerError → String
  | .versionMismatch => "protocol version mismatch"
  | .send => "server failed to send"
  | .brokenRequest => "broken request"
  | .unknownRequest => "unknown request"
  | .memory => "server out of memory"
  | .database => "database error"
  | .readOnly => "server is read-only"
  | .other code => "server error 0x" ++ Text.hexadecimal code.toNat

end ServerError

/-! ## What a client reports -/

inductive Failure where
  | noEndpoint
  /-- Connecting, sending or receiving failed. -/
  | transport
  | timeout
  /-- The reply could not be read or does not belong to the request. -/
  | malformed
  /-- The reply's code is not one that answers the request. -/
  | unexpectedReply
  | server (error : ServerError)
  deriving DecidableEq, Repr

namespace Failure

/-- Codes of server errors lie this far below zero, clear of the other failures. -/
def serverCodeBase : Int := 0x1000

def code : Failure → Int
  | .noEndpoint => -1
  | .transport => -2
  | .timeout => -3
  | .malformed => -4
  | .unexpectedReply => -5
  | .server error => -(serverCodeBase + error.code.toNat)

/-- The failure of a negative number; one that no failure has stands for a malformed reply. -/
def ofCode? (code : Int) : Option Failure :=
  if 0 ≤ code then none
  else if code = -1 then some .noEndpoint
  else if code = -2 then some .transport
  else if code = -3 then some .timeout
  else if code = -4 then some .malformed
  else if code = -5 then some .unexpectedReply
  else
    let number := -code - serverCodeBase
    if 0 ≤ number ∧ number < 0x100000000 then
      some (.server (.ofCode (UInt32.ofNat number.toNat)))
    else
      some .malformed

def name : Failure → String
  | .noEndpoint => "NoEndpoint"
  | .transport => "Transport"
  | .timeout => "Timeout"
  | .malformed => "Malformed"
  | .unexpectedReply => "UnexpectedReply"
  | .server error => s!"Server({error.name})"

def message : Failure → String
  | .noEndpoint => "no endpoint registered"
  | .transport => "transport error"
  | .timeout => "timed out"
  | .malformed => "malformed reply"
  | .unexpectedReply => "unexpected reply"
  | .server error => s!"server error: {error.message}"

theorem code_neg (failure : Failure) : failure.code < 0 := by
  cases failure <;> simp only [code, serverCodeBase] <;> omega

end Failure

end TieredStore
