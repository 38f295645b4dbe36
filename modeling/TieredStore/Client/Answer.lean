import TieredStore.Outcome
import TieredStore.Reply

/-!
# Answers

What one round trip yields, a reply or a failure, and what it says to each kind of operation.  The
status follows from the reply's code; where the operation brings a value, a reply that should carry
one and does not is malformed.
-/

namespace TieredStore

abbrev Answer := Except Failure Reply

namespace Reply

def status (reply : Reply) : Status :=
  match reply.replyCode? with
  | some .ok | some .cacheHit => .done
  | some .cacheMiss | some .notIn => .absent
  | some .noMatch => .noMatch
  | some .error =>
    match reply.serverError with
    | .ok error => .failed (.server error)
    | .error _ => .failed .malformed
  | none => .failed .unexpectedReply

end Reply

namespace Answer

def status : Answer → Status
  | .ok reply => reply.status
  | .error failure => .failed failure

/-- The status, and what a reading of the reply's payload gives if the request was done. -/
def carrying {α : Type} (accessor : Reply → Except Wire.Fault α) : Answer → Status × Option α
  | .error failure => (.failed failure, none)
  | .ok reply =>
    match reply.status with
    | .done =>
      match accessor reply with
      | .ok a => (.done, some a)
      | .error _ => (.failed .malformed, none)
    | status => (status, none)

def value : Answer → Status × Option Bytes :=
  carrying Reply.valueBytes

def counter : Answer → Status × Option Int64 :=
  carrying Reply.counterValue

def counters (answer : Answer) : Status × List UInt64 :=
  (carrying Reply.statsValues answer).map id (·.getD [])

end Answer

end TieredStore
