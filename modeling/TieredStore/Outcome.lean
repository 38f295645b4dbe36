import TieredStore.Error

/-!
# Outcomes

What the reply to an operation means.  A status says how the server disposed of a request; together
with the value that came with it, it is interpreted here for each operation.  This is the one place
where a failed request becomes an error, and where a status that an operation does not admit counts
as a failed one.
-/

namespace TieredStore

inductive Status where
  /-- The server performed the operation, or found the key. -/
  | done
  /-- The key is not there. -/
  | absent
  /-- The key is there, but a condition of the operation did not hold. -/
  | noMatch
  /-- There is no usable answer. -/
  | failed (failure : Failure)
  deriving DecidableEq, Repr

def Status.isDone : Status → Bool
  | .done => true
  | _ => false

/-! ## Reading -/

inductive Outcome where
  | found (value : Bytes)
  | notFound
  | failed (failure : Failure)
  deriving DecidableEq, Repr

namespace Outcome

/-- Success without a value is malformed; a read has no condition to fail. -/
def ofRead : Status → Option Bytes → Outcome
  | .done, some value => .found value
  | .done, none => .failed .malformed
  | .absent, _ => .notFound
  | .noMatch, _ => .failed .unexpectedReply
  | .failed failure, _ => .failed failure

/-- A miss is a result; a failure is an error. -/
def toResult : Outcome → Except Error (Option Bytes)
  | .found value => .ok (some value)
  | .notFound => .ok none
  | .failed failure => .error (.network failure)

def name : Outcome → String
  | .found _ => "Found"
  | .notFound => "NotFound"
  | .failed failure => s!"NetworkFailure({failure.name})"

def isFound : Outcome → Bool
  | .found _ => true
  | _ => false

end Outcome

/-! ## Writing and deleting -/

/-- A write is done or has failed. -/
def Status.written : Status → Except Error Unit
  | .done => .ok ()
  | .failed failure => .error (.network failure)
  | .absent | .noMatch => .error (.network .unexpectedReply)

/-- Whether the key was there to be deleted. -/
def Status.deleted : Status → Except Error Bool
  | .done => .ok true
  | .absent => .ok false
  | .noMatch => .error (.network .unexpectedReply)
  | .failed failure => .error (.network failure)

/-! ## Compare-and-swap -/

inductive Swap where
  /-- The new value is in place; the number is the evidence, 2 or more. -/
  | applied (evidence : Nat)
  | mismatch
  /-- The key is not there. -/
  | notFound
  deriving DecidableEq, Repr

namespace Swap

def isApplied : Swap → Bool
  | .applied _ => true
  | _ => false

def name : Swap → String
  | .applied evidence => s!"Applied({evidence})"
  | .mismatch => "Mismatch"
  | .notFound => "NotFound"

def message : Swap → String
  | .applied evidence => s!"applied ({evidence})"
  | .mismatch => "mismatch"
  | .notFound => "not found"

end Swap

inductive CasOutcome where
  | answered (swap : Swap)
  | failed (failure : Failure)
  deriving DecidableEq, Repr

namespace CasOutcome

def applied : Int := 2

def mismatch : Int := 1

def notFound : Int := 0

/-- The status of a compare-and-swap as one number: a failure is negative. -/
def codeOf : Status → Int
  | .done => applied
  | .noMatch => mismatch
  | .absent => notFound
  | .failed failure => failure.code

/-- Reads the number back; every number above 1 is evidence of a swap. -/
def ofCode (code : Int) : CasOutcome :=
  if code = notFound then .answered .notFound
  else if code = mismatch then .answered .mismatch
  else
    match Failure.ofCode? code with
    | some failure => .failed failure
    | none => .answered (.applied code.toNat)

def name : CasOutcome → String
  | .answered swap => swap.name
  | .failed failure => s!"NetworkFailure({failure.name})"

def toResult : CasOutcome → Except Error Swap
  | .answered swap => .ok swap
  | .failed failure => .error (.network failure)

end CasOutcome

/-! ## Counters -/

def Status.incremented : Status → Option Int64 → Except Error (Option Int64)
  | .done, some value => .ok (some value)
  | .done, none => .error (.network .malformed)
  | .absent, _ => .ok none
  | .noMatch, _ => .error .notANumber
  | .failed failure, _ => .error (.network failure)

def Status.counted : Status → List UInt64 → Except Error (List UInt64)
  | .done, counters => .ok counters
  | .failed failure, _ => .error (.network failure)
  | .absent, _ | .noMatch, _ => .error (.network .unexpectedReply)

end TieredStore
