import TieredStore.Datum.Encoding
import TieredStore.Routing.Registry

/-!
# Configuration

The settings of a client, each with a default.
-/

namespace TieredStore

def release : String := "0.1.0"

/-- Bytes of key and value that a server accepts unless told otherwise. -/
def defaultMaxPayload : Nat := 64 * 1024

structure Config where
  encoding : Encoding := .packed
  policy : Policy := .first
  /-- How long to wait for a reply, in milliseconds; 0 waits for ever. -/
  readTimeout : Nat := 5000
  /-- How long to wait for a connection or a write, in milliseconds; 0 waits for ever. -/
  writeTimeout : Nat := 5000
  /-- Bytes of keys and values that one request may carry. -/
  maxPayload : Nat := defaultMaxPayload
  deriving DecidableEq, Repr

end TieredStore
