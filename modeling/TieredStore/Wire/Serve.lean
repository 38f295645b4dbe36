import TieredStore.Server
import TieredStore.Wire.Frame

/-!
# Serving messages

A server as it is seen from the wire: it reads the request in a message and writes its reply as one.
-/

namespace TieredStore.Server

/-- Answers the request that a message holds by the message of its reply.  A message that holds none
leaves the server as it is. -/
def serve (server : Server) (message : Bytes) : Except Error Bytes × Server :=
  match Request.decode message with
  | .error fault => (.error (.protocol fault), server)
  | .ok request => (server.handle request).map (fun reply => .ok reply.encode) id

end TieredStore.Server
