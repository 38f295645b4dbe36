import TieredStore.Text.Numeral
import TieredStore.Transport.Network

/-!
# Loopback

A machine that reaches nobody but itself.  While its loopback interface is up, one peer listens on
it: the peer takes down every request that it gets and answers by a script, one action for each.
While the interface is down there is no way to anywhere, not even to listen.
-/

namespace TieredStore

/-- What the peer does on a request: it sends these, and may then close the connection. -/
structure Reaction where
  send : List Bytes
  close : Bool
  deriving DecidableEq, Repr

structure Link where
  kind : TransportKind
  address : Address
  /-- The peer has closed its side. -/
  closed : Bool
  deriving DecidableEq, Repr

structure Loopback where
  up : Bool
  /-- Where the peer listens, and over what. -/
  peer : Option (TransportKind × Address)
  script : List Reaction
  /-- The requests that the peer got, each with the number of its connection. -/
  received : List (Nat × Bytes)
  /-- All links, in the order in which they were opened. -/
  links : List Link
  deriving DecidableEq, Repr

namespace Loopback

/-- Nothing has a way out. -/
def unreachable : IoError :=
  ⟨.networkUnreachable, "Network is unreachable (os error 101)"⟩

/-- Nobody listens there. -/
def refused : IoError :=
  ⟨.connectionRefused, "Connection refused (os error 111)"⟩

/-- The waiting ends because it has lasted long enough. -/
def silence : IoError :=
  ⟨.wouldBlock, "Resource temporarily unavailable (os error 11)"⟩

/-- No datagram is that long. -/
def messageTooLong : IoError :=
  ⟨.other, "Message too long (os error 90)"⟩

/-- Bytes that a datagram over IPv4 has room for. -/
def maxDatagramPayload : Nat := 65507

def idle (up : Bool) : Loopback :=
  ⟨up, none, [], [], []⟩

def listen (machine : Loopback) (kind : TransportKind) (address : Address)
    (script : List Reaction) : Except IoError Loopback :=
  if machine.up then .ok { machine with peer := some (kind, address), script }
  else .error unreachable

/-! ## Names -/

/-- The parts of a text between the places where a character stands. -/
def splitAtEach (separator : Char) : List Char → List (List Char)
  | [] => [[]]
  | c :: cs =>
    match splitAtEach separator cs with
    | [] => [[c]]
    | part :: parts => if c = separator then [] :: part :: parts else (c :: part) :: parts

/-- Four numbers of a byte each, with points between them. -/
def isIpv4 (host : String) : Bool :=
  let parts := splitAtEach '.' host.toList
  parts.length == 4 && parts.all fun part =>
    part.length ≤ 3 && (Text.natural? part).any (· ≤ 255)

/-- Numeric addresses stand for themselves, and the machine knows its own name. -/
def addresses (endpoint : Endpoint) : Except String (List Address) :=
  let host := endpoint.host
  if '\x00' ∈ host.toList then .error "file name contained an unexpected NUL byte"
  else if isIpv4 host ∨ ':' ∈ host.toList then .ok [endpoint.socketAddress]
  else if host = "localhost" then .ok [s!"127.0.0.1:{endpoint.port}"]
  else .error "failed to lookup address information"

/-! ## Links -/

def dial (kind : TransportKind) (address : Address) (machine : Loopback) :
    Except IoError Nat × Loopback :=
  if !machine.up then
    (.error unreachable, machine)
  else if kind = .tcp ∧ machine.peer ≠ some (.tcp, address) then
    (.error refused, machine)
  else
    (.ok machine.links.length, { machine with links := machine.links ++ [⟨kind, address, false⟩] })

/-- The number of a link among those that lead to the same address, from 1. -/
def connectionNumber (machine : Loopback) (number : Nat) (link : Link) : Nat :=
  if link.kind = .udp then 1
  else ((machine.links.take number).countP fun other => other.address = link.address) + 1

/-- Sends over a link.  A request that reaches the peer is taken down and answered by the next
action; without one the peer keeps silent. -/
def transfer (number : Nat) (bytes : Bytes) (machine : Loopback) :
    Except IoError Wire.Inflow × Loopback :=
  match machine.links[number]? with
  | none => (.error ⟨.notConnected, "Transport endpoint is not connected (os error 107)"⟩, machine)
  | some link =>
    if link.kind = .udp ∧ maxDatagramPayload < bytes.length then
      (.error messageTooLong, machine)
    else if link.closed ∨ machine.peer ≠ some (link.kind, link.address) then
      (.ok ⟨[], if link.kind = .udp then refused else .endOfStream⟩, machine)
    else
      let reaction := machine.script.head?.getD ⟨[], false⟩
      let stop := if reaction.close ∧ link.kind = .tcp then .endOfStream else silence
      (.ok ⟨reaction.send, stop⟩,
        { machine with
          script := machine.script.drop 1
          received := machine.received ++ [(machine.connectionNumber number link, bytes)]
          links := machine.links.set number { link with closed := reaction.close } })

instance : Network Loopback where
  resolve _ := addresses
  dial := dial
  transfer := transfer

end Loopback

end TieredStore
