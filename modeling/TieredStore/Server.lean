import TieredStore.Config
import TieredStore.Reply
import TieredStore.Store.Cache
import TieredStore.Store.CounterText
import TieredStore.Store.Database

/-!
# Servers

A server keeps values in two tiers, a cache that may forget and a database that lags behind.  A
plain write is answered once its job is queued, a synchronous one once it is applied, and one for
the cache alone never gets to the database.  A read asks the cache first and then queues a look-up
behind the pending writes, so that it sees them; what it finds is cached.

`Server.handle` answers one request.  `Server.work` is the database's own progress, which may take
place between any two requests.
-/

namespace TieredStore

/-! ## Counters -/

structure Counters where
  requests : UInt64 := 0
  cacheHits : UInt64 := 0
  cacheMisses : UInt64 := 0
  databaseHits : UInt64 := 0
  databaseMisses : UInt64 := 0
  sets : UInt64 := 0
  deletes : UInt64 := 0
  swaps : UInt64 := 0
  increments : UInt64 := 0
  deriving DecidableEq, Repr

namespace Counters

def count : Nat := 9

/-- The counters in the order in which they are reported. -/
def toList (counters : Counters) : List UInt64 :=
  [counters.requests, counters.cacheHits, counters.cacheMisses, counters.databaseHits,
    counters.databaseMisses, counters.sets, counters.deletes, counters.swaps, counters.increments]

end Counters

/-! ## State -/

structure ServerOptions where
  /-- The number of entries that the cache holds, if there is a limit. -/
  cacheCapacity : Option Nat := none
  /-- Bytes of keys and values that one request may carry. -/
  maxPayload : Nat := defaultMaxPayload
  deriving DecidableEq, Repr

structure Server where
  maxPayload : Nat
  cache : Cache
  database : Database
  counters : Counters
  /-- Whether connections are accepted; requests that get through are answered all the same. -/
  reachable : Bool
  deriving DecidableEq

namespace Server

def start (options : ServerOptions) : Server :=
  ⟨options.maxPayload, .empty options.cacheCapacity, .empty, {}, true⟩

def tally (server : Server) (event : Counters → Counters) : Server :=
  { server with counters := event server.counters }

def remember (server : Server) (key value : Bytes) : Server :=
  { server with cache := server.cache.insert key value }

def work (n : Nat) (server : Server) : Server :=
  { server with database := server.database.work n }

def flush (server : Server) : Server :=
  { server with database := server.database.flush }

/-- Drops a key from the cache, as if it had become too old; tells whether it was there. -/
def evict (server : Server) (key : Bytes) : Bool × Server :=
  ((server.cache.get? key).isSome, { server with cache := server.cache.erase key })

/-- The database's value of a key, in order with the queued writes. -/
def lookup (server : Server) (key : Bytes) : Option (Option Bytes) × Server :=
  (server.database.perform (.find key)).map id fun database => { server with database }

/-- The value of a key in the cache, else, unless the cache alone is asked, in the database. -/
def current (server : Server) (key : Bytes) (cacheOnly : Bool) : Option (Option Bytes) × Server :=
  match server.cache.get? key with
  | some value => (some (some value), server)
  | none => if cacheOnly then (some none, server) else server.lookup key

/-- Queues a write and answers it, at once or when it is applied. -/
def acknowledge (server : Server) (id : UInt32) (job : Job) (sync : Bool) : Reply × Server :=
  if sync then
    match server.database.perform job with
    | (none, database) => (.error id .database, { server with database })
    | (some _, database) => (.plain id .ok, { server with database })
  else
    (.plain id .ok, { server with database := server.database.submit job })

/-! ## Commands -/

def get (server : Server) (id : UInt32) (key : Bytes) (cacheOnly : Bool) : Reply × Server :=
  match server.cache.get? key with
  | some value =>
    (.value id .cacheHit value, server.tally fun c => { c with cacheHits := c.cacheHits + 1 })
  | none =>
    let server := server.tally fun c => { c with cacheMisses := c.cacheMisses + 1 }
    if cacheOnly then
      (.plain id .cacheMiss, server)
    else
      match server.lookup key with
      | (none, server) => (.error id .database, server)
      | (some none, server) =>
        (.plain id .notIn, server.tally fun c => { c with databaseMisses := c.databaseMisses + 1 })
      | (some (some value), server) =>
        (.value id .ok value,
          (server.tally fun c => { c with databaseHits := c.databaseHits + 1 }).remember key value)

def set (server : Server) (id : UInt32) (key value : Bytes) (cacheOnly sync : Bool) :
    Reply × Server :=
  let server := (server.tally fun c => { c with sets := c.sets + 1 }).remember key value
  if cacheOnly then (.plain id .ok, server) else server.acknowledge id (.put key value) sync

def delete (server : Server) (id : UInt32) (key : Bytes) (cacheOnly sync : Bool) :
    Reply × Server :=
  let cached := (server.cache.get? key).isSome
  let server := server.tally fun c => { c with deletes := c.deletes + 1 }
  let server := { server with cache := server.cache.erase key }
  if cacheOnly then
    (.plain id (if cached then .ok else .notIn), server)
  else
    match server.lookup key with
    | (none, server) => (.error id .database, server)
    | (some stored, server) =>
      if cached || stored.isSome then server.acknowledge id (.erase key) sync
      else (.plain id .notIn, server)

def cas (server : Server) (id : UInt32) (key old new : Bytes) (cacheOnly : Bool) :
    Reply × Server :=
  match (server.tally fun c => { c with swaps := c.swaps + 1 }).current key cacheOnly with
  | (none, server) => (.error id .database, server)
  | (some none, server) => (.plain id .notIn, server)
  | (some (some value), server) =>
    if value ≠ old then
      (.plain id .noMatch, server)
    else
      let server := server.remember key new
      if cacheOnly then (.plain id .ok, server) else server.acknowledge id (.put key new) false

def incr (server : Server) (id : UInt32) (key : Bytes) (delta : Int64) (cacheOnly : Bool) :
    Reply × Server :=
  match (server.tally fun c => { c with increments := c.increments + 1 }).current key cacheOnly with
  | (none, server) => (.error id .database, server)
  | (some none, server) => (.plain id .notIn, server)
  | (some (some value), server) =>
    match readCounter value with
    | none => (.plain id .noMatch, server)
    | some number =>
      let updated := number + delta
      let server := server.remember key (writeCounter updated)
      if cacheOnly then
        (.counter id updated, server)
      else
        (.counter id updated,
          { server with database := server.database.submit (.put key (writeCounter updated)) })

/-- A key of the database as the answer to an iteration. -/
def keyReply (id : UInt32) : Option Bytes → Reply
  | some key => .value id .ok key
  | none => .plain id .notIn

def handle (server : Server) (request : Request) : Reply × Server :=
  let server := server.tally fun c => { c with requests := c.requests + 1 }
  let id := request.id
  let cacheOnly := request.flags.isCacheOnly
  let sync := request.flags.isSync
  if server.maxPayload < request.command.payloadLength then
    (.error id .brokenRequest, server)
  else
    match request.command with
    | .get key => server.get id key cacheOnly
    | .set key value => server.set id key value cacheOnly sync
    | .delete key => server.delete id key cacheOnly sync
    | .cas key old new => server.cas id key old new cacheOnly
    | .incr key delta => server.incr id key delta cacheOnly
    | .stats => (.stats id server.counters.toList, server)
    | .firstKey =>
      let server := server.flush
      (keyReply id server.database.table.firstKey?, server)
    | .nextKey key =>
      let server := server.flush
      (keyReply id (server.database.table.nextKey? key), server)

end Server

end TieredStore
