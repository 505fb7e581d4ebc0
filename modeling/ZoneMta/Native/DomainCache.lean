import Mathlib
import ZoneMta.Native.TtlCache

/-!
# Unreachable domains

`getConnectionWithCache` of `lib/sender.js` with the commands GETCACHE, SETCACHE and CLEARCACHE of
`lib/queue-server.js`. The senders share the cache of the master process; a command is on its way
until the queue server processes it, and so is its answer. Other parts of the master process use the
cache as well: they put values of their own into it.

A delivery over HTTP takes no part in this, and is left out. `getConnection` ends in any way and at
any time. A command of a sender that is gone is lost.
-/

namespace ZoneMta

namespace DomainCache

/-- The error of `getConnection`, as far as it is stored; a property that is not set is empty. -/
structure ConnectError where
  message : String
  response : String := ""
  category : String := ""
  temporary : Bool := false
  code : String := ""
  /-- the `errno` or the `code` of `lastErr` is 'ETIMEDOUT' -/
  timedOut : Bool := false
  netConnected : Bool := false
deriving Repr, DecidableEq

/-- `domainData` -/
structure DomainData where
  error : String
  response : String
  category : String
  temporary : Bool
  code : String
deriving Repr, DecidableEq

/-- The values of the cache. -/
inductive Value where
  | domain (data : DomainData)
  /-- a value of another part of the master process -/
  | other (value : String)
deriving Repr, DecidableEq

abbrev Op := TtlCache.Op String Value Unit Nat

/-- What the cache key of a delivery is made of; a number that is not set is 0. -/
structure Delivery where
  zone : String
  domain : String
  mx : List String
  mxUser : String
  mxPort : Nat
deriving Repr, DecidableEq

/-- `this.zone.name + ':' + cacheKey` -/
def Delivery.cacheKey (delivery : Delivery) : String :=
  let exchange := delivery.mx.head?.getD ""
  let host := if exchange = "" then delivery.domain else exchange
  let port := if delivery.mxPort = 0 then "" else toString delivery.mxPort
  let vals := ["domain", host, delivery.mxUser, port].filter (· ≠ "")
  delivery.zone ++ ":" ++ ":".intercalate vals

/-- The `domainData` of an error. -/
def ConnectError.domainData (err : ConnectError) : DomainData where
  error := err.message
  response := err.response
  category := err.category
  temporary := err.temporary
  code := err.code

/-- The `ttl` of an error. -/
def ConnectError.ttl (err : ConnectError) : Nat :=
  -- most probably a firewall issue or a server that does not have MX running
  if err.timedOut then 15 * 60 * 1000 else 2 * 60 * 1000

/-- The error that is made of what is stored. -/
def DomainData.connectError (data : DomainData) : ConnectError where
  message := data.error
  response := data.response
  category := data.category
  temporary := data.temporary
  code := data.code

/-- The commands, with the delivery that waits for the answer. -/
inductive Command where
  | getCache (delivery : Nat) (key : String)
  | setCache (key : String) (value : DomainData) (ttl : Nat)
  | clearCache (key : String)
deriving Repr, DecidableEq

/-- What the callback of `getConnectionWithCache` gets. -/
inductive Result where
  /-- GETCACHE has failed -/
  | error
  /-- the error of the cache -/
  | refused (err : ConnectError)
  /-- the error of `getConnection` -/
  | failed (err : ConnectError)
  | connected
deriving Repr, DecidableEq

/-- A delivery that `getConnectionWithCache` was called for: it waits for its answer, or for
    `getConnection`. -/
structure Waiting where
  key : String
  connecting : Bool
deriving Repr, DecidableEq

end DomainCache

open DomainCache in
/-- The cache, and the deliveries that look for a connection. -/
structure DomainCache where
  now : Nat := 0
  cache : TtlCache String Value Unit Nat := { defaultTtl := 5 * 1000 }
  /-- on their way to the queue server -/
  commands : List Command := []
  /-- on their way from the queue server -/
  answers : List (Nat × Option Value) := []
  deliveries : ForStd.Map Nat Waiting := ∅
  nextDelivery : Nat := 0
  /-- what the callbacks got, with the cache key -/
  results : List (String × Result) := []

namespace DomainCache

/-- What can happen next. -/
inductive Event where
  /-- time passes -/
  | tick (now : Nat)
  | getConnectionWithCache (delivery : Delivery)
  /-- the queue server processes one of the commands -/
  | process (i : Nat)
  /-- one of the commands is lost -/
  | lose (i : Nat)
  /-- one of the answers arrives -/
  | answer (i : Nat)
  /-- GETCACHE fails -/
  | fail (delivery : Nat)
  /-- `getConnection` calls back -/
  | getConnection (delivery : Nat) (err : Option ConnectError)
  /-- an operation of the cache that is not a command: a timer of the cache, or another part of the
      master process -/
  | other (op : Op)
deriving Repr, DecidableEq

/-- The operation is none that stores an error. -/
def isOther : Op → Bool
  | .set _ (some (.domain _)) _ _ => false
  | _ => true

/-- The callback of the delivery is called. -/
def finish (s : DomainCache) (n : Nat) (key : String) (result : Result) : DomainCache :=
  { s with deliveries := s.deliveries.erase n, results := s.results ++ [(key, result)] }

/-- `onData` of the queue server. -/
def process (s : DomainCache) : Command → DomainCache
  | .getCache n key =>
    let (value, cache) := s.cache.get key s.now
    { s with cache := cache, answers := s.answers ++ [(n, value)] }
  | .setCache key value ttl =>
    { s with cache := s.cache.set key (some (.domain value)) (some ttl) none s.now }
  | .clearCache key => { s with cache := s.cache.remove key }

/-- The callback of GETCACHE. -/
def onAnswer (s : DomainCache) (n : Nat) (waiting : Waiting) : Option Value → DomainCache
  | some (.domain data) =>
    if data.error ≠ "" then s.finish n waiting.key (.refused data.connectError)
    else { s with deliveries := s.deliveries.insert n { waiting with connecting := true } }
  | _ => { s with deliveries := s.deliveries.insert n { waiting with connecting := true } }

/-- The callback of `getConnection`. -/
def onConnection (s : DomainCache) (n : Nat) (key : String) : Option ConnectError → DomainCache
  | some err =>
    let command : Command :=
      -- the connection ended with an error without an opened socket
      if !err.netConnected then .setCache key err.domainData err.ttl
      else .clearCache key
    { s.finish n key (.failed err) with commands := s.commands ++ [command] }
  | none => { s.finish n key .connected with commands := s.commands ++ [.clearCache key] }

/-- The state after an event, `none` where it cannot happen. -/
def step (s : DomainCache) : Event → Option DomainCache
  | .tick now => if s.now ≤ now then some { s with now := now } else none
  | .getConnectionWithCache delivery =>
    some { s with
      deliveries := s.deliveries.insert s.nextDelivery ⟨delivery.cacheKey, false⟩
      nextDelivery := s.nextDelivery + 1
      commands := s.commands ++ [.getCache s.nextDelivery delivery.cacheKey] }
  | .process i =>
    s.commands[i]?.map fun command =>
      { s with commands := s.commands.eraseIdx i }.process command
  | .lose i =>
    s.commands[i]?.map fun _ => { s with commands := s.commands.eraseIdx i }
  | .answer i =>
    s.answers[i]?.bind fun (n, value) =>
      (s.deliveries.lookup n).bind fun waiting =>
        if waiting.connecting then none
        else some ({ s with answers := s.answers.eraseIdx i }.onAnswer n waiting value)
  | .fail n =>
    (s.deliveries.lookup n).bind fun waiting =>
      if waiting.connecting then none else some (s.finish n waiting.key .error)
  | .getConnection n err =>
    (s.deliveries.lookup n).bind fun waiting =>
      if waiting.connecting then some (s.onConnection n waiting.key err) else none
  | .other op => if isOther op then some { s with cache := s.cache.apply s.now op } else none

end DomainCache

end ZoneMta
