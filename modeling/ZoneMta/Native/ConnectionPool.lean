import ZoneMta.ForStd.AList
import ZoneMta.Native.Net

/-!
# Connection pool

`Sender.getConnection` of `lib/sender.js` with the pool of `lib/connection-pool.js`, which the
senders of a process share. A delivery is sent over a connection of the pool if there is one
under its key, otherwise over a new one; a connection goes back to the pool after a message.

`mxConnect` and `SMTPConnection` answer with any result. A delivery over HTTP makes no
connection and is left out, and so are the logs, the counters and a reload of the configuration.
`getConnection` stores the port and the key in the delivery; here they are computed again.
-/

namespace ZoneMta

open ForStd (Map)

namespace ConnectionPool

/-- An entry of `delivery.mx`. -/
structure Mx where
  priority : Nat
  exchange : String
  A : List String
  AAAA : List String
deriving Repr, DecidableEq

/-- The credentials of a login. -/
structure Auth where
  user : String
  pass : String
deriving Repr, DecidableEq

/-- What `getConnection` reads of the zone, `reuseCount` is that of `connectionCache`, and
    `mtaSts` is `config.mtaSts.enabled`. What is not set is empty or 0. -/
structure Zone where
  host : String
  port : Nat
  preferIPv6 : Bool
  ignoreTLS : Bool
  secure : Bool
  auth : Option Auth
  reuseCount : Nat
  mtaSts : Bool
deriving Repr, DecidableEq

/-- `connCacheMaxReuse` -/
def Zone.maxReuse (zone : Zone) : Nat := if zone.reuseCount ≠ 0 then zone.reuseCount else 100

/-- What `getConnection` reads of a delivery; the addresses are those that the zone has chosen
    for it. -/
structure Delivery where
  domain : String
  mx : Option (List Mx) := none
  mxPort : Nat := 0
  mxAuth : Option Auth := none
  mxSecure : Option Bool := none
  useLMTP : Bool := false
  skipSTS : Bool := false
  zoneAddress : Option String := none
  zoneAddressIPv4 : Option String := none
  zoneAddressIPv6 : Option String := none
  connectionKey : String := ""
deriving Repr, DecidableEq

/-- Where a connection goes to: to the exchanges of the delivery or the zone, or to those of the
    domain. -/
inductive Target where
  | mx (exchanges : List Mx)
  | domain (name : String)
deriving Repr, DecidableEq

/-- The parameters of a new connection. -/
structure Options where
  target : Target
  port : Nat
  localAddress : Option String
  localAddressIPv4 : Option String
  localAddressIPv6 : Option String
  mtaSts : Bool
  lmtp : Bool
  secure : Bool
  auth : Option Auth
deriving Repr, DecidableEq

/-! ## getConnection -/

section getConnection

variable (zone : Zone) (delivery : Delivery)

/-- `delivery.mxPort || this.zone.port || 25` -/
def mxPort : Nat :=
  if delivery.mxPort ≠ 0 then delivery.mxPort else if zone.port ≠ 0 then zone.port else 25

/-- The address of the key. -/
def zoneAddress : Option String :=
  if zone.preferIPv6 && delivery.zoneAddressIPv6.isSome then delivery.zoneAddressIPv6
  else delivery.zoneAddress <|> delivery.zoneAddressIPv4

/-- `this.zone.host || delivery.domain` -/
def keyHost : String := if zone.host = "" then delivery.domain else zone.host

/-- `delivery.connectionKey`; without an address `getConnection` throws. -/
def connectionKey : Option String :=
  if delivery.connectionKey ≠ "" then some delivery.connectionKey
  else
    (zoneAddress zone delivery).map fun address =>
      address ++ ":" ++ keyHost zone delivery ++ ":" ++ toString (mxPort zone delivery)

/-- `mxOptions.mx` -/
def mxOverride : Option (List Mx) :=
  match delivery.mx with
  | some exchanges => some exchanges
  | none =>
    if zone.host = "" then none
    else some [{
      priority := 0
      exchange := zone.host
      A := if Net.isIPv4 zone.host then [zone.host] else []
      AAAA := if !Net.isIPv4 zone.host && Net.isIPv6 zone.host then [zone.host] else [] }]

/-- The options of `mxConnect` and of the `SMTPConnection`, with what it logs in with. -/
def options : Options where
  target := (mxOverride zone delivery).elim (.domain delivery.domain) .mx
  port := mxPort zone delivery
  localAddress := delivery.zoneAddress
  localAddressIPv4 := delivery.zoneAddressIPv4
  localAddressIPv6 := delivery.zoneAddressIPv6
  mtaSts := zone.mtaSts && !delivery.skipSTS
  lmtp := delivery.useLMTP
  secure := delivery.mxSecure.getD zone.secure
  auth := delivery.mxAuth <|> zone.auth

end getConnection

/-! ## The process -/

/-- A connection: the delivery that it was opened for and its options, whether a policy required
    TLS, whether it is encrypted, and whether it is open. -/
structure Connection where
  openedFor : Delivery
  options : Options
  enforceTLS : Bool
  secure : Bool := false
  connected : Bool := false
  usageCount : Nat := 0
deriving Repr, DecidableEq

/-- What a sender waits for: `mxConnect`, the greeting and the login of a new connection, or the
    end of the message. -/
inductive Phase where
  | resolving (ignoreTLS : Bool)
  | connecting (connection : Nat) (ignoreTLS : Bool)
  | sending (connection : Nat)
deriving Repr, DecidableEq

/-- A delivery that a sender handles. -/
structure Attempt where
  delivery : Delivery
  phase : Phase
deriving Repr, DecidableEq

/-- The senders of a process. The timers close a connection of the pool after its time. -/
structure Senders where
  pool : Map String (List Nat) := ∅
  timers : List (String × Nat) := []
  connections : Map Nat Connection := ∅
  attempts : Map Nat Attempt := ∅
deriving DecidableEq

/-- What can happen next. An `enforced` policy is what `mxConnect` finds for the domain of the
    delivery, or would find. -/
inductive Event where
  /-- `getConnection` for a delivery -/
  | getConnection (sender : Nat) (delivery : Delivery) (enforced : Bool)
  /-- the callback of `mxConnect`, without an error -/
  | connect (sender connection : Nat) (enforced : Bool)
  /-- the new connection is ready, after its login -/
  | connected (sender : Nat) (secure : Bool)
  /-- an error, and another try: without TLS, or with another exchange -/
  | retry (sender : Nat) (noTLS enforced : Bool)
  /-- any other error -/
  | failed (sender : Nat)
  /-- the message is sent, or refused -/
  | sent (sender : Nat) (accepted : Bool)
  /-- a connection is closed -/
  | closed (connection : Nat)
  /-- the timer of a connection of the pool -/
  | expired (key : String) (connection : Nat)
deriving Repr, DecidableEq

namespace Senders

/-- The connection that `ConnectionPool.getConnection` returns under the key. -/
def pooled (s : Senders) (key : String) : Option (Nat × Connection) := do
  let connections ← s.pool.lookup key
  let id ← connections.head?
  let connection ← s.connections.lookup id
  if connection.connected then some (id, connection) else none

/-- `ConnectionPool.getConnection` takes the first connection of the list. A list has no `size`,
    so the rest of it is lost. -/
def take (s : Senders) (key : String) : Senders :=
  match s.pool.lookup key with
  | some (id :: _) => { s with pool := s.pool.erase key, timers := s.timers.erase (key, id) }
  | _ => s

/-- `ConnectionPool.add` -/
def add (s : Senders) (key : String) (id : Nat) : Senders :=
  { s with
    pool := s.pool.insert key ((s.pool.lookup key).getD [] ++ [id])
    timers := s.timers ++ [(key, id)] }

/-- The state of a connection changes. -/
def set (s : Senders) (id : Nat) (connection : Connection) : Senders :=
  { s with connections := s.connections.insert id connection }

/-- The connection is closed. -/
def close (s : Senders) (id : Nat) : Senders :=
  match s.connections.lookup id with
  | some connection => s.set id { connection with connected := false }
  | none => s

/-- The sender waits for something else. -/
def wait (s : Senders) (n : Nat) (delivery : Delivery) (phase : Phase) : Senders :=
  { s with attempts := s.attempts.insert n ⟨delivery, phase⟩ }

/-- The sender is done with the delivery. -/
def finish (s : Senders) (n : Nat) : Senders := { s with attempts := s.attempts.erase n }

/-- `tryConnect`; the reuse of a connection is logged with the address. -/
def tryConnect (zone : Zone) (s : Senders) (n : Nat) (delivery : Delivery) (ignoreTLS : Bool) :
    Option Senders :=
  (connectionKey zone delivery).bind fun key =>
    match s.pooled key with
    | some (id, _) =>
      (zoneAddress zone delivery).map fun _ => (s.take key).wait n delivery (.sending id)
    | none => some ((s.take key).wait n delivery (.resolving ignoreTLS))

/-- The callback of `mxConnect`: a policy switches TLS on again. -/
def connect (zone : Zone) (s : Senders) (n id : Nat) (delivery : Delivery)
    (ignoreTLS enforced : Bool) : Senders :=
  let options := options zone delivery
  -- without `mtaSts` no policy is looked up
  let enforceTLS := enforced && options.mtaSts
  let connection : Connection :=
    { openedFor := delivery
      options := options
      enforceTLS := enforceTLS }
  (s.set id connection).wait n delivery (.connecting id (ignoreTLS && !enforceTLS))

/-- The new connection is ready; it is closed if it is not encrypted against a policy. -/
def connected (s : Senders) (n id : Nat) (delivery : Delivery) (connection : Connection)
    (secure : Bool) : Senders :=
  if connection.enforceTLS && !secure then s.finish n
  else
    (s.set id { connection with secure := secure, connected := true }).wait n delivery
      (.sending id)

/-- The callback of `send`: the connection is pooled or closed. -/
def sent (zone : Zone) (s : Senders) (n id : Nat) (delivery : Delivery) (connection : Connection)
    (accepted : Bool) : Option Senders :=
  (connectionKey zone delivery).map fun key =>
    let usageCount := connection.usageCount + 1
    let s := (s.set id { connection with usageCount := usageCount }).finish n
    if accepted && usageCount < zone.maxReuse then s.add key id else s.close id

/-- The pool without the connection. -/
def remove (s : Senders) (key : String) (id : Nat) : Senders :=
  let connections := ((s.pool.lookup key).getD []).erase id
  { s with
    pool := if connections.isEmpty then s.pool.erase key else s.pool.insert key connections
    timers := s.timers.erase (key, id) }

/-- The state after an event, `none` where it cannot happen. -/
def step (zone : Zone) (s : Senders) : Event → Option Senders
  | .getConnection n delivery _ =>
    -- a sender handles one delivery at a time
    if (s.attempts.lookup n).isNone then s.tryConnect zone n delivery zone.ignoreTLS else none
  | .connect n id enforced =>
    (s.attempts.lookup n).bind fun attempt =>
      match attempt.phase with
      | .resolving ignoreTLS =>
        if (s.connections.lookup id).isNone then
          some (s.connect zone n id attempt.delivery ignoreTLS enforced)
        else none
      | _ => none
  | .connected n secure =>
    (s.attempts.lookup n).bind fun attempt =>
      match attempt.phase with
      | .connecting id _ =>
        (s.connections.lookup id).map fun connection =>
          s.connected n id attempt.delivery connection secure
      | _ => none
  | .retry n noTLS _ =>
    (s.attempts.lookup n).bind fun attempt =>
      match attempt.phase with
      | .connecting id ignoreTLS =>
        (s.connections.lookup id).bind fun connection =>
          -- there is one try without TLS, and none against a policy
          if noTLS && (ignoreTLS || connection.enforceTLS) then none
          else s.tryConnect zone n attempt.delivery (ignoreTLS || noTLS)
      | _ => none
  | .failed n =>
    (s.attempts.lookup n).bind fun attempt =>
      match attempt.phase with
      -- while the message is sent, its callback decides
      | .sending _ => none
      | _ => some (s.finish n)
  | .sent n accepted =>
    (s.attempts.lookup n).bind fun attempt =>
      match attempt.phase with
      | .sending id =>
        (s.connections.lookup id).bind fun connection =>
          s.sent zone n id attempt.delivery connection accepted
      | _ => none
  | .closed id => some (s.close id)
  | .expired key id =>
    if s.timers.contains (key, id) then some ((s.remove key id).close id) else none

end Senders

end ConnectionPool

end ZoneMta
