import ZoneMta.Native.ConnectionPool

/-!
# getConnection

The retry loop `tryConnect` of `Sender.getConnection` in `lib/sender.js` for one delivery, with all
handlers of its connections. `mxConnect`, the connections and the hooks answer with any result and
at any time. Logs and hooks that nobody waits for are left out.
-/

namespace ZoneMta

open ConnectionPool (connectionKey zoneAddress)

namespace GetConnection

/-- The two regular expressions that the message of an error is tested with: for a connection that
is closed before it is secure, and for errors of OpenSSL. -/
structure Patterns where
  disconnected : String → Bool
  openssl : String → Bool

/-- An error object; a property that is not set is empty. -/
structure ConnError where
  message : String
  code : String := ""
  cert : Bool := false
  reason : String := ""
  response : String := ""
  category : String := ""
  temporary : Option Bool := none
  netConnected : Bool := false
deriving Repr, DecidableEq

/-- What `mxConnect` calls back with: an open socket to a host, and whether the policy for the
domain is in the mode 'enforce'. -/
structure Mx where
  hostname : String
  host : String
  enforce : Bool
deriving Repr, DecidableEq

/-- An `SMTPConnection` with the variables and the handlers of its attempt. -/
structure Connection where
  mx : Mx
  enforceTLS : Bool
  ignoreTLS : Bool
  returned : Bool := false
  connected : Bool := false
  /-- the handlers of the first 'error' and the first 'end' are still there -/
  onError : Bool := true
  onEnd : Bool := true
  /-- the timer of the 'end' handler runs -/
  timer : Bool := false
  /-- the callbacks of `connect` and `login` that are outstanding -/
  connecting : Bool := true
  loggingIn : Bool := false
deriving Repr, DecidableEq

/-- What `callback` is called with. -/
inductive Result where
  | failed (err : ConnError)
  /-- a connection of the pool -/
  | pooled (id : Nat)
  /-- the connection of an attempt -/
  | connected (i : Nat)
deriving Repr, DecidableEq

structure State where
  /-- how often `tryConnect` was called -/
  attempts : Nat := 0
  netConnected : Bool := false
  callbackReturned : Bool := false
  mxLastError : Option ConnError := none
  ignoreMXHosts : List String := []
  ignoreTLS : Bool := false
  /-- calls of `mxConnect` that have not called back -/
  resolving : Nat := 0
  connections : List Connection := []
  /-- the hooks 'sender:connection' that run -/
  hooks : List Result := []
  /-- what `done` was called with -/
  done : List Result := []
deriving Repr, DecidableEq

/-- What can happen next, to the connection of an attempt. -/
inductive Event where
  | mxConnect (result : Except ConnError Mx)
  | error (i : Nat) (err : ConnError)
  | ended (i : Nat)
  /-- the timer of the 'end' handler; `tls` if the socket is a TLS socket, or about to be one -/
  | endTimer (i : Nat) (tls : Bool)
  | connected (i : Nat) (secure : Bool)
  | loggedIn (i : Nat) (err : Option ConnError)
  | hookDone

def POLICY_RESPONSE : String :=
  "Failed to establish a TLS connection to the MX server as requested by policy"

/-- The policy was violated. -/
def policyError (err : ConnError) : ConnError :=
  let reason := if err.reason = "" then "" else ". " ++ err.reason
  { err with
    response := "Policy error: " ++ POLICY_RESPONSE ++ reason
    category := "policy"
    temporary := some false }

/-- The error as `_onError` passes it on. -/
def annotate (patterns : Patterns) (c : Connection) (err : ConnError) : ConnError :=
  let err :=
    if patterns.disconnected err.message || err.cert then
      if c.enforceTLS then policyError err else { err with code := "ETLS" }
    else err
  let network := "Nework error: Error connecting to " ++ c.mx.host ++ ". " ++ err.message
  { err with
    response := if err.response = "" then network else err.response
    category := if err.category = "" then "network" else err.category
    temporary := some (err.temporary.getD true) }

namespace State

/-- The connection of an attempt changes. -/
def set (s : State) (i : Nat) (c : Connection) : State :=
  { s with connections := s.connections.set i c }

/-- `callback` -/
def callback (s : State) (result : Result) : State :=
  if s.callbackReturned then s
  else
    let s := { s with callbackReturned := true }
    match result with
    | .failed err =>
      { s with done := s.done ++ [.failed { err with netConnected := s.netConnected }] }
    | result => { s with hooks := s.hooks ++ [result] }

end State

section Loop

variable (patterns : Patterns) (zone : ConnectionPool.Zone) (delivery : ConnectionPool.Delivery)
  (pool : Nat → String → Option Nat)

/-- `tryConnect`; `pool n key` is what `ConnectionPool.getConnection` gives at the `n`-th attempt.
Where it reads the address of a zone address that is undefined it throws, and nobody is called
back. -/
def tryConnect (s : State) : State :=
  let s := { s with attempts := s.attempts + 1 }
  match connectionKey zone delivery with
  -- the key is made of the address
  | none => s
  | some key =>
    match pool s.attempts key with
    -- so is the log of a connection that is reused
    | some id => if (zoneAddress zone delivery).isSome then s.callback (.pooled id) else s
    | none => { s with resolving := s.resolving + 1 }

/-- `getConnection` -/
def getConnection : State := tryConnect zone delivery pool { ignoreTLS := zone.ignoreTLS }

/-- The callback of `mxConnect`, with an open socket. -/
def attempt (s : State) (mx : Mx) : State :=
  let enforceTLS := mx.enforce
  let ignoreTLS := if enforceTLS && s.ignoreTLS then false else s.ignoreTLS
  { s with
    ignoreTLS, netConnected := true
    connections := s.connections ++ [{ mx, enforceTLS, ignoreTLS }] }

/-- `_onError` -/
def onError (s : State) (i : Nat) (c : Connection) (err : ConnError) : State :=
  let c := { c with connected := false }
  if c.returned then s.set i c
  else
    let s := s.set i { c with returned := true }
    let err := annotate patterns c err
    if (err.code == "ETLS" || patterns.openssl err.message || err.code == "ECONNRESET") &&
        !s.ignoreTLS && !c.enforceTLS then
      tryConnect zone delivery pool { s with ignoreTLS := true }
    else if err.code == "ETIMEDOUT" then
      -- retry to some other MX
      tryConnect zone delivery pool
        { s with ignoreMXHosts := s.ignoreMXHosts ++ [c.mx.host], mxLastError := some err }
    else s.callback (.failed err)

/-- The callback of `auth`. -/
def authenticated (s : State) (i : Nat) (c : Connection) (err : Option ConnError) : State :=
  if c.returned then s.set i c
  else
    let c := { c with returned := true }
    match err with
    | some err => (s.set i c).callback (.failed err)
    | none => (s.set i { c with connected := true }).callback (.connected i)

/-- The callback of `connection.connect`. -/
def connected (s : State) (i : Nat) (c : Connection) (secure : Bool) : State :=
  if c.returned then s.set i c
  else if c.enforceTLS && !secure then
    (s.set i { c with returned := true }).callback (.failed {
      message := "TLS is required"
      response := "Policy error: " ++ POLICY_RESPONSE
      category := "policy" })
  else if (ConnectionPool.options zone delivery).auth.isSome then
    s.set i { c with loggingIn := true }
  else authenticated s i c none

/-- The state after an event, `none` where it cannot happen. -/
def step (s : State) : Event → Option State
  | .mxConnect result =>
    if s.resolving = 0 then none
    else
      let s := { s with resolving := s.resolving - 1 }
      match result with
      | .error err => some (s.callback (.failed err))
      | .ok mx => some (attempt s mx)
  | .error i err =>
    s.connections[i]?.bind fun c =>
      some (if c.onError then
          onError patterns zone delivery pool s i { c with onError := false } err
        else s)
  | .ended i =>
    s.connections[i]?.bind fun c =>
      some (if c.onEnd then
          s.set i { c with onEnd := false, connected := false, timer := !c.returned }
        else s)
  | .endTimer i tls =>
    s.connections[i]?.bind fun c =>
      if c.timer then
        let c := { c with timer := false }
        if c.returned then some (s.set i c)
        else
          some (onError patterns zone delivery pool s i c
            { message := "Unexpected socket close", code := if tls then "ETLS" else "" })
      else none
  | .connected i secure =>
    s.connections[i]?.bind fun c =>
      if c.connecting then some (connected zone delivery s i { c with connecting := false } secure)
      else none
  | .loggedIn i err =>
    s.connections[i]?.bind fun c =>
      if c.loggingIn then some (authenticated s i { c with loggingIn := false } err) else none
  | .hookDone =>
    match s.hooks with
    | [] => none
    | result :: hooks => some { s with hooks, done := s.done ++ [result] }

end Loop

end GetConnection

end ZoneMta
