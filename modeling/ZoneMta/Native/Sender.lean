import Mathlib

/-!
# Sender

`Sender.sendNext` of `lib/sender.js` with `handleResponseError`: one delivery from the
reply to `GET` to the command that ends it. The callbacks of `sendNext` that are still
outstanding are kept in `main` (the chain of callbacks that leads to the send callback),
`errorPath` (the chain that starts in `handleError`) and the timers. `step` is one
callback or event; hooks and the queue server answer with any result, and hooks may
change the delivery.
-/

namespace ZoneMta

/-- The fields of an error that decide what becomes of the delivery; `""` and `0` are falsy,
    and `httpResponse` is `none` for `'-'`. -/
structure DeliveryError where
  protocol : String
  httpResponse : Option Nat
  category : String
  temporary : Bool
  action : String
  responseCode : Nat
  response : String
  message : String
deriving Repr, DecidableEq

/-- The fields of a delivery that decide what becomes of it; `envelopeFrom` is
    `delivery.envelope.from || delivery.from`, `canSendBounce` the result of
    `bounces.canSendBounce`. -/
structure SenderDelivery where
  isSuppressed : Bool
  useLMTP : Bool
  deferredCount : Nat
  deferTimes : List Nat
  poolDisabled : Bool
  envelopeFrom : String
  canSendBounce : Bool
deriving Repr, DecidableEq

/-- The result of `bounces.check`. -/
structure Bounce where
  action : String
  category : String
deriving Repr, DecidableEq

/-- The rules of `config/bounces.txt` behind `bounces.check(input, category)`, and
    `config.queue.deferTimes`. -/
structure SenderConfig where
  check : String → String → Bounce
  deferTimes : Option (List Nat)

namespace Sender

/-- `DEFAULT_DEFER_TIMES` -/
def defaultDeferTimes (config : SenderConfig) : List Nat :=
  config.deferTimes.getD <|
    [5, 7, 8, 25, 75, 120, 240, 240, 240, 240, 240, 240, 240, 240, 240, 240, 240].map (· * 60 * 1000)

/-- The commands that are sent for the delivery. -/
inductive Command where
  | release (delivered : Option Bool)
  | defer (ttl : Nat) (category : String)
  | bounce (category : String)
deriving Repr, DecidableEq

/-- The callback the main chain waits for. `failed` is the end of a chain that went to
    `handleError`, `thrown` of one that has thrown, `done` of one that released the delivery. -/
inductive Main where
  | get
  | fetchHook
  | releaseSuppressed
  | speedometer
  | getConnection
  | headersHook
  | send
  | release
  | deliveredHook
  | empty
  | failed
  | thrown
  | done
deriving Repr, DecidableEq

/-- The callback the error chain waits for. -/
inductive ErrorPath where
  | idle
  | responseErrorHook
  | defer
  | reject (bounce : Bounce)
  | done
deriving Repr, DecidableEq

/-- The variables and the outstanding callbacks of one call of `sendNext`. `continuing`
    counts the timers and immediates that will call `continueSending`, `continued` the
    further calls of `sendNext` it has scheduled; `crashed` says that a timer has thrown. -/
structure State where
  sendingDone : Bool
  responseSent : Bool
  connectionDone : Bool
  closing : Bool
  crashed : Bool
  delivery : SenderDelivery
  /-- `connection.http` -/
  http : Bool
  main : Main
  errorPath : ErrorPath
  connectTimer : Bool
  errorListener : Bool
  endListener : Bool
  endTimer : Bool
  continuing : Nat
  continued : Nat
  commands : List Command
deriving Repr, DecidableEq

/-- The start of `sendNext`; the delivery is a placeholder until `GET` is answered. -/
def sendNext : State where
  sendingDone := false
  responseSent := false
  connectionDone := false
  closing := false
  crashed := false
  delivery := ⟨false, false, 0, [], false, "", false⟩
  http := false
  main := .get
  errorPath := .idle
  connectTimer := false
  errorListener := false
  endListener := false
  endTimer := false
  continuing := 0
  continued := 0
  commands := []

/-- `continueSending` -/
def continueSending (s : State) : State :=
  if s.sendingDone then s
  else { s with sendingDone := true, continued := s.continued + 1 }

/-- `handleError` up to the `sender:responseError` hook. -/
def handleError (s : State) : State :=
  if s.responseSent then s
  else { s with responseSent := true, errorPath := .responseErrorHook }

/-- `this.sendCommand` -/
def sendCommand (s : State) (cmd : Command) : State :=
  { s with commands := s.commands ++ [cmd] }

/-- `err.response || err.message` -/
def errorText (err : DeliveryError) : String :=
  if err.response = "" then err.message else err.response

/-- `/^\d{3}\b/` -/
def startsWithCode (str : String) : Bool :=
  let word (c : Char) : Bool := c.isAlphanum || c == '_'
  match str.toList with
  | a :: b :: c :: rest => a.isDigit && b.isDigit && c.isDigit && !rest.head?.any word
  | _ => false

/-- The variable `bounce` of `handleResponseError`. -/
def bounceFor (config : SenderConfig) (delivery : SenderDelivery) (err : DeliveryError) : Bounce :=
  let bounce : Bounce :=
    if err.protocol = "http" then -- mail2http failures
      { action := if err.httpResponse.any fun n => 400 ≤ n && n < 500 then "reject" else "defer"
        category := "http" }
    else if err.category ∈ ["dns", "network", "policy"] then
      -- preset categories from mx-connect etc
      { action := if err.temporary ∨ err.action = "defer" then "defer" else "reject"
        category := err.category }
    else if err.responseCode = 0 ∧ ¬startsWithCode (errorText err) then
      -- timeouts, node network errors etc.
      { action := "defer", category := "network" }
    else config.check (errorText err) err.category
  let bounce := { bounce with action := if err.action = "" then bounce.action else err.action }
  if bounce.category = "blacklist" ∧ (delivery.poolDisabled ∨ delivery.envelopeFrom = "") then
    { bounce with action := "reject" } -- give up delivering it
  else bounce

/-- `handleResponseError` up to its command. -/
def handleResponseError (config : SenderConfig) (s : State) (err : DeliveryError) : State :=
  let bounce := bounceFor config s.delivery err
  let deferTimes :=
    if s.delivery.deferTimes = [] then defaultDeferTimes config else s.delivery.deferTimes
  if bounce.action ≠ "reject" ∧ s.delivery.deferredCount < deferTimes.length then
    let ttl := deferTimes.getD s.delivery.deferredCount 0
    sendCommand { s with errorPath := .defer } (.defer ttl bounce.category)
  else sendCommand { s with errorPath := .reject bounce } (.release (some false))

/-- The reply to `GET`. -/
inductive GetReply where
  | error
  | empty
  | delivery (delivery : SenderDelivery)
deriving Repr, DecidableEq

/-- What happens next to a call of `sendNext`, with the result that is reported. -/
inductive Event where
  | get (reply : GetReply)
  | fetchHook (err : Bool) (delivery : SenderDelivery)
  | releaseSuppressed
  | speedometer
  | connectTimer
  | getConnection (err : Bool) (http : Bool)
  | connectionError
  | connectionEnd
  | endTimer
  | headersHook (err : Bool) (delivery : SenderDelivery)
  | send (err : Bool) (rejected : Bool)
  | release (err : Bool)
  | deliveredHook
  | responseErrorHook (err : DeliveryError) (delivery : SenderDelivery)
  | defer (err : Bool)
  | reject (err : Bool) (released : Bool)
  | continueSending
deriving Repr, DecidableEq

/-- The send callback; `info.rejected` is only looked at in LMTP mode. -/
def sendCallback (s : State) (err : Bool) (rejected : Bool) : State :=
  -- LMTP mode has errors in response
  let err := err || (s.delivery.useLMTP && rejected)
  -- ignore any future events regarding this connection
  let s := { s with connectionDone := true }
  if err then handleError { s with main := .failed }
  else sendCommand { s with main := .release } (.release (some true))

/-- The timer that the `end` event starts. -/
def endTimer (s : State) : State :=
  if s.connectionDone then s
  -- `err` is the result of `getConnectionWithCache` here, so `err.message` throws
  else { s with connectionDone := true, crashed := true }

/-- The `sender:headers` hook has failed. -/
def headersFail (s : State) : State :=
  let s := { s with connectionDone := true }
  -- the object of an HTTP delivery has no `close`: `connection.close()` throws
  if s.http then { s with main := .thrown } else handleError { s with main := .failed }

/-- One callback or event. -/
def step (config : SenderConfig) (s : State) (e : Event) : Option State :=
  if s.crashed then none else
  match e with
  | .get reply =>
    if s.main ≠ .get then none else
    match reply with
    | .error => some { s with main := .empty, continuing := s.continuing + 1 }
    | .empty => some { s with main := .empty, continuing := s.continuing + 1 }
    | .delivery delivery => some { s with main := .fetchHook, delivery := delivery }
  | .fetchHook err delivery =>
    if s.main ≠ .fetchHook then none else
    let s := { s with delivery := delivery }
    if err then some (handleError { s with main := .failed })
    else if delivery.isSuppressed then
      some (sendCommand { s with main := .releaseSuppressed } (.release none))
    else some { s with main := .speedometer }
  | .releaseSuppressed =>
    if s.main ≠ .releaseSuppressed then none else
    some { s with main := .done, continuing := s.continuing + 1 }
  | .speedometer =>
    if s.main ≠ .speedometer then none else
    some { s with main := .getConnection, connectTimer := true }
  | .connectTimer =>
    if ¬s.connectTimer then none else
    some (continueSending { s with connectTimer := false })
  | .getConnection err http =>
    if s.main ≠ .getConnection then none else
    let s := { s with connectTimer := false }
    if err then some (handleError { s with main := .failed })
    else
      some { s with
        http := http
        main := .headersHook
        errorListener := !http
        endListener := !http }
  | .connectionError =>
    if ¬s.errorListener then none else
    let s := { s with errorListener := false }
    if s.connectionDone then some s else some (handleError { s with connectionDone := true })
  | .connectionEnd =>
    if ¬s.endListener then none else
    let s := { s with endListener := false }
    if s.connectionDone then some s else some { s with endTimer := true }
  | .endTimer =>
    if ¬s.endTimer then none else
    some (endTimer { s with endTimer := false })
  | .headersHook err delivery =>
    if s.main ≠ .headersHook then none else
    let s := { s with delivery := delivery }
    if err then some (headersFail s) else some { s with main := .send }
  | .send err rejected =>
    if s.main ≠ .send then none else
    some (sendCallback s err rejected)
  | .release err =>
    if s.main ≠ .release then none else
    if err then some { s with main := .done, closing := true }
    else some { s with main := .deliveredHook }
  | .deliveredHook =>
    if s.main ≠ .deliveredHook then none else
    some { s with main := .done, continuing := s.continuing + 1 }
  | .responseErrorHook err delivery =>
    if s.errorPath ≠ .responseErrorHook then none else
    some (handleResponseError config { s with delivery := delivery } err)
  | .defer err =>
    if s.errorPath ≠ .defer then none else
    let s := { s with errorPath := .done }
    if err then some { s with closing := true } else some (continueSending s)
  | .reject err released =>
    match s.errorPath with
    | .reject bounce =>
      let s := { s with errorPath := .done }
      if err then some { s with closing := true }
      else if released ∧ s.delivery.canSendBounce then
        some (continueSending (sendCommand s (.bounce bounce.category)))
      else some (continueSending s)
    | _ => none
  | .continueSending =>
    match s.continuing with
    | 0 => none
    | n + 1 => some (continueSending { s with continuing := n })

end Sender

end ZoneMta
