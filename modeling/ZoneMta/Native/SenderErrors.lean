import ZoneMta.Native.Sender

/-!
# Errors of a delivery

`Sender.sendNext` of `lib/sender.js` with the errors that its callbacks get, and what they pass
to `handleError`. Several closures have a variable `err`: the timer of the `end` event reads the
one of the callback of `getConnectionWithCache`.
-/

namespace ZoneMta

namespace Sender

/-- `connection` in the callback of `getConnectionWithCache`, with its `options`. -/
structure MxConnection where
  http : Bool := false
  servername : String := ""
  host : String := ""
deriving Repr, DecidableEq

/-- `new Error(message)` -/
def newError (message : String) : DeliveryError where
  protocol := ""
  httpResponse := some 0
  category := ""
  temporary := false
  action := ""
  responseCode := 0
  response := ""
  message := message

/-- One call of `sendNext`: `domain` is `delivery.domain`, `connection` and `err` are the
    variables of the callback of `getConnectionWithCache`, and `handled` is what `handleError` was
    called with. An error that is `null` or `undefined` is `none`. -/
structure Scope where
  state : State := sendNext
  domain : String := ""
  connection : MxConnection := {}
  err : Option DeliveryError := none
  handled : List (Option DeliveryError) := []
deriving Repr, DecidableEq

namespace Scope

/-- What happens next, with the error that is reported. -/
inductive Event where
  | get (reply : GetReply) (domain : String)
  | fetchHook (err : Option DeliveryError) (delivery : SenderDelivery)
  | getConnection (err : Option DeliveryError) (connection : MxConnection)
  | connectionError (err : DeliveryError)
  | endTimer
  | headersHook (err : Option DeliveryError) (delivery : SenderDelivery)
  /-- `err`, and `info.response` where `info.rejected` is not empty -/
  | send (err : Option DeliveryError) (rejected : Option String)
  /-- a callback or an event that has nothing to do with `handleError` -/
  | other (e : Sender.Event)
deriving Repr, DecidableEq

/-- The event without the error. -/
def Event.plain : Event → Sender.Event
  | .get reply _ => .get reply
  | .fetchHook err delivery => .fetchHook err.isSome delivery
  | .getConnection err connection => .getConnection err.isSome connection.http
  | .connectionError _ => .connectionError
  | .endTimer => .endTimer
  | .headersHook err delivery => .headersHook err.isSome delivery
  | .send err rejected => .send err.isSome rejected.isSome
  | .other e => e

/-- The events that have a constructor of their own. -/
def Event.reserved : Sender.Event → Bool
  | .get _ | .fetchHook .. | .getConnection .. | .connectionError | .endTimer
  | .headersHook .. | .send .. => true
  | _ => false

/-- The variables after the event. -/
def assign (w : Scope) : Event → Scope
  | .get _ domain => { w with domain := domain }
  | .getConnection err connection => { w with connection := connection, err := err }
  | _ => w

/-- What the callback passes to `handleError`, if it calls it. -/
def passes (w : Scope) : Event → List (Option DeliveryError)
  | .fetchHook (some err) _ => [some err]
  | .getConnection (some err) _ => [some err]
  | .connectionError err => if w.state.connectionDone then [] else [some err]
  | .headersHook (some err) _ => if w.state.http then [] else [some err]
  | .send (some err) _ => [some err]
  -- LMTP mode has errors in response
  | .send none (some response) =>
    if w.state.delivery.useLMTP then [some (newError response)] else []
  | _ => []

/-- `host` of the timer -/
def closedHost (w : Scope) : String :=
  if w.connection.servername ≠ "" then w.connection.servername
  else if w.connection.host ≠ "" then w.connection.host
  else w.domain

/-- `error` of the timer, `none` where `err.message` throws. -/
def closedError (w : Scope) : Option DeliveryError :=
  w.err.map fun err =>
    { newError ("Connection to " ++ w.closedHost ++ " closed unexpectedly") with
      response := "Network error: " ++ err.message
      category := "network"
      temporary := true }

/-- The timer that the `end` event starts. -/
def endTimer (w : Scope) : Scope :=
  if w.state.connectionDone then w
  else
    let state := { w.state with connectionDone := true }
    match w.closedError with
    | none => { w with state := { state with crashed := true } }
    -- `error` is made, and `err` is passed
    | some _ => { w with state := handleError state, handled := w.handled ++ [w.err] }

/-- One callback or event. -/
def step (config : SenderConfig) (w : Scope) : Event → Option Scope
  | .endTimer =>
    if w.state.crashed ∨ ¬w.state.endTimer then none
    else some { w with state := { w.state with endTimer := false } }.endTimer
  | e =>
    if e = .other e.plain ∧ Event.reserved e.plain then none
    else
      (Sender.step config w.state e.plain).map fun state =>
        { w.assign e with state := state, handled := w.handled ++ w.passes e }

end Scope

end Sender

end ZoneMta
