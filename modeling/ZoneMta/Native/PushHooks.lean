import ZoneMta.Native.Push

/-!
# Push with hooks

`push` of `MailQueue` (`lib/mail-queue.js`) as it runs: a recipient at a time, with the hooks of
queue:route, which can change the envelope and the routing, and the `insertMany` behind them. What
`runHooks` and `insertMany` call back with is an event. Nobody listens to the event 'queued'.
-/

namespace ZoneMta

namespace MailQueue

/-- `routing` -/
structure Routing where
  recipient : String
  deliveryZone : String
deriving Repr, DecidableEq

/-- What a `push` waits for. -/
inductive PushPhase where
  /-- `setImmediate` for the error of an empty list -/
  | empty
  /-- `setImmediate(processRecipients)` -/
  | immediate
  /-- the hooks for the recipient -/
  | hooks (recipientDomain : String) (routing : Routing)
  /-- `setImmediate(recipientsProcessed)` -/
  | processed
  /-- the `insertMany` -/
  | inserting
  | over
deriving Repr, DecidableEq

/-- A call of `push`: its variables, the documents of its calls of `insertMany`, and the errors
    that `callback` was called with, `none` for a call without an error. -/
structure Push (ε : Type) where
  id : String
  envelope : Envelope
  recipients : List String
  zone : String
  pos : Nat := 0
  seq : Nat := 0
  documents : List Recipient := []
  phase : PushPhase := .immediate
  inserted : List (List Recipient) := []
  calls : List (Option ε) := []
deriving Repr, DecidableEq

namespace Push

variable {ε : Type}

/-- What happens next. The hooks leave an envelope and a routing, or fail; `date` is the time when
    they are done, `_id` the id that the document gets. -/
inductive Event (ε : Type) where
  | immediate
  | hooks (err : Option ε) (envelope : Envelope) (routing : Routing) (date : Nat) (_id : ObjectId)
  | insertMany (err : Option ε)
deriving Repr, DecidableEq

/-- `callback` -/
def callback (s : Push ε) (err : Option ε) : Push ε :=
  { s with calls := s.calls ++ [err], phase := .over }

variable (str : Strings) (zones : SendingZones) (optionsDefaultZone : String)

/-- `processRecipients`; `zone` was read when the call began. -/
def processRecipients (s : Push ε) : Push ε :=
  match s.recipients[s.pos]? with
  | none => { s with phase := .processed }
  | some recipient =>
    let deliveryZone := MailQueue.deliveryZone str zones optionsDefaultZone
      { s.envelope with sendingZone := s.zone } recipient
    { s with
      pos := s.pos + 1
      phase := .hooks (recipientDomain recipient) ⟨recipient, deliveryZone⟩ }

/-- `push`, up to the hooks of the first recipient. -/
def start (newError : String → ε) (closing : Bool) (id : String) (envelope : Envelope) : Push ε :=
  let s : Push ε :=
    { id := id
      envelope := envelope
      recipients := envelope.to
      zone := MailQueue.zone str zones envelope }
  if closing then s.callback (some (newError "Server shutdown in progress"))
  else if envelope.to = [] then { s with phase := .empty }
  else s.processRecipients str zones optionsDefaultZone

/-- The callback of the hooks. -/
def routed (s : Push ε) (recipientDomain : String) (routing : Routing) (date : Nat)
    (_id : ObjectId) : Push ε :=
  let seq := s.seq + 1
  let delivery : Recipient :=
    { _id := _id
      index := seq
      recipient := routing.recipient
      domain := recipientDomain
      sendingZone := routing.deliveryZone
      queued := if s.envelope.deferDelivery > date then s.envelope.deferDelivery else date
      created := date }
  { s with seq := seq, documents := s.documents ++ [delivery], phase := .immediate }

/-- The state after an event, `none` where it cannot happen. -/
def step (newError : String → ε) (s : Push ε) : Event ε → Option (Push ε)
  | .immediate =>
    match s.phase with
    | .empty => some (s.callback (some (newError "Empty recipients list")))
    | .immediate => some (s.processRecipients str zones optionsDefaultZone)
    | .processed => some { s with inserted := s.inserted ++ [s.documents], phase := .inserting }
    | _ => none
  | .hooks err envelope routing date _id =>
    match s.phase, err with
    | .hooks _ _, some err => some ({ s with envelope := envelope }.callback (some err))
    | .hooks recipientDomain _, none =>
      some ({ s with envelope := envelope }.routed recipientDomain routing date _id)
    | _, _ => none
  | .insertMany err =>
    match s.phase with
    | .inserting => some (s.callback err)
    | _ => none

end Push

end MailQueue

end ZoneMta
