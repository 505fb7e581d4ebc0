import Mathlib
import ZoneMta.ForStd.Collection

/-!
# Go queue and sender

The queue manager of `zone-mta-go/internal/queue/manager.go` and the delivery loop of
`zone-mta-go/internal/sender/sender.go`. Times are milliseconds. A unique index keeps the
message ids apart. What the mail servers answer is the argument `deliveries` of a round, with
whether the database records it; a call of the database that fails has no effect.
-/

namespace ZoneMta

namespace GoQueue

open ForStd (updateOne)

/-- `MessageStatus` -/
inductive MessageStatus where
  | queued
  | sending
  | delivered
  | bounced
  | deferred
  | rejected
deriving Repr, DecidableEq

/-- The values of `DeliveryAttempt.Status`. -/
inductive AttemptStatus where
  | delivered
  | bounced
  | deferred
deriving Repr, DecidableEq

/-- `DeliveryAttempt` -/
structure DeliveryAttempt where
  timestamp : Nat
  recipient : String
  status : AttemptStatus
  response : String
  duration : Nat
  retryCount : Nat
deriving Repr, DecidableEq

/-- `QueuedMessage`; `lockedUntil` is missing after `$unset`. -/
structure QueuedMessage where
  messageID : String
  zone : String
  recipients : List String
  nextAttempt : Nat
  deliveryAttempts : Nat
  status : MessageStatus
  locked : Bool
  lockedUntil : Option Nat
  workerID : String
  lastError : String
  deliveryLog : List DeliveryAttempt
  bounceReason : String
  deliveryTime : Nat
deriving Repr, DecidableEq

/-! ## Manager -/

/-- `Store`, once the defaults are set; a message id that is taken is an error. -/
def store (coll : List QueuedMessage) (messageID zone : String) (recipients : List String)
    (now : Nat) : List QueuedMessage :=
  if coll.any (·.messageID == messageID) then coll
  else
    coll ++ [{
      messageID := messageID
      zone := zone
      recipients := recipients
      nextAttempt := now
      deliveryAttempts := 0
      status := .queued
      locked := false
      lockedUntil := none
      workerID := ""
      lastError := ""
      deliveryLog := []
      bounceReason := ""
      deliveryTime := 0 }]

/-- The filter of `GetNext`. -/
def QueuedMessage.isNext (m : QueuedMessage) (zone : String) (now : Nat) : Bool :=
  m.zone == zone && (m.status == .queued || m.status == .deferred) && decide (m.nextAttempt ≤ now) &&
    (!m.locked || m.lockedUntil.any (· ≤ now))

/-- The update of `GetNext`. -/
def QueuedMessage.lock (m : QueuedMessage) (workerID : String) (now : Nat) : QueuedMessage :=
  { m with
    locked := true
    lockedUntil := some (now + 10 * 60 * 1000)
    workerID := workerID
    status := .sending }

/-- The message that `GetNext` selects: the first one by `nextAttempt`. -/
def selectNext (coll : List QueuedMessage) (zone : String) (now : Nat) : Option QueuedMessage :=
  (coll.filter (·.isNext zone now)).argmin (·.nextAttempt)

/-- `GetNext` -/
def getNext (coll : List QueuedMessage) (zone workerID : String) (now : Nat) :
    Option QueuedMessage × List QueuedMessage :=
  match selectNext coll zone now with
  | none => (none, coll)
  | some m =>
    (some (m.lock workerID now), updateOne (·.messageID == m.messageID) (·.lock workerID now) coll)

/-- `UpdateStatus` -/
def updateStatus (coll : List QueuedMessage) (messageID : String) (status : MessageStatus)
    (errorMsg : String) : List QueuedMessage :=
  updateOne (·.messageID == messageID) (fun m =>
    { m with
      status := status
      locked := false
      lockedUntil := none
      workerID := ""
      lastError := if errorMsg ≠ "" then errorMsg else m.lastError }) coll

/-- `calculateRetryDelay` -/
def calculateRetryDelay (retryCount : Nat) : Nat :=
  let minute := 60 * 1000
  let hour := 60 * minute
  [1 * minute, 5 * minute, 15 * minute, 30 * minute, 1 * hour, 2 * hour, 4 * hour].getD retryCount
    (4 * hour)

/-- The update of `RecordDeliveryAttempt`. -/
def QueuedMessage.record (m : QueuedMessage) (attempt : DeliveryAttempt) (now : Nat) :
    QueuedMessage :=
  let m := { m with
    deliveryLog := m.deliveryLog ++ [attempt]
    deliveryAttempts := m.deliveryAttempts + 1
    locked := false
    workerID := ""
    lockedUntil := none }
  match attempt.status with
  | .delivered => { m with status := .delivered, deliveryTime := now - attempt.timestamp }
  | .bounced => { m with status := .bounced, bounceReason := attempt.response }
  | .deferred =>
    { m with
      status := .deferred
      nextAttempt := now + calculateRetryDelay attempt.retryCount
      lastError := attempt.response }

/-- `RecordDeliveryAttempt` -/
def recordDeliveryAttempt (coll : List QueuedMessage) (messageID : String)
    (attempt : DeliveryAttempt) (now : Nat) : List QueuedMessage :=
  updateOne (·.messageID == messageID) (·.record attempt now) coll

/-! ## Worker -/

/-- `unicode.ToLower`, as far as it leads to ASCII letters. -/
def toLower (c : Char) : Char :=
  if c.val = 0x212a then 'k' -- the Kelvin sign
  else if c.val = 0x130 then 'i' -- the capital dotted I
  else c.toLower

/-- `permanentPatterns` -/
def permanentPatterns : List String :=
  ["550", "551", "552", "553", "554", "recipient rejected", "user unknown", "mailbox unavailable",
    "invalid recipient", "no such user", "user not found", "account disabled", "mailbox disabled"]

/-- `isPermanentError` -/
def isPermanentError (err : String) : Bool :=
  permanentPatterns.any fun pattern => decide (pattern.toList <:+: err.toList.map toLower)

/-- The timeout of the context of `processMessages`: a call of the database after it fails. -/
def contextTimeout : Nat := 30 * 1000

/-- What `deliverToRecipient` returns for one recipient, and the clock before it and when its
    result is recorded; `ok` says whether the database is there then. -/
structure Delivery where
  timestamp : Nat
  duration : Nat
  err : Option String
  recordedAt : Nat
  ok : Bool
deriving Repr, DecidableEq

/-- The attempt that the loop of `processMessages` records. -/
def attemptFor (msg : QueuedMessage) (recipient : String) (d : Delivery) : DeliveryAttempt where
  timestamp := d.timestamp
  recipient := recipient
  status :=
    match d.err with
    | some err => if isPermanentError err then .bounced else .deferred
    | none => .delivered
  response := d.err.getD "250 OK"
  duration := d.duration
  retryCount := msg.deliveryAttempts

/-- One delivery round: the arguments of `GetNext`, the error of `GetContent` if there is one,
    with the clock and the database at the `UpdateStatus` after it, and the deliveries by the
    position of the recipient. -/
structure Round where
  zone : String
  workerID : String
  now : Nat
  contentErr : Option String
  bouncedAt : Nat
  bounceOk : Bool
  deliveries : Nat → Delivery

/-- Whether a call in the context of the round has an effect. -/
def Round.inContext (r : Round) (now : Nat) (ok : Bool) : Bool :=
  ok && now < r.now + contextTimeout

/-- The attempts of a round, with their deliveries. -/
def attempts (msg : QueuedMessage) (r : Round) : List (DeliveryAttempt × Delivery) :=
  msg.recipients.zipIdx.map fun (recipient, i) =>
    (attemptFor msg recipient (r.deliveries i), r.deliveries i)

/-- `processMessages` -/
def processMessages (coll : List QueuedMessage) (r : Round) : List QueuedMessage :=
  match getNext coll r.zone r.workerID r.now with
  | (none, coll) => coll -- No messages to process
  | (some msg, coll) =>
    match r.contentErr with
    | some err =>
      if r.inContext r.bouncedAt r.bounceOk then updateStatus coll msg.messageID .bounced err
      else coll
    | none =>
      (attempts msg r).foldl (fun coll (attempt, d) =>
        if r.inContext d.recordedAt d.ok then
          recordDeliveryAttempt coll msg.messageID attempt d.recordedAt
        else coll) coll

/-- What happens to the queue. -/
inductive Event where
  | store (messageID zone : String) (recipients : List String) (now : Nat)
  | round (r : Round)

/-- The queue after an event. -/
def step (coll : List QueuedMessage) : Event → Option (List QueuedMessage)
  | .store messageID zone recipients now => some (store coll messageID zone recipients now)
  | .round r => some (processMessages coll r)

end GoQueue

end ZoneMta
