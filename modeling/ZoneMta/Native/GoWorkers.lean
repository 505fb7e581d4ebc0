import ZoneMta.ForStd.AList
import ZoneMta.Native.GoQueue

/-!
# Go queue, call by call

Calls of `Manager.Store` and workers that run at the same time: `Store`
(`zone-mta-go/internal/queue/manager.go`) up to the return of its deferred `Close`, and
`processMessages` (`zone-mta-go/internal/sender/sender.go`). Every call of the database or of
GridFS is a step; a call that reports an error has had no effect. A file is retrieved once the
`Close` of its upload has succeeded. The ids of the messages are new: no caller of `Store` sets
one.
-/

namespace ZoneMta

namespace GoWorkers

open ForStd (Map updateOne)
open GoQueue (QueuedMessage DeliveryAttempt MessageStatus contextTimeout)

/-- Where a call of `Store` is. -/
inductive StorePhase where
  /-- `io.Copy` -/
  | copy
  /-- the deferred `Close`, with whether an error is returned -/
  | close (err : Bool)
  /-- `Store` has returned an error, or nil -/
  | returned (err : Bool)
deriving Repr, DecidableEq

/-- A call of `Store`: the document, the content that was given, and what `io.Copy` has written
    of it. -/
structure StoreCall where
  message : QueuedMessage
  content : List UInt8
  written : List UInt8
  phase : StorePhase
deriving Repr, DecidableEq

/-- Where a worker is in `processMessages`. -/
inductive WorkerPhase where
  /-- `GetContent` -/
  | content
  /-- `UpdateStatus` after an error of `GetContent`; `missing` says that there is no file -/
  | bounce (missing : Bool) (err : String)
  /-- `deliverToRecipient`, since a time, with the recipients that follow -/
  | deliver (recipient : String) (timestamp : Nat) (rest : List String)
  /-- `RecordDeliveryAttempt`, with the recipients that follow -/
  | record (attempt : DeliveryAttempt) (rest : List String)
deriving Repr, DecidableEq

/-- A worker that processes a message: the document that `GetNext` has returned, and the time
    of that. -/
structure Worker where
  message : QueuedMessage
  started : Nat
  phase : WorkerPhase
deriving Repr, DecidableEq

/-- The queue, the calls of `Store` by number, and the workers that process a message. -/
structure System where
  now : Nat := 0
  coll : List QueuedMessage := []
  files : List (String × List UInt8) := []
  stores : Map Nat StoreCall := ∅
  nextStore : Nat := 0
  workers : Map Nat Worker := ∅
deriving DecidableEq

/-- `lockTimeout` -/
def lockTimeout : Nat := 10 * 60 * 1000

/-- What can happen next. `ok` says whether a call succeeds. -/
inductive Event where
  /-- time passes -/
  | tick (now : Nat)
  /-- `OpenUploadStreamWithID`; `nextAttempt` is `none` for the zero time -/
  | openUpload (messageID zone : String) (recipients : List String) (nextAttempt : Option Nat)
      (content : List UInt8)
  /-- `io.Copy` writes bytes -/
  | write (store n : Nat)
  /-- `io.Copy` fails -/
  | copyFails (store : Nat)
  /-- `InsertOne` -/
  | insert (store : Nat) (ok : Bool)
  /-- `Close` -/
  | close (store : Nat) (ok : Bool)
  /-- `GetNext` of an idle worker -/
  | getNext (worker : Nat) (zone workerID : String)
  /-- `GetContent`, which may fail in other ways than for a file that is missing -/
  | getContent (worker : Nat) (err : Option String)
  /-- `UpdateStatus` -/
  | updateStatus (worker : Nat) (ok : Bool)
  /-- `deliverToRecipient` returns -/
  | deliver (worker duration : Nat) (err : Option String)
  /-- `RecordDeliveryAttempt` -/
  | record (worker : Nat) (ok : Bool)
  /-- `ReleaseStaleLocks` -/
  | releaseStaleLocks
deriving Repr, DecidableEq

/-- The document of `Store`. -/
def newMessage (messageID zone : String) (recipients : List String) (nextAttempt : Nat) :
    QueuedMessage where
  messageID := messageID
  zone := zone
  recipients := recipients
  nextAttempt := nextAttempt
  deliveryAttempts := 0
  status := .queued
  locked := false
  lockedUntil := none
  workerID := ""
  lastError := ""
  deliveryLog := []
  bounceReason := ""
  deliveryTime := 0

/-- The error of `GetContent` for a file that is missing. -/
def fileNotFound : String := "failed to get message content: file with given parameters not found"

/-- The update of `ReleaseStaleLocks`. -/
def releaseStale (now : Nat) (m : QueuedMessage) : QueuedMessage :=
  if m.locked && m.lockedUntil.any (· ≤ now) then
    { m with locked := false, status := .queued, lockedUntil := none, workerID := "" }
  else m

namespace System

/-- A call of `Store` goes on. -/
def setStore (s : System) (k : Nat) (call : StoreCall) : System :=
  { s with stores := s.stores.insert k call }

/-- A worker goes on. -/
def setWorker (s : System) (n : Nat) (worker : Worker) : System :=
  { s with workers := s.workers.insert n worker }

/-- A worker has left `processMessages`. -/
def leave (s : System) (n : Nat) : System := { s with workers := s.workers.erase n }

/-- The loop of `processMessages` goes on with the next recipient, or is over. -/
def nextRecipient (s : System) (n : Nat) (worker : Worker) : List String → System
  | [] => s.leave n
  | recipient :: rest => s.setWorker n { worker with phase := .deliver recipient s.now rest }

/-- A call in the context of a worker has an effect. -/
def inContext (s : System) (worker : Worker) (ok : Bool) : Bool :=
  ok && s.now < worker.started + contextTimeout

/-- The attempt that the loop of `processMessages` records. -/
def attempt (s : System) (worker : Worker) (recipient : String) (timestamp duration : Nat)
    (err : Option String) : DeliveryAttempt :=
  GoQueue.attemptFor worker.message recipient
    { timestamp := timestamp, duration := duration, err := err, recordedAt := s.now, ok := true }

/-- A step of a call of `Store`. -/
def withStore (s : System) (k : Nat) (f : StoreCall → Option System) : Option System :=
  (s.stores.lookup k).bind f

/-- A step of a worker. -/
def withWorker (s : System) (n : Nat) (f : Worker → Option System) : Option System :=
  (s.workers.lookup n).bind f

/-- The state after an event, `none` where it cannot happen. -/
def step (s : System) : Event → Option System
  | .tick now => if s.now ≤ now then some { s with now := now } else none
  | .openUpload messageID zone recipients nextAttempt content =>
    if s.stores.entries.all (·.2.message.messageID != messageID) then
      let message := newMessage messageID zone recipients (nextAttempt.getD s.now)
      some { s.setStore s.nextStore ⟨message, content, [], .copy⟩ with
        nextStore := s.nextStore + 1 }
    else none
  | .write k n =>
    s.withStore k fun call =>
      match call.phase with
      | .copy => some (s.setStore k { call with
          written := call.content.take (call.written.length + n) })
      | _ => none
  | .copyFails k =>
    s.withStore k fun call =>
      match call.phase with
      | .copy => some (s.setStore k { call with phase := .close true })
      | _ => none
  | .insert k ok =>
    s.withStore k fun call =>
      if call.phase = .copy ∧ call.written = call.content then
        if ok then
          some { s.setStore k { call with phase := .close false } with
            coll := s.coll ++ [call.message] }
        else
          -- the file is deleted, but the upload is still closed
          some { s.setStore k { call with phase := .close true } with
            files := s.files.filter (·.1 ≠ call.message.messageID) }
      else none
  | .close k ok =>
    s.withStore k fun call =>
      match call.phase with
      | .close err =>
        -- the error of `Close` is dropped
        some { s.setStore k { call with phase := .returned err } with
          files := if ok then s.files ++ [(call.message.messageID, call.written)] else s.files }
      | _ => none
  | .getNext n zone workerID =>
    if (s.workers.lookup n).isSome then none
    else
      match GoQueue.getNext s.coll zone workerID s.now with
      | (none, _) => some s
      | (some message, coll) => some ({ s with coll := coll }.setWorker n ⟨message, s.now, .content⟩)
  | .getContent n err =>
    s.withWorker n fun worker =>
      match worker.phase with
      | .content =>
        match err with
        | some err => some (s.setWorker n { worker with phase := .bounce false err })
        | none =>
          if s.files.any (·.1 == worker.message.messageID) then
            some (s.nextRecipient n worker worker.message.recipients)
          else some (s.setWorker n { worker with phase := .bounce true fileNotFound })
      | _ => none
  | .updateStatus n ok =>
    s.withWorker n fun worker =>
      match worker.phase with
      | .bounce _ err =>
        let coll :=
          if s.inContext worker ok then
            GoQueue.updateStatus s.coll worker.message.messageID .bounced err
          else s.coll
        some ({ s with coll := coll }.leave n)
      | _ => none
  | .deliver n duration err =>
    s.withWorker n fun worker =>
      match worker.phase with
      | .deliver recipient timestamp rest =>
        some (s.setWorker n { worker with
          phase := .record (s.attempt worker recipient timestamp duration err) rest })
      | _ => none
  | .record n ok =>
    s.withWorker n fun worker =>
      match worker.phase with
      | .record attempt rest =>
        let coll :=
          if s.inContext worker ok then
            GoQueue.recordDeliveryAttempt s.coll worker.message.messageID attempt s.now
          else s.coll
        some ({ s with coll := coll }.nextRecipient n worker rest)
      | _ => none
  | .releaseStaleLocks => some { s with coll := s.coll.map (releaseStale s.now) }

end System

end GoWorkers

end ZoneMta
