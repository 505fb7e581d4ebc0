import ZoneMta.ForStd.Collection

/-!
# Database

The collections behind the queue (`lib/mail-queue.js`): the delivery documents, the files and
chunks of GridFS with the message bodies, and the suppression list, with the calls that the
queue makes. A call takes effect at one moment. Which of several matching documents a call
takes is the argument `choice`. Times are milliseconds, those of an `ObjectId` seconds.
-/

namespace ZoneMta

open ForStd (updateOne)

/-- The time at which the id was made, and the rest of it. -/
structure ObjectId where
  time : Nat
  unique : Nat
deriving Repr, DecidableEq

namespace ObjectId

/-- The order of `$lte` and `sort`. -/
def ble (a b : ObjectId) : Bool :=
  a.time < b.time || a.time == b.time && a.unique ≤ b.unique

/-- `ObjectId.createFromTime` -/
def createFromTime (time : Nat) : ObjectId := ⟨time, 0⟩

end ObjectId

/-- `Math.round(time / 1000)` -/
def roundSeconds (time : Nat) : Nat := (time + 500) / 1000

/-- `_deferred`; `first` is set by the first update only. -/
structure Deferred where
  first : Option Nat
  last : Nat
  next : Nat
  count : Nat
deriving Repr, DecidableEq

/-- The documents of the queue. -/
structure Delivery where
  _id : ObjectId
  id : String
  seq : String
  domain : String
  sendingZone : String
  recipient : String
  locked : Bool
  lockTime : Nat
  assigned : String
  queued : Nat
  created : Nat
  _deferred : Option Deferred
deriving Repr, DecidableEq

/-- The documents of `.files`; `data` is `metadata.data`. -/
structure File where
  _id : ObjectId
  filename : String
  data : Option String
deriving Repr, DecidableEq

/-- The documents of `.chunks`, without the bytes. -/
structure Chunk where
  _id : ObjectId
  files_id : ObjectId
deriving Repr, DecidableEq

/-- The documents of `suppressionlist`, with one of the two keys. -/
structure Suppressed where
  address : Option String
  domain : Option String
deriving Repr, DecidableEq

/-- The collections. -/
structure Database where
  queue : List Delivery := []
  files : List File := []
  chunks : List Chunk := []
  suppressionlist : List Suppressed := []
deriving Repr, DecidableEq

/-- The query of `shift`. -/
structure Query where
  sendingZone : String
  queued : Nat
  instanceId : String
  skipDomains : List String
deriving Repr, DecidableEq

/-- The query without the part about the domain. -/
def Query.due (query : Query) (delivery : Delivery) : Bool :=
  delivery.sendingZone == query.sendingZone && delivery.queued ≤ query.queued &&
    !delivery.locked && (delivery.assigned == "no" || delivery.assigned == query.instanceId)

/-- Whether the query finds the document. -/
def Query.matches (query : Query) (delivery : Delivery) : Bool :=
  query.due delivery && !query.skipDomains.contains delivery.domain

/-- The name of the file with the body of a message. -/
def filename (id : String) : String := "message " ++ id

/-- The calls of the queue. -/
inductive Call where
  /-- `findOneAndUpdate` of `shift` -/
  | fetch (query : Query) (lockTime : Nat)
  /-- `findOne` on the files of `getMeta` and `removeMessage` -/
  | findFile (id : String)
  /-- `deleteMany` of `shift` -/
  | deleteMessage (id : String)
  /-- `findOne` on the suppression list -/
  | findSuppressed (address domain : String)
  /-- `findOne` of `getDelivery` -/
  | findDelivery (id seq : String)
  /-- `deleteOne` of `releaseDelivery` -/
  | deleteDelivery (id seq : String)
  /-- `findOne` of `releaseDelivery` -/
  | findReference (id : String)
  /-- `gridstore.delete` -/
  | deleteFile (fileId : ObjectId)
  /-- `findOneAndUpdate` of `deferDelivery` -/
  | defer (id seq : String) (now ttl : Nat) (first : Bool)
  /-- `find` of `remove`; without a `seq` it is for all the deliveries of the message -/
  | findDeliveries (id : String) (seq : Option String)
  /-- `find` of `clearGarbage` -/
  | findQueued (cutoff : ObjectId)
  /-- `cursor.next` -/
  | cursorNext
  /-- `updateMany` of `clearGarbage` -/
  | unlock (instanceId : String) (now : Nat)
  /-- `findOne` of `clearGarbage` -/
  | findOldest
  /-- `deleteMany` of `clearGarbage` on the files -/
  | deleteFiles (cutoff : ObjectId)
  /-- `deleteMany` of `clearGarbage` on the chunks -/
  | deleteChunks (cutoff : ObjectId)
deriving Repr, DecidableEq

/-- What the calls return. -/
inductive Reply where
  | error
  | done
  | delivery (delivery : Option Delivery)
  | deliveries (deliveries : List Delivery)
  | file (file : Option File)
  | suppressed (found : Bool)
deriving Repr, DecidableEq

/-- One of the documents. -/
def pick {α : Type} (docs : List α) (choice : Nat) : Option α := docs[choice % docs.length]?

namespace Delivery

/-- The `$set` of `shift`. -/
def fetched (delivery : Delivery) (lockTime : Nat) (instanceId : String) : Delivery :=
  { delivery with locked := true, lockTime := lockTime, assigned := instanceId }

/-- The updates of `deferDelivery`, without those of the caller; `first` says that the document
    it was called with has no `_deferred`. -/
def deferred (delivery : Delivery) (now ttl : Nat) (first : Bool) : Delivery :=
  { delivery with
    queued := now + ttl
    locked := false
    _deferred := some {
      first := if first then some now else delivery._deferred.bind (·.first)
      last := now
      next := now + ttl
      count := (delivery._deferred.map (·.count)).getD 0 + 1 } }

/-- The `$set` of `clearGarbage`. -/
def unlocked (delivery : Delivery) : Delivery :=
  { delivery with locked := false, lockTime := 0 }

/-- Whether `clearGarbage` unlocks the document: it has been locked for 61 minutes. -/
def stale (delivery : Delivery) (instanceId : String) (now : Nat) : Bool :=
  delivery.locked && delivery.assigned == instanceId &&
    delivery.lockTime + 61 * 60 * 1000 ≤ now

/-- Whether the document is that of the delivery. -/
def isFor (delivery : Delivery) (id seq : String) : Bool :=
  delivery.id == id && delivery.seq == seq

end Delivery

/-- The oldest document of the queue. -/
def oldest : List Delivery → Option Delivery
  | [] => none
  | d :: ds =>
    match oldest ds with
    | none => some d
    | some d' => if d._id.ble d'._id then some d else some d'

namespace Database

/-- Changes the document that was picked. -/
def update (db : Database) (delivery : Delivery) (f : Delivery → Delivery) : Database :=
  { db with queue := updateOne (·._id == delivery._id) f db.queue }

/-- A call: the collections after it, and what it returns. -/
def exec (db : Database) (choice : Nat) : Call → Database × Reply
  | .fetch query lockTime =>
    match pick (db.queue.filter query.matches) choice with
    | none => (db, .delivery none)
    | some delivery =>
      (db.update delivery (·.fetched lockTime query.instanceId),
        .delivery (some (delivery.fetched lockTime query.instanceId)))
  -- a `findOne` may find any of the documents
  | .findFile id => (db, .file (pick (db.files.filter (·.filename == filename id)) choice))
  | .deleteMessage id => ({ db with queue := db.queue.filter (·.id != id) }, .done)
  | .findSuppressed address domain =>
    (db, .suppressed (db.suppressionlist.any fun entry =>
      entry.address == some address || entry.domain == some domain))
  | .findDelivery id seq => (db, .delivery (pick (db.queue.filter (·.isFor id seq)) choice))
  | .deleteDelivery id seq =>
    match pick (db.queue.filter (·.isFor id seq)) choice with
    | none => (db, .done)
    | some delivery => ({ db with queue := db.queue.erase delivery }, .done)
  | .findReference id => (db, .delivery (pick (db.queue.filter (·.id == id)) choice))
  | .deleteFile fileId =>
    ({ db with
      files := db.files.filter (·._id != fileId)
      chunks := db.chunks.filter (·.files_id != fileId) },
      -- the chunks of a file that is missing are deleted as well
      if db.files.any (·._id == fileId) then .done else .error)
  | .defer id seq now ttl first =>
    match pick (db.queue.filter (·.isFor id seq)) choice with
    | none => (db, .delivery none)
    -- `findOneAndUpdate` returns the document as it was
    | some delivery => (db.update delivery (·.deferred now ttl first), .delivery (some delivery))
  | .findDeliveries id seq =>
    (db, .deliveries (db.queue.filter fun delivery =>
      delivery.id == id && seq.all (delivery.seq == ·)))
  | .findQueued cutoff =>
    (db, .deliveries (db.queue.filter fun delivery => delivery._id.ble cutoff && !delivery.locked))
  | .cursorNext => (db, .done)
  | .unlock instanceId now =>
    ({ db with queue := db.queue.map fun delivery =>
        if delivery.stale instanceId now then delivery.unlocked else delivery }, .done)
  | .findOldest => (db, .delivery (oldest db.queue))
  | .deleteFiles cutoff =>
    ({ db with files := db.files.filter fun file => !file._id.ble cutoff }, .done)
  | .deleteChunks cutoff =>
    ({ db with chunks := db.chunks.filter fun chunk => !chunk._id.ble cutoff }, .done)

end Database

end ZoneMta
