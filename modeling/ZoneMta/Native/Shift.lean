import ZoneMta.ForStd.Retry
import ZoneMta.Native.Master

/-!
# Shift

`shift` of `lib/mail-queue.js` while no one else calls the database and the locker, and no call
fails. `tryNext` is one try of the loop from the `findOneAndUpdate` to the next `setImmediate`. In
contrast to the tasks of `Master`, the keys of the metadata take the place of those of the delivery.
-/

namespace ZoneMta

open ForStd (Map Text retry)

/-- The keys of the metadata that take the place of what `shift` reads of the delivery. -/
structure Metadata where
  id : Option String := none
  seq : Option String := none
  domain : Option String := none
  recipient : Option String := none
  _lock : Option String := none
deriving Repr, DecidableEq

/-- What `shift` and `releaseDelivery` read of the delivery in memory. -/
structure Shifted where
  id : String
  seq : String
  domain : String
  recipient : String
  _lock : String
deriving Repr, DecidableEq

/-- The delivery with the key of its lock, and the metadata of the message. -/
def Delivery.withMetadata (delivery : Delivery) (data : Metadata) : Shifted :=
  { id := data.id.getD delivery.id
    seq := data.seq.getD delivery.seq
    domain := data.domain.getD delivery.domain
    recipient := data.recipient.getD delivery.recipient
    _lock := data._lock.getD (lockKey delivery.id delivery.seq) }

/-- What `getMeta` reads of a file: `metadata.data`, or an object without keys. -/
def File.metadata (parse : String → Metadata) (file : File) : Metadata :=
  (file.data.map parse).getD {}

/-- `MailQueue`; `cache` holds the times at which the entries `'empty:' + zone` expire. -/
structure MailQueue where
  db : Database := {}
  locks : QueueLocker := {}
  cache : Map String Nat := ∅
  closing : Bool := false
deriving DecidableEq

/-- The time of a try, and which documents the calls in it take. -/
structure Round where
  now : Nat
  fetched : Nat := 0
  file : Nat := 0
  deleted : Nat := 0
  reference : Nat := 0
  message : Nat := 0
deriving Repr, DecidableEq

/-- The zone that is asked for. -/
def requestedZone (defaultZone zone : String) : String :=
  if zone ≠ "" then zone else if defaultZone ≠ "" then defaultZone else "default"

/-- Whether the suppression list has the recipient or the domain. -/
def Shifted.suppressed (text : Text) (delivery : Shifted) (db : Database) : Bool :=
  (db.exec 0 (.findSuppressed (text.normal delivery.recipient) (text.normal delivery.domain))).2 ==
    .suppressed true

namespace MailQueue

/-- `removeMessage` -/
def removeMessage (q : MailQueue) (round : Round) (id : String) : MailQueue :=
  match (q.db.exec round.message (.findFile id)).2 with
  | .file (some file) => { q with db := (q.db.exec 0 (.deleteFile file._id)).1 }
  | _ => q

/-- `releaseDelivery` -/
def releaseDelivery (q : MailQueue) (round : Round) (delivery : Shifted) : MailQueue :=
  let q := { q with
    db := (q.db.exec round.deleted (.deleteDelivery delivery.id delivery.seq)).1
    locks := q.locks.release delivery._lock }
  match (q.db.exec round.reference (.findReference delivery.id)).2 with
  | .delivery none => q.removeMessage round delivery.id
  -- still deliveries left for this message
  | _ => q

variable (cfg : Config) (parse : String → Metadata)

/-- The part of `tryNext` behind the lock: what it returns, `none` where it tries the next one, and
    the state after. -/
def shiftLocked (q : MailQueue) (round : Round) (delivery : Delivery) :
    Option (Option Shifted) × MailQueue :=
  match (q.db.exec round.file (.findFile delivery.id)).2 with
  | .file (some file) =>
    let shifted := delivery.withMetadata (file.metadata parse)
    if shifted.suppressed cfg.text q.db then (none, q.releaseDelivery round shifted)
    else (some (some shifted), q)
  -- this message has been already deleted
  | _ =>
    (none, { q with
      db := (q.db.exec 0 (.deleteMessage delivery.id)).1
      locks := q.locks.release (lockKey delivery.id delivery.seq) })

/-- `tryNext` -/
def tryNext (query : Query) (lockOwner : String) (round : Round) (q : MailQueue) :
    Option (Option Shifted) × MailQueue :=
  match q.db.exec round.fetched (.fetch query round.now) with
  | (db, .delivery (some delivery)) =>
    let (free, locks) := q.locks.lock (lockKey delivery.id delivery.seq) query.sendingZone
      delivery.domain lockOwner (cfg.limit delivery.domain) (60 * 60 * 1000) round.now
    if free then shiftLocked cfg parse { q with db := db, locks := locks } round delivery
    -- already locked by someone else
    else (none, { q with db := db, locks := locks })
  -- nothing found, disable this zone for few seconds
  | (db, _) =>
    (some none,
      { q with db := db, cache := q.cache.insert query.sendingZone (round.now + 5 * 1000) })

/-- The query of `shift`. -/
def shiftQuery (q : MailQueue) (defaultZone zone : String) (now : Nat) : Query :=
  let zone := requestedZone defaultZone zone
  cfg.query zone now (q.locks.listSkipDomains zone).1

/-- Whether `shift` returns before the loop. -/
def returnsEarly (q : MailQueue) (defaultZone zone : String) (now : Nat) : Bool :=
  q.closing || (q.cache.lookup (requestedZone defaultZone zone)).any (now ≤ ·)

/-- `shift`, with one round for each try; `none` where the rounds are too few. -/
def shift (q : MailQueue) (defaultZone zone lockOwner : String) (now : Nat)
    (rounds : List Round) : Option (Option Shifted × MailQueue) :=
  if q.returnsEarly defaultZone zone now then some (none, q)
  else
    retry (tryNext cfg parse (q.shiftQuery cfg defaultZone zone now) lockOwner) rounds
      { q with locks := (q.locks.listSkipDomains (requestedZone defaultZone zone)).2 }

end MailQueue

end ZoneMta
