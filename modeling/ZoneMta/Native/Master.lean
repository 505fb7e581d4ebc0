import ZoneMta.ForStd.Text
import ZoneMta.Native.Database
import ZoneMta.Native.QueueLocker

/-!
# Master process

`MailQueue` (`lib/mail-queue.js`) and the queue server (`lib/queue-server.js`) of the master
process, with the database behind it. The process runs one callback after another; a request
is a task that waits for `setImmediate`, for a call of the database that has not taken effect
yet, or for its callback. So the tasks interleave at every call, and a call and its callback
are two steps.

A callback says what it does as an `Effect`: the calls of the locker in their order, the call
it makes next or the next callback, and what it sends to the client. Hooks, logs and counters
are left out.
-/

namespace ZoneMta

open ForStd (Map Text updateOne)

/-- What the master reads of its configuration: `maxConnections` is what `domainConfig.get`
    returns, `sendingZone` the name of the zone that `sendingZone.get` finds, 0 stands for a
    `maxQueueTime` that is not set. `text` are the functions on strings. -/
structure Config where
  instanceId : String
  sendingZone : String → Option String
  maxConnections : String → Nat
  disableGC : Bool
  maxQueueTime : Nat
  text : Text

namespace Config

/-- `Number(getDomainConfig(domain, 'maxConnections')) || 5` -/
def limit (cfg : Config) (domain : String) : Nat :=
  if cfg.maxConnections domain = 0 then 5 else cfg.maxConnections domain

/-- The query of `shift`. -/
def query (cfg : Config) (zone : String) (now : Nat) (skipDomains : List String) : Query :=
  { sendingZone := zone
    queued := now
    instanceId := cfg.instanceId
    skipDomains := skipDomains }

end Config

/-- The key of the lock of a delivery. -/
def lockKey (id seq : String) : String := "lock " ++ id ++ " " ++ seq

/-- The owner of the locks of one `remove`. -/
def deleteId (random : String) : String := "delete:" ++ random

/-- A call of `shift`, for a client. -/
structure Get where
  client : Nat
  lockOwner : String
  zone : String
  query : Query
deriving Repr, DecidableEq

/-- A RELEASE, or a DEFER with its `ttl`. -/
structure Request where
  client : Nat
  lockOwner : String
  id : String
  seq : String
  _lock : String
  ttl : Option Nat
deriving Repr, DecidableEq

/-- Who has called `releaseDelivery`. -/
inductive Caller where
  | shift (get : Get) (delivery : Delivery)
  | request (request : Request)
  | remove (owner : String) (rest : List Delivery)
  | clearGarbage (rest : List Delivery)
deriving Repr, DecidableEq

/-- The callbacks, named by the function they are in. -/
inductive Job where
  /-- `tryNext` of `shift` -/
  | tryNext (get : Get)
  /-- the `findOneAndUpdate` of `shift` -/
  | fetched (get : Get)
  /-- the `getMeta` of `shift` -/
  | shiftMeta (get : Get) (delivery : Delivery)
  /-- the `deleteMany` of `shift` -/
  | messageDeleted (get : Get) (delivery : Delivery)
  /-- the lookup on the suppression list -/
  | suppression (get : Get) (delivery : Delivery)
  /-- `shift` without a delivery -/
  | notFound (get : Get)
  /-- the `getMeta` of `findNext` -/
  | nextMeta (get : Get) (delivery : Delivery)
  /-- the `getDelivery` of `releaseDelivery` and `deferDelivery` of the server -/
  | getDelivery (request : Request)
  /-- the `deleteOne` of `releaseDelivery` -/
  | deleted (id seq _lock : String) (caller : Caller)
  /-- the `findOne` of `releaseDelivery` -/
  | reference (id : String) (caller : Caller)
  /-- the `findOne` of `removeMessage` -/
  | removeMessage (caller : Caller)
  /-- the `gridstore.delete` of `removeMessage` -/
  | fileDeleted (caller : Caller)
  /-- the `findOneAndUpdate` of `deferDelivery` -/
  | deferred (request : Request)
  /-- the `getMeta` of `deferDelivery` -/
  | deferredMeta (request : Request)
  /-- the `find` of `remove` -/
  | removeFound (owner : String)
  /-- the `cursor.next` of `remove` -/
  | removeNext (owner : String) (rest : List Delivery)
  /-- the `updateMany` of `clearGarbage` -/
  | unlocked
  /-- the `find` of `clearGarbage` -/
  | expired
  /-- the `cursor.next` of `clearGarbage` -/
  | expiredNext (rest : List Delivery)
  /-- the `findOne` of `clearGarbage` -/
  | oldestFound
  /-- the `deleteMany` on the files -/
  | filesDeleted (cutoff : ObjectId)
  /-- the `deleteMany` on the chunks -/
  | chunksDeleted
deriving Repr, DecidableEq

/-- What a task waits for. -/
inductive Wait where
  | immediate
  | call (call : Call)
  | reply (reply : Reply)
deriving Repr, DecidableEq

/-- A request that is not finished. -/
structure Task where
  job : Job
  wait : Wait
deriving Repr, DecidableEq

/-- What the server sends to a client. -/
inductive Response where
  | error
  | none
  | delivery (delivery : Delivery) (_lock : String) (data : Option String)
  | done (id seq : String)
deriving Repr, DecidableEq

/-- What a callback does: the calls of the locker, whether it caches that the zone is empty,
    what the task waits for next, and what it sends to which client. -/
structure Effect where
  ops : List QueueLocker.Op := []
  emptyZone : Option String := none
  next : Option Task := none
  send : Option (Nat × Response) := none
deriving Repr, DecidableEq

namespace Effect

/-- The task calls the database. -/
def wait (job : Job) (call : Call) : Effect := { next := some ⟨job, .call call⟩ }

/-- The task goes on with `setImmediate`. -/
def immediate (job : Job) : Effect := { next := some ⟨job, .immediate⟩ }

/-- The task ends with a response. -/
def answer (client : Nat) (response : Response) : Effect := { send := some (client, response) }

/-- The task ends. -/
def finish : Effect := {}

/-- `locks.release` -/
def release (key : String) (effect : Effect) : Effect :=
  { effect with ops := .release key :: effect.ops }

end Effect

/-! ## shift -/

section shift

variable (cfg : Config) (now : Nat)

/-- `tryNext` -/
def tryNext (get : Get) : Effect := .wait (.fetched get) (.fetch get.query now)

/-- The callback of the `findOneAndUpdate`. -/
def shiftFetched (locks : QueueLocker) (get : Get) : Reply → Option Effect
  | .error => some (.answer get.client .error)
  | .delivery none => some { Effect.immediate (.notFound get) with emptyZone := some get.zone }
  | .delivery (some delivery) =>
    let key := lockKey delivery.id delivery.seq
    let maxConnections := cfg.limit delivery.domain
    let ttl := 60 * 60 * 1000
    let effect :=
      if (locks.lock key get.zone delivery.domain get.lockOwner maxConnections ttl now).1 then
        Effect.wait (.shiftMeta get delivery) (.findFile delivery.id)
      -- already locked by someone else
      else Effect.immediate (.tryNext get)
    some { effect with
      ops := [.lock key get.zone delivery.domain get.lockOwner maxConnections ttl] }
  | _ => none

/-- The callback of `getMeta`. -/
def shiftMeta (get : Get) (delivery : Delivery) : Reply → Option Effect
  | .error =>
    some (.release (lockKey delivery.id delivery.seq) (.answer get.client .error))
  | .file none => some (.wait (.messageDeleted get delivery) (.deleteMessage delivery.id))
  | .file (some _) =>
    some (.wait (.suppression get delivery)
      (.findSuppressed (cfg.text.normal delivery.recipient) (cfg.text.normal delivery.domain)))
  | _ => none

/-- The callback of the `deleteMany`, which does not look at the error. -/
def shiftDeleted (get : Get) (delivery : Delivery) : Reply → Option Effect
  | _ => some (.release (lockKey delivery.id delivery.seq) (.immediate (.tryNext get)))

/-- The callback of the lookup on the suppression list, which ignores an error: the delivery
    is released or handed to `findNext`. -/
def shiftSuppression (get : Get) (delivery : Delivery) : Reply → Option Effect
  | .suppressed true =>
    some (.wait
      (.deleted delivery.id delivery.seq (lockKey delivery.id delivery.seq)
        (.shift get delivery))
      (.deleteDelivery delivery.id delivery.seq))
  | _ => some (.wait (.nextMeta get delivery) (.findFile delivery.id))

/-- The callback of the `getMeta` of `findNext`; a message without metadata is handed out as
    well. -/
def nextMeta (get : Get) (delivery : Delivery) : Reply → Option Effect
  | .error =>
    some (.release (lockKey delivery.id delivery.seq) (.answer get.client .error))
  | .file file =>
    some (.answer get.client
      (.delivery delivery (lockKey delivery.id delivery.seq) (file.bind (·.data))))
  | _ => none

end shift

/-! ## releaseDelivery -/

/-- The callback of `releaseDelivery`. -/
def Caller.callback (err : Bool) : Caller → Effect
  | .shift get delivery =>
    if err then .release (lockKey delivery.id delivery.seq) (.answer get.client .error)
    else .immediate (.tryNext get)
  | .request req => .answer req.client (if err then .error else .done req.id req.seq)
  | .remove owner rest => .wait (.removeNext owner rest) .cursorNext
  | .clearGarbage rest => .wait (.expiredNext rest) .cursorNext

/-- The start of `releaseDelivery`. -/
def releaseDelivery (id seq _lock : String) (caller : Caller) : Effect :=
  .wait (.deleted id seq _lock caller) (.deleteDelivery id seq)

/-- The callback of the `deleteOne`. -/
def releaseDeleted (id _lock : String) (caller : Caller) : Reply → Option Effect
  | .error => some (.release _lock (caller.callback true))
  | .done => some (.release _lock (.wait (.reference id caller) (.findReference id)))
  | _ => none

/-- The callback of the `findOne`. -/
def releaseReference (id : String) (caller : Caller) : Reply → Option Effect
  | .error => some (caller.callback true)
  -- still deliveries left for this message
  | .delivery (some _) => some (caller.callback false)
  | .delivery none => some (.wait (.removeMessage caller) (.findFile id))
  | _ => none

/-- The callback of the `findOne` of `removeMessage`; its errors are not passed on. -/
def removeMessage (caller : Caller) : Reply → Option Effect
  | .error => some (caller.callback false)
  | .file none => some (caller.callback false)
  | .file (some file) => some (.wait (.fileDeleted caller) (.deleteFile file._id))
  | _ => none

/-! ## RELEASE and DEFER -/

/-- The callback of `getDelivery`. -/
def serverDelivery (now : Nat) (request : Request) : Reply → Option Effect
  | .error => some (.answer request.client .error)
  | .delivery none => some (.answer request.client .none)
  | .delivery (some delivery) =>
    match request.ttl with
    | none =>
      some (releaseDelivery delivery.id delivery.seq request._lock (.request request))
    | some ttl =>
      some (.wait (.deferred request)
        (.defer delivery.id delivery.seq now ttl delivery._deferred.isNone))
  | _ => none

/-- The callback of the `findOneAndUpdate` of `deferDelivery`. -/
def deferDeferred (request : Request) : Reply → Option Effect
  | .error => some (.answer request.client .error)
  | .delivery item =>
    let checked := (item.bind (·._deferred)).any fun deferred =>
      deferred.first.any (· ≠ 0) && deferred.last != 0
    some (.release request._lock
      (if checked then .wait (.deferredMeta request) (.findFile request.id)
      else .answer request.client (.done request.id request.seq)))
  | _ => none

/-! ## remove -/

/-- The callback of the first `cursor.next`. -/
def removeFound (owner : String) : Reply → Option Effect
  | .error => some { ops := [.releaseLockOwner owner] }
  | .deliveries deliveries => some (.wait (.removeNext owner deliveries) .cursorNext)
  | _ => none

/-- The callback of `cursor.next`: the deliveries that are locked are skipped. -/
def removeNext (locks : QueueLocker) (now : Nat) (owner : String) (rest : List Delivery) :
    Reply → Option Effect
  | .error => some { ops := [.releaseLockOwner owner] }
  | .done =>
    match rest with
    | [] => some .finish
    | delivery :: rest =>
      let key := lockKey delivery.id delivery.seq
      -- the documents have no `zoneName`
      let effect :=
        if (locks.lock key "" "" owner 0 (1 * 60 * 1000) now).1 then
          releaseDelivery delivery.id delivery.seq key (.remove owner rest)
        else Effect.wait (.removeNext owner rest) .cursorNext
      some { effect with ops := [.lock key "" "" owner 0 (1 * 60 * 1000)] }
  | _ => none

/-! ## clearGarbage -/

section clearGarbage

variable (cfg : Config) (now : Nat)

/-- The start of `clearGarbage`. -/
def clearGarbage : Task := ⟨.unlocked, .call (.unlock cfg.instanceId now)⟩

/-- The part after the `updateMany`. -/
def gcUnlocked : Reply → Option Effect
  | .error => some .finish
  | .done =>
    if cfg.disableGC then some .finish
    else if cfg.maxQueueTime > 0 then
      some (.wait .expired
        (.findQueued (.createFromTime (roundSeconds (now - cfg.maxQueueTime)))))
    else some (.wait .oldestFound .findOldest)
  | _ => none

/-- The part after the first `cursor.next`. -/
def gcExpired : Reply → Option Effect
  | .error => some .finish
  | .deliveries deliveries => some (.wait (.expiredNext deliveries) .cursorNext)
  | _ => none

/-- The part after `cursor.next`; the documents have no `_lock`. -/
def gcNext (rest : List Delivery) : Reply → Option Effect
  | .error => some .finish
  | .done =>
    match rest with
    | [] => some (.wait .oldestFound .findOldest)
    | delivery :: rest =>
      some (releaseDelivery delivery.id delivery.seq "" (.clearGarbage rest))
  | _ => none

/-- The part after the `findOne`. -/
def gcOldest : Reply → Option Effect
  | .error => some .finish
  | .delivery delivery =>
    let clearUntil :=
      match delivery with
      | some delivery => delivery._id.time * 1000
      -- empty queue, so delete everything
      | none => now
    let cutoff := ObjectId.createFromTime (roundSeconds (clearUntil - 10 * 60 * 1000))
    some (.wait (.filesDeleted cutoff) (.deleteFiles cutoff))
  | _ => none

/-- The part after the `deleteMany` on the files. -/
def gcFiles (cutoff : ObjectId) : Reply → Option Effect
  | .error => some .finish
  | .done => some (.wait .chunksDeleted (.deleteChunks cutoff))
  | _ => none

end clearGarbage

/-! ## Tasks -/

/-- The callback of a call. -/
def callback (cfg : Config) (now : Nat) (locks : QueueLocker) : Job → Reply → Option Effect
  | .fetched get, reply => shiftFetched cfg now locks get reply
  | .shiftMeta get delivery, reply => shiftMeta cfg get delivery reply
  | .messageDeleted get delivery, reply => shiftDeleted get delivery reply
  | .suppression get delivery, reply => shiftSuppression get delivery reply
  | .nextMeta get delivery, reply => nextMeta get delivery reply
  | .getDelivery request, reply => serverDelivery now request reply
  | .deleted id _ _lock caller, reply => releaseDeleted id _lock caller reply
  | .reference id caller, reply => releaseReference id caller reply
  | .removeMessage caller, reply => removeMessage caller reply
  | .fileDeleted caller, _ => some (caller.callback false)
  | .deferred request, reply => deferDeferred request reply
  | .deferredMeta request, _ =>
    some (.answer request.client (.done request.id request.seq))
  | .removeFound owner, reply => removeFound owner reply
  | .removeNext owner rest, reply => removeNext locks now owner rest reply
  | .unlocked, reply => gcUnlocked cfg now reply
  | .expired, reply => gcExpired reply
  | .expiredNext rest, reply => gcNext rest reply
  | .oldestFound, reply => gcOldest now reply
  | .filesDeleted cutoff, reply => gcFiles cutoff reply
  | .chunksDeleted, _ => some .finish
  -- these wait for `setImmediate`
  | .tryNext _, _ => none
  | .notFound _, _ => none

/-- The callback of `setImmediate`. -/
def immediate (now : Nat) : Job → Option Effect
  | .tryNext get => some (tryNext now get)
  | .notFound get => some (.answer get.client .none)
  | _ => none

/-! ## The process -/

/-- A connection to the queue server: `id` and `zone` are empty before HELLO. -/
structure Client where
  id : String := ""
  zone : String := ""
  connected : Bool := true
deriving Repr, DecidableEq

/-- An upload of a message: `openUploadStream` makes the id of the file, the file itself is
    stored when the upload has finished. -/
structure Upload where
  id : String
  fileId : ObjectId
  finished : Bool
deriving Repr, DecidableEq

/-- A delivery that `push` has prepared for `insertMany`, the `index`-th of its message. -/
structure Recipient where
  _id : ObjectId
  index : Nat
  recipient : String
  domain : String
  sendingZone : String
  queued : Nat
  created : Nat
deriving Repr, DecidableEq

/-- The master process and its database. `cache` holds the times at which the entries
    `'empty:' + zone` expire, `sent` what the clients were sent. -/
structure Master where
  now : Nat := 0
  db : Database := {}
  locks : QueueLocker := {}
  cache : Map String Nat := ∅
  clients : Map Nat Client := ∅
  tasks : Map Nat Task := ∅
  nextTask : Nat := 0
  uploads : List Upload := []
  sent : List (Nat × Response) := []
deriving DecidableEq

/-- `deliverySeq` of `push` -/
def deliverySeq (seq : Nat) : String :=
  (if seq < 0x100 then "0" else "") ++ (if seq < 0x10 then "0" else "") ++
    String.ofList (Nat.toDigits 16 seq)

/-- The document of `push`; a delivery that is scheduled has `_deferred` from the start. -/
def Recipient.document (recipient : Recipient) (id : String) : Delivery :=
  { _id := recipient._id
    id := id
    seq := deliverySeq recipient.index
    domain := recipient.domain
    sendingZone := recipient.sendingZone
    recipient := recipient.recipient
    locked := false
    lockTime := 0
    assigned := "no"
    queued := recipient.queued
    created := recipient.created
    _deferred :=
      if recipient.created < recipient.queued then
        some {
          first := some recipient.created
          last := recipient.created
          next := recipient.queued
          count := 0 }
      else none }

/-- How a call ends: it succeeds, it fails, or it takes effect but its answer is lost. -/
inductive Outcome where
  | ok
  | failed
  | lost
deriving Repr, DecidableEq

/-- What can happen next. -/
inductive Event where
  /-- time passes -/
  | tick (now : Nat)
  /-- a client connects -/
  | connect (client : Nat)
  /-- HELLO -/
  | hello (client : Nat) (id : String) (zone : Option String)
  /-- 'close' or 'error' -/
  | close (client : Nat)
  /-- GET -/
  | get (client : Nat)
  /-- RELEASE, or DEFER with a `ttl` -/
  | request (client : Nat) (id seq _lock : String) (ttl : Option Nat)
  /-- a call takes effect -/
  | exec (task : Nat) (choice : Nat) (outcome : Outcome)
  /-- a callback runs -/
  | resume (task : Nat)
  /-- the timer of the locker -/
  | checkExpired
  /-- the sweep of the cache -/
  | cacheExpired
  /-- `MailQueue.remove` -/
  | remove (id : String) (seq : Option String) (random : String)
  /-- `MailQueue.clearGarbage` -/
  | clearGarbage
  /-- `openUploadStream` -/
  | openUpload (id : String) (unique : Nat)
  /-- a chunk of an upload is stored -/
  | writeChunk (fileId chunkId : ObjectId)
  /-- an upload finishes -/
  | finishUpload (fileId : ObjectId)
  /-- `setMeta` -/
  | setMeta (id data : String)
  /-- the `insertMany` of `push`: of all documents, or of some where it fails -/
  | push (id : String) (recipients : List Recipient)
deriving Repr, DecidableEq

namespace Master

/-- The time in seconds. -/
def seconds (s : Master) : Nat := s.now / 1000

/-- A new task. -/
def start (s : Master) (task : Task) : Master :=
  { s with tasks := s.tasks.insert s.nextTask task, nextTask := s.nextTask + 1 }

/-- `client.send`, unless the connection is closed. -/
def send (s : Master) (client : Nat) (response : Response) : Master :=
  { s with
    sent :=
      if (s.clients.lookup client).any (·.connected) then s.sent ++ [(client, response)]
      else s.sent }

/-- Does what a callback of the task does. -/
def perform (s : Master) (task : Nat) (effect : Effect) : Master :=
  { s with
    locks := effect.ops.foldl (QueueLocker.apply s.now) s.locks
    cache :=
      match effect.emptyZone with
      | some zone => s.cache.insert zone (s.now + 5 * 1000)
      | none => s.cache
    tasks :=
      match effect.next with
      | some next => s.tasks.insert task next
      | none => s.tasks.erase task
    sent :=
      match effect.send with
      | some (client, response) => (s.send client response).sent
      | none => s.sent }

/-- The connection ends: the locks of the client are released. -/
def disconnect (s : Master) (c : Nat) (client : Client) : Master :=
  { s with
    locks := if client.id = "" then s.locks else s.locks.releaseLockOwner client.id
    clients := s.clients.insert c { client with connected := false } }

/-- HELLO; an unknown zone closes the connection. The ids of the senders are random and
    hexadecimal: none has the form of the id of a `remove`. -/
def hello (cfg : Config) (s : Master) (c : Nat) (client : Client) (id : String)
    (zone : Option String) : Option Master :=
  if "delete:".toList.isPrefixOf id.toList then none
  else
    match zone with
    | none => some { s with clients := s.clients.insert c { client with id := id } }
    | some name =>
      match cfg.sendingZone name with
      | none => some ((s.send c .error).disconnect c { client with id := id, zone := "" })
      | some zone =>
        some { s with clients := s.clients.insert c { client with id := id, zone := zone } }

/-- GET -/
def get (cfg : Config) (s : Master) (c : Nat) (client : Client) : Master :=
  if client.zone = "" then s.send c .error
  else
    let get (skipDomains : List String) : Get :=
      { client := c
        lockOwner := client.id
        zone := client.zone
        query := cfg.query client.zone s.now skipDomains }
    if (s.cache.lookup client.zone).any (s.now ≤ ·) then
      s.start ⟨.notFound (get []), .immediate⟩
    else
      let (skipDomains, locks) := s.locks.listSkipDomains client.zone
      { s with locks := locks }.start ⟨.tryNext (get skipDomains), .immediate⟩

/-- RELEASE or DEFER -/
def request (s : Master) (c : Nat) (client : Client) (id seq _lock : String)
    (ttl : Option Nat) : Master :=
  if client.zone = "" then s.send c .error
  else
    let request : Request :=
      { client := c
        lockOwner := client.id
        id := id
        seq := seq
        _lock := _lock
        ttl := ttl }
    s.start ⟨.getDelivery request, .call (.findDelivery id seq)⟩

/-- The call of a task takes effect. -/
def exec (s : Master) (n : Nat) (task : Task) (call : Call) (choice : Nat) (outcome : Outcome) :
    Master :=
  let (db, reply) := s.db.exec choice call
  match outcome with
  | .ok => { s with db := db, tasks := s.tasks.insert n { task with wait := .reply reply } }
  | .failed => { s with tasks := s.tasks.insert n { task with wait := .reply .error } }
  | .lost => { s with db := db, tasks := s.tasks.insert n { task with wait := .reply .error } }

/-- What the callback that a task waits for does. -/
def effect (cfg : Config) (s : Master) (task : Task) : Option Effect :=
  match task.wait with
  | .immediate => immediate s.now task.job
  | .reply reply => callback cfg s.now s.locks task.job reply
  | .call _ => none

/-- The ids that `push` makes are new, and not later than the present. -/
def canPush (s : Master) (recipients : List Recipient) : Bool :=
  decide (recipients.map (·._id)).Nodup &&
    recipients.all fun recipient =>
      recipient._id.unique != 0 && decide (recipient._id.time ≤ s.seconds) &&
        s.db.queue.all (·._id != recipient._id)

/-- What a client does; nothing comes from a client that is gone. -/
def withClient (s : Master) (c : Nat) (f : Client → Option Master) : Option Master :=
  (s.clients.lookup c).bind fun client => if client.connected then f client else none

/-- The state after an event, `none` where it cannot happen. -/
def step (cfg : Config) (s : Master) : Event → Option Master
  | .tick now => if s.now ≤ now then some { s with now := now } else none
  | .connect c =>
    if (s.clients.lookup c).isNone then some { s with clients := s.clients.insert c {} }
    else none
  | .hello c id zone => s.withClient c fun client => s.hello cfg c client id zone
  | .close c => s.withClient c fun client => some (s.disconnect c client)
  | .get c => s.withClient c fun client => some (s.get cfg c client)
  | .request c id seq _lock ttl =>
    s.withClient c fun client => some (s.request c client id seq _lock ttl)
  | .exec n choice outcome =>
    (s.tasks.lookup n).bind fun task =>
      match task.wait with
      | .call call => some (s.exec n task call choice outcome)
      | _ => none
  | .resume n =>
    (s.tasks.lookup n).bind fun task => (s.effect cfg task).map (s.perform n)
  | .checkExpired =>
    if s.locks.lockCheckTimer.any (· ≤ s.now) then
      some { s with locks := s.locks.checkExpired s.now }
    else none
  | .cacheExpired =>
    let expired := s.cache.keys.filter fun zone => (s.cache.lookup zone).any (· ≤ s.now)
    some { s with cache := expired.foldl (fun cache zone => cache.erase zone) s.cache }
  | .remove id seq random =>
    some (s.start ⟨.removeFound (deleteId random), .call (.findDeliveries id seq)⟩)
  | .clearGarbage => some (s.start (clearGarbage cfg s.now))
  | .openUpload id unique =>
    let fileId : ObjectId := ⟨s.seconds, unique⟩
    if unique ≠ 0 ∧ s.uploads.all (·.fileId != fileId) then
      some { s with uploads := s.uploads ++ [⟨id, fileId, false⟩] }
    else none
  | .writeChunk fileId chunkId =>
    if s.uploads.any (fun upload => upload.fileId == fileId && !upload.finished) ∧
        chunkId.unique ≠ 0 ∧ fileId.time ≤ chunkId.time ∧ chunkId.time ≤ s.seconds then
      some { s with db := { s.db with chunks := s.db.chunks ++ [⟨chunkId, fileId⟩] } }
    else none
  | .finishUpload fileId =>
    (s.uploads.find? fun upload => upload.fileId == fileId && !upload.finished).map fun upload =>
      let files := s.db.files ++ [⟨fileId, filename upload.id, none⟩]
      let uploads := updateOne (·.fileId == fileId)
        (fun upload => { upload with finished := true }) s.uploads
      { s with db := { s.db with files := files }, uploads := uploads }
  | .setMeta id data =>
    let files := updateOne (·.filename == filename id)
      (fun file => { file with data := some data }) s.db.files
    some { s with db := { s.db with files := files } }
  | .push id recipients =>
    if s.canPush recipients then
      some { s with db := { s.db with
        queue := s.db.queue ++ recipients.map (·.document id) } }
    else none

end Master

end ZoneMta
