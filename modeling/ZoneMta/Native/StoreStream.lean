import ZoneMta.Native.MailDrop

/-!
# StoreStream

`store` of `lib/mail-queue.js` and of `lib/remote-queue.js`: the stream of a message is piped to an
upload of the GridFS bucket. The two are the same up to the check for a shutdown and the id that a
`MailQueue` makes up; a `RemoteQueue` leaves `removeMessage` to the master, which has the same
database.
-/

namespace ZoneMta

open MailDrop (Error shutdown)

namespace StoreStream

/-- The upload: its last event is `finish` or `error`. -/
inductive Upload where
  | running
  | finished
  | failed
deriving Repr, DecidableEq

/-- The call that `removeMessage` waits for; `err` is for the callback of `store`. -/
inductive Removal where
  | findOne (err : Error)
  | delete (fileId : ObjectId) (err : Error)
deriving Repr, DecidableEq

/-- What `callback` gets. -/
inductive Result where
  | stored (id : String)
  | failed (err : Error)
deriving Repr, DecidableEq

end StoreStream

/-- A call of `store`. There is no upload when the server shuts down. -/
structure StoreStream where
  db : Database
  id : String
  fileId : ObjectId
  upload : Option StoreStream.Upload
  ended : Bool := false
  sourceFailed : Bool := false
  returned : Bool := false
  /-- the listener of `store.once('finish')`, for the error of the stream -/
  onceFinish : Option MailDrop.Error := none
  removal : Option StoreStream.Removal := none
  callbacks : List StoreStream.Result := []
deriving Repr, DecidableEq

/-- A queue with a `store`. -/
inductive StoreQueue where
  /-- `MailQueue`; `next` is what `seqIndex.get` returns -/
  | mailQueue (closing : Bool) (next : String)
  | remoteQueue
deriving Repr, DecidableEq

/-- `store`; the upload gets the id `fileId`. -/
def StoreQueue.store (queue : StoreQueue) (db : Database) (id : String) (fileId : ObjectId) :
    StoreStream :=
  match queue with
  | .mailQueue closing next =>
    if closing then
      { db := db, id := id, fileId := fileId, upload := none, callbacks := [.failed shutdown] }
    else
      { db := db, id := if id = "" then next else id, fileId := fileId, upload := some .running }
  | .remoteQueue => { db := db, id := id, fileId := fileId, upload := some .running }

namespace StoreStream

/-- What can happen next. -/
inductive Event where
  /-- 'end' of the stream; the pipe ends the upload -/
  | sourceEnd
  /-- 'error' of the stream -/
  | sourceError (err : Error)
  /-- the upload has inserted a chunk -/
  | chunk (_id : ObjectId)
  /-- 'finish' of the upload, whose file is stored -/
  | finish
  /-- 'error' of the upload -/
  | uploadError (err : Error)
  /-- the call of `removeMessage` is done -/
  | exec (choice : Nat) (outcome : Outcome)
deriving Repr, DecidableEq

/-- `callback` -/
def callback (s : StoreStream) (result : Result) : StoreStream :=
  { s with callbacks := s.callbacks ++ [result] }

/-- `stream.once('error')` -/
def onSourceError (s : StoreStream) (err : Error) : StoreStream :=
  if s.returned then s
  else { s with returned := true, onceFinish := some err, ended := true }

/-- `store.once('error')` -/
def onUploadError (s : StoreStream) (err : Error) : StoreStream :=
  if s.returned then s else { s with returned := true }.callback (.failed err)

/-- `store.on('finish')` -/
def onFinish (s : StoreStream) : StoreStream :=
  if s.returned then s else { s with returned := true }.callback (.stored s.id)

/-- The listener for `finish` that an error of the stream has added. -/
def removeMessage (s : StoreStream) : StoreStream :=
  match s.onceFinish with
  | none => s
  | some err => { s with onceFinish := none, removal := some (.findOne err) }

/-- The callback of `removeMessage`. -/
def removed (s : StoreStream) (err : Error) : StoreStream :=
  { s with removal := none }.callback (.failed err)

/-- A call of `removeMessage`, and its callback. -/
def exec (s : StoreStream) (choice : Nat) (outcome : Outcome) : Option StoreStream :=
  match s.removal with
  | none => none
  | some (.findOne err) =>
    match outcome, (s.db.exec choice (.findFile s.id)).2 with
    | .ok, .file (some file) => some { s with removal := some (.delete file._id err) }
    -- an error, or no file
    | _, _ => some (s.removed err)
  | some (.delete fileId err) =>
    if outcome = .failed then some (s.removed err)
    else some ({ s with db := (s.db.exec choice (.deleteFile fileId)).1 }.removed err)

/-- The state after an event, `none` where it cannot happen. -/
def step (s : StoreStream) : Event → Option StoreStream
  | .sourceEnd => if s.upload.isSome then some { s with ended := true } else none
  | .sourceError err =>
    if s.upload.isSome && !s.sourceFailed then
      some ({ s with sourceFailed := true }.onSourceError err)
    else none
  | .chunk _id =>
    if s.upload = some .running then
      some { s with db := { s.db with chunks := s.db.chunks ++ [⟨_id, s.fileId⟩] } }
    else none
  | .finish =>
    let files := s.db.files ++ [⟨s.fileId, filename s.id, none⟩]
    if s.upload = some .running && s.ended then
      -- the listeners are called in the order in which they were added
      some { s with upload := some .finished, db := { s.db with files := files }
        }.onFinish.removeMessage
    else none
  | .uploadError err =>
    if s.upload = some .running then
      some ({ s with upload := some .failed }.onUploadError err)
    else none
  | .exec choice outcome => s.exec choice outcome

end StoreStream

end ZoneMta
