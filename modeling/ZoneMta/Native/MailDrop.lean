import ZoneMta.Native.Push

/-!
# MailDrop

`add` of `lib/mail-drop.js` for one message, with `store`, `setMeta`, `push` and `removeMessage`
of its queue: the `MailQueue` of the master process, or the `RemoteQueue` of a receiver, which
leaves `push` and `removeMessage` to the master. The streams between the source and the upload
are the listeners for `error` on `message`, `dkimStream` and `messageHashStream`, each of which
is called once. An `error` without a listener is thrown where it is emitted.
-/

namespace ZoneMta

open ForStd (updateOne)

/-- What `add` gets: `buffered` is a source that is a string or a buffer, `data` the envelope
    as it is stored, `remote` a `RemoteQueue`. -/
structure Message where
  id : String
  envelope : Envelope
  data : String
  buffered : Bool
  remote : Bool
deriving Repr, DecidableEq

namespace MailDrop

structure Error where
  name : String
  message : String
deriving Repr, DecidableEq

/-- `/Error$/.test(err.name)` -/
def Error.isError (err : Error) : Bool := "Error".toList.isSuffixOf err.name.toList

def shutdown : Error := ⟨"Error", "Server shutdown in progress"⟩

/-- The error of a `push` as `add` gets it; over the data channel it is a string. -/
def pushError (m : Message) (err : Error) : Error :=
  if m.remote then { err with name := "undefined" } else err

/-- Who has called `removeMessage`. -/
inductive Remover where
  /-- `store`, whose stream has failed -/
  | store (err : Error)
  | add (err : Error)
deriving Repr, DecidableEq

/-- What `add` waits for. -/
inductive Phase where
  /-- the hooks of message:store -/
  | storeHooks
  /-- `store`; its stream may have failed -/
  | storing (err : Option Error)
  /-- `store`, which does not call back any more -/
  | stuck
  /-- the hooks of message:queue -/
  | queueHooks
  | settingMeta
  /-- `processRecipients` of `push`, at the hooks of queue:route -/
  | routing (recipient : String) (rest : List String) (documents : List Recipient)
  /-- the `insertMany` of `push` -/
  | inserting (documents : List Recipient)
  /-- the `findOne` of `removeMessage` -/
  | findingFile (remover : Remover)
  /-- the `gridstore.delete` of `removeMessage` -/
  | deletingFile (fileId : ObjectId) (remover : Remover)
  /-- nothing; `queued` if the message was queued -/
  | finished (queued : Bool)
deriving Repr, DecidableEq

end MailDrop

/-- An `add` and its database. The upload has the id `fileId`, and `ended` once `end` was called
    on it; the listeners are those that have not been called. `reports` are the calls of
    `callback`. -/
structure MailDrop where
  db : Database
  closing : Bool := false
  phase : MailDrop.Phase := .storeHooks
  fileId : ObjectId := ⟨0, 0⟩
  ended : Bool := false
  onSourceError : Bool := true
  onMessageError : Bool := true
  onDkimError : Bool := false
  reports : List (Option MailDrop.Error) := []
deriving Repr, DecidableEq

namespace MailDrop

/-- What can happen next. -/
inductive Event where
  /-- the server shuts down -/
  | close
  /-- an `error` of the source -/
  | sourceError (err : Error)
  /-- an `error` of a stream behind it: a message hook, or message:headers -/
  | messageError (err : Error)
  /-- message:store is done, `openUploadStream` makes an id -/
  | storeHooks (err : Option Error) (fileId : ObjectId)
  /-- 'end' of the stream of `store` -/
  | streamEnd
  /-- 'finish' of the upload, whose file is stored -/
  | finish
  /-- 'error' of the upload, whose file may be stored -/
  | uploadError (err : Error) (stored : Bool)
  /-- message:queue is done -/
  | queueHooks (err : Option Error)
  /-- the `updateOne` of `setMeta` is done -/
  | setMeta (outcome : Outcome) (err : Error)
  /-- queue:route is done; it can change the recipient and the zone -/
  | routeHooks (err : Option Error) (recipient deliveryZone : String) (date : Nat) (_id : ObjectId)
  /-- `insertMany` is done -/
  | insertMany (err : Option Error) (inserted : List Recipient)
  /-- a call of `removeMessage` is done -/
  | exec (choice : Nat) (outcome : Outcome)
deriving Repr, DecidableEq

/-- `callback` -/
def report (s : MailDrop) (err : Option Error) : MailDrop :=
  { s with reports := s.reports ++ [err], phase := .finished err.isNone }

/-- `queue.removeMessage` -/
def removeMessage (s : MailDrop) (remover : Remover) : MailDrop :=
  { s with phase := .findingFile remover }

/-- The callback of `store`. -/
def stored (s : MailDrop) : Option Error → MailDrop
  | none => { s with phase := .queueHooks }
  | some err => if err.isError then s.removeMessage (.add err) else s.report (some err)

/-- `queue.store` -/
def store (m : Message) (s : MailDrop) (fileId : ObjectId) : MailDrop :=
  if !m.remote && s.closing then s.stored (some shutdown)
  else { s with phase := .storing none, fileId := fileId }

/-- `messageHashStream.emit('error')`: `store` ends the upload, unless it has returned. -/
def emitStreamError (s : MailDrop) (err : Error) : MailDrop :=
  match s.phase with
  | .storing none => { s with phase := .storing (some err), ended := true }
  | _ => s

/-- `message.emit('error')` -/
def emitError (s : MailDrop) (err : Error) : MailDrop :=
  -- `once`: the listener is gone behind the first error
  if !s.onMessageError then s
  else if !s.onDkimError then { s with onMessageError := false }
  else { s with onMessageError := false, onDkimError := false }.emitStreamError err

/-- `queue.push` -/
def push (m : Message) (s : MailDrop) : MailDrop :=
  if s.closing then s.removeMessage (.add (pushError m shutdown))
  else
    match m.envelope.to with
    | [] => s.removeMessage (.add (pushError m ⟨"Error", "Empty recipients list"⟩))
    | recipient :: rest => { s with phase := .routing recipient rest [] }

/-- The document of `push` behind the hooks of queue:route. -/
def routed (m : Message) (index : Nat) (recipientDomain recipient deliveryZone : String)
    (date : Nat) (_id : ObjectId) : Recipient :=
  { _id := _id
    index := index
    recipient := recipient
    domain := recipientDomain
    sendingZone := deliveryZone
    queued := if m.envelope.deferDelivery > date then m.envelope.deferDelivery else date
    created := date }

/-- The callback of `removeMessage`. -/
def removed (s : MailDrop) : Remover → MailDrop
  | .store err => s.stored (some err)
  | .add err => s.report (some err)

/-- A call of `removeMessage`, and its callback. -/
def exec (m : Message) (s : MailDrop) (choice : Nat) (outcome : Outcome) : Option MailDrop :=
  match s.phase with
  | .findingFile remover =>
    match outcome, (s.db.exec choice (.findFile m.id)).2 with
    -- an error of the `findOne` counts as no file
    | .ok, .file (some file) => some { s with phase := .deletingFile file._id remover }
    | _, _ => some (s.removed remover)
  | .deletingFile fileId remover =>
    if outcome = .failed then some (s.removed remover)
    else some ({ s with db := (s.db.exec choice (.deleteFile fileId)).1 }.removed remover)
  | _ => none

/-- The files with the one that the upload has stored. -/
def storeFile (m : Message) (s : MailDrop) : MailDrop :=
  { s with db := { s.db with files := s.db.files ++ [⟨s.fileId, filename m.id, none⟩] } }

/-- The state after an event, `none` where it cannot happen. -/
def step (m : Message) (s : MailDrop) : Event → Option MailDrop
  | .close => some { s with closing := true }
  | .sourceError err =>
    let s :=
      -- the source that `add` makes from a string or a buffer reports its error
      if m.buffered && s.onSourceError then
        { s with onSourceError := false, reports := s.reports ++ [some err] }
      else s
    some (s.emitError err)
  | .messageError err => some (s.emitError err)
  | .storeHooks err fileId =>
    match s.phase, err with
    | .storeHooks, some err => some (s.report (some err))
    -- the body stream gets its listener when the hooks are done
    | .storeHooks, none => some ({ s with onDkimError := true }.store m fileId)
    | _, _ => none
  | .streamEnd =>
    match s.phase with
    | .storing _ => some { s with ended := true }
    | _ => none
  | .finish =>
    match s.phase, s.ended with
    | .storing none, true => some ((s.storeFile m).stored none)
    -- the file of a stream that has failed is removed again
    | .storing (some err), true => some ((s.storeFile m).removeMessage (.store err))
    | _, _ => none
  | .uploadError err stored =>
    let s' := if stored then s.storeFile m else s
    -- a file is stored behind `end` only
    if stored && !s.ended then none
    else
      match s.phase with
      | .storing none => some (s'.stored (some err))
      -- no listener is left that would go on
      | .storing (some _) => some { s' with phase := .stuck }
      | _ => none
  | .queueHooks err =>
    match s.phase, err with
    | .queueHooks, some err => some (s.removeMessage (.add err))
    | .queueHooks, none => some { s with phase := .settingMeta }
    | _, _ => none
  | .setMeta outcome err =>
    let files := updateOne (·.filename == filename m.id)
      (fun file => { file with data := some m.data }) s.db.files
    match s.phase, outcome with
    | .settingMeta, .ok => some ({ s with db := { s.db with files := files } }.push m)
    | .settingMeta, .failed => some (s.removeMessage (.add err))
    | .settingMeta, .lost =>
      some ({ s with db := { s.db with files := files } }.removeMessage (.add err))
    | _, _ => none
  | .routeHooks err recipient deliveryZone date _id =>
    match s.phase, err with
    | .routing .., some err => some (s.removeMessage (.add (pushError m err)))
    | .routing envelopeTo rest documents, none =>
      let domain := MailQueue.recipientDomain envelopeTo
      let document := routed m (documents.length + 1) domain recipient deliveryZone date _id
      let documents := documents ++ [document]
      match rest with
      | [] => some { s with phase := .inserting documents }
      | next :: rest => some { s with phase := .routing next rest documents }
    | _, _ => none
  | .insertMany err inserted =>
    let s' := { s with db := { s.db with
      queue := s.db.queue ++ inserted.map fun recipient : Recipient => recipient.document m.id } }
    match s.phase, err with
    | .inserting documents, none => if inserted = documents then some (s'.report none) else none
    -- with `ordered: false` the rest of the documents is inserted
    | .inserting documents, some err =>
      if inserted.Sublist documents then some (s'.removeMessage (.add (pushError m err))) else none
    | _, _ => none
  | .exec choice outcome => s.exec m choice outcome

end MailDrop

end ZoneMta
