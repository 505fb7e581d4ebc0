import ZoneMta.Native.GoQueue

/-!
# Go queue manager

`Manager.Store` of `zone-mta-go/internal/queue/manager.go` with everything that can fail in it.
The errors of the calls of the database and of GridFS are given; a call that reports an error has
had no effect. What `Delete` does to the chunks of an upload that is still open is left out.
-/

namespace ZoneMta

namespace GoManager

open GoQueue (MessageStatus)

/-- `QueuedMessage`: the fields that `Store` reads or sets, and the others. The zero time and the
    empty status are `none`. -/
structure Message (α : Type) where
  messageID : String
  created : Option Nat
  status : Option MessageStatus
  zone : String
  nextAttempt : Option Nat
  messageSize : Nat
  fields : α
deriving Repr, DecidableEq

/-- The collection of the queue, and the files of GridFS. -/
structure Db (α : Type) where
  coll : List (Message α)
  files : List (String × List UInt8)
deriving Repr, DecidableEq

/-- A reader: what its calls return before the last one, and the error of that, `none` for
    `io.EOF`. -/
structure Reader where
  chunks : List (List UInt8)
  err : Option String
deriving Repr, DecidableEq

/-- The errors of the calls of the driver; `write` is by number, and `duplicateKey` the error of an
    `InsertOne` for an id that is taken. -/
structure Calls where
  openUpload : Option String := none
  write : Nat → Option String := fun _ => none
  insert : Option String := none
  duplicateKey : String := "duplicate key error"
  delete : Option String := none
  close : Option String := none

/-- What a call of `Store` leaves: the database, the message, and the error. -/
structure Stored (α : Type) where
  db : Db α
  msg : Message α
  err : Option String
deriving Repr, DecidableEq

variable {α : Type}

namespace Db

/-- The index of the collection is unique. -/
def hasMessage (db : Db α) (messageID : String) : Bool := db.coll.any (·.messageID == messageID)

/-- The files have different ids. -/
def hasFile (db : Db α) (messageID : String) : Bool := db.files.any (·.1 == messageID)

/-- `InsertOne` -/
def insertOne (db : Db α) (calls : Calls) (msg : Message α) : Except String (Db α) :=
  match calls.insert with
  | some err => .error err
  | none =>
    if db.hasMessage msg.messageID then .error calls.duplicateKey
    else .ok { db with coll := db.coll ++ [msg] }

/-- `Bucket.Delete` -/
def delete (db : Db α) (calls : Calls) (messageID : String) : Db α :=
  match calls.delete with
  | some _ => db
  | none => { db with files := db.files.filter (·.1 ≠ messageID) }

/-- `UploadStream.Close`: the file has what was written. -/
def close (db : Db α) (calls : Calls) (messageID : String) (written : List UInt8) : Db α :=
  match calls.close with
  | some _ => db
  | none =>
    if db.hasFile messageID then db
    else { db with files := db.files ++ [(messageID, written)] }

end Db

/-- The loop of `io.Copy`: what is written after a number of writes, and the error. -/
def ioCopy (calls : Calls) (readErr : Option String) (writes : Nat) (written : List UInt8) :
    List (List UInt8) → List UInt8 × Option String
  | [] => (written, readErr)
  | chunk :: chunks =>
    match calls.write writes with
    | some err => (written, some err)
    | none => ioCopy calls readErr (writes + 1) (written ++ chunk) chunks

/-- The values that `Store` takes from elsewhere: the configuration, a new id, and the clock. -/
structure Defaults where
  zone : String
  newObjectID : String
  created : Nat
  nextAttempt : Nat
deriving Repr, DecidableEq

/-- What `Store` sets where the message has nothing. -/
def Message.setDefaults (defaults : Defaults) (msg : Message α) : Message α :=
  { msg with
    messageID := if msg.messageID = "" then defaults.newObjectID else msg.messageID
    created := some (msg.created.getD defaults.created)
    status := some (msg.status.getD .queued)
    zone := if msg.zone = "" then defaults.zone else msg.zone
    nextAttempt := some (msg.nextAttempt.getD defaults.nextAttempt) }

/-- `Store`. The upload is closed on every return after it is opened, and the error of that is
    dropped. -/
def store (defaults : Defaults) (calls : Calls) (db : Db α) (msg : Message α) (content : Reader) :
    Stored α :=
  let msg := msg.setDefaults defaults
  match calls.openUpload with
  | some err => ⟨db, msg, some ("failed to create GridFS upload stream: " ++ err)⟩
  | none =>
    match ioCopy calls content.err 0 [] content.chunks with
    | (written, some err) =>
      ⟨db.close calls msg.messageID written, msg, some ("failed to store message content: " ++ err)⟩
    | (written, none) =>
      let msg := { msg with messageSize := written.length }
      match db.insertOne calls msg with
      | .error err =>
        ⟨(db.delete calls msg.messageID).close calls msg.messageID written, msg,
          some ("failed to store message metadata: " ++ err)⟩
      | .ok db => ⟨db.close calls msg.messageID written, msg, none⟩

end GoManager

end ZoneMta
