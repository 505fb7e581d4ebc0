import ZoneMta.Native.GoManager

/-!
# All or nothing

When `Store` returns an error, its deferred `Close` still creates the file with what has been
written, after the file was deleted. When it returns nil, an error of that `Close` has been
dropped. So the queue has the whole message or nothing of it only if the `Close` fails or succeeds
with the rest.

## Key results

- `goes_store`: the ways a call of `Store` goes
- `allOrNothing_iff`: the results of the calls after which there is all or nothing
- `settles_iff_of_new`: what these are for a message whose id is new
-/

namespace ZoneMta

namespace GoManager

variable {α : Type}

/-- There is neither a document nor a file. -/
def Db.Absent (db : Db α) (messageID : String) : Prop :=
  db.hasMessage messageID = false ∧ db.hasFile messageID = false

/-- An error leaves nothing of the message, and without one there is the document and the file with
    the whole content. -/
def Stored.AllOrNothing (r : Stored α) (content : Reader) : Prop :=
  match r.err with
  | some _ => r.db.Absent r.msg.messageID
  | none => r.msg ∈ r.db.coll ∧ r.db.files.lookup r.msg.messageID = some content.chunks.flatten

/-- Neither the reader nor a write fails. -/
def Copies (calls : Calls) (content : Reader) : Prop :=
  content.err = none ∧ ∀ k < content.chunks.length, calls.write k = none

/-- The document can be inserted. -/
def Inserts (calls : Calls) (db : Db α) (messageID : String) : Prop :=
  calls.insert = none ∧ db.hasMessage messageID = false

/-- Before an error of `OpenUploadStreamWithID` there is nothing of the message; after another error
    the upload cannot be closed, and what was there is deleted; without one it can be closed, unless
    the file is there. -/
def Settles (calls : Calls) (db : Db α) (messageID : String) (content : Reader) : Prop :=
  (calls.openUpload ≠ none → db.Absent messageID) ∧
    (calls.openUpload = none →
      (¬Copies calls content → db.Absent messageID ∧ calls.close ≠ none) ∧
      (Copies calls content →
        (¬Inserts calls db messageID → db.hasMessage messageID = false ∧
          (db.hasFile messageID = true → calls.delete = none) ∧ calls.close ≠ none) ∧
        (Inserts calls db messageID → (db.hasFile messageID = false ∧ calls.close = none) ∨
          db.files.lookup messageID = some content.chunks.flatten)))

/-! ## Copying -/

/-- Everything is copied, unless the reader or a write fails. -/
theorem ioCopy_eq (calls : Calls) (readErr : Option String) (chunks : List (List UInt8))
    (writes : Nat) (written : List UInt8) :
    ((ioCopy calls readErr writes written chunks).2 = none ↔
        readErr = none ∧ ∀ k < chunks.length, calls.write (writes + k) = none) ∧
      ((ioCopy calls readErr writes written chunks).2 = none →
        (ioCopy calls readErr writes written chunks).1 = written ++ chunks.flatten) := by
  induction chunks generalizing writes written with
  | nil => simp [ioCopy]
  | cons chunk chunks ih =>
    have hall : (∀ k < (chunk :: chunks).length, calls.write (writes + k) = none) ↔
        calls.write writes = none ∧
          ∀ k < chunks.length, calls.write (writes + 1 + k) = none := by
      constructor
      · intro h
        refine ⟨h 0 (Nat.succ_pos _), fun k hk => ?_⟩
        rw [Nat.add_assoc, Nat.add_comm 1 k]
        exact h (k + 1) (Nat.succ_lt_succ hk)
      · rintro ⟨hzero, hsucc⟩ k hk
        cases k with
        | zero => exact hzero
        | succ k =>
          rw [Nat.add_comm k 1, ← Nat.add_assoc]
          exact hsucc k (Nat.lt_of_succ_lt_succ hk)
    rw [hall, ioCopy]
    cases hwrite : calls.write writes with
    | some err => simp
    | none =>
      obtain ⟨hnone, hwritten⟩ := ih (writes + 1) (written ++ chunk)
      refine ⟨by simpa using hnone, fun h => ?_⟩
      rw [hwritten h, List.flatten_cons, List.append_assoc]

theorem copies_iff (calls : Calls) (content : Reader) :
    (ioCopy calls content.err 0 [] content.chunks).2 = none ↔ Copies calls content := by
  have hcopied := (ioCopy_eq calls content.err content.chunks 0 []).1
  simpa [Copies] using hcopied

theorem written_of_copies {calls : Calls} {content : Reader} (h : Copies calls content) :
    (ioCopy calls content.err 0 [] content.chunks).1 = content.chunks.flatten :=
  (ioCopy_eq calls content.err content.chunks 0 []).2 ((copies_iff calls content).mpr h)

/-! ## Database -/

@[simp] theorem hasMessage_delete (db : Db α) (calls : Calls) (id messageID : String) :
    (db.delete calls id).hasMessage messageID = db.hasMessage messageID := by
  rw [Db.delete]
  cases calls.delete <;> rfl

@[simp] theorem coll_close (db : Db α) (calls : Calls) (id : String) (written : List UInt8) :
    (db.close calls id written).coll = db.coll := by
  rw [Db.close]
  cases calls.close with
  | some err => rfl
  | none => cases hfile : db.hasFile id <;> rfl

@[simp] theorem hasMessage_close (db : Db α) (calls : Calls) (id messageID : String)
    (written : List UInt8) :
    (db.close calls id written).hasMessage messageID = db.hasMessage messageID := by
  rw [Db.hasMessage, coll_close]
  rfl

/-- A file is gone once it is deleted. -/
theorem hasFile_delete (db : Db α) (calls : Calls) (messageID : String) :
    (db.delete calls messageID).hasFile messageID = false ↔
      (db.hasFile messageID = true → calls.delete = none) := by
  rw [Db.delete]
  cases calls.delete with
  | some err => simp
  | none => simp [Db.hasFile]

/-- After a `Close` that succeeds there is a file. -/
theorem hasFile_close (db : Db α) (calls : Calls) (messageID : String) (written : List UInt8) :
    (db.close calls messageID written).hasFile messageID = false ↔
      db.hasFile messageID = false ∧ calls.close ≠ none := by
  rw [Db.close]
  cases calls.close with
  | some err => simp
  | none =>
    cases hfile : db.hasFile messageID with
    | true => simp [hfile]
    | false => simp [Db.hasFile]

theorem lookup_of_hasFile {db : Db α} {messageID : String} (h : db.hasFile messageID = false) :
    db.files.lookup messageID = none := by
  rw [Db.hasFile, List.any_eq_false] at h
  rw [List.lookup_eq_none_iff]
  intro f hf
  have hne := h f hf
  rw [beq_iff_eq] at hne
  exact bne_iff_ne.mpr (Ne.symm hne)

/-- The file has what was written, unless there was one before. -/
theorem lookup_close (db : Db α) (calls : Calls) (messageID : String) (written : List UInt8) :
    (db.close calls messageID written).files.lookup messageID = some written ↔
      (db.hasFile messageID = false ∧ calls.close = none) ∨
        db.files.lookup messageID = some written := by
  rw [Db.close]
  cases calls.close with
  | some err => simp
  | none =>
    cases hfile : db.hasFile messageID with
    | true => simp
    | false => simp [List.lookup_append, lookup_of_hasFile hfile]

/-- A document is inserted if its id is not taken. -/
theorem insertOne_cases (db : Db α) (calls : Calls) (msg : Message α) :
    (Inserts calls db msg.messageID ∧
        db.insertOne calls msg = .ok { db with coll := db.coll ++ [msg] }) ∨
      (¬Inserts calls db msg.messageID ∧ ∃ err, db.insertOne calls msg = .error err) := by
  rw [Db.insertOne]
  cases hinsert : calls.insert with
  | some err => exact Or.inr ⟨fun h => by simp [h.1] at hinsert, err, rfl⟩
  | none =>
    cases hmessage : db.hasMessage msg.messageID with
    | true => exact Or.inr ⟨fun h => by simp [h.2] at hmessage, _, rfl⟩
    | false => exact Or.inl ⟨⟨hinsert, hmessage⟩, rfl⟩

/-! ## Store -/

@[simp] theorem allOrNothing_error (db : Db α) (msg : Message α) (err : String)
    (content : Reader) :
    Stored.AllOrNothing ⟨db, msg, some err⟩ content ↔ db.Absent msg.messageID :=
  Iff.rfl

/-- `Close` after an error: it must not succeed. -/
theorem absent_close (db : Db α) (calls : Calls) (messageID : String) (written : List UInt8) :
    (db.close calls messageID written).Absent messageID ↔
      db.Absent messageID ∧ calls.close ≠ none := by
  rw [Db.Absent, hasMessage_close, hasFile_close, ← and_assoc]
  exact Iff.rfl

/-- `Delete` and `Close` after an error of `InsertOne`. -/
theorem absent_delete_close (db : Db α) (calls : Calls) (messageID : String)
    (written : List UInt8) :
    ((db.delete calls messageID).close calls messageID written).Absent messageID ↔
      db.hasMessage messageID = false ∧ (db.hasFile messageID = true → calls.delete = none) ∧
        calls.close ≠ none := by
  rw [absent_close, Db.Absent, hasMessage_delete, hasFile_delete, and_assoc]

/-- `Close` without an error: it has to succeed. -/
theorem allOrNothing_close (db : Db α) (calls : Calls) (msg : Message α) (content : Reader) :
    Stored.AllOrNothing
        ⟨Db.close { db with coll := db.coll ++ [msg] } calls msg.messageID content.chunks.flatten,
          msg, none⟩ content ↔
      (db.hasFile msg.messageID = false ∧ calls.close = none) ∨
        db.files.lookup msg.messageID = some content.chunks.flatten := by
  show _ ∧ _ ↔ _
  rw [coll_close, lookup_close]
  exact and_iff_right (List.mem_append_right _ (List.mem_singleton.mpr rfl))

/-- How a call of `Store` goes: by the call that fails. -/
inductive Goes (defaults : Defaults) (calls : Calls) (db : Db α) (msg : Message α)
    (content : Reader) : Stored α → Prop
  | openFails {err : String} (hopen : calls.openUpload ≠ none) :
    Goes defaults calls db msg content ⟨db, msg.setDefaults defaults, some err⟩
  | copyFails {err : String} {written : List UInt8} (hopen : calls.openUpload = none)
    (hwritten : (ioCopy calls content.err 0 [] content.chunks).1 = written)
    (hfails : ¬Copies calls content) :
    Goes defaults calls db msg content
      ⟨db.close calls (msg.setDefaults defaults).messageID written, msg.setDefaults defaults,
        some err⟩
  | insertFails {err : String} {m : Message α} (hopen : calls.openUpload = none)
    (hcopies : Copies calls content) (hid : (msg.setDefaults defaults).messageID = m.messageID)
    (hfails : ¬Inserts calls db m.messageID) :
    Goes defaults calls db msg content
      ⟨(db.delete calls m.messageID).close calls m.messageID content.chunks.flatten, m, some err⟩
  | inserts {m : Message α} (hopen : calls.openUpload = none) (hcopies : Copies calls content)
    (hid : (msg.setDefaults defaults).messageID = m.messageID)
    (hinserts : Inserts calls db m.messageID) :
    Goes defaults calls db msg content
      ⟨Db.close { db with coll := db.coll ++ [m] } calls m.messageID content.chunks.flatten, m,
        none⟩

theorem goes_store (defaults : Defaults) (calls : Calls) (db : Db α) (msg : Message α)
    (content : Reader) :
    Goes defaults calls db msg content (store defaults calls db msg content) := by
  have hcopied := copies_iff calls content
  rw [store]
  cases hopen : calls.openUpload with
  | some err => exact .openFails (by simp [hopen])
  | none =>
    cases hcopy : ioCopy calls content.err 0 [] content.chunks with
    | mk written copyErr =>
      rw [hcopy] at hcopied
      cases copyErr with
      | some err => exact .copyFails hopen (by rw [hcopy]) fun h => nomatch hcopied.mpr h
      | none =>
        have hwritten := written_of_copies (hcopied.mp rfl)
        obtain rfl : written = content.chunks.flatten := by rwa [hcopy] at hwritten
        dsimp only
        generalize hm : { msg.setDefaults defaults with
          messageSize := content.chunks.flatten.length } = m
        have hid : (msg.setDefaults defaults).messageID = m.messageID := by rw [← hm]
        rw [hid]
        obtain ⟨hinserts, hok⟩ | ⟨hfails, err, herr⟩ := insertOne_cases db calls m
        · rw [hok]
          exact .inserts hopen (hcopied.mp rfl) hid hinserts
        · rw [herr]
          exact .insertFails hopen (hcopied.mp rfl) hid hfails

/-- A call of `Store` leaves all or nothing of the message if and only if the results of the calls
    allow it. -/
theorem allOrNothing_iff (defaults : Defaults) (calls : Calls) (db : Db α) (msg : Message α)
    (content : Reader) :
    (store defaults calls db msg content).AllOrNothing content ↔
      Settles calls db (msg.setDefaults defaults).messageID content := by
  have hgoes := goes_store defaults calls db msg content
  generalize store defaults calls db msg content = r at hgoes ⊢
  rw [Settles]
  cases hgoes with
  | openFails hopen => simp [hopen]
  | copyFails hopen hwritten hfails =>
    rw [allOrNothing_error, absent_close]
    simp [hopen, hfails]
  | insertFails hopen hcopies hid hfails =>
    rw [allOrNothing_error, absent_delete_close, hid]
    simp [hopen, hcopies, hfails]
  | inserts hopen hcopies hid hinserts =>
    rw [allOrNothing_close, hid]
    simp [hopen, hcopies, hinserts]

/-- For a message whose id is new, the upload has to be closed if and only if nothing fails before
    that. -/
theorem settles_iff_of_new {calls : Calls} {db : Db α} {messageID : String} (content : Reader)
    (hnew : db.Absent messageID) :
    Settles calls db messageID content ↔
      (calls.openUpload = none →
        (calls.close = none ↔ Copies calls content ∧ calls.insert = none)) := by
  have hlookup := lookup_of_hasFile hnew.2
  rw [Settles, Inserts]
  by_cases hcopies : Copies calls content
  · by_cases hinsert : calls.insert = none
    · simp [hcopies, hinsert, hnew, hnew.1, hnew.2, hlookup]
    · simp [hcopies, hinsert, hnew, hnew.1, hnew.2]
  · simp [hcopies, hnew]

/-- The reader fails after two bytes. -/
def broken : Reader where
  chunks := [[1, 2]]
  err := some "unexpected EOF"

/-- After a read error the part that was written is published. -/
theorem not_allOrNothing :
    ¬∀ (defaults : Defaults) (calls : Calls) (db : Db Unit) (msg : Message Unit)
      (content : Reader), (store defaults calls db msg content).AllOrNothing content := by
  intro h
  have hall := h ⟨"default", "id", 0, 0⟩ {} ⟨[], []⟩ ⟨"", none, none, "", none, 0, ()⟩ broken
  exact absurd hall.2 (by decide)

end GoManager

end ZoneMta
