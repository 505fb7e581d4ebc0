import ZoneMta.Spec.GoManagerCorrect
import ZoneMta.Spec.GoWorkersCorrect

/-!
# A call of `Store` as events

`Store` as one function does what its calls do one by one: whatever the results of the calls are,
there are events of the queue with workers that lead to the same documents and files.

## Key results

- `exists_run_ioCopy`: the writes of `io.Copy`
- `exists_run_store`: a whole call
-/

namespace ZoneMta

namespace GoManager

open ForStd (run run_concat run_cons_eq_some)
open GoWorkers (System StoreCall)
open GoQueue (QueuedMessage)

/-- The queue has documents with the ids of those of the database, and its files. -/
structure Matches (db : Db (List String)) (s : System) : Prop where
  coll : s.coll.map (·.messageID) = db.coll.map (·.messageID)
  files : s.files = db.files

theorem setStore_setStore (s : System) (k : Nat) (call call' : StoreCall) :
    (s.setStore k call).setStore k call' = s.setStore k call' := by
  simp only [System.setStore, AList.insert_insert]

/-- A step of a call of `Store` that was just set. -/
theorem withStore_setStore (s : System) (k : Nat) (call : StoreCall)
    (f : StoreCall → Option System) : (s.setStore k call).withStore k f = f call := by
  rw [System.withStore, System.lookup_setStore, if_pos rfl]
  rfl

/-- The writes before `io.Copy` returns. -/
theorem exists_run_ioCopy (calls : Calls) (readErr : Option String) (s : System) (k : Nat)
    (message : QueuedMessage) {content : List UInt8} (chunks : List (List UInt8)) (writes : Nat)
    (written : List UInt8) (hstart : written ++ chunks.flatten <+: content) :
    ∃ es, run System.step (s.setStore k ⟨message, content, written, .copy⟩) es =
      some (s.setStore k
        ⟨message, content, (ioCopy calls readErr writes written chunks).1, .copy⟩) := by
  induction chunks generalizing writes written with
  | nil => exact ⟨[], rfl⟩
  | cons chunk chunks ih =>
    rw [ioCopy]
    cases calls.write writes with
    | some err => exact ⟨[], rfl⟩
    | none =>
      rw [List.flatten_cons, ← List.append_assoc] at hstart
      obtain ⟨es, hes⟩ := ih (writes + 1) (written ++ chunk) hstart
      have htake : content.take (written.length + chunk.length) = written ++ chunk := by
        rw [← List.length_append]
        exact (List.prefix_iff_eq_take.mp ((List.prefix_append _ _).trans hstart)).symm
      refine ⟨.write k chunk.length :: es, ?_⟩
      rw [run, System.step, withStore_setStore]
      simp only [setStore_setStore, htake, Option.bind_some]
      exact hes

/-- `Close` after the rest of a call, without a file yet. -/
theorem exists_run_close {s t : System} {es : List GoWorkers.Event} {k : Nat} {message : QueuedMessage}
    {content written : List UInt8} {err : Bool} {db : Db (List String)} (calls : Calls)
    (hrun : run System.step s es = some (t.setStore k ⟨message, content, written, .close err⟩))
    (hmatches : Matches db t) (hnew : db.hasFile message.messageID = false) :
    ∃ es s', run System.step s es = some s' ∧
      Matches (db.close calls message.messageID written) s' := by
  have hclose : System.step (t.setStore k ⟨message, content, written, .close err⟩)
      (.close k calls.close.isNone) =
        some { t.setStore k ⟨message, content, written, .returned err⟩ with
          files := if calls.close.isNone then t.files ++ [(message.messageID, written)]
            else t.files } := by
    rw [System.step, withStore_setStore]
    simp only [setStore_setStore]
    rfl
  refine ⟨es ++ [.close k calls.close.isNone], _, run_concat.mpr ⟨_, hrun, hclose⟩, ?_⟩
  rw [Db.close]
  cases calls.close with
  | some err => exact ⟨hmatches.coll, hmatches.files⟩
  | none =>
    rw [hnew]
    refine ⟨hmatches.coll, ?_⟩
    show t.files ++ _ = db.files ++ _
    rw [hmatches.files]

/-- Nothing is deleted for a new message. -/
theorem files_delete {db : Db (List String)} {messageID : String} (calls : Calls)
    (hnew : db.hasFile messageID = false) :
    db.files.filter (·.1 ≠ messageID) = db.files ∧ db.delete calls messageID = db := by
  have hfilter : db.files.filter (·.1 ≠ messageID) = db.files := by
    rw [List.filter_eq_self]
    intro f hf
    rw [Db.hasFile, List.any_eq_false] at hnew
    simpa using hnew f hf
  refine ⟨hfilter, ?_⟩
  rw [Db.delete, hfilter]
  cases calls.delete <;> rfl

/-- A call of `Store` for a new message leads to the documents and files of a run. -/
theorem exists_run_store (defaults : Defaults) (calls : Calls) {db : Db (List String)}
    (msg : Message (List String)) (content : Reader) {s : System} (hmatches : Matches db s)
    (hnew : db.Absent (msg.setDefaults defaults).messageID)
    (hcalls : ∀ x ∈ s.stores.entries, x.2.message.messageID ≠
      (msg.setDefaults defaults).messageID) :
    ∃ es s', run System.step s es = some s' ∧
      Matches (store defaults calls db msg content).db s' := by
  have hgoes := goes_store defaults calls db msg content
  generalize store defaults calls db msg content = r at hgoes ⊢
  -- the upload is opened, and what is read is written
  let message := GoWorkers.newMessage (msg.setDefaults defaults).messageID
    (msg.setDefaults defaults).zone msg.fields ((msg.setDefaults defaults).nextAttempt.getD s.now)
  let t := { s with nextStore := s.nextStore + 1 }
  have ht : Matches db t := ⟨hmatches.coll, hmatches.files⟩
  have hopened : System.step s (.openUpload (msg.setDefaults defaults).messageID
      (msg.setDefaults defaults).zone msg.fields (msg.setDefaults defaults).nextAttempt
        content.chunks.flatten) =
      some (t.setStore s.nextStore ⟨message, content.chunks.flatten, [], .copy⟩) := by
    rw [System.step, if_pos]
    · rfl
    · rw [List.all_eq_true]
      exact fun x hx => bne_iff_ne.mpr (hcalls x hx)
  obtain ⟨es, hes⟩ := exists_run_ioCopy calls content.err t s.nextStore message content.chunks 0 []
    (List.prefix_refl content.chunks.flatten)
  have hcopied := run_cons_eq_some.mpr ⟨_, hopened, hes⟩
  cases hgoes with
  | openFails hopen => exact ⟨[], s, rfl, hmatches⟩
  | @copyFails err written hopen hwritten hfails =>
    rw [hwritten] at hcopied
    have hclosing : System.step
        (t.setStore s.nextStore ⟨message, content.chunks.flatten, written, .copy⟩)
        (.copyFails s.nextStore) =
          some (t.setStore s.nextStore ⟨message, content.chunks.flatten, written, .close true⟩) := by
      rw [System.step, withStore_setStore]
      simp only [setStore_setStore]
    exact exists_run_close calls (run_concat.mpr ⟨_, hcopied, hclosing⟩) ht hnew.2
  | @insertFails err m hopen hcopies hid hfails =>
    rw [written_of_copies hcopies] at hcopied
    obtain ⟨hfilter, hdelete⟩ := files_delete calls hnew.2
    have hclosing : System.step
        (t.setStore s.nextStore ⟨message, content.chunks.flatten, content.chunks.flatten, .copy⟩)
        (.insert s.nextStore false) =
          some (System.setStore { t with files := t.files.filter (·.1 ≠ message.messageID) }
            s.nextStore ⟨message, content.chunks.flatten, content.chunks.flatten, .close true⟩) := by
      rw [System.step, withStore_setStore, if_pos ⟨rfl, rfl⟩, if_neg Bool.false_ne_true,
        setStore_setStore]
      rfl
    rw [← hid, hdelete]
    refine exists_run_close calls (run_concat.mpr ⟨_, hcopied, hclosing⟩) ⟨ht.coll, ?_⟩ hnew.2
    show t.files.filter _ = db.files
    rw [ht.files]
    exact hfilter
  | @inserts m hopen hcopies hid hinserts =>
    rw [written_of_copies hcopies] at hcopied
    have hclosing : System.step
        (t.setStore s.nextStore ⟨message, content.chunks.flatten, content.chunks.flatten, .copy⟩)
        (.insert s.nextStore true) =
          some (System.setStore { t with coll := t.coll ++ [message] }
            s.nextStore ⟨message, content.chunks.flatten, content.chunks.flatten, .close false⟩) := by
      rw [System.step, withStore_setStore, if_pos ⟨rfl, rfl⟩, if_pos rfl, setStore_setStore]
      rfl
    rw [← hid]
    refine exists_run_close calls (run_concat.mpr ⟨_, hcopied, hclosing⟩) ⟨?_, ht.files⟩ hnew.2
    show (t.coll ++ [message]).map _ = (db.coll ++ [m]).map _
    rw [List.map_append, List.map_append, ht.coll, List.map_singleton, List.map_singleton, ← hid]
    rfl

end GoManager

end ZoneMta
