import ZoneMta.ForStd.Transition
import ZoneMta.Native.MailDrop
import ZoneMta.Spec.DatabaseCorrect

/-!
# MailDrop correctness

An `add` that fails removes the file of its message: either `store` does, or `add` itself with
`removeMessage`. Nothing removes the deliveries of an `insertMany` that has failed in part.

## Key results

- `goes_of_step`: what an event does
- `inv_step`: what is stored in which phase, under `Covered`
- `clean_of_report`: nothing is left of a message that was not accepted
- `clean_partialInsert`: the deliveries that an `insertMany` has inserted before it fails
-/

namespace ZoneMta

open ForStd (run Along updateOne)

namespace MailDrop

variable {m : Message} {s s' : MailDrop} {err : Error}

/-! ## Steps -/

/-- The database behind `setMeta`. -/
def metaSet (m : Message) (db : Database) : Database :=
  { db with
    files := updateOne (·.filename == filename m.id) (fun file => { file with data := some m.data })
      db.files }

/-- What an event does. -/
inductive Goes (m : Message) (s : MailDrop) : Event → MailDrop → Prop
  | close : Goes m s .close { s with closing := true }
  | sourceError {err : Error} :
      Goes m s (.sourceError err)
        ((if m.buffered && s.onSourceError then
          { s with onSourceError := false, reports := s.reports ++ [some err] } else s).emitError err)
  | messageError {err : Error} : Goes m s (.messageError err) (s.emitError err)
  | storeHooksFail {err : Error} {fileId : ObjectId} (hphase : s.phase = .storeHooks) :
      Goes m s (.storeHooks (some err) fileId) (s.report (some err))
  | storeHooks {fileId : ObjectId} (hphase : s.phase = .storeHooks) :
      Goes m s (.storeHooks none fileId) ({ s with onDkimError := true }.store m fileId)
  | streamEnd {err : Option Error} (hphase : s.phase = .storing err) :
      Goes m s .streamEnd { s with ended := true }
  | finish (hphase : s.phase = .storing none) : Goes m s .finish ((s.storeFile m).stored none)
  | finishFailed {err : Error} (hphase : s.phase = .storing (some err)) :
      Goes m s .finish ((s.storeFile m).removeMessage (.store err))
  | uploadError {err : Error} {stored : Bool} (hphase : s.phase = .storing none) :
      Goes m s (.uploadError err stored)
        ((if stored then s.storeFile m else s).stored (some err))
  | uploadStuck {err before : Error} {stored : Bool} (hphase : s.phase = .storing (some before)) :
      Goes m s (.uploadError err stored)
        { (if stored then s.storeFile m else s) with phase := .stuck }
  | queueHooksFail {err : Error} (hphase : s.phase = .queueHooks) :
      Goes m s (.queueHooks (some err)) (s.removeMessage (.add err))
  | queueHooks (hphase : s.phase = .queueHooks) :
      Goes m s (.queueHooks none) { s with phase := .settingMeta }
  | setMeta {err : Error} (hphase : s.phase = .settingMeta) :
      Goes m s (.setMeta .ok err)
        ({ s with db := metaSet m s.db }.push m)
  | setMetaFailed {err : Error} (hphase : s.phase = .settingMeta) :
      Goes m s (.setMeta .failed err) (s.removeMessage (.add err))
  | setMetaLost {err : Error} (hphase : s.phase = .settingMeta) :
      Goes m s (.setMeta .lost err)
        ({ s with db := metaSet m s.db }.removeMessage (.add err))
  | routeHooksFail {err : Error} {recipient deliveryZone : String} {date : Nat} {_id : ObjectId}
      {envelopeTo : String} {rest : List String} {documents : List Recipient}
      (hphase : s.phase = .routing envelopeTo rest documents) :
      Goes m s (.routeHooks (some err) recipient deliveryZone date _id)
        (s.removeMessage (.add (pushError m err)))
  | routeHooks {recipient deliveryZone : String} {date : Nat} {_id : ObjectId} {envelopeTo : String}
      {rest : List String} {documents documents' : List Recipient} {phase : Phase}
      (hphase : s.phase = .routing envelopeTo rest documents)
      (hnext : phase = .inserting documents' ∨ ∃ next rest', phase = .routing next rest' documents') :
      Goes m s (.routeHooks none recipient deliveryZone date _id) { s with phase := phase }
  | insertMany {documents : List Recipient} (hphase : s.phase = .inserting documents) :
      Goes m s (.insertMany none documents)
        ({ s with db := { s.db with
          queue := s.db.queue ++ documents.map fun recipient : Recipient =>
            recipient.document m.id } }.report none)
  | insertManyFails {err : Error} {inserted documents : List Recipient}
      (hphase : s.phase = .inserting documents) :
      Goes m s (.insertMany (some err) inserted)
        ({ s with db := { s.db with
          queue := s.db.queue ++ inserted.map fun recipient : Recipient =>
            recipient.document m.id } }.removeMessage (.add (pushError m err)))
  | exec {choice : Nat} {outcome : Outcome} {s' : MailDrop}
      (hexec : s.exec m choice outcome = some s') : Goes m s (.exec choice outcome) s'

/-- What an event does. -/
theorem goes_of_step {e : Event} (h : s.step m e = some s') : Goes m s e s' := by
  cases e with
  | close => exact Option.some.inj h ▸ .close
  | sourceError err => exact Option.some.inj h ▸ .sourceError
  | messageError err => exact Option.some.inj h ▸ .messageError
  | exec choice outcome => exact .exec h
  | storeHooks err fileId =>
    simp only [step] at h
    split at h
    next hphase => exact Option.some.inj h ▸ .storeHooksFail hphase
    next hphase => exact Option.some.inj h ▸ .storeHooks hphase
    next => exact nomatch h
  | streamEnd =>
    simp only [step] at h
    split at h
    next hphase => exact Option.some.inj h ▸ .streamEnd hphase
    next => exact nomatch h
  | finish =>
    simp only [step] at h
    split at h
    next hphase _ => exact Option.some.inj h ▸ .finish hphase
    next hphase _ => exact Option.some.inj h ▸ .finishFailed hphase
    next => exact nomatch h
  | uploadError err stored =>
    simp only [step, Option.ite_none_left_eq_some] at h
    obtain ⟨_, h⟩ := h
    split at h
    next hphase => exact Option.some.inj h ▸ .uploadError hphase
    next hphase => exact Option.some.inj h ▸ .uploadStuck hphase
    next => exact nomatch h
  | queueHooks err =>
    simp only [step] at h
    split at h
    next hphase => exact Option.some.inj h ▸ .queueHooksFail hphase
    next hphase => exact Option.some.inj h ▸ .queueHooks hphase
    next => exact nomatch h
  | setMeta outcome err =>
    simp only [step] at h
    split at h
    next hphase => exact Option.some.inj h ▸ .setMeta hphase
    next hphase => exact Option.some.inj h ▸ .setMetaFailed hphase
    next hphase => exact Option.some.inj h ▸ .setMetaLost hphase
    next => exact nomatch h
  | routeHooks err recipient deliveryZone date _id =>
    simp only [step] at h
    split at h
    next hphase => exact Option.some.inj h ▸ .routeHooksFail hphase
    next hphase =>
      split at h
      next => exact Option.some.inj h ▸ .routeHooks hphase (Or.inl rfl)
      next next rest' => exact Option.some.inj h ▸ .routeHooks hphase (Or.inr ⟨next, rest', rfl⟩)
    next => exact nomatch h
  | insertMany err inserted =>
    simp only [step] at h
    split at h
    next hphase =>
      rw [Option.ite_none_right_eq_some] at h
      obtain ⟨rfl, h⟩ := h
      exact Option.some.inj h ▸ .insertMany hphase
    next hphase =>
      rw [Option.ite_none_right_eq_some] at h
      exact Option.some.inj h.2 ▸ .insertManyFails hphase
    next => exact nomatch h

/-! ## What is stored -/

/-- Nothing of the message is stored. -/
structure Clean (db : Database) (id : String) : Prop where
  files : ∀ file ∈ db.files, file.filename ≠ filename id
  queue : ∀ delivery ∈ db.queue, delivery.id ≠ id

/-- At most one file of the message is stored. -/
structure Stored (db : Database) (id : String) (fileId : ObjectId) : Prop where
  files : ∀ file ∈ db.files, file.filename = filename id → file._id = fileId
  queue : ∀ delivery ∈ db.queue, delivery.id ≠ id

theorem Clean.stored {db : Database} {id : String} (h : Clean db id) (fileId : ObjectId) :
    Stored db id fileId :=
  ⟨fun file hfile hname => absurd hname (h.files file hfile), h.queue⟩

/-- The phases in which the message can be queued, or has been queued. -/
def Phase.goesOn : Phase → Bool
  | .storeHooks => true
  | .storing none => true
  | .queueHooks => true
  | .settingMeta => true
  | .routing .. => true
  | .inserting _ => true
  | .finished queued => queued
  | _ => false

/-- What is stored in a phase. -/
def Phase.Keeps (db : Database) (id : String) (fileId : ObjectId) : Phase → Prop
  | .storeHooks | .storing _ => Clean db id
  | .queueHooks | .settingMeta | .routing .. | .inserting _ | .findingFile _ => Stored db id fileId
  | .deletingFile found _ => Stored db id found
  | .stuck => True
  | .finished queued => queued = false → Clean db id

/-- The invariant. -/
structure Inv (m : Message) (s : MailDrop) : Prop where
  keeps : s.phase.Keeps s.db m.id s.fileId
  stops : ∀ err, some err ∈ s.reports → s.phase.goesOn = false
  once : m.buffered = false → ∀ err, some err ∈ s.reports → s.phase = .finished false

/-- The steps that `add` is ready for: an `insertMany` that fails inserts nothing, the name of
    the error of an upload ends with `Error` if the file is stored, and an error of a source
    that is a string or a buffer, of which `callback` gets to know at once, stops the message. -/
def Covered (m : Message) (s : MailDrop) : Event → Prop
  | .sourceError err =>
    m.buffered = true → s.onSourceError = true → (s.emitError err).phase.goesOn = false
  | .uploadError err stored => stored = true → s.phase = .storing none → err.isError = true
  | .insertMany (some _) inserted => inserted = []
  | _ => True

/-- The calls of `removeMessage` succeed. -/
def CleansUp : Event → Prop
  | .exec _ outcome => outcome = .ok
  | _ => True

instance (m : Message) (s : MailDrop) : (e : Event) → Decidable (Covered m s e)
  | .sourceError _ => inferInstanceAs (Decidable (_ → _ → _ = _))
  | .uploadError _ _ => inferInstanceAs (Decidable (_ → _ → _ = _))
  | .insertMany (some _) inserted => inferInstanceAs (Decidable (inserted = []))
  | .insertMany none _ => isTrue trivial
  | .close | .messageError _ | .storeHooks _ _ | .streamEnd | .finish | .queueHooks _
  | .setMeta _ _ | .routeHooks .. | .exec _ _ => isTrue trivial

instance : (e : Event) → Decidable (CleansUp e)
  | .exec _ outcome => inferInstanceAs (Decidable (outcome = .ok))
  | .close | .sourceError _ | .messageError _ | .storeHooks _ _ | .streamEnd | .finish
  | .uploadError _ _ | .queueHooks _ | .setMeta _ _ | .routeHooks .. | .insertMany _ _ =>
    isTrue trivial

theorem inv_init {db : Database} (h : Clean db m.id) : Inv m { db := db } :=
  ⟨h, fun _ herr => absurd herr List.not_mem_nil, fun _ _ herr => absurd herr List.not_mem_nil⟩

/-- A step within the run of `add`, which reports nothing. -/
theorem Inv.move (hs : Inv m s) (hrunning : ∀ queued, s.phase ≠ .finished queued)
    (hreports : s'.reports = s.reports) (hgoesOn : s'.phase.goesOn = true → s.phase.goesOn = true)
    (hkeeps : s'.phase.Keeps s'.db m.id s'.fileId) : Inv m s' := by
  refine ⟨hkeeps, fun err herr => ?_, fun hstream err herr => ?_⟩
  · rw [hreports] at herr
    have hstops := hs.stops err herr
    rw [Bool.eq_false_iff] at hstops ⊢
    exact fun hgo => hstops (hgoesOn hgo)
  · rw [hreports] at herr
    exact absurd (hs.once hstream err herr) (hrunning false)

theorem inv_report_some (h : Clean s.db m.id) : Inv m (s.report (some err)) :=
  ⟨fun _ => h, fun _ _ => rfl, fun _ _ _ => rfl⟩

/-- The message was queued, so no error was reported before. -/
theorem inv_report_none (hs : Inv m s) (hgoesOn : s.phase.goesOn = true) {db : Database} :
    Inv m ({ s with db := db }.report none) := by
  have hnone : ∀ err, some err ∉ s.reports ++ [none] := by
    intro err herr
    rcases List.mem_append.mp herr with herr | herr
    · rw [hs.stops err herr] at hgoesOn
      exact absurd hgoesOn Bool.false_ne_true
    · simp at herr
  exact ⟨fun h => absurd h (by simp), fun err herr => absurd herr (hnone err),
    fun _ err herr => absurd herr (hnone err)⟩

/-- The error of `store`: without `removeMessage`, if it has another name. -/
theorem inv_stored_some (hs : Inv m s) (hrunning : ∀ queued, s.phase ≠ .finished queued)
    (hreports : s'.reports = s.reports)
    (hstored : err.isError = true → Stored s'.db m.id s'.fileId)
    (hclean : err.isError = false → Clean s'.db m.id) : Inv m (s'.stored (some err)) := by
  unfold MailDrop.stored
  dsimp only
  split
  · next hname =>
    exact hs.move hrunning hreports (fun h => absurd h Bool.false_ne_true) (hstored hname)
  · next hname => exact inv_report_some (hclean (Bool.eq_false_iff.mpr hname))

/-! ## The steps -/

/-- An `error` of a stream makes `store` end its upload, or nothing. -/
theorem emitError_eq (s : MailDrop) (err : Error) : ∃ onMessageError onDkimError,
    s.emitError err = { s with onMessageError := onMessageError, onDkimError := onDkimError } ∨
    s.phase = .storing none ∧
      s.emitError err = { s with
        onMessageError := onMessageError, onDkimError := onDkimError
        phase := .storing (some err), ended := true } := by
  unfold emitError emitStreamError
  split
  · exact ⟨s.onMessageError, s.onDkimError, Or.inl rfl⟩
  · split
    · exact ⟨false, s.onDkimError, Or.inl rfl⟩
    · split
      · next hphase => exact ⟨false, false, Or.inr ⟨hphase, rfl⟩⟩
      · exact ⟨false, false, Or.inl rfl⟩

theorem phase_emitStreamError (s : MailDrop) (err : Error) : (s.emitStreamError err).phase =
    if s.phase = .storing none then .storing (some err) else s.phase := by
  unfold emitStreamError
  split
  · next hphase => rw [if_pos hphase]
  · next hphase => rw [if_neg hphase]

theorem phase_emitError (s : MailDrop) (err : Error) : (s.emitError err).phase =
    if s.onMessageError ∧ s.onDkimError ∧ s.phase = .storing none then .storing (some err)
    else s.phase := by
  unfold emitError
  cases s.onMessageError with
  | false => simp
  | true =>
    cases s.onDkimError with
    | false => simp
    | true => simp [phase_emitStreamError]

/-- Where an `error` leaves the invariant, whatever was reported. -/
theorem keeps_emitError (h : s.phase.Keeps s.db m.id s.fileId) (err : Error) :
    (s.emitError err).phase.Keeps (s.emitError err).db m.id (s.emitError err).fileId := by
  obtain ⟨onMessageError, onDkimError, heq | ⟨hphase, heq⟩⟩ := emitError_eq s err
  · rw [heq]
    exact h
  · rw [heq]
    rw [hphase] at h
    exact h

theorem inv_emitError (hs : Inv m s) (err : Error) : Inv m (s.emitError err) := by
  have hkeeps := keeps_emitError hs.keeps err
  obtain ⟨onMessageError, onDkimError, heq | ⟨hphase, heq⟩⟩ := emitError_eq s err
  · rw [heq]
    exact ⟨hs.keeps, hs.stops, hs.once⟩
  · refine hs.move (fun queued hfinished => ?_) (by rw [heq]) (fun h => ?_) hkeeps
    · rw [hphase] at hfinished
      exact nomatch hfinished
    · rw [heq] at h
      exact absurd h Bool.false_ne_true

theorem inv_sourceError (hs : Inv m s) (hcovered : Covered m s (.sourceError err))
    (h : s.step m (.sourceError err) = some s') : Inv m s' := by
  cases goes_of_step h
  split
  · next hlistens =>
    rw [Bool.and_eq_true] at hlistens
    have hstops := hcovered hlistens.1 hlistens.2
    -- the report changes nothing about the streams
    have hphase : ∀ reports, ({ s with onSourceError := false, reports := reports }.emitError
        err).phase = (s.emitError err).phase := by
      intro reports
      rw [phase_emitError, phase_emitError]
    refine ⟨keeps_emitError (s := { s with onSourceError := false, reports := _ }) hs.keeps err,
      fun _ _ => (hphase _).symm ▸ hstops, fun hstream => ?_⟩
    rw [hstream] at hlistens
    exact absurd hlistens.1 Bool.false_ne_true
  · exact inv_emitError hs err

theorem inv_store (hs : Inv m s) (hphase : s.phase = .storeHooks) (fileId : ObjectId)
    (onDkimError : Bool) : Inv m ({ s with onDkimError := onDkimError }.store m fileId) := by
  have hclean := hs.keeps
  rw [hphase] at hclean
  have hrunning : ∀ queued, s.phase ≠ .finished queued := by simp [hphase]
  unfold store
  split
  · exact inv_stored_some hs hrunning rfl (fun _ => Clean.stored hclean _) (fun _ => hclean)
  · exact hs.move hrunning rfl (fun _ => by rw [hphase]; rfl) hclean

/-- The file is there, and no other one of the message. -/
theorem stored_storeFile (h : Clean s.db m.id) : Stored (s.storeFile m).db m.id s.fileId := by
  refine ⟨fun file hfile hname => ?_, h.queue⟩
  rcases List.mem_append.mp hfile with hfile | hfile
  · exact absurd hname (h.files file hfile)
  · rw [List.mem_singleton.mp hfile]

theorem inv_removed (hs : Inv m s) {remover : Remover} {db : Database}
    (hrunning : ∀ queued, s.phase ≠ .finished queued) (hclean : Clean db m.id) :
    Inv m ({ s with db := db }.removed remover) := by
  cases remover with
  | store err =>
    exact inv_stored_some hs hrunning rfl (fun _ => hclean.stored _) (fun _ => hclean)
  | add err => exact inv_report_some hclean

/-- The calls of `removeMessage` find the file and delete it. -/
theorem inv_exec (hs : Inv m s) {choice : Nat} (h : s.exec m choice .ok = some s') : Inv m s' := by
  have hkeeps := hs.keeps
  unfold exec at h
  split at h
  · next remover hphase =>
    rw [hphase] at hkeeps
    have hrunning : ∀ queued, s.phase ≠ .finished queued := by simp [hphase]
    simp only [Database.exec] at h
    cases hpick : pick (s.db.files.filter (·.filename == filename m.id)) choice with
    | none =>
      rw [hpick] at h
      obtain rfl := Option.some.inj h
      refine inv_removed hs hrunning ⟨fun file hfile hname => ?_, hkeeps.queue⟩
      exact not_of_pick_filter hpick hfile (beq_iff_eq.mpr hname)
    | some found =>
      rw [hpick] at h
      obtain rfl := Option.some.inj h
      obtain ⟨hfound, hname⟩ := mem_of_pick_filter hpick
      have hid := hkeeps.files found hfound (beq_iff_eq.mp hname)
      exact hs.move hrunning rfl (fun h => absurd h Bool.false_ne_true)
        ⟨fun file hfile hname => (hkeeps.files file hfile hname).trans hid.symm, hkeeps.queue⟩
  · next fileId remover hphase =>
    rw [hphase] at hkeeps
    obtain rfl := Option.some.inj h
    refine inv_removed hs (by simp [hphase]) ⟨fun file hfile hname => ?_, hkeeps.queue⟩
    obtain ⟨hfile, hid⟩ := List.mem_filter.mp hfile
    exact bne_iff_ne.mp hid (hkeeps.files file hfile hname)
  · exact nomatch h

/-- A step that only goes on to the next phase. -/
theorem Inv.next (hs : Inv m s) {phase : Phase} {db : Database} (hgoesOn : s.phase.goesOn = true)
    (hrunning : ∀ queued, s.phase ≠ .finished queued) (hkeeps : phase.Keeps db m.id s.fileId) :
    Inv m { s with phase := phase, db := db } :=
  hs.move hrunning rfl (fun _ => hgoesOn) hkeeps

theorem stored_metaSet {db : Database} {id : String} {fileId : ObjectId} (h : Stored db id fileId)
    (m : Message) : Stored (metaSet m db) id fileId := by
  refine ⟨fun file hfile hname => ?_, h.queue⟩
  rcases ForStd.mem_updateOne hfile with hfile | ⟨before, hbefore, -, rfl⟩
  · exact h.files file hfile hname
  · exact h.files before hbefore hname

/-- The upload has finished: its stream ended, or has failed. -/
theorem inv_finish (hs : Inv m s) (h : Goes m s .finish s') : Inv m s' := by
  have hkeeps := hs.keeps
  cases h with
  | finish hphase =>
    rw [hphase] at hkeeps
    exact hs.next (by rw [hphase]; rfl) (by simp [hphase]) (stored_storeFile hkeeps)
  | finishFailed hphase =>
    rw [hphase] at hkeeps
    exact hs.move (by simp [hphase]) rfl (fun h => absurd h Bool.false_ne_true)
      (stored_storeFile hkeeps)

theorem inv_uploadError (hs : Inv m s) {stored : Bool}
    (hcovered : Covered m s (.uploadError err stored)) (h : Goes m s (.uploadError err stored) s') :
    Inv m s' := by
  have hkeeps := hs.keeps
  cases h with
  | uploadError hphase =>
    rw [hphase] at hkeeps
    have hrunning : ∀ queued, s.phase ≠ .finished queued := by simp [hphase]
    cases stored with
    | false =>
      exact inv_stored_some hs hrunning rfl (fun _ => Clean.stored hkeeps _) (fun _ => hkeeps)
    | true =>
      refine inv_stored_some hs hrunning (show (s.storeFile m).reports = s.reports from rfl)
        (fun _ => stored_storeFile hkeeps) (fun hname => ?_)
      rw [hcovered rfl hphase] at hname
      exact absurd hname.symm Bool.false_ne_true
  | uploadStuck hphase =>
    refine hs.move (by simp [hphase]) ?_ (fun h => absurd h Bool.false_ne_true) trivial
    cases stored <;> rfl

theorem inv_push (hs : Inv m s) (hphase : s.phase = .settingMeta) {db : Database}
    (hdb : Stored db m.id s.fileId) : Inv m ({ s with db := db }.push m) := by
  have hrunning : ∀ queued, s.phase ≠ .finished queued := by simp [hphase]
  unfold push
  split
  · exact hs.move hrunning rfl (fun h => absurd h Bool.false_ne_true) hdb
  · split
    · exact hs.move hrunning rfl (fun h => absurd h Bool.false_ne_true) hdb
    · exact hs.next (by rw [hphase]; rfl) hrunning hdb

theorem inv_setMeta (hs : Inv m s) {outcome : Outcome}
    (h : Goes m s (.setMeta outcome err) s') : Inv m s' := by
  have hkeeps := hs.keeps
  cases h with
  | setMeta hphase =>
    rw [hphase] at hkeeps
    exact inv_push hs hphase (stored_metaSet hkeeps m)
  | setMetaFailed hphase =>
    rw [hphase] at hkeeps
    exact hs.move (by simp [hphase]) rfl (fun h => absurd h Bool.false_ne_true) hkeeps
  | setMetaLost hphase =>
    rw [hphase] at hkeeps
    exact hs.move (by simp [hphase]) rfl (fun h => absurd h Bool.false_ne_true)
      (stored_metaSet hkeeps m)

theorem inv_routeHooks (hs : Inv m s) {err : Option Error} {recipient deliveryZone : String}
    {date : Nat} {_id : ObjectId}
    (h : Goes m s (.routeHooks err recipient deliveryZone date _id) s') : Inv m s' := by
  have hkeeps := hs.keeps
  cases h with
  | routeHooksFail hphase =>
    rw [hphase] at hkeeps
    exact hs.move (by simp [hphase]) rfl (fun h => absurd h Bool.false_ne_true) hkeeps
  | routeHooks hphase hnext =>
    rw [hphase] at hkeeps
    have hrunning : ∀ queued, s.phase ≠ .finished queued := by simp [hphase]
    refine hs.next (by rw [hphase]; rfl) hrunning ?_
    cases hnext with
    | inl hlast => exact hlast ▸ hkeeps
    | inr hnext =>
      obtain ⟨next, rest', rfl⟩ := hnext
      exact hkeeps

/-- The `insertMany` succeeds, or inserts nothing. -/
theorem inv_insertMany (hs : Inv m s) {err : Option Error} {inserted : List Recipient}
    (hcovered : Covered m s (.insertMany err inserted))
    (h : Goes m s (.insertMany err inserted) s') : Inv m s' := by
  have hkeeps := hs.keeps
  cases h with
  | insertMany hphase => exact inv_report_none hs (by rw [hphase]; rfl)
  | insertManyFails hphase =>
    obtain rfl : inserted = [] := hcovered
    rw [hphase] at hkeeps
    refine hs.move (by simp [hphase]) rfl (fun h => absurd h Bool.false_ne_true)
      ⟨hkeeps.files, fun delivery hdelivery => hkeeps.queue delivery ?_⟩
    rwa [removeMessage, List.map_nil, List.append_nil] at hdelivery

/-- Every step under the conditions keeps the invariant. -/
theorem inv_step {e : Event} (hs : Inv m s) (hcovered : Covered m s e) (hcleans : CleansUp e)
    (h : s.step m e = some s') : Inv m s' := by
  have hkeeps := hs.keeps
  have hgoes := goes_of_step h
  cases e with
  | sourceError err => exact inv_sourceError hs hcovered h
  | finish => exact inv_finish hs hgoes
  | uploadError err stored => exact inv_uploadError hs hcovered hgoes
  | setMeta outcome err => exact inv_setMeta hs hgoes
  | routeHooks err recipient deliveryZone date _id => exact inv_routeHooks hs hgoes
  | insertMany err inserted => exact inv_insertMany hs hcovered hgoes
  | exec choice outcome =>
    obtain rfl : outcome = .ok := hcleans
    exact inv_exec hs h
  | close =>
    cases hgoes
    exact ⟨hs.keeps, hs.stops, hs.once⟩
  | messageError err =>
    cases hgoes
    exact inv_emitError hs err
  | storeHooks err fileId =>
    cases hgoes with
    | storeHooksFail hphase =>
      rw [hphase] at hkeeps
      exact inv_report_some hkeeps
    | storeHooks hphase => exact inv_store hs hphase fileId true
  | streamEnd =>
    cases hgoes with
    | streamEnd hphase => exact hs.move (by simp [hphase]) rfl id hs.keeps
  | queueHooks err =>
    cases hgoes with
    | queueHooksFail hphase | queueHooks hphase =>
      rw [hphase] at hkeeps
      exact hs.next (by simp [hphase, Phase.goesOn]) (by simp [hphase]) hkeeps

/-! ## What is left -/

/-- Something of the message is left for good: a delivery, or the file where `add` has reported
    the error. -/
def Left (m : Message) (s : MailDrop) : Prop :=
  (∃ delivery ∈ s.db.queue, delivery.id = m.id) ∨
    s.phase = .finished false ∧ ∃ file ∈ s.db.files, file.filename = filename m.id

theorem db_stored (s : MailDrop) (err : Option Error) : (s.stored err).db = s.db := by
  unfold MailDrop.stored
  split
  · rfl
  · split <;> rfl

theorem db_store (s : MailDrop) (fileId : ObjectId) : (s.store m fileId).db = s.db := by
  unfold store
  split
  · exact db_stored s _
  · rfl

theorem db_emitError (s : MailDrop) (err : Error) : (s.emitError err).db = s.db := by
  obtain ⟨onMessageError, onDkimError, heq | ⟨-, heq⟩⟩ := emitError_eq s err <;> rw [heq]

theorem db_push (s : MailDrop) : (s.push m).db = s.db := by
  unfold push
  split
  · rfl
  · split <;> rfl

theorem db_removed (s : MailDrop) (remover : Remover) : (s.removed remover).db = s.db := by
  cases remover with
  | store err => exact db_stored s _
  | add err => rfl

theorem queue_exec {choice : Nat} {outcome : Outcome} (h : s.exec m choice outcome = some s') :
    s'.db.queue = s.db.queue := by
  unfold exec at h
  split at h
  · split at h
    · exact Option.some.inj h ▸ rfl
    · rw [← Option.some.inj h, db_removed]
  · split at h
    · rw [← Option.some.inj h, db_removed]
    · rw [← Option.some.inj h, db_removed]
      rfl
  · exact nomatch h

theorem queue_storeFile (s : MailDrop) (stored : Bool) :
    (if stored then s.storeFile m else s).db.queue = s.db.queue := by
  cases stored <;> rfl

/-- No step of `add` removes a delivery. -/
theorem queue_step {e : Event} (h : s.step m e = some s') {delivery : Delivery}
    (hdelivery : delivery ∈ s.db.queue) : delivery ∈ s'.db.queue := by
  cases goes_of_step h with
  | sourceError =>
    rw [db_emitError]
    split <;> exact hdelivery
  | messageError => rwa [db_emitError]
  | storeHooks => rwa [db_store]
  | finish => rwa [db_stored]
  | uploadError =>
    rw [db_stored, queue_storeFile]
    exact hdelivery
  | uploadStuck =>
    show delivery ∈ (if _ then _ else _ : MailDrop).db.queue
    rw [queue_storeFile]
    exact hdelivery
  | setMeta => rwa [db_push]
  | insertMany | insertManyFails => exact List.mem_append_left _ hdelivery
  | exec hexec => rwa [queue_exec hexec]
  | _ => exact hdelivery

/-- Nothing happens after the end. -/
theorem step_finished {e : Event} {queued : Bool} (hphase : s.phase = .finished queued)
    (h : s.step m e = some s') : s'.phase = s.phase ∧ s'.db = s.db := by
  have hkeep : ∀ t : MailDrop, t.phase = s.phase → ∀ err, (t.emitError err).phase = s.phase := by
    intro t ht err
    rw [phase_emitError, ht, hphase, if_neg (by simp)]
  cases goes_of_step h with
  | close => exact ⟨rfl, rfl⟩
  | @sourceError err =>
    refine ⟨hkeep _ ?_ err, ?_⟩
    · split <;> rfl
    · rw [db_emitError]
      split <;> rfl
  | @messageError err => exact ⟨hkeep s rfl err, db_emitError s err⟩
  | exec hexec => simp [exec, hphase] at hexec
  | _ =>
    -- the other events need another phase
    simp_all

/-- A step against the conditions leaves something. -/
theorem left_of_not_covered {e : Event} (hstream : m.buffered = false) (hcovered : ¬Covered m s e)
    (h : s.step m e = some s') : Left m s' := by
  cases goes_of_step h with
  | sourceError => exact absurd (fun hbuffered => nomatch hstream.symm.trans hbuffered) hcovered
  | uploadError =>
    obtain ⟨hstored, hnot⟩ := Classical.not_imp.mp hcovered
    obtain ⟨_, hname⟩ := Classical.not_imp.mp hnot
    rw [if_pos hstored, MailDrop.stored, if_neg hname]
    exact Or.inr ⟨rfl, _, List.mem_append_right _ (List.mem_singleton_self _), rfl⟩
  | uploadStuck hphase =>
    obtain ⟨_, hnot⟩ := Classical.not_imp.mp hcovered
    obtain ⟨hphase', _⟩ := Classical.not_imp.mp hnot
    rw [hphase] at hphase'
    exact nomatch hphase'
  | insertManyFails =>
    -- one of the documents that were inserted
    obtain ⟨document, hdocument⟩ := List.exists_mem_of_ne_nil _ hcovered
    exact Or.inl ⟨_, List.mem_append_right _ (List.mem_map.mpr ⟨document, hdocument, rfl⟩), rfl⟩
  | _ => exact absurd trivial hcovered

/-- What is left stays. -/
theorem left_step {e : Event} (hleft : Left m s) (h : s.step m e = some s') : Left m s' := by
  rcases hleft with ⟨delivery, hdelivery, hid⟩ | ⟨hphase, hfile⟩
  · exact Or.inl ⟨delivery, queue_step h hdelivery, hid⟩
  · obtain ⟨hphase', hdb⟩ := step_finished hphase h
    exact Or.inr ⟨hphase'.trans hphase, hdb.symm ▸ hfile⟩

theorem not_clean_of_left (hleft : Left m s) : ¬Clean s.db m.id := by
  intro hclean
  rcases hleft with ⟨delivery, hdelivery, hid⟩ | ⟨-, file, hfile, hname⟩
  · exact hclean.queue delivery hdelivery hid
  · exact hclean.files file hfile hname

/-- When `add` reports an error, and its calls of `removeMessage` succeed, nothing is left of the
    message if all steps meet the conditions. For a source that is a stream it is only then, and
    nothing is left when the error is reported. -/
theorem clean_of_report (m : Message) {db : Database} (hfresh : Clean db m.id) {es : List Event}
    {s : MailDrop} (hrun : run (step m) { db := db } es = some s)
    (hcleans : Along (step m) (fun _ => CleansUp) { db := db } es) {err : Error}
    (herr : some err ∈ s.reports) :
    (Along (step m) (Covered m) { db := db } es →
      (m.buffered = false → s.phase = .finished false) ∧
      ∀ queued, s.phase = .finished queued → Clean s.db m.id) ∧
    (m.buffered = false → Clean s.db m.id → Along (step m) (Covered m) { db := db } es) := by
  refine ⟨fun hcovered => ?_, fun hstream hclean => ?_⟩
  · have hinv : Inv m s := ForStd.run_invariant_along
      (fun _ _ _ hs hp h => inv_step hs hp.1 hp.2 h) (inv_init hfresh) (hcovered.and hcleans) hrun
    refine ⟨fun hstream => hinv.once hstream err herr, fun queued hphase => ?_⟩
    have hkeeps := hinv.keeps
    have hstops := hinv.stops err herr
    rw [hphase] at hkeeps hstops
    exact hkeeps hstops
  · by_contra hcovered
    refine absurd hclean (not_clean_of_left ?_)
    exact ForStd.run_of_not_along (I := fun _ => True) (fun _ _ _ _ _ => trivial)
      (fun _ _ _ _ hp h => left_of_not_covered hstream hp h)
      (fun _ _ _ _ hleft h => left_step hleft h) trivial hcovered hrun

/-- A message for two recipients. -/
def exampleMessage : Message where
  id := "15a"
  envelope := { sendingZone := "", «from» := "a@b.c", «to» := ["d@e.f", "g@h.i"], origin := "1.2.3.4"
                deferDelivery := 0 }
  data := "{}"
  buffered := false
  remote := false

/-- The message is stored, and its metadata. -/
def exampleStored (setMeta : Outcome) : List Event :=
  [.storeHooks none ⟨7, 1⟩, .streamEnd, .finish, .queueHooks none,
    .setMeta setMeta ⟨"MongoServerError", "failed"⟩]

/-- The metadata cannot be stored. -/
theorem clean_failedMeta : ∃ s : MailDrop,
    some ⟨"MongoServerError", "failed"⟩ ∈ s.reports ∧ s.phase = .finished false ∧
      Clean s.db "15a" := by
  have hrun : (run (step exampleMessage) { db := {} }
      (exampleStored .failed ++ [.exec 0 .ok, .exec 0 .ok])).map (fun s => (s.reports, s.phase)) =
        some ([some ⟨"MongoServerError", "failed"⟩], .finished false) := by decide +kernel
  obtain ⟨s, hrun, hs⟩ := Option.map_eq_some_iff.mp hrun
  obtain ⟨hreports, hphase⟩ := Prod.mk.inj hs
  have herr : some ⟨"MongoServerError", "failed"⟩ ∈ s.reports := by rw [hreports]; decide
  have hfresh : Clean {} exampleMessage.id := ⟨nofun, nofun⟩
  have hclean := clean_of_report exampleMessage hfresh hrun (by decide +kernel) herr
  exact ⟨s, herr, hphase, (hclean.1 (by decide +kernel)).2 false hphase⟩

/-- The `insertMany` has inserted the first of two deliveries. -/
theorem clean_partialInsert : ¬∀ (m : Message) (db : Database) (es : List Event) (s : MailDrop)
    (err : Error), Clean db m.id → run (step m) { db := db } es = some s →
      Along (step m) (fun _ => CleansUp) { db := db } es → some err ∈ s.reports →
      s.phase = .finished false → Clean s.db m.id := by
  intro hall
  have hrun : (run (step exampleMessage) { db := {} } (exampleStored .ok ++
      [.routeHooks none "d@e.f" "default" 7000 ⟨7, 2⟩,
        .routeHooks none "g@h.i" "default" 7000 ⟨7, 3⟩,
        .insertMany (some ⟨"MongoBulkWriteError", "failed"⟩)
          [routed exampleMessage 1 "e.f" "d@e.f" "default" 7000 ⟨7, 2⟩],
        .exec 0 .ok, .exec 0 .ok])).map (fun s => (s.reports, s.phase, s.db.queue.map (·.id))) =
      some ([some ⟨"MongoBulkWriteError", "failed"⟩], .finished false, ["15a"]) := by
    decide +kernel
  obtain ⟨s, hrun, hs⟩ := Option.map_eq_some_iff.mp hrun
  simp only [Prod.mk.injEq] at hs
  obtain ⟨hreports, hphase, hqueue⟩ := hs
  have hclean := hall exampleMessage {} _ s ⟨"MongoBulkWriteError", "failed"⟩ ⟨nofun, nofun⟩ hrun
    (by decide +kernel) (by rw [hreports]; decide) hphase
  obtain ⟨delivery, hdelivery, hid⟩ := List.mem_map.mp (hqueue.symm ▸ List.mem_singleton_self "15a")
  exact hclean.queue delivery hdelivery hid

end MailDrop

end ZoneMta
