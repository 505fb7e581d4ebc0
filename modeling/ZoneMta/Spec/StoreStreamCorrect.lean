import ZoneMta.ForStd.List
import ZoneMta.ForStd.Transition
import ZoneMta.Native.StoreStream
import ZoneMta.Spec.DatabaseCorrect

/-!
# StoreStream correctness

The listeners of `store` share one flag, and the first of them that is called decides who calls
back. An error of the stream leaves that to the `finish` of the upload, so that nobody is left when
the upload fails as well.

## Key results

- `at_step`: where a call of `store` is, and which events have led there
- `calledBack_iff`: every other order of the events leads to one callback
-/

namespace ZoneMta

open ForStd (run run_history Along)
open MailDrop (Error shutdown)

namespace StoreStream

variable {s s' : StoreStream} {e : Event} {es es' : List Event}

/-! ## What has happened -/

/-- The upload finished behind events that satisfy `p`. -/
def FinishedAfter (p : List Event → Prop) (es : List Event) : Prop :=
  ∃ es₁ es₂, es = es₁ ++ .finish :: es₂ ∧ p es₁

/-- The upload finished, and the stream had not failed before. -/
def FinishedFirst : List Event → Prop := FinishedAfter fun es => ∀ err, .sourceError err ∉ es

/-- The upload finished, and the stream had failed before. -/
def FailedFirst : List Event → Prop := FinishedAfter fun es => ∃ err, .sourceError err ∈ es

theorem finishedAfter_concat {p : List Event → Prop} :
    FinishedAfter p (es ++ [e]) ↔ FinishedAfter p es ∨ e = .finish ∧ p es := by
  simp only [FinishedAfter, ForStd.concat_eq_append_cons]
  constructor
  · rintro ⟨es₁, es₂, ⟨rfl, rfl, -⟩ | ⟨es₃, -, hes⟩, hp⟩
    · exact Or.inr ⟨rfl, hp⟩
    · exact Or.inl ⟨es₁, es₃, hes, hp⟩
  · rintro (⟨es₁, es₃, hes, hp⟩ | ⟨rfl, hp⟩)
    · exact ⟨es₁, _, Or.inr ⟨es₃, rfl, hes⟩, hp⟩
    · exact ⟨es, [], Or.inl ⟨rfl, rfl, rfl⟩, hp⟩

theorem not_finishedAfter {p : List Event → Prop} (h : .finish ∉ es) : ¬FinishedAfter p es := by
  rintro ⟨es₁, es₂, rfl, -⟩
  exact h (List.mem_append_right _ List.mem_cons_self)

/-! ## The property -/

/-- Nothing is left of the upload. -/
def Gone (s : StoreStream) : Prop :=
  (∀ file ∈ s.db.files, file._id ≠ s.fileId) ∧ ∀ chunk ∈ s.db.chunks, chunk.files_id ≠ s.fileId

/-- Nothing goes on any more: the upload has emitted its last event, and no call waits. -/
def Done (s : StoreStream) : Prop := s.upload ≠ some .running ∧ s.removal = none

/-- One callback, with the id if and only if the upload finished and the stream had not failed
    before. The file of a stream that had failed is removed before it. -/
structure CalledBack (s₀ : StoreStream) (es : List Event) (s : StoreStream) : Prop where
  once : ∃ result, s.callbacks = [result]
  stored : ∀ id, .stored id ∈ s.callbacks ↔ id = s.id ∧ FinishedFirst es
  removed : ∀ es₁ es₂ t, es = es₁ ++ es₂ → run step s₀ es₁ = some t → FailedFirst es₁ →
    t.callbacks ≠ [] → t.Gone

/-- The upload does not fail behind the stream, and `removeMessage` finds the file and deletes
    it. -/
def Sound (s : StoreStream) : Event → Prop
  | .uploadError _ => s.sourceFailed = false
  | .exec choice outcome =>
    match s.removal with
    | some (.findOne _) =>
      outcome = .ok ∧
        ((pick (s.db.files.filter (·.filename == filename s.id)) choice).map (·._id)) = some s.fileId
    | some (.delete ..) => outcome ≠ .failed
    | none => True
  | _ => True

instance (s : StoreStream) : (e : Event) → Decidable (Sound s e)
  | .sourceEnd | .sourceError _ | .chunk _ | .finish => isTrue trivial
  | .uploadError _ => inferInstanceAs (Decidable (_ = _))
  | .exec choice outcome =>
    match h : s.removal with
    | none => isTrue (by simp [Sound, h])
    | some (.findOne _) =>
      decidable_of_iff (outcome = .ok ∧
        ((pick (s.db.files.filter (·.filename == filename s.id)) choice).map (·._id)) =
          some s.fileId) (by simp [Sound, h])
    | some (.delete ..) => decidable_of_iff (outcome ≠ .failed) (by simp [Sound, h])

/-! ## Where a call is -/

/-- Where a call of `store` is behind the events `es`, and whether they were sound. -/
inductive At (a : Prop) (es : List Event) (s : StoreStream) : Prop
  | refused (hupload : s.upload = none) (hremoval : s.removal = none)
      (hcallbacks : s.callbacks = [.failed shutdown]) (hes : es = []) (ha : a)
  | running (hupload : s.upload = some .running) (hreturned : s.returned = false)
      (hfailed : s.sourceFailed = false) (honce : s.onceFinish = none) (hremoval : s.removal = none)
      (hcallbacks : s.callbacks = []) (hfiles : ∀ file ∈ s.db.files, file._id ≠ s.fileId)
      (hfinish : .finish ∉ es) (herror : ∀ err, .sourceError err ∉ es) (ha : a)
  | failing (err : Error) (hupload : s.upload = some .running) (hreturned : s.returned = true)
      (hfailed : s.sourceFailed = true) (honce : s.onceFinish = some err) (hremoval : s.removal = none)
      (hcallbacks : s.callbacks = []) (hfiles : ∀ file ∈ s.db.files, file._id ≠ s.fileId)
      (hfinish : .finish ∉ es) (herror : .sourceError err ∈ es) (ha : a)
  | finding (err : Error) (hupload : s.upload = some .finished) (hreturned : s.returned = true)
      (hfailed : s.sourceFailed = true) (hremoval : s.removal = some (.findOne err))
      (hcallbacks : s.callbacks = []) (hfile : ∃ file ∈ s.db.files, file._id = s.fileId)
      (hes : ¬FinishedFirst es) (hfirst : FailedFirst es) (ha : a)
  | deleting (fileId : ObjectId) (err : Error) (hupload : s.upload = some .finished)
      (hreturned : s.returned = true) (hfailed : s.sourceFailed = true)
      (hremoval : s.removal = some (.delete fileId err)) (hcallbacks : s.callbacks = [])
      (hfile : ∃ file ∈ s.db.files, file._id = s.fileId)
      (hes : ¬FinishedFirst es) (hfirst : FailedFirst es) (ha : a ↔ fileId = s.fileId)
  | removed (err : Error) (hupload : s.upload = some .finished) (hreturned : s.returned = true)
      (hremoval : s.removal = none) (hcallbacks : s.callbacks = [.failed err])
      (hes : ¬FinishedFirst es) (hfirst : FailedFirst es) (ha : a ↔ s.Gone)
  | stored (hupload : s.upload = some .finished) (hreturned : s.returned = true)
      (hremoval : s.removal = none) (hcallbacks : s.callbacks = [.stored s.id])
      (hes : FinishedFirst es) (hfirst : ¬FailedFirst es) (ha : a)
  | failed (err : Error) (hupload : s.upload = some .failed) (hreturned : s.returned = true)
      (hremoval : s.removal = none) (hcallbacks : s.callbacks = [.failed err])
      (hfinish : .finish ∉ es) (ha : a)
  | stuck (hupload : s.upload = some .failed) (hreturned : s.returned = true)
      (hremoval : s.removal = none) (hcallbacks : s.callbacks = [])
      (hfinish : .finish ∉ es) (ha : ¬a)

/-! ## Steps -/

variable {a : Prop}

theorem notMem_concat {d : Event} (h : d ∉ es) (hne : d ≠ e) : d ∉ es ++ [e] := by
  intro hd
  rcases List.mem_append.mp hd with hd | hd
  · exact h hd
  · exact hne (List.mem_singleton.mp hd)

/-- An event that is not `finish` does not change when the upload finished. -/
theorem finishedAfter_concat_of_ne {p : List Event → Prop} (he : e ≠ .finish) :
    FinishedAfter p (es ++ [e]) ↔ FinishedAfter p es := by
  rw [finishedAfter_concat]
  exact or_iff_left fun h => he h.1

/-- An event that `store` only takes note of. -/
theorem At.quiet {ended sourceFailed : Bool} (h : At a es s) (hstart : s.upload.isSome = true)
    (he : e ≠ .finish) (herr : s.returned = false → ∀ err, e ≠ .sourceError err)
    (hsource : sourceFailed = s.sourceFailed ∨ s.returned = true ∧ sourceFailed = true) :
    At a (es ++ [e]) { s with ended := ended, sourceFailed := sourceFailed } := by
  have hfin {p : List Event → Prop} :
      FinishedAfter p (es ++ [e]) ↔ FinishedAfter p es := finishedAfter_concat_of_ne he
  -- the stream fails at most once
  have hstill (hfailed : s.sourceFailed = true) : sourceFailed = true := by
    rcases hsource with h | ⟨-, h⟩
    · rw [h, hfailed]
    · exact h
  cases h with
  | refused hupload => rw [hupload] at hstart; exact nomatch hstart
  | running hupload hreturned hfailed honce hremoval hcallbacks hfiles hfinish herror ha =>
    have hnot : sourceFailed = false := by
      rcases hsource with h | ⟨h, -⟩
      · rw [h, hfailed]
      · rw [hreturned] at h; exact nomatch h
    exact .running hupload hreturned hnot honce hremoval hcallbacks hfiles
      (notMem_concat hfinish he.symm)
      (fun err => notMem_concat (herror err) (herr hreturned err).symm) ha
  | failing err hupload hreturned hfailed honce hremoval hcallbacks hfiles hfinish herror ha =>
    exact .failing err hupload hreturned (hstill hfailed) honce hremoval hcallbacks hfiles
      (notMem_concat hfinish he.symm) (List.mem_append_left _ herror) ha
  | finding err hupload hreturned hfailed hremoval hcallbacks hfile hes hfirst ha =>
    exact .finding err hupload hreturned (hstill hfailed) hremoval hcallbacks hfile
      (mt hfin.mp hes) (hfin.mpr hfirst) ha
  | deleting fileId err hupload hreturned hfailed hremoval hcallbacks hfile hes hfirst ha =>
    exact .deleting fileId err hupload hreturned (hstill hfailed) hremoval hcallbacks hfile
      (mt hfin.mp hes) (hfin.mpr hfirst) ha
  | removed err hupload hreturned hremoval hcallbacks hes hfirst ha =>
    exact .removed err hupload hreturned hremoval hcallbacks (mt hfin.mp hes) (hfin.mpr hfirst) ha
  | stored hupload hreturned hremoval hcallbacks hes hfirst ha =>
    exact .stored hupload hreturned hremoval hcallbacks (hfin.mpr hes) (mt hfin.mp hfirst) ha
  | failed err hupload hreturned hremoval hcallbacks hfinish ha =>
    exact .failed err hupload hreturned hremoval hcallbacks (notMem_concat hfinish he.symm) ha
  | stuck hupload hreturned hremoval hcallbacks hfinish ha =>
    exact .stuck hupload hreturned hremoval hcallbacks (notMem_concat hfinish he.symm) ha

theorem at_sourceEnd (h : At a es s) (hstep : step s .sourceEnd = some s') :
    At a (es ++ [.sourceEnd]) s' := by
  simp only [step] at hstep
  split at hstep
  · next hstart =>
    obtain rfl := Option.some.inj hstep
    exact h.quiet hstart nofun (fun _ _ => nofun) (Or.inl rfl)
  · exact nomatch hstep

theorem at_sourceError {err : Error} (h : At a es s) (hstep : step s (.sourceError err) = some s') :
    At a (es ++ [.sourceError err]) s' := by
  simp only [step, Bool.and_eq_true, Bool.not_eq_true'] at hstep
  split at hstep
  · next hcond =>
    obtain rfl := Option.some.inj hstep
    obtain ⟨hstart, hsource⟩ := hcond
    obtain hreturned | hreturned := Bool.eq_false_or_eq_true s.returned
    · have hs' : { s with sourceFailed := true }.onSourceError err =
          { s with ended := s.ended, sourceFailed := true } := if_pos hreturned
      rw [hs']
      exact h.quiet hstart nofun (fun hret => nomatch hret.symm.trans hreturned)
        (Or.inr ⟨hreturned, rfl⟩)
    · have hs' : { s with sourceFailed := true }.onSourceError err =
          -- the first listener that is called: it leaves the callback to `finish`
          { s with sourceFailed := true, returned := true, onceFinish := some err, ended := true } :=
        if_neg (by simp [hreturned])
      rw [hs']
      cases h with
      | running hupload _ _ _ hremoval hcallbacks hfiles hfinish _ ha =>
        exact .failing err hupload rfl rfl rfl hremoval hcallbacks hfiles
          (notMem_concat hfinish nofun) (by simp) ha
      | refused hupload => rw [hupload] at hstart; exact nomatch hstart
      | failing _ _ hret | finding _ _ hret | deleting _ _ _ hret | removed _ _ hret
      | stored _ hret | failed _ _ hret | stuck _ hret =>
        rw [hreturned] at hret; exact nomatch hret
  · exact nomatch hstep

theorem at_chunk {_id : ObjectId} (h : At a es s) (hstep : step s (.chunk _id) = some s') :
    At a (es ++ [.chunk _id]) s' := by
  simp only [step] at hstep
  split at hstep
  · next hrun =>
    obtain rfl := Option.some.inj hstep
    cases h with
    | running hupload hreturned hfailed honce hremoval hcallbacks hfiles hfinish herror ha =>
      exact .running hupload hreturned hfailed honce hremoval hcallbacks hfiles
        (notMem_concat hfinish nofun) (fun err => notMem_concat (herror err) nofun) ha
    | failing err hupload hreturned hfailed honce hremoval hcallbacks hfiles hfinish herror ha =>
      exact .failing err hupload hreturned hfailed honce hremoval hcallbacks hfiles
        (notMem_concat hfinish nofun) (List.mem_append_left _ herror) ha
    | refused hup | finding _ hup | deleting _ _ hup | removed _ hup | stored hup | failed _ hup
    | stuck hup => rw [hrun] at hup; exact nomatch hup
  · exact nomatch hstep

theorem at_finish (h : At a es s) (hstep : step s .finish = some s') :
    At a (es ++ [.finish]) s' := by
  simp only [step, Bool.and_eq_true, decide_eq_true_eq] at hstep
  split at hstep
  · next hcond =>
    obtain rfl := Option.some.inj hstep
    cases h with
    | running hupload hreturned hfailed honce hremoval hcallbacks hfiles hfinish herror ha =>
      -- the upload runs, so this `finish` is the only one, and the stream has not failed
      have hnot : ¬FailedFirst (es ++ [.finish]) := by
        rw [FailedFirst, finishedAfter_concat]
        rintro (h | ⟨-, err, herr⟩)
        · exact not_finishedAfter hfinish h
        · exact herror err herr
      have hfirst : FinishedFirst (es ++ [.finish]) := finishedAfter_concat.mpr (Or.inr ⟨rfl, herror⟩)
      simp only [onFinish, hreturned, Bool.false_eq_true, ↓reduceIte, removeMessage, callback, honce,
        hcallbacks, List.nil_append]
      exact .stored rfl rfl hremoval rfl hfirst hnot ha
    | failing err hupload hreturned hfailed honce hremoval hcallbacks hfiles hfinish herror ha =>
      -- the error of the stream stands before the `finish`
      have hnot : ¬FinishedFirst (es ++ [.finish]) := by
        rw [FinishedFirst, finishedAfter_concat]
        rintro (h | ⟨-, hnone⟩)
        · exact not_finishedAfter hfinish h
        · exact hnone err herror
      have hfirst : FailedFirst (es ++ [.finish]) :=
        finishedAfter_concat.mpr (Or.inr ⟨rfl, err, herror⟩)
      simp only [onFinish, hreturned, ↓reduceIte, removeMessage, honce]
      exact .finding err rfl rfl hfailed rfl hcallbacks
        ⟨_, List.mem_append_right _ List.mem_cons_self, rfl⟩ hnot hfirst ha
    | refused hup | finding _ hup | deleting _ _ hup | removed _ hup | stored hup | failed _ hup
    | stuck hup => rw [hcond.1] at hup; exact nomatch hup
  · exact nomatch hstep

theorem at_uploadError {err : Error} (h : At a es s) (hstep : step s (.uploadError err) = some s') :
    At (a ∧ Sound s (.uploadError err)) (es ++ [.uploadError err]) s' := by
  simp only [step] at hstep
  split at hstep
  · next hrun =>
    obtain rfl := Option.some.inj hstep
    cases h with
    | running hupload hreturned hfailed _ hremoval hcallbacks _ hfinish _ ha =>
      simp only [onUploadError, hreturned, Bool.false_eq_true, ↓reduceIte, callback, hcallbacks,
        List.nil_append]
      exact .failed err rfl rfl hremoval rfl (notMem_concat hfinish nofun) ⟨ha, hfailed⟩
    | failing err hupload hreturned hfailed _ hremoval hcallbacks _ hfinish =>
      simp only [onUploadError, hreturned, ↓reduceIte]
      -- the listener returns at once, and `finish` is never emitted: nobody calls back
      refine .stuck rfl rfl hremoval hcallbacks (notMem_concat hfinish nofun) ?_
      rintro ⟨-, hsound⟩
      exact nomatch hsound.symm.trans hfailed
    | refused hup | finding _ hup | deleting _ _ hup | removed _ hup | stored hup | failed _ hup
    | stuck hup => rw [hrun] at hup; exact nomatch hup
  · exact nomatch hstep

/-- `removeMessage` at its `findOne`. -/
theorem at_findOne {choice : Nat} {outcome : Outcome} {err : Error} (h : At a es s)
    (hfind : s.removal = some (.findOne err)) (hstep : step s (.exec choice outcome) = some s') :
    At (a ∧ Sound s (.exec choice outcome)) (es ++ [.exec choice outcome]) s' := by
  have hsound : Sound s (.exec choice outcome) ↔ outcome = .ok ∧
      ((pick (s.db.files.filter (·.filename == filename s.id)) choice).map (·._id)) =
        some s.fileId := by
    simp only [Sound, hfind]
  have hne : Event.exec choice outcome ≠ .finish := nofun
  have hfin {p : List Event → Prop} :
      FinishedAfter p (es ++ [.exec choice outcome]) ↔ FinishedAfter p es :=
    finishedAfter_concat_of_ne hne
  have hreply : (s.db.exec choice (.findFile s.id)).2 =
    .file (pick (s.db.files.filter (·.filename == filename s.id)) choice) := rfl
  cases h with
  | finding err' hupload hreturned hfailed hremoval hcallbacks hfile hes hfirst ha =>
    -- the file is still there when the call fails, or finds nothing
    have hleft (hnot : ¬Sound s (.exec choice outcome)) :
        At (a ∧ Sound s (.exec choice outcome)) (es ++ [.exec choice outcome]) (s.removed err) := by
      obtain ⟨file, hmem, hid⟩ := hfile
      refine .removed err hupload hreturned rfl ?_ (mt hfin.mp hes) (hfin.mpr hfirst) ?_
      · simp [removed, callback, hcallbacks]
      · exact iff_of_false (fun h => hnot h.2) fun hgone => hgone.1 file hmem hid
    simp only [step, exec, hfind, hreply] at hstep
    split at hstep
    · next file hpick =>
      -- the id that is deleted is that of the file `findOne` picked among those with the name
      obtain rfl := Option.some.inj hstep
      refine .deleting file._id err hupload hreturned hfailed rfl hcallbacks hfile
        (mt hfin.mp hes) (hfin.mpr hfirst) ?_
      rw [hsound, Reply.file.inj hpick]
      simp [ha]
    · next hnone =>
      obtain rfl := Option.some.inj hstep
      refine hleft fun hs => ?_
      obtain ⟨hok, hpick⟩ := hsound.mp hs
      obtain ⟨file, hfile, -⟩ := Option.map_eq_some_iff.mp hpick
      exact hnone file hok (by rw [hfile])
  | refused _ hrem | running _ _ _ _ hrem | failing _ _ _ _ _ hrem | deleting _ _ _ _ _ hrem
  | removed _ _ _ hrem | stored _ _ hrem | failed _ _ _ hrem | stuck _ _ hrem =>
    rw [hfind] at hrem; exact nomatch hrem

theorem gone_deleteFile (s : StoreStream) (choice : Nat) :
    { s with db := (s.db.exec choice (.deleteFile s.fileId)).1 }.Gone := by
  constructor
  · intro file hfile
    simpa using (List.mem_filter.mp hfile).2
  · intro chunk hchunk
    simpa using (List.mem_filter.mp hchunk).2

/-- `removeMessage` at its `delete`. -/
theorem at_delete {choice : Nat} {outcome : Outcome} {fileId : ObjectId} {err : Error}
    (h : At a es s) (hdelete : s.removal = some (.delete fileId err))
    (hstep : step s (.exec choice outcome) = some s') :
    At (a ∧ Sound s (.exec choice outcome)) (es ++ [.exec choice outcome]) s' := by
  have hsound : Sound s (.exec choice outcome) ↔ outcome ≠ .failed := by
    simp only [Sound, hdelete]
  have hne : Event.exec choice outcome ≠ .finish := nofun
  have hfin {p : List Event → Prop} :
      FinishedAfter p (es ++ [.exec choice outcome]) ↔ FinishedAfter p es :=
    finishedAfter_concat_of_ne hne
  cases h with
  | deleting fileId' err' hupload hreturned hfailed hremoval hcallbacks hfile hes hfirst ha =>
    obtain ⟨file, hmem, hid⟩ := hfile
    rw [hdelete] at hremoval
    obtain ⟨rfl, rfl⟩ := Removal.delete.inj (Option.some.inj hremoval)
    simp only [step, exec, hdelete] at hstep
    split at hstep
    · next hlost =>
      obtain rfl := Option.some.inj hstep
      refine .removed err hupload hreturned rfl ?_ (mt hfin.mp hes) (hfin.mpr hfirst) ?_
      · simp [removed, callback, hcallbacks]
      · exact iff_of_false (fun h => hsound.mp h.2 hlost) fun hgone => hgone.1 file hmem hid
    · next hdone =>
      obtain rfl := Option.some.inj hstep
      refine .removed err hupload hreturned rfl ?_ (mt hfin.mp hes) (hfin.mpr hfirst) ?_
      · simp [removed, callback, hcallbacks]
      · rw [and_iff_left (hsound.mpr hdone), ha]
        constructor
        · rintro rfl
          exact gone_deleteFile s choice
        · intro hgone
          -- the file of another upload was deleted
          by_contra hother
          have hkept : file ∈ s.db.files.filter (·._id != fileId) :=
            List.mem_filter.mpr ⟨hmem, by simpa [hid] using Ne.symm hother⟩
          exact hgone.1 file hkept hid
  | refused _ hrem | running _ _ _ _ hrem | failing _ _ _ _ _ hrem | finding _ _ _ _ hrem
  | removed _ _ _ hrem | stored _ _ hrem | failed _ _ _ hrem | stuck _ _ hrem =>
    rw [hdelete] at hrem; exact nomatch hrem

/-- Where a call is behind one more event. -/
theorem at_step (h : At a es s) (hstep : step s e = some s') :
    At (a ∧ Sound s e) (es ++ [e]) s' := by
  cases e with
  | sourceEnd =>
    rw [show Sound s .sourceEnd ↔ True from Iff.rfl, and_true]
    exact at_sourceEnd h hstep
  | sourceError err =>
    rw [show Sound s (.sourceError err) ↔ True from Iff.rfl, and_true]
    exact at_sourceError h hstep
  | chunk _id =>
    rw [show Sound s (.chunk _id) ↔ True from Iff.rfl, and_true]
    exact at_chunk h hstep
  | finish =>
    rw [show Sound s .finish ↔ True from Iff.rfl, and_true]
    exact at_finish h hstep
  | uploadError err => exact at_uploadError h hstep
  | exec choice outcome =>
    cases hremoval : s.removal with
    | none =>
      simp only [step, exec, hremoval] at hstep
      exact nomatch hstep
    | some removal =>
      cases removal with
      | findOne err => exact at_findOne h hremoval hstep
      | delete fileId err => exact at_delete h hremoval hstep

/-! ## Runs -/

variable {queue : StoreQueue} {db : Database} {id : String} {fileId : ObjectId}

theorem at_store (hfresh : ∀ file ∈ db.files, file._id ≠ fileId) :
    At True [] (queue.store db id fileId) := by
  have hrunning (id : String) :
      At True [] { db := db, id := id, fileId := fileId, upload := some .running } :=
    .running rfl rfl rfl rfl rfl rfl hfresh (by simp) (by simp) trivial
  cases queue with
  | mailQueue closing next =>
    cases closing with
    | true => exact .refused rfl rfl rfl rfl trivial
    | false => exact hrunning _
  | remoteQueue => exact hrunning id

/-- Where a call is behind a run. -/
theorem at_run (hfresh : ∀ file ∈ db.files, file._id ≠ fileId)
    (hrun : run step (queue.store db id fileId) es = some s) :
    At (Along step Sound (queue.store db id fileId) es) es s :=
  run_history (at_store hfresh) (fun _ _ _ _ _ h hstep => at_step h hstep) hrun

/-- `store` calls back once in every complete run, with the id if and only if the upload finished
    and the stream had not failed before, and behind the removal of the file of a stream that had
    failed, if and only if the upload never fails behind the stream and `removeMessage` succeeds. -/
theorem calledBack_iff (hfresh : ∀ file ∈ db.files, file._id ≠ fileId)
    (hrun : run step (queue.store db id fileId) es = some s) (hdone : s.Done) :
    CalledBack (queue.store db id fileId) es s ↔
      Along step Sound (queue.store db id fileId) es := by
  have hat := at_run hfresh hrun
  constructor
  · intro h
    obtain ⟨result, honce⟩ := h.once
    cases hat with
    | refused _ _ _ _ ha | stored _ _ _ _ _ _ ha | failed _ _ _ _ _ _ ha => exact ha
    | running hup | failing _ hup => exact absurd hup hdone.1
    | finding _ _ _ _ hrem | deleting _ _ _ _ _ hrem => rw [hdone.2] at hrem; exact nomatch hrem
    | removed err hupload _ _ hcallbacks _ hfirst ha =>
      exact ha.mpr (h.removed es [] s (List.append_nil es).symm hrun hfirst (by simp [hcallbacks]))
    | stuck _ _ _ hcallbacks => rw [hcallbacks] at honce; exact nomatch honce
  · intro hsound
    refine ⟨?_, ?_, ?_⟩
    · cases hat with
      | refused _ _ hcallbacks => exact ⟨_, hcallbacks⟩
      | running hup | failing _ hup => exact absurd hup hdone.1
      | finding _ _ _ _ hrem | deleting _ _ _ _ _ hrem => rw [hdone.2] at hrem; exact nomatch hrem
      | removed _ _ _ _ hcallbacks | stored _ _ _ hcallbacks | failed _ _ _ _ hcallbacks =>
        exact ⟨_, hcallbacks⟩
      | stuck _ _ _ _ _ ha => exact absurd hsound ha
    · intro id'
      cases hat with
      | refused _ _ hcallbacks hes =>
        have hnot : ¬FinishedFirst es := not_finishedAfter (by simp [hes])
        simp [hcallbacks, hnot]
      | running hup | failing _ hup => exact absurd hup hdone.1
      | finding _ _ _ _ hrem | deleting _ _ _ _ _ hrem => rw [hdone.2] at hrem; exact nomatch hrem
      | removed _ _ _ _ hcallbacks hes => simp [hcallbacks, hes]
      | stored _ _ _ hcallbacks hes => simp [hcallbacks, hes]
      | failed _ _ _ _ hcallbacks hfinish =>
        have hnot : ¬FinishedFirst es := not_finishedAfter hfinish
        simp [hcallbacks, hnot]
      | stuck _ _ _ _ _ ha => exact absurd hsound ha
    · rintro es₁ es₂ t rfl hrun₁ hfirst hcalled
      -- a callback behind a failed stream is only made by `removeMessage`
      have hsound₁ := hsound.append_left
      cases at_run hfresh hrun₁ with
      | refused _ _ _ hes => exact absurd hfirst (not_finishedAfter (by simp [hes]))
      | running _ _ _ _ _ hcallbacks | failing _ _ _ _ _ _ hcallbacks
      | finding _ _ _ _ _ hcallbacks | deleting _ _ _ _ _ _ hcallbacks
      | stuck _ _ _ hcallbacks => exact absurd hcallbacks hcalled
      | removed _ _ _ _ _ _ _ ha => exact ha.mp hsound₁
      | stored _ _ _ _ _ hnot => exact absurd hfirst hnot
      | failed _ _ _ _ _ hfinish => exact absurd hfirst (not_finishedAfter hfinish)

/-- A stream that fails, and whose file is removed. -/
theorem calledBack_removed :
    CalledBack (StoreQueue.remoteQueue.store {} "1" ⟨1, 1⟩)
        [.sourceError ⟨"SMTPResponse", ""⟩, .finish, .exec 0 .ok, .exec 0 .ok]
        { db := {}
          id := "1"
          fileId := ⟨1, 1⟩
          upload := some .finished
          ended := true
          sourceFailed := true
          returned := true
          callbacks := [.failed ⟨"SMTPResponse", ""⟩] } :=
  (calledBack_iff (by simp) (by decide +kernel) ⟨by decide, rfl⟩).mpr (by decide +kernel)

/-- A stream that fails, and then its upload: nobody calls back. -/
theorem not_calledBack :
    ∃ s, run step (StoreQueue.remoteQueue.store {} "1" ⟨1, 1⟩)
        [.sourceError ⟨"SMTPResponse", ""⟩, .uploadError ⟨"MongoError", ""⟩] = some s ∧ s.Done ∧
      ¬CalledBack (StoreQueue.remoteQueue.store {} "1" ⟨1, 1⟩)
        [.sourceError ⟨"SMTPResponse", ""⟩, .uploadError ⟨"MongoError", ""⟩] s := by
  refine ⟨_, rfl, ⟨by decide, rfl⟩, fun h => ?_⟩
  obtain ⟨result, honce⟩ := h.once
  exact nomatch honce

end StoreStream

end ZoneMta
