import ZoneMta.Spec.MasterCorrect

/-!
# The sweep

`clearGarbage` deletes the files and chunks whose ids are older than the oldest document of the
queue, or than the present where the queue is empty, less ten minutes. The file of a message
has the time at which its upload was opened, its documents have the time of `push`.

The invariant compares each cut-off with the uploads of a message: as long as no document of
the message is queued, the clock is ahead of the cut-off by ten minutes; from `push` on, the
cut-off is not later than the upload.

## Key results

- `swept_step`: the invariant
- `sweep_spares`: a message that is pushed within ten minutes is not swept
- `sweep_slowUpload`: a message that takes longer, and loses a chunk
-/

namespace ZoneMta

open ForStd (run Along)

/-! ## Cut-offs -/

/-- The task has computed the cut-off, and does the deletions or will do them. -/
def Task.Cuts (task : Task) (cutoff : ObjectId) : Prop :=
  task.job = .filesDeleted cutoff ∨ task.wait = .call (.deleteFiles cutoff) ∨
    task.wait = .call (.deleteChunks cutoff)

/-- The cut-off is ten minutes earlier, up to half a second, unless the clock starts then. -/
theorem time_cutoffOf (clearUntil : Nat) :
    (cutoffOf clearUntil).time = 0 ∨ (cutoffOf clearUntil).time + 599 ≤ clearUntil / 1000 := by
  show roundSeconds (clearUntil - 10 * 60 * 1000) = 0 ∨
    roundSeconds (clearUntil - 10 * 60 * 1000) + 599 ≤ clearUntil / 1000
  unfold roundSeconds
  omega

theorem not_cuts_starts {task : Task} (h : Master.Starts task) {cutoff : ObjectId} :
    ¬task.Cuts cutoff := by
  unfold Task.Cuts
  cases h <;> simp

/-- A cut-off comes from the lookup of the oldest document, or from the part of the sweep before
    it. -/
theorem Goes.cuts {cfg : Config} {now : Nat} {task next : Task} {cutoff : ObjectId}
    (h : Goes cfg now task next) (hcuts : next.Cuts cutoff) :
    task.job = .filesDeleted cutoff ∨
      ∃ delivery, task = ⟨.oldestFound, .reply (.delivery delivery)⟩ ∧
        cutoff = cutoffOf (clearUntil now delivery) := by
  unfold Task.Cuts at hcuts
  cases h with
  | oldestFound delivery =>
    refine Or.inr ⟨delivery, rfl, ?_⟩
    simpa [eq_comm] using hcuts
  | filesDeleted cutoff' =>
    refine Or.inl ?_
    simpa using hcuts
  | released _ _ hreturns => cases hreturns <;> simp at hcuts
  | _ => simp at hcuts

/-- The callback that waits for the oldest document has called `findOne`. -/
theorem Goes.findsOldest {cfg : Config} {now : Nat} {task next : Task}
    (h : Goes cfg now task next) (hjob : next.job = .oldestFound) :
    next.wait = .call .findOldest := by
  cases h with
  | noMaximum => rfl
  | expiredEnd => rfl
  | released _ _ hreturns => cases hreturns <;> exact nomatch hjob
  | _ => exact nomatch hjob

namespace Master

variable {cfg : Config} {s s' : Master} {id : String}

/-! ## Messages -/

/-- The uploads of the message were opened in the last ten minutes. -/
def Recent (s : Master) (id : String) : Prop :=
  ∀ upload ∈ s.uploads, upload.id = id → s.seconds < upload.fileId.time + 600

/-- The message is pushed less than ten minutes after its upload was opened. If a sweep finds
    the queue empty, and the message is pushed before its callback runs, the callback runs
    within these ten minutes. -/
def Timely (id : String) (s : Master) : Event → Prop
  | .push id' _ => id' = id → s.Recent id
  | .resume n =>
    s.tasks.lookup n = some ⟨.oldestFound, .reply (.delivery none)⟩ → s.Queued id → s.Recent id
  | _ => True

instance (s : Master) (id : String) : Decidable (s.Recent id) :=
  inferInstanceAs (Decidable (∀ upload ∈ s.uploads, _))

instance (id : String) (s : Master) : (e : Event) → Decidable (Timely id s e)
  | .push .. | .resume .. => inferInstanceAs (Decidable (_ → _))
  | .tick .. | .connect .. | .hello .. | .close .. | .get .. | .request .. | .exec ..
  | .checkExpired | .cacheExpired | .remove .. | .clearGarbage | .openUpload .. | .writeChunk ..
  | .finishUpload .. | .setMeta .. => isTrue trivial

/-- The time is not later than the present, and within ten minutes of the uploads of the message
    if the message is queued. -/
structure Within (s : Master) (id : String) (time : Nat) : Prop where
  clock : time ≤ s.seconds
  uploads : s.Queued id →
    ∀ upload ∈ s.uploads, upload.id = id → time < upload.fileId.time + 600

/-- The cut-off is not later than the uploads of the message if the message is queued, and it
    will not be if it is pushed in time. -/
def Behind (s : Master) (id : String) (cutoff : ObjectId) : Prop :=
  cutoff.unique = 0 ∧ (cutoff.time = 0 ∨ s.Within id (cutoff.time + 599))

theorem Recent.within (h : s.Recent id) {time : Nat} (htime : time ≤ s.seconds) :
    s.Within id time where
  clock := htime
  uploads _ upload hupload hid := Nat.lt_of_le_of_lt htime (h upload hupload hid)

/-- The cut-off of a sweep that goes by such a time. -/
theorem Within.behind {time : Nat} (h : s.Within id (time / 1000)) :
    s.Behind id (cutoffOf time) := by
  refine ⟨rfl, (time_cutoffOf time).imp_right fun htime => ⟨?_, fun hqueued upload hup hid => ?_⟩⟩
  · exact Nat.le_trans htime h.clock
  · exact Nat.lt_of_le_of_lt htime (h.uploads hqueued upload hup hid)

theorem seconds_step {e : Event} (h : s.step cfg e = some s') : s.seconds ≤ s'.seconds :=
  Nat.div_le_div_right (now_step h)

theorem within_step {e : Event} (he : Timely id s e) (h : s.step cfg e = some s') {time : Nat}
    (hs : s.Within id time) : s'.Within id time := by
  have hclock := hs.clock
  refine ⟨Nat.le_trans hclock (seconds_step h), ?_⟩
  rintro ⟨delivery, hdelivery, hid⟩ upload hupload huploadId
  rcases mem_uploads_step h hupload with ⟨before, hbefore, hbeforeId, hfile⟩ | ⟨htime, -⟩
  · rw [← hfile]
    rcases mem_queue_step h hdelivery with ⟨queued, hqueued, -, hqueuedId, -⟩ |
      ⟨recipients, rfl, -⟩
    · exact hs.uploads ⟨queued, hqueued, hqueuedId.trans hid⟩ before hbefore
        (hbeforeId.trans huploadId)
    · -- the message is pushed now
      exact Nat.lt_of_le_of_lt hclock (he hid before hbefore (hbeforeId.trans huploadId))
  · omega

theorem behind_step {e : Event} (he : Timely id s e) (h : s.step cfg e = some s')
    {cutoff : ObjectId} (hs : s.Behind id cutoff) : s'.Behind id cutoff :=
  ⟨hs.1, hs.2.imp_right (within_step he h)⟩

/-! ## The invariant -/

/-- What holds in a run whose steps are timely for the message. -/
structure Swept (s : Master) (id : String) : Prop where
  clock : ∀ delivery ∈ s.db.queue, delivery._id.time ≤ s.seconds
  queue : ∀ delivery ∈ s.db.queue, delivery.id = id → s.Within id delivery._id.time
  files : ∀ file ∈ s.db.files,
    ∃ upload ∈ s.uploads, upload.fileId = file._id ∧ filename upload.id = file.filename
  chunks : ∀ chunk ∈ s.db.chunks,
    chunk._id.unique ≠ 0 ∧ chunk.files_id.time ≤ chunk._id.time
  unique : ∀ upload ∈ s.uploads, upload.fileId.unique ≠ 0
  cutoffs : ∀ n task cutoff, s.tasks.lookup n = some task → task.Cuts cutoff →
    s.Behind id cutoff
  findsOldest : ∀ n call, s.tasks.lookup n = some ⟨.oldestFound, .call call⟩ →
    call = .findOldest
  oldest : ∀ n delivery,
    s.tasks.lookup n = some ⟨.oldestFound, .reply (.delivery (some delivery))⟩ →
      s.Within id delivery._id.time

section swept_step

variable {e : Event} (hs : Swept s id) (he : Timely id s e) (h : s.step cfg e = some s')

include hs h

theorem swept_clock (delivery : Delivery) (hdelivery : delivery ∈ s'.db.queue) :
    delivery._id.time ≤ s'.seconds := by
  have hseconds := seconds_step h
  rcases mem_queue_step h hdelivery with ⟨before, hbefore, htime, -⟩ |
      ⟨recipients, -, htime, -⟩
  · have hclock := hs.clock before hbefore
    rw [htime] at hclock
    omega
  · omega

include he in
theorem swept_queue (delivery : Delivery) (hdelivery : delivery ∈ s'.db.queue)
    (hid : delivery.id = id) : s'.Within id delivery._id.time := by
  refine within_step he h ?_
  rcases mem_queue_step h hdelivery with ⟨before, hbefore, htime, hbeforeId, -⟩ |
    ⟨recipients, rfl, htime, -⟩
  · rw [← htime]
    exact hs.queue before hbefore (hbeforeId.trans hid)
  · exact Recent.within (he hid) htime

theorem swept_files (file : File) (hfile : file ∈ s'.db.files) :
    ∃ upload ∈ s'.uploads, upload.fileId = file._id ∧ filename upload.id = file.filename := by
  have hold : ∃ upload ∈ s.uploads,
      upload.fileId = file._id ∧ filename upload.id = file.filename := by
    rcases mem_files_step h hfile with ⟨before, hbefore, hid, hname⟩ | hupload
    · rw [← hid, ← hname]
      exact hs.files before hbefore
    · exact hupload
  obtain ⟨upload, hupload, hid, hname⟩ := hold
  obtain ⟨after, hafter, hafterId, hafterFile⟩ := exists_upload_step h hupload
  exact ⟨after, hafter, hafterFile.trans hid, hafterId ▸ hname⟩

theorem swept_chunks (chunk : Chunk) (hchunk : chunk ∈ s'.db.chunks) :
    chunk._id.unique ≠ 0 ∧ chunk.files_id.time ≤ chunk._id.time := by
  rcases mem_chunks_step h hchunk with hchunk | hnew
  · exact hs.chunks chunk hchunk
  · exact hnew

theorem swept_unique (upload : Upload) (hupload : upload ∈ s'.uploads) :
    upload.fileId.unique ≠ 0 := by
  rcases mem_uploads_step h hupload with ⟨before, hbefore, -, hfile⟩ | ⟨-, hunique⟩
  · rw [← hfile]
    exact hs.unique before hbefore
  · exact hunique

include he in
theorem swept_cutoffs (n : Nat) (task : Task) (cutoff : ObjectId)
    (htask : s'.tasks.lookup n = some task) (hcuts : task.Cuts cutoff) :
    s'.Behind id cutoff := by
  refine behind_step he h ?_
  rcases lookup_tasks_of_step h htask with hbefore | hstart |
    ⟨job, call, reply, rfl, hbefore, -⟩ | ⟨before, rfl, hbefore, hgoes⟩
  · exact hs.cutoffs n task cutoff hbefore hcuts
  · exact absurd hcuts (not_cuts_starts hstart)
  · rcases hcuts with hjob | hwait | hwait
    · exact hs.cutoffs n _ cutoff hbefore (Or.inl hjob)
    · exact nomatch hwait
    · exact nomatch hwait
  · rcases hgoes.cuts hcuts with hjob | ⟨delivery, rfl, rfl⟩
    · exact hs.cutoffs n _ cutoff hbefore (Or.inl hjob)
    · refine Within.behind ?_
      cases delivery with
      | some delivery =>
        show s.Within id (delivery._id.time * 1000 / 1000)
        rw [Nat.mul_div_cancel _ (by omega)]
        exact hs.oldest n delivery hbefore
      | none =>
        -- the callback may run late
        refine ⟨Nat.le_refl _, fun hqueued upload hupload hid => ?_⟩
        exact he hbefore hqueued upload hupload hid

theorem swept_findsOldest (n : Nat) (call : Call)
    (htask : s'.tasks.lookup n = some ⟨.oldestFound, .call call⟩) : call = .findOldest := by
  rcases lookup_tasks_of_step h htask with hbefore | hstart |
    ⟨job, call, reply, heq, -⟩ | ⟨before, rfl, hbefore, hgoes⟩
  · exact hs.findsOldest n call hbefore
  · exact nomatch hstart
  · exact nomatch heq
  · injection hgoes.findsOldest rfl

include he in
theorem swept_oldest (n : Nat) (delivery : Delivery)
    (htask : s'.tasks.lookup n =
      some ⟨.oldestFound, .reply (.delivery (some delivery))⟩) :
    s'.Within id delivery._id.time := by
  refine within_step he h ?_
  rcases lookup_tasks_of_step h htask with hbefore | hstart |
    ⟨job, call, reply, heq, hbefore, hreply⟩ | ⟨before, rfl, hbefore, hgoes⟩
  · exact hs.oldest n delivery hbefore
  · exact nomatch hstart
  · injection heq with hjob hwait
    injection hwait with hwait
    subst hjob hwait
    obtain rfl := hs.findsOldest n call hbefore
    rcases hreply with hreply | ⟨choice, hreply⟩
    · exact nomatch hreply
    · injection hreply with holdest
      have hmem := oldest_mem holdest.symm
      refine ⟨hs.clock delivery hmem, ?_⟩
      rintro ⟨queued, hqueued, hid⟩ upload hupload huploadId
      -- the documents of the message are not older
      have hle := oldest_le holdest.symm hqueued
      have hwithin := (hs.queue queued hqueued hid).uploads ⟨queued, hqueued, hid⟩ upload hupload
        huploadId
      omega
  · exact nomatch hgoes.findsOldest rfl

include he in
/-- A timely step keeps the invariant. -/
theorem swept_step : Swept s' id where
  clock := swept_clock hs h
  queue := swept_queue hs he h
  files := swept_files hs h
  chunks := swept_chunks hs h
  unique := swept_unique hs h
  cutoffs := swept_cutoffs hs he h
  findsOldest := swept_findsOldest hs h
  oldest := swept_oldest hs he h

end swept_step

/-- The master process before its first message. -/
theorem swept_init (suppressionlist : List Suppressed) (id : String) :
    Swept { db := { suppressionlist := suppressionlist } } id where
  clock _ h := absurd h List.not_mem_nil
  queue _ h := absurd h List.not_mem_nil
  files _ h := absurd h List.not_mem_nil
  chunks _ h := absurd h List.not_mem_nil
  unique _ h := absurd h List.not_mem_nil
  cutoffs n _ _ h := nomatch (AList.lookup_empty n).symm.trans h
  findsOldest n _ h := nomatch (AList.lookup_empty n).symm.trans h
  oldest n _ h := nomatch (AList.lookup_empty n).symm.trans h

/-! ## The deletions -/

/-- A `deleteMany` of a sweep takes effect, or fails. -/
def Sweeps (s : Master) : Event → Prop
  | .exec n _ _ => ∃ job cutoff, s.tasks.lookup n = some ⟨job, .call (.deleteFiles cutoff)⟩ ∨
      s.tasks.lookup n = some ⟨job, .call (.deleteChunks cutoff)⟩
  | _ => False

/-- What is stored of the message is still there: its file, and the chunks of its uploads. -/
structure Spared (s s' : Master) (id : String) : Prop where
  files : ∀ file ∈ s.db.files, file.filename = filename id → file ∈ s'.db.files
  chunks : ∀ chunk ∈ s.db.chunks,
    (∃ upload ∈ s.uploads, upload.id = id ∧ upload.fileId = chunk.files_id) →
      chunk ∈ s'.db.chunks

/-- A cut-off is not later than the uploads of a message that is queued or will be pushed in
    time. -/
theorem Behind.le_upload {cutoff : ObjectId} (hcutoff : s.Behind id cutoff)
    (hlive : s.Queued id ∨ ∃ t : Master, s.seconds ≤ t.seconds ∧ t.Recent id ∧
      ∀ upload ∈ s.uploads, ∃ after ∈ t.uploads,
        after.id = upload.id ∧ after.fileId = upload.fileId)
    {upload : Upload} (hupload : upload ∈ s.uploads) (hid : upload.id = id) :
    cutoff.time ≤ upload.fileId.time := by
  rcases hcutoff.2 with hzero | hwithin
  · omega
  · rcases hlive with hqueued | ⟨t, hseconds, hrecent, hkept⟩
    · have hlt := hwithin.uploads hqueued upload hupload hid
      omega
    · obtain ⟨after, hafter, hafterId, hfile⟩ := hkept upload hupload
      have hclock := hwithin.clock
      have hlt := hrecent after hafter (hafterId.trans hid)
      rw [hfile] at hlt
      omega

/-- What is not older than the cut-off is not deleted. -/
theorem spared_exec {n choice : Nat} {outcome : Outcome} {job : Job} {call : Call}
    {cutoff : ObjectId} (hcall : call = .deleteFiles cutoff ∨ call = .deleteChunks cutoff)
    (hs : Swept s id) (hunique : cutoff.unique = 0)
    (hle : ∀ upload ∈ s.uploads, upload.id = id → cutoff.time ≤ upload.fileId.time) :
    Spared s (s.exec n ⟨job, .call call⟩ call choice outcome) id := by
  obtain ⟨db, reply, hexec, hdb, -⟩ := exec_cases s n job call choice outcome
  rw [hexec]
  obtain ⟨time, unique⟩ := cutoff
  obtain rfl : unique = 0 := hunique
  constructor
  · intro file hfile hname
    rcases hdb with rfl | rfl
    · exact hfile
    · obtain ⟨upload, hupload, hid, huploadName⟩ := hs.files file hfile
      have hmine := filename_inj (huploadName.trans hname)
      rcases hcall with rfl | rfl
      · refine List.mem_filter.mpr ⟨hfile, ?_⟩
        have hold := hle upload hupload hmine
        have hfresh := hs.unique upload hupload
        rw [hid] at hold hfresh
        rw [Bool.not_eq_true', ← Bool.not_eq_true, show (⟨time, 0⟩ : ObjectId) =
          .createFromTime time from rfl, ObjectId.ble_createFromTime hfresh]
        exact Nat.not_lt.mpr hold
      · exact hfile
  · rintro chunk hchunk ⟨upload, hupload, hmine, hid⟩
    rcases hdb with rfl | rfl
    · exact hchunk
    · rcases hcall with rfl | rfl
      · exact hchunk
      · refine List.mem_filter.mpr ⟨hchunk, ?_⟩
        obtain ⟨hfresh, hafter⟩ := hs.chunks chunk hchunk
        have hold := hle upload hupload hmine
        rw [hid] at hold
        rw [Bool.not_eq_true', ← Bool.not_eq_true, show (⟨time, 0⟩ : ObjectId) =
          .createFromTime time from rfl, ObjectId.ble_createFromTime hfresh]
        exact Nat.not_lt.mpr (Nat.le_trans hold hafter)

/-- Uploads do not go away, and time does not go back, in a run. -/
theorem exists_upload_run {es : List Event} (hrun : run (step cfg) s es = some s') :
    s.seconds ≤ s'.seconds ∧ ∀ upload ∈ s.uploads, ∃ after ∈ s'.uploads,
      after.id = upload.id ∧ after.fileId = upload.fileId := by
  refine ForStd.run_invariant (I := fun t => s.seconds ≤ t.seconds ∧ ∀ upload ∈ s.uploads,
    ∃ after ∈ t.uploads, after.id = upload.id ∧ after.fileId = upload.fileId) ?_
    ⟨Nat.le_refl _, fun upload hupload => ⟨upload, hupload, rfl, rfl⟩⟩ hrun
  rintro t e t' ⟨hseconds, hkept⟩ hstep
  refine ⟨Nat.le_trans hseconds (seconds_step hstep), fun upload hupload => ?_⟩
  obtain ⟨before, hbefore, hid, hfile⟩ := hkept upload hupload
  obtain ⟨after, hafter, hafterId, hafterFile⟩ := exists_upload_step hstep hbefore
  exact ⟨after, hafter, hafterId.trans hid, hafterFile.trans hfile⟩

/-- In every run whose steps are timely for a message, no deletion of a sweep takes its file or
    its chunks while it is queued or before it is pushed. -/
theorem sweep_spares {suppressionlist : List Suppressed} {es es' : List Event} {e : Event}
    (hes : Along (step cfg) (Timely id) { db := { suppressionlist := suppressionlist } }
      (es ++ e :: es'))
    (hrun : run (step cfg) { db := { suppressionlist := suppressionlist } } es = some s)
    (hstep : s.step cfg e = some s') (hrun' : (run (step cfg) s' es').isSome = true)
    (hsweep : s.Sweeps e)
    (hlive : s.Queued id ∨ ∃ recipients, .push id recipients ∈ es') : Spared s s' id := by
  have hs : Swept s id := ForStd.run_invariant_along
    (fun _ _ _ ht he hstep => swept_step ht he hstep) (swept_init suppressionlist id)
    hes.append_left hrun
  have hrest := (hes.of_append hrun).2 s' hstep
  cases step_cases hstep with
  | @exec n choice outcome job call htask =>
    obtain ⟨job', cutoff, hsweep⟩ := hsweep
    have hcall : call = .deleteFiles cutoff ∨ call = .deleteChunks cutoff := by
      rcases hsweep with h | h
      · injection htask.symm.trans h with heq
        injection heq with _ heq
        injection heq with heq
        exact Or.inl heq
      · injection htask.symm.trans h with heq
        injection heq with _ heq
        injection heq with heq
        exact Or.inr heq
    have hcutoff : s.Behind id cutoff := by
      refine hs.cutoffs n _ cutoff htask (Or.inr ?_)
      rcases hcall with rfl | rfl
      · exact Or.inl rfl
      · exact Or.inr rfl
    refine spared_exec hcall hs hcutoff.1 fun upload hupload hid =>
      hcutoff.le_upload ?_ hupload hid
    refine hlive.imp_right ?_
    rintro ⟨recipients, hpush⟩
    obtain ⟨s'', hs''⟩ := Option.isSome_iff_exists.mp hrun'
    obtain ⟨es₁, es₂, t, rfl, ht⟩ := ForStd.exists_run_of_mem hs'' hpush
    obtain ⟨hseconds, hkept⟩ := exists_upload_run (ForStd.run_cons_eq_some.mpr ⟨_, hstep, ht⟩)
    exact ⟨t, hseconds, (hrest.of_append ht).1 rfl, hkept⟩
  | _ => exact hsweep.elim

/-- A configuration of one zone, with sweeps. -/
def sweptZone : Config where
  instanceId := "default"
  sendingZone := some
  maxConnections _ := 0
  disableGC := false
  maxQueueTime := 0
  text := .ascii

/-- A sweep up to the `deleteMany` on the files. -/
def sweepFiles (task : Nat) : List Event :=
  [.clearGarbage, .exec task 0 .ok, .resume task, .exec task 0 .ok, .resume task]

/-- The recipient of the messages. -/
def oneRecipient (time : Nat) : Recipient where
  _id := ⟨time, 9⟩
  index := 1
  recipient := "user@example.com"
  domain := "example.com"
  sendingZone := "default"
  queued := time * 1000
  created := time * 1000

/-- An upload that is given up, a message a quarter of an hour later, and a sweep. -/
def quickUpload : List Event :=
  [.tick 1600000000000, .openUpload "gone" 1, .finishUpload ⟨1600000000, 1⟩,
    .tick 1600000900000, .openUpload "m" 2, .writeChunk ⟨1600000900, 2⟩ ⟨1600000900, 3⟩,
    .finishUpload ⟨1600000900, 2⟩, .push "m" [oneRecipient 1600000900],
    .tick 1600002000000] ++ sweepFiles 0

theorem sweep_spares_quickUpload :
    ∃ s s', run (step sweptZone) { db := { suppressionlist := [] } } quickUpload = some s ∧
      s.step sweptZone (.exec 0 0 .ok) = some s' ∧
        s.db.files.map (·.filename) = [filename "gone", filename "m"] ∧
          s'.db.files.map (·.filename) = [filename "m"] ∧ Spared s s' "m" := by
  have hfields : ((run (step sweptZone) {} quickUpload).map fun s =>
      (s.db.files.map (·.filename), (s.tasks.lookup 0).map (·.wait), s.db.queue.map (·.id),
        (s.step sweptZone (.exec 0 0 .ok)).map (·.db.files.map (·.filename)))) =
          some ([filename "gone", filename "m"],
            some (.call (.deleteFiles ⟨1600000300, 0⟩)), ["m"], some [filename "m"]) := by
    decide +kernel
  obtain ⟨s, hs, hfields⟩ := Option.map_eq_some_iff.mp hfields
  simp only [Prod.mk.injEq, Option.map_eq_some_iff] at hfields
  obtain ⟨hfiles, ⟨⟨job, wait⟩, htask, rfl⟩, hqueue, s', hstep, hfiles'⟩ := hfields
  have hqueued : s.Queued "m" := by
    have hmem : "m" ∈ s.db.queue.map (·.id) := by rw [hqueue]; exact List.mem_cons_self
    exact List.mem_map.mp hmem
  have htimely : Along (step sweptZone) (Timely "m") { db := { suppressionlist := [] } }
      (quickUpload ++ [.exec 0 0 .ok]) := by decide +kernel
  exact ⟨s, s', hs, hstep, hfiles, hfiles', sweep_spares htimely hs hstep rfl
    ⟨job, _, Or.inl htask⟩ (Or.inl hqueued)⟩

/-- A message is uploaded for eleven minutes; the queue is empty, and a sweep runs up to its
    `deleteMany` on the chunks. -/
def slowUpload : List Event :=
  [.tick 1600000000000, .openUpload "m" 1, .writeChunk ⟨1600000000, 1⟩ ⟨1600000000, 2⟩,
    .tick (1600000000000 + 11 * 60 * 1000)] ++ sweepFiles 0 ++ [.exec 0 0 .ok, .resume 0]

theorem sweep_slowUpload :
    ¬∀ (cfg : Config) (id : String) (es es' : List Event) (e : Event) (s s' : Master),
      run (step cfg) {} es = some s → s.step cfg e = some s' →
        (run (step cfg) s' es').isSome = true → s.Sweeps e →
          (s.Queued id ∨ ∃ recipients, .push id recipients ∈ es') → Spared s s' id := by
  intro h
  have hfields : ((run (step sweptZone) {} slowUpload).map fun s =>
      ((s.tasks.lookup 0).map (·.wait), s.db.chunks, s.uploads)) =
        some (some (.call (.deleteChunks ⟨1600000060, 0⟩)),
          [⟨⟨1600000000, 2⟩, ⟨1600000000, 1⟩⟩], [⟨"m", ⟨1600000000, 1⟩, false⟩]) := by
    decide +kernel
  have hafter : (run (step sweptZone) {} (slowUpload ++ [.exec 0 0 .ok])).map (·.db.chunks) =
      some [] := by
    decide +kernel
  have hend : (run (step sweptZone) {} (slowUpload ++ [.exec 0 0 .ok] ++
      [.finishUpload ⟨1600000000, 1⟩, .push "m" [oneRecipient 1600000660]])).isSome = true := by
    decide +kernel
  obtain ⟨s', hs', hchunks'⟩ := Option.map_eq_some_iff.mp hafter
  rw [ForStd.run_append, hs', Option.bind_some] at hend
  obtain ⟨s, hs, hstep⟩ := ForStd.run_concat.mp hs'
  rw [hs, Option.map_some] at hfields
  simp only [Option.some.injEq, Prod.mk.injEq, Option.map_eq_some_iff] at hfields
  obtain ⟨⟨⟨job, wait⟩, htask, rfl⟩, hchunks, huploads⟩ := hfields
  have hspared := h sweptZone "m" slowUpload _ (.exec 0 0 .ok) s s' hs hstep hend
    ⟨job, _, Or.inr htask⟩ (Or.inr ⟨_, List.mem_cons_of_mem _ List.mem_cons_self⟩)
  -- the chunk that was stored is gone
  have hchunk := hspared.chunks ⟨⟨1600000000, 2⟩, ⟨1600000000, 1⟩⟩
    (by rw [hchunks]; exact List.mem_cons_self)
    ⟨_, by rw [huploads]; exact List.mem_cons_self, rfl, rfl⟩
  rw [hchunks'] at hchunk
  exact List.not_mem_nil hchunk

end Master

end ZoneMta
