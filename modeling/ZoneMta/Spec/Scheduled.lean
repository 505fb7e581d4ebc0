import ZoneMta.Spec.Release

/-!
# Scheduled deliveries

`clearGarbage` releases the deliveries whose documents are older than `maxQueueTime`. It does not
look at `queued`, so a delivery that is scheduled later than that never gets its attempt. The
other deliveries are safe until their time: a pair of ids that a sweep has collected belongs to a
document that was too old when it was collected, and the sweep of the stored messages spares the
message as long as it has a document.

## Key results

- `Goes.expires`: a callback collects no other deliveries
- `scheduledInv_step`: the invariant
- `scheduled_stays`: a sweep leaves what is scheduled in time
- `scheduled_collected`: a delivery that is scheduled too late
-/

namespace ZoneMta

open ForStd (run Along)

/-! ## The calls of clearGarbage -/

/-- The callbacks of `clearGarbage`, with those of its `releaseDelivery`. -/
def Job.collects : Job → Bool
  | .unlocked | .expired | .expiredNext _ | .oldestFound | .filesDeleted _ | .chunksDeleted => true
  | .deleted _ _ _ (.clearGarbage _) | .reference _ (.clearGarbage _)
  | .removeMessage (.clearGarbage _) | .fileDeleted (.clearGarbage _) => true
  | _ => false

/-- A sweep has collected the delivery, and releases it or will release it. -/
inductive Expires (id seq : String) : Task → Prop where
  | found {deliveries : List Delivery}
      (h : ∃ delivery ∈ deliveries, delivery.isFor id seq = true) :
      Expires id seq ⟨.expired, .reply (.deliveries deliveries)⟩
  | next {rest : List Delivery} (wait : Wait)
      (h : ∃ delivery ∈ rest, delivery.isFor id seq = true) :
      Expires id seq ⟨.expiredNext rest, wait⟩
  | delete (_lock : String) (rest : List Delivery) (wait : Wait) :
      Expires id seq ⟨.deleted id seq _lock (.clearGarbage rest), wait⟩
  | rest {job : Job} {rest : List Delivery} (wait : Wait)
      (hcaller : job.caller? = some (.clearGarbage rest))
      (h : ∃ delivery ∈ rest, delivery.isFor id seq = true) : Expires id seq ⟨job, wait⟩

/-- A task is after the deliveries that it was after while its call took effect. -/
theorem Expires.of_reply {id seq : String} {job : Job} {reply : Reply} (wait : Wait)
    (h : Expires id seq ⟨job, .reply reply⟩) : job = .expired ∨ Expires id seq ⟨job, wait⟩ := by
  cases h with
  | found => exact Or.inl rfl
  | next _ h => exact Or.inr (.next wait h)
  | delete _lock rest => exact Or.inr (.delete _lock rest wait)
  | rest _ hcaller h => exact Or.inr (.rest wait hcaller h)

theorem not_expires_starts {id seq : String} {task : Task} (h : Master.Starts task) :
    ¬Expires id seq task := by
  rintro hexpires
  cases h <;> (cases hexpires; contradiction)

/-- A callback collects no other deliveries. -/
theorem Goes.expires {cfg : Config} {now : Nat} {task next : Task} {id seq : String}
    (h : Goes cfg now task next) (hnext : Expires id seq next) : Expires id seq task := by
  cases h with
  | deleted | unreferenced | removeMessage =>
    cases hnext with
    | rest _ hcaller h => exact .rest _ hcaller h
  | released reply hcaller hreturns =>
    cases hreturns with
    | clearGarbage rest =>
      cases hnext with
      | next _ h => exact .rest _ hcaller h
      | rest _ hnone _ => cases hnone
    | _ => cases hnext; contradiction
  | expired deliveries =>
    cases hnext with
    | next _ h => exact .found h
    | rest _ hnone _ => cases hnone
  | expiredNext delivery rest =>
    cases hnext with
    | delete =>
      refine .next _ ⟨delivery, List.mem_cons_self, ?_⟩
      simp [Delivery.isFor]
    | rest _ hcaller h =>
      obtain ⟨other, hmem, hfor⟩ := h
      obtain rfl := Caller.clearGarbage.inj (Option.some.inj hcaller)
      exact .next _ ⟨other, List.mem_cons_of_mem _ hmem, hfor⟩
  | suppressed | release | removeNext =>
    -- another caller of `releaseDelivery`
    cases hnext with
    | rest _ hcaller _ => cases hcaller
  | _ => cases hnext; contradiction

/-- The first callback of a sweep has looked for the documents that are too old now. -/
theorem Goes.findsExpired {cfg : Config} {now : Nat} {task next : Task}
    (h : Goes cfg now task next) (hjob : next.job = .expired) :
    next.wait = .call (.findQueued (expiredUntil cfg now)) := by
  cases h with
  | unlocked => rfl
  | released _ _ hreturns => cases hreturns <;> exact nomatch hjob
  | _ => exact nomatch hjob

/-- Only `shift` deletes all documents of a message. -/
theorem Goes.deletesMessage {cfg : Config} {now : Nat} {task next : Task} {id : String}
    (h : Goes cfg now task next) (hwait : next.wait = .call (.deleteMessage id)) :
    next.job.collects = false := by
  cases h with
  | noBody => rfl
  | released _ _ hreturns => cases hreturns <;> exact nomatch hwait
  | _ => exact nomatch hwait

/-- A document that was too old at some time is too old by half a second more. -/
theorem overdue_of_ble {cfg : Config} {_id : ObjectId} {time : Nat} (hunique : _id.unique ≠ 0)
    (h : _id.ble (expiredUntil cfg time) = true) :
    _id.time * 1000 + cfg.maxQueueTime ≤ time := by
  have hlt := (ObjectId.ble_createFromTime hunique _).mp h
  unfold roundSeconds at hlt
  omega

namespace Master

variable {cfg : Config} {s s' : Master} {id : String} {body : ObjectId} {chunks : List Chunk}

/-! ## The invariants -/

/-- The documents with these ids have been in the queue for `maxQueueTime`. -/
def Overdue (cfg : Config) (s : Master) (id seq : String) : Prop :=
  ∀ delivery ∈ s.db.queue, delivery.isFor id seq = true →
    delivery._id.time * 1000 + cfg.maxQueueTime ≤ s.now

/-- Two documents of the message with the same number are the same. -/
def Numbered (s : Master) (id : String) : Prop :=
  ∀ delivery ∈ s.db.queue, ∀ other ∈ s.db.queue, delivery.id = id → other.id = id →
    delivery.seq = other.seq → delivery._id = other._id

/-- What holds in every run whose steps are timely for the message. -/
structure Collecting (cfg : Config) (s : Master) (id : String) : Prop where
  swept : Swept s id
  fits : AllFit s
  unique : ∀ delivery ∈ s.db.queue, delivery._id.unique ≠ 0
  cutoffs : ∀ n call, s.tasks.lookup n = some ⟨.expired, .call call⟩ →
    ∃ time, time ≤ s.now ∧ call = .findQueued (expiredUntil cfg time)
  messages : ∀ n job id', s.tasks.lookup n = some ⟨job, .call (.deleteMessage id')⟩ →
    job.collects = false

/-- Once the message has been pushed: the sweeps collect none of its deliveries but those that
    are too old, and its stored message is there as long as it has a document. -/
structure ScheduledInv (cfg : Config) (s : Master) (id : String) (body : ObjectId)
    (chunks : List Chunk) : Prop where
  collecting : Collecting cfg s id
  safe : Safe s id body chunks
  numbered : s.Numbered id
  expires : ∀ n task seq, s.tasks.lookup n = some task → Expires id seq task →
    s.Overdue cfg id seq

theorem collecting_init (suppressionlist : List Suppressed) (id : String) :
    Collecting cfg { db := { suppressionlist := suppressionlist } } id where
  swept := swept_init suppressionlist id
  fits := allFit_init _
  unique _ h := absurd h List.not_mem_nil
  cutoffs n _ h := nomatch (AList.lookup_empty n).symm.trans h
  messages n _ _ h := nomatch (AList.lookup_empty n).symm.trans h

theorem collecting_step {e : Event} (hs : Collecting cfg s id) (he : Timely id s e)
    (h : s.step cfg e = some s') : Collecting cfg s' id where
  swept := swept_step hs.swept he h
  fits := fits_step hs.fits h
  unique delivery hdelivery := by
    rcases mem_queue_step h hdelivery with ⟨before, hbefore, h_id, -⟩ | ⟨recipients, -, -, hnew⟩
    · exact h_id ▸ hs.unique before hbefore
    · exact hnew
  cutoffs n call htask := by
    rcases lookup_tasks_of_step h htask with hbefore | hstart |
      ⟨job, call, reply, heq, -⟩ | ⟨before, -, hbefore, hgoes⟩
    · obtain ⟨time, htime, hcall⟩ := hs.cutoffs n call hbefore
      exact ⟨time, Nat.le_trans htime (now_step h), hcall⟩
    · exact nomatch hstart
    · exact nomatch heq
    · injection hgoes.findsExpired rfl with hcall
      exact ⟨s.now, now_step h, hcall⟩
  messages n job id' htask := by
    rcases lookup_tasks_of_step h htask with hbefore | hstart |
      ⟨job, call, reply, heq, -⟩ | ⟨before, -, hbefore, hgoes⟩
    · exact hs.messages n job id' hbefore
    · exact nomatch hstart
    · exact nomatch heq
    · exact hgoes.deletesMessage rfl

/-- A document that is too old stays so. -/
theorem overdue_step {e : Event} (hsettled : Settled id body s e) (h : s.step cfg e = some s')
    {seq : String} (hs : s.Overdue cfg id seq) : s'.Overdue cfg id seq := by
  intro delivery hdelivery hfor
  have hids := hfor
  simp only [Delivery.isFor, Bool.and_eq_true, beq_iff_eq] at hids
  rcases mem_queue_step h hdelivery with ⟨before, hbefore, h_id, hid, hseq⟩ |
    ⟨recipients, rfl, -⟩
  · rw [← h_id]
    refine Nat.le_trans (hs before hbefore ?_) (now_step h)
    simp only [Delivery.isFor, hid, hseq]
    exact hfor
  · exact absurd hids.1 hsettled

theorem numbered_step {e : Event} (hsettled : Settled id body s e) (h : s.step cfg e = some s')
    (hs : s.Numbered id) : s'.Numbered id := by
  intro delivery hdelivery other hother hid hotherId hseq
  rcases mem_queue_step h hdelivery with ⟨before, hbefore, h_id, hbeforeId, hbeforeSeq⟩ |
    ⟨recipients, rfl, -⟩
  · rcases mem_queue_step h hother with ⟨first, hfirst, hfirst_id, hfirstId, hfirstSeq⟩ |
      ⟨recipients, rfl, -⟩
    · rw [← h_id, ← hfirst_id]
      exact hs before hbefore first hfirst (hbeforeId.trans hid) (hfirstId.trans hotherId)
        (hbeforeSeq.trans (hseq.trans hfirstSeq.symm))
    · exact absurd hotherId hsettled
  · exact absurd hid hsettled

/-- The sweep of the stored messages spares a message that has a document. -/
theorem kept_sweep {n choice : Nat} {outcome : Outcome} {job : Job} {call : Call}
    {cutoff : ObjectId} (hcall : call = .deleteFiles cutoff ∨ call = .deleteChunks cutoff)
    (htask : s.tasks.lookup n = some ⟨job, .call call⟩) (hs : Swept s id)
    (hqueued : s.Queued id) (hkept : s.db.Kept id body chunks) :
    (s.exec n ⟨job, .call call⟩ call choice outcome).db.Kept id body chunks := by
  have hbehind : s.Behind id cutoff := by
    refine hs.cutoffs n _ cutoff htask (Or.inr ?_)
    rcases hcall with rfl | rfl
    · exact Or.inl rfl
    · exact Or.inr rfl
  have hspared : Spared s (s.exec n ⟨job, .call call⟩ call choice outcome) id :=
    spared_exec hcall hs hbehind.1 fun upload hupload hid =>
      hbehind.le_upload (Or.inl hqueued) hupload hid
  obtain ⟨db, reply, hexec, hdb, -⟩ := exec_cases s n job call choice outcome
  rw [hexec] at hspared ⊢
  rcases hdb with rfl | rfl
  · exact hkept
  · obtain ⟨file, hfile, hid⟩ := hkept.file
    have hname := (hkept.names file hfile).mpr hid
    refine ⟨⟨file, hspared.files file hfile hname, hid⟩, fun file' hfile' =>
      hkept.names file' (Database.mem_files_exec hfile'), ?_⟩
    rcases hcall with rfl | rfl
    · exact hkept.chunks
    · obtain ⟨upload, hupload, huploadId, huploadName⟩ := hs.files file hfile
      refine (List.filter_filter ..).trans (Eq.trans ?_ hkept.chunks)
      refine List.filter_congr fun chunk hchunk => ?_
      rw [Bool.and_eq_left_iff_imp]
      intro hbody
      -- the chunk belongs to the upload of the message
      have hfileId := huploadId.trans (hid.trans (beq_iff_eq.mp hbody).symm)
      exact (List.mem_filter.mp (hspared.chunks chunk hchunk
        ⟨upload, hupload, filename_inj (huploadName.trans hname), hfileId⟩)).2

/-- No step takes a part of the stored message while it has a document. -/
theorem kept_scheduled {e : Event} (hs : ScheduledInv cfg s id body chunks)
    (hsettled : Settled id body s e) (h : s.step cfg e = some s') (hqueued : s.Queued id) :
    s'.db.Kept id body chunks := by
  have hkept := hs.safe.queued hqueued
  rcases kept_settled hsettled h hkept with hkept' |
    ⟨n, choice, outcome, job, call, rfl, htask, hcall⟩
  · exact hkept'
  · have hexec : s' = s.exec n ⟨job, .call call⟩ call choice outcome := by
      simpa [step, htask] using h.symm
    rw [hexec]
    cases hcall with
    | deleteFile => exact (hs.safe.not_deleteFile hqueued htask).elim
    | deleteFiles cutoff =>
      exact kept_sweep (Or.inl rfl) htask hs.collecting.swept hqueued hkept
    | deleteChunks cutoff =>
      exact kept_sweep (Or.inr rfl) htask hs.collecting.swept hqueued hkept

/-- A sweep collects documents that are too old. -/
theorem overdue_of_collected (hs : ScheduledInv cfg s id body chunks) {n choice : Nat}
    {call : Call} {deliveries : List Delivery} {seq : String}
    (htask : s.tasks.lookup n = some ⟨.expired, .call call⟩)
    (hreply : .deliveries deliveries = (s.db.exec choice call).2)
    (h : ∃ delivery ∈ deliveries, delivery.isFor id seq = true) : s.Overdue cfg id seq := by
  obtain ⟨time, htime, rfl⟩ := hs.collecting.cutoffs n call htask
  obtain ⟨delivery, hmem, hfor⟩ := h
  rw [Reply.deliveries.inj hreply] at hmem
  obtain ⟨hdelivery, hold⟩ := List.mem_filter.mp hmem
  intro other hother hotherFor
  simp only [Delivery.isFor, Bool.and_eq_true, beq_iff_eq] at hfor hotherFor hold
  have h_id := hs.numbered other hother delivery hdelivery hotherFor.1 hfor.1
    (hotherFor.2.trans hfor.2.symm)
  rw [h_id]
  exact Nat.le_trans (overdue_of_ble (hs.collecting.unique delivery hdelivery) hold.1) htime

/-- A step at which nothing of the message is stored keeps the invariant. -/
theorem scheduledInv_step {e : Event} (hs : ScheduledInv cfg s id body chunks)
    (he : Timely id s e) (hsettled : Settled id body s e) (h : s.step cfg e = some s') :
    ScheduledInv cfg s' id body chunks where
  collecting := collecting_step hs.collecting he h
  safe := {
    fits := fits_step hs.safe.fits h
    queued := fun hqueued => kept_scheduled hs hsettled h (queued_of_step hsettled h hqueued)
    sees := sees_step hs.safe hsettled h }
  numbered := numbered_step hsettled h hs.numbered
  expires n task seq htask hexpires := by
    refine overdue_step hsettled h ?_
    rcases lookup_tasks_of_step h htask with hbefore | hstart |
      ⟨job, call, reply, rfl, hbefore, hreply⟩ | ⟨before, -, hbefore, hgoes⟩
    · exact hs.expires n task seq hbefore hexpires
    · exact absurd hexpires (not_expires_starts hstart)
    · rcases hexpires.of_reply (.call call) with rfl | hcall
      · cases hexpires with
        | found hcollected =>
          rcases hreply with hreply | ⟨choice, hreply⟩
          · exact nomatch hreply
          · exact overdue_of_collected hs hbefore hreply hcollected
        | rest _ hcaller => exact nomatch hcaller
      · exact hs.expires n _ seq hbefore hcall
    · exact hs.expires n before seq hbefore (hgoes.expires hexpires)

/-! ## The runs -/

/-- A call of `clearGarbage` leaves the documents that are not too old. -/
theorem document_stays (hs : ScheduledInv cfg s id body chunks) {n choice : Nat}
    {outcome : Outcome} {task : Task} (htask : s.tasks.lookup n = some task)
    (hcollects : task.job.collects = true)
    (h : s.step cfg (.exec n choice outcome) = some s') {delivery : Delivery}
    (hdelivery : delivery ∈ s.db.queue) (hid : delivery.id = id)
    (hyoung : s.now < delivery._id.time * 1000 + cfg.maxQueueTime) :
    ∃ after ∈ s'.db.queue,
      after._id = delivery._id ∧ after.id = delivery.id ∧ after.seq = delivery.seq := by
  cases step_cases h with
  | @exec _ _ _ job call hcall =>
    obtain rfl := Option.some.inj (htask.symm.trans hcall)
    obtain ⟨db, reply, hexec, hdb, -⟩ := exec_cases s n job call choice outcome
    rw [hexec]
    rcases hdb with rfl | rfl
    · exact ⟨delivery, hdelivery, rfl, rfl, rfl⟩
    · rcases Database.exists_queue_exec choice call hdelivery with hafter | rfl | rfl
      · exact hafter
      · -- the sweep has collected the document
        have hexpires : Expires id delivery.seq
            ⟨job, .call (.deleteDelivery delivery.id delivery.seq)⟩ := by
          cases hs.safe.fits n _ htask with
          | deleted _ _ _lock caller =>
            cases caller with
            | clearGarbage rest => rw [hid]; exact .delete _lock rest _
            | _ => cases hcollects
          | other _ hother => exact absurd rfl (hother _ _)
        have hold := hs.expires n _ _ htask hexpires delivery hdelivery
          (by simp [Delivery.isFor, hid])
        omega
      · have hcontra := hcollects.symm.trans (hs.collecting.messages n job _ htask)
        cases hcontra

/-- After the deliveries of a message have been inserted: no call of `clearGarbage` takes a
    delivery before its time, if it is scheduled at most `maxQueueTime` after its document was
    made, and none takes a part of the stored message. -/
theorem scheduled_stays {suppressionlist : List Suppressed} {es₀ es : List Event} {s₀ : Master}
    (htimely : Along (step cfg) (Timely id)
      { db := { suppressionlist := suppressionlist } } (es₀ ++ es))
    (hs₀ : run (step cfg) { db := { suppressionlist := suppressionlist } } es₀ = some s₀)
    (hinserted : s₀.Inserted id body chunks) (hnumbered : s₀.Numbered id)
    (hexpires : ∀ n task seq, s₀.tasks.lookup n = some task → ¬Expires id seq task)
    (hsettled : Along (step cfg) (Settled id body) s₀ es)
    (hs : run (step cfg) s₀ es = some s) {n choice : Nat} {outcome : Outcome} {task : Task}
    (htask : s.tasks.lookup n = some task) (hcollects : task.job.collects = true)
    (hstep : s.step cfg (.exec n choice outcome) = some s') {delivery : Delivery}
    (hdelivery : delivery ∈ s.db.queue) (hid : delivery.id = id)
    (hfuture : s.now < delivery.queued)
    (hmax : delivery.queued ≤ delivery._id.time * 1000 + cfg.maxQueueTime) :
    (∃ after ∈ s'.db.queue,
      after._id = delivery._id ∧ after.id = delivery.id ∧ after.seq = delivery.seq) ∧
      s.db.Kept id body chunks ∧ s'.db.Kept id body chunks := by
  have hstart : Collecting cfg s₀ id := ForStd.run_invariant_along
    (fun _ _ _ ht he hstep => collecting_step ht he hstep) (collecting_init suppressionlist id)
    htimely.append_left hs₀
  have hinv : ScheduledInv cfg s id body chunks := ForStd.run_invariant_along
    (fun _ _ _ ht he hstep => scheduledInv_step ht he.1 he.2 hstep)
    { collecting := hstart
      safe := {
        fits := hstart.fits
        queued := fun _ => hinserted.kept
        sees := fun n task htask hsees => absurd hsees (hinserted.sees n task htask) }
      numbered := hnumbered
      expires := fun n task seq htask h => absurd h (hexpires n task seq htask) }
    ((htimely.append_right hs₀).and hsettled) hs
  have hqueued : s.Queued id := ⟨delivery, hdelivery, hid⟩
  have hexec : Settled id body s (.exec n choice outcome) := trivial
  exact ⟨document_stays hinv htask hcollects hstep hdelivery hid (by omega),
    hinv.safe.queued hqueued, kept_scheduled hinv hexec hstep hqueued⟩

/-- A configuration that keeps deliveries for an hour. -/
def hourZone : Config := { sweptZone with maxQueueTime := 60 * 60 * 1000 }

/-- A recipient whose delivery is scheduled this many seconds ahead. -/
def scheduledRecipient (ahead : Nat) : Recipient :=
  { oneRecipient 1600000000 with queued := (1600000000 + ahead) * 1000 }

/-- A message that is scheduled this many seconds ahead. -/
def scheduledAhead (ahead : Nat) : List Event :=
  [.tick 1600000000000, .openUpload "m" 1, .writeChunk ⟨1600000000, 1⟩ ⟨1600000000, 2⟩,
    .finishUpload ⟨1600000000, 1⟩, .push "m" [scheduledRecipient ahead]]

/-- A sweep at this time, up to its `deleteMany` on the files if it collects no delivery. -/
def sweepAt (now : Nat) : List Event :=
  [.tick now, .clearGarbage, .exec 0 0 .ok, .resume 0, .exec 0 0 .ok, .resume 0, .exec 0 0 .ok,
    .resume 0, .exec 0 0 .ok, .resume 0]

/-- A message that is scheduled half an hour ahead is still there after 25 minutes, and after the
    `deleteMany` of a sweep. -/
theorem scheduled_stays_halfHour : ∃ s₀ s s',
    run (step hourZone) { db := { suppressionlist := [] } } (scheduledAhead (30 * 60)) = some s₀ ∧
      run (step hourZone) s₀ (sweepAt 1600001500000) = some s ∧
      s.step hourZone (.exec 0 0 .ok) = some s' ∧
      s'.db.queue.map (·._id) = [⟨1600000000, 9⟩] ∧
      s'.db.Kept "m" ⟨1600000000, 1⟩ [⟨⟨1600000000, 2⟩, ⟨1600000000, 1⟩⟩] := by
  have hstored : (run (step hourZone) {} (scheduledAhead (30 * 60))).map (fun s =>
      (s.db.queue, s.db.files, s.db.chunks, s.tasks.entries.length)) =
        some ([(scheduledRecipient (30 * 60)).document "m"],
          [⟨⟨1600000000, 1⟩, filename "m", none⟩], [⟨⟨1600000000, 2⟩, ⟨1600000000, 1⟩⟩], 0) := by
    decide +kernel
  have hsettled : ∀ s ∈ run (step hourZone) {} (scheduledAhead (30 * 60)),
      Along (step hourZone) (Settled "m" ⟨1600000000, 1⟩) s (sweepAt 1600001500000) := by
    decide +kernel
  have hswept : (run (step hourZone) {} (scheduledAhead (30 * 60) ++
      sweepAt 1600001500000)).map (fun s => (s.now, s.tasks.lookup 0, s.db.queue,
        (s.step hourZone (.exec 0 0 .ok)).map (·.db.queue.map (·._id)))) =
          some (1600001500000,
            some ⟨.filesDeleted ⟨1599999400, 0⟩, .call (.deleteFiles ⟨1599999400, 0⟩)⟩,
            [(scheduledRecipient (30 * 60)).document "m"], some [⟨1600000000, 9⟩]) := by
    decide +kernel
  obtain ⟨s₀, hs₀, hfields₀⟩ := Option.map_eq_some_iff.mp hstored
  obtain ⟨s, hs, hfields⟩ := Option.map_eq_some_iff.mp hswept
  rw [ForStd.run_append, hs₀, Option.bind_some] at hs
  simp only [Prod.mk.injEq, Option.map_eq_some_iff] at hfields₀ hfields
  obtain ⟨hqueue₀, hfiles₀, hchunks₀, htasks₀⟩ := hfields₀
  obtain ⟨hnow, htask, hqueue, s', hstep, hqueue'⟩ := hfields
  have hnone : ∀ n, s₀.tasks.lookup n = none :=
    ForStd.lookup_of_entries_eq_nil (List.length_eq_zero_iff.mp htasks₀)
  have hkept : s₀.db.Kept "m" ⟨1600000000, 1⟩ [⟨⟨1600000000, 2⟩, ⟨1600000000, 1⟩⟩] := by
    refine ⟨?_, ?_, ?_⟩
    · rw [hfiles₀]
      exact ⟨_, List.mem_cons_self, rfl⟩
    · rw [hfiles₀]
      intro file hfile
      rw [List.mem_singleton.mp hfile]
      exact iff_of_true rfl rfl
    · rw [hchunks₀]
      rfl
  have hdelivery : (scheduledRecipient (30 * 60)).document "m" ∈ s.db.queue := by
    rw [hqueue]
    exact List.mem_cons_self
  have hstays := scheduled_stays (by decide +kernel) hs₀
    { queued := ⟨_, by rw [hqueue₀]; exact List.mem_cons_self, rfl⟩
      kept := hkept
      sees := fun n task htask => nomatch (hnone n).symm.trans htask }
    (fun delivery hdelivery other hother _ _ _ => by
      rw [hqueue₀] at hdelivery hother
      rw [List.mem_singleton.mp hdelivery, List.mem_singleton.mp hother])
    (fun n task seq htask => nomatch (hnone n).symm.trans htask) (hsettled s₀ hs₀) hs htask rfl
    hstep hdelivery rfl (by rw [hnow]; decide) (by decide)
  exact ⟨s₀, s, s', hs₀, hs, hstep, hqueue', hstays.2.2⟩

/-- A message that is scheduled for the next day is released after two hours. -/
theorem scheduled_collected :
    ¬∀ (cfg : Config) (es : List Event) (s s' : Master) (n choice : Nat) (outcome : Outcome)
      (task : Task) (delivery : Delivery), 0 < cfg.maxQueueTime → run (step cfg) {} es = some s →
        s.tasks.lookup n = some task → task.job.collects = true →
        s.step cfg (.exec n choice outcome) = some s' → delivery ∈ s.db.queue →
        delivery._deferred.isSome = true → s.now < delivery.queued →
        ∃ after ∈ s'.db.queue, after._id = delivery._id := by
  intro h
  have hfields : ((run (step hourZone) {} (scheduledAhead (24 * 60 * 60) ++
      (sweepAt 1600007200000).take 8)).map fun s =>
        (s.now, s.tasks.lookup 0, s.db.queue,
          (s.step hourZone (.exec 0 0 .ok)).map (·.db.queue))) =
            some (1600007200000,
              some ⟨.deleted "m" "001" "" (.clearGarbage []), .call (.deleteDelivery "m" "001")⟩,
              [(scheduledRecipient (24 * 60 * 60)).document "m"], some []) := by
    decide +kernel
  obtain ⟨s, hs, hfields⟩ := Option.map_eq_some_iff.mp hfields
  simp only [Prod.mk.injEq, Option.map_eq_some_iff] at hfields
  obtain ⟨hnow, htask, hqueue, s', hstep, hqueue'⟩ := hfields
  obtain ⟨after, hafter, -⟩ := h hourZone _ s s' 0 0 .ok _
    ((scheduledRecipient (24 * 60 * 60)).document "m") (by decide) hs htask rfl hstep
    (by rw [hqueue]; exact List.mem_cons_self) rfl (by rw [hnow]; decide)
  -- its document is gone
  rw [hqueue'] at hafter
  exact List.not_mem_nil hafter

end Master

end ZoneMta
