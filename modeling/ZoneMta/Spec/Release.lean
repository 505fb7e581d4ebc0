import ZoneMta.Spec.Garbage

/-!
# The references to a stored message

`releaseDelivery` deletes a document, looks whether another document of the message is left, and
deletes the stored message if there is none. Any number of these calls run at the same time, and
each of their steps can come between two steps of another one.

Two invariants say that it works. A call that has found no document, and goes on to delete the
stored message, finds that none has come back. And while the stored message is there without a
document, some call that has deleted a document has not looked yet, or is about to delete it.

## Key results

- `fits_step`: each function waits for the calls that it makes
- `releaseInv_step`: the invariants
- `release_counts`: no message is deleted too early, and none is left behind
-/

namespace ZoneMta

open ForStd (run Along)

/-! ## The calls of releaseDelivery -/

/-- A task waits for a call that its function makes. -/
inductive Fits : Task → Prop where
  | deleted (id seq _lock : String) (caller : Caller) :
      Fits ⟨.deleted id seq _lock caller, .call (.deleteDelivery id seq)⟩
  | reference (id : String) (caller : Caller) :
      Fits ⟨.reference id caller, .call (.findReference id)⟩
  | removeMessage (id : String) (caller : Caller) :
      Fits ⟨.removeMessage caller, .call (.findFile id)⟩
  | fileDeleted (fileId : ObjectId) (caller : Caller) :
      Fits ⟨.fileDeleted caller, .call (.deleteFile fileId)⟩
  | other {job : Job} {call : Call} (hcaller : job.caller? = none)
      (hdelivery : ∀ id seq, call ≠ .deleteDelivery id seq)
      (hfile : ∀ fileId, call ≠ .deleteFile fileId) : Fits ⟨job, .call call⟩
  | reply (job : Job) (reply : Reply) : Fits ⟨job, .reply reply⟩
  | immediate (job : Job) : Fits ⟨job, .immediate⟩

theorem Goes.fits {cfg : Config} {now : Nat} {task next : Task} (h : Goes cfg now task next) :
    Fits next := by
  cases h with
  | suppressed => exact .deleted ..
  | release => exact .deleted ..
  | removeNext => exact .deleted ..
  | expiredNext => exact .deleted ..
  | deleted => exact .reference ..
  | unreferenced => exact .removeMessage ..
  | removeMessage => exact .fileDeleted ..
  | released _ _ hreturns =>
    cases hreturns with
    | shift => exact .immediate _
    | remove => exact .other rfl nofun nofun
    | clearGarbage => exact .other rfl nofun nofun
  | notFound | locked | messageDeleted => exact .immediate _
  | _ => exact .other rfl nofun nofun

/-- A call of `releaseDelivery` for the message has seen that no document is left; the stored
    message is the file `body`. -/
inductive Sees (id : String) (body : ObjectId) : Task → Prop where
  | none (caller : Caller) : Sees id body ⟨.reference id caller, .reply (.delivery none)⟩
  | find (caller : Caller) : Sees id body ⟨.removeMessage caller, .call (.findFile id)⟩
  | found (caller : Caller) {file : File} (hfile : file._id = body) :
      Sees id body ⟨.removeMessage caller, .reply (.file (some file))⟩
  | delete (caller : Caller) : Sees id body ⟨.fileDeleted caller, .call (.deleteFile body)⟩

/-- A call of `releaseDelivery` for the message has deleted a document, and has not seen whether
    another one is left, or it has seen that none is. -/
inductive Follows (id : String) (body : ObjectId) : Task → Prop where
  | deleted (seq _lock : String) (caller : Caller) :
      Follows id body ⟨.deleted id seq _lock caller, .reply .done⟩
  | look (caller : Caller) : Follows id body ⟨.reference id caller, .call (.findReference id)⟩
  | sees {task : Task} (h : Sees id body task) : Follows id body task

theorem Follows.caller? {id : String} {body : ObjectId} {task : Task}
    (h : Follows id body task) : task.job.caller? ≠ none := by
  cases h with
  | deleted | look => exact nofun
  | sees h => cases h <;> exact nofun

/-- A call that has seen that no document is left saw it before its callback. -/
theorem Goes.sees {cfg : Config} {now : Nat} {task next : Task} {id : String} {body : ObjectId}
    (h : Goes cfg now task next) (hnext : Sees id body next) : Sees id body task := by
  cases h with
  | unreferenced =>
    cases hnext with
    | find => exact .none _
  | removeMessage caller file =>
    cases hnext with
    | delete => exact .found caller rfl
  | released _ _ hreturns => cases hreturns <;> exact nomatch hnext
  | _ => exact nomatch hnext

namespace Master

variable {cfg : Config} {s s' : Master} {id : String} {body : ObjectId} {chunks : List Chunk}

/-- Each function waits for the calls that it makes. -/
def AllFit (s : Master) : Prop := ∀ n task, s.tasks.lookup n = some task → Fits task

theorem allFit_init (db : Database) : AllFit { db := db } := fun n _ h =>
  nomatch (AList.lookup_empty n).symm.trans h

theorem fits_step {e : Event} (hs : AllFit s) (h : s.step cfg e = some s') : AllFit s' := by
  intro n task htask
  rcases lookup_tasks_of_step h htask with hbefore | hstart |
    ⟨job, call, reply, rfl, -, -⟩ | ⟨before, -, -, hgoes⟩
  · exact hs n task hbefore
  · cases hstart with
    | tryNext | notFound => exact .immediate _
    | getDelivery | unlocked | removeFound => exact .other rfl nofun nofun
  · exact .reply job reply
  · exact hgoes.fits

end Master

/-! ## The message -/

namespace Database

/-- The stored message is there, with its chunks; its file is the only one with the name. -/
structure Kept (db : Database) (id : String) (body : ObjectId) (chunks : List Chunk) : Prop where
  file : ∃ file ∈ db.files, file._id = body
  names : ∀ file ∈ db.files, file.filename = filename id ↔ file._id = body
  chunks : (db.chunks.filter fun chunk => chunk.files_id == body) = chunks

/-- Nothing is left of the stored message. -/
structure Gone (db : Database) (id : String) (body : ObjectId) : Prop where
  file : ∀ file ∈ db.files, file.filename ≠ filename id ∧ file._id ≠ body
  chunks : ∀ chunk ∈ db.chunks, chunk.files_id ≠ body

end Database

/-- A call that does not delete documents, files or chunks of the message for another reason
    than `releaseDelivery`. -/
def Wait.spares (id : String) : Wait → Bool
  | .call (.deleteMessage id') => id' != id
  | .call (.deleteFiles _) | .call (.deleteChunks _) => false
  | _ => true

namespace Master

variable {cfg : Config} {s s' : Master} {id : String} {body : ObjectId} {chunks : List Chunk}

/-- The deliveries of a message have been inserted: it has a document and a stored message. No
    call of `releaseDelivery` has found that it has no document. -/
structure Inserted (s : Master) (id : String) (body : ObjectId) (chunks : List Chunk) :
    Prop where
  queued : s.Queued id
  kept : s.db.Kept id body chunks
  sees : ∀ n task, s.tasks.lookup n = some task → ¬Sees id body task

/-- Nothing of the message is stored again. -/
def Settled (id : String) (body : ObjectId) (s : Master) : Event → Prop
  | .push id' _ => id' ≠ id
  | .writeChunk fileId _ => fileId ≠ body
  | .finishUpload fileId =>
    fileId ≠ body ∧ ∀ upload ∈ s.uploads, upload.fileId = fileId → upload.id ≠ id
  | _ => True

/-- The calls of the database succeed, and nothing but `releaseDelivery` is done to the message:
    no part of it is stored again, `clearGarbage` deletes no files, and `shift` does not delete
    its documents. -/
def Quiet (id : String) (body : ObjectId) (s : Master) : Event → Prop
  | .push id' _ => id' ≠ id
  | .writeChunk fileId _ => fileId ≠ body
  | .finishUpload fileId =>
    fileId ≠ body ∧ ∀ upload ∈ s.uploads, upload.fileId = fileId → upload.id ≠ id
  | .exec n _ outcome => outcome = .ok ∧ (s.tasks.lookup n).all (·.wait.spares id) = true
  | _ => True

instance (id : String) (body : ObjectId) (s : Master) :
    (e : Event) → Decidable (Settled id body s e)
  | .push .. | .writeChunk .. => inferInstanceAs (Decidable (_ ≠ _))
  | .finishUpload .. => inferInstanceAs (Decidable (_ ∧ _))
  | .tick .. | .connect .. | .hello .. | .close .. | .get .. | .request .. | .exec ..
  | .resume .. | .checkExpired | .cacheExpired | .remove .. | .clearGarbage | .openUpload ..
  | .setMeta .. => isTrue trivial

instance (id : String) (body : ObjectId) (s : Master) : (e : Event) → Decidable (Quiet id body s e)
  | .push .. | .writeChunk .. => inferInstanceAs (Decidable (_ ≠ _))
  | .finishUpload .. | .exec .. => inferInstanceAs (Decidable (_ ∧ _))
  | .tick .. | .connect .. | .hello .. | .close .. | .get .. | .request .. | .resume ..
  | .checkExpired | .cacheExpired | .remove .. | .clearGarbage | .openUpload .. | .setMeta .. =>
    isTrue trivial

theorem Quiet.settled {e : Event} (h : Quiet id body s e) : Settled id body s e := by
  cases e with
  | push | writeChunk | finishUpload => exact h
  | _ => trivial

/-- The call of a task takes effect in a quiet step. -/
theorem exec_quiet {n choice : Nat} {outcome : Outcome}
    (h : s.step cfg (.exec n choice outcome) = some s')
    (hquiet : Quiet id body s (.exec n choice outcome)) :
    ∃ job call, s.tasks.lookup n = some ⟨job, .call call⟩ ∧ (Wait.call call).spares id = true ∧
      s'.db = (s.db.exec choice call).1 ∧
        s'.tasks.lookup n = some ⟨job, .reply (s.db.exec choice call).2⟩ := by
  obtain ⟨rfl, hspares⟩ := hquiet
  cases step_cases h with
  | @exec _ _ _ job call htask =>
    rw [htask] at hspares
    refine ⟨job, call, htask, hspares, rfl, ?_⟩
    exact (ForStd.lookup_insert s.tasks n n _).trans (if_pos rfl)

/-- The calls that can take a part of a stored message. -/
inductive Takes (body : ObjectId) : Call → Prop where
  | deleteFile : Takes body (.deleteFile body)
  | deleteFiles (cutoff : ObjectId) : Takes body (.deleteFiles cutoff)
  | deleteChunks (cutoff : ObjectId) : Takes body (.deleteChunks cutoff)

/-- The other calls leave the stored message. -/
theorem kept_exec {db : Database} (choice : Nat) {call : Call} (hs : db.Kept id body chunks)
    (hcall : ¬Takes body call) : (db.exec choice call).1.Kept id body chunks := by
  obtain ⟨⟨file, hfile, hid⟩, hnames, hchunks⟩ := hs
  have hfiles : ∀ cutoff, call ≠ .deleteFiles cutoff := by
    rintro cutoff rfl
    exact hcall (.deleteFiles cutoff)
  have hchunk : ∀ cutoff, call ≠ .deleteChunks cutoff := by
    rintro cutoff rfl
    exact hcall (.deleteChunks cutoff)
  by_cases hdelete : ∃ fileId, call = .deleteFile fileId
  · -- the file of another message
    obtain ⟨fileId, rfl⟩ := hdelete
    have hbody : body ≠ fileId := by
      rintro rfl
      exact hcall .deleteFile
    refine ⟨⟨file, List.mem_filter.mpr ⟨hfile, ?_⟩, hid⟩, fun file' hfile' => ?_, ?_⟩
    · rw [hid]
      exact bne_iff_ne.mpr hbody
    · exact hnames file' (List.mem_filter.mp hfile').1
    · refine (List.filter_filter ..).trans (Eq.trans ?_ hchunks)
      refine List.filter_congr fun chunk _ => ?_
      rw [Bool.and_eq_left_iff_imp]
      intro heq
      rw [beq_iff_eq.mp heq]
      exact bne_iff_ne.mpr hbody
  · have hne : ∀ fileId, call ≠ .deleteFile fileId := fun fileId heq => hdelete ⟨fileId, heq⟩
    refine ⟨?_, ?_, ?_⟩
    · rw [Database.files_exec hne hfiles]; exact ⟨file, hfile, hid⟩
    · rw [Database.files_exec hne hfiles]; exact hnames
    · rw [Database.chunks_exec hne hchunk]; exact hchunks

/-- The stored message stays, unless a call takes a part of it. -/
theorem kept_settled {e : Event} (hsettled : Settled id body s e) (h : s.step cfg e = some s')
    (hs : s.db.Kept id body chunks) :
    s'.db.Kept id body chunks ∨ ∃ n choice outcome job call, e = .exec n choice outcome ∧
      s.tasks.lookup n = some ⟨job, .call call⟩ ∧ Takes body call := by
  have hkept := hs
  obtain ⟨⟨file, hfile, hid⟩, hnames, hchunks⟩ := hs
  cases storeStep h with
  | same hdb _ => exact Or.inl (hdb ▸ hkept)
  | openUpload _ hdb _ => exact Or.inl (hdb ▸ hkept)
  | push _ hdb _ => rw [hdb]; exact Or.inl ⟨⟨file, hfile, hid⟩, hnames, hchunks⟩
  | @writeChunk fileId chunkId _ _ hdb _ =>
    rw [hdb]
    refine Or.inl ⟨⟨file, hfile, hid⟩, hnames, ?_⟩
    have hother : (fileId == body) = false := beq_eq_false_iff_ne.mpr hsettled
    show ((s.db.chunks ++ [_]).filter _) = chunks
    rw [List.filter_append, hchunks, List.filter_cons, if_neg (by simp [hother])]
    exact List.append_nil _
  | @finishUpload fileId upload hupload hfileId hdb _ =>
    rw [hdb]
    refine Or.inl ⟨⟨file, List.mem_append_left _ hfile, hid⟩, fun file' hfile' => ?_, hchunks⟩
    rcases List.mem_append.mp hfile' with hfile' | hfile'
    · exact hnames file' hfile'
    · rw [List.mem_singleton.mp hfile']
      refine iff_of_false (fun hname => ?_) hsettled.1
      exact hsettled.2 upload hupload hfileId (filename_inj hname)
  | @setMeta id' data hdb _ =>
    rw [hdb]
    refine Or.inl ⟨?_, fun file' hfile' => ?_, hchunks⟩
    · rcases ForStd.mem_updateOne_of_mem hfile with hafter | hafter
      · exact ⟨file, hafter, hid⟩
      · exact ⟨_, hafter, hid⟩
    · rcases ForStd.mem_updateOne hfile' with hbefore | ⟨before, hbefore, -, rfl⟩
      · exact hnames file' hbefore
      · exact hnames before hbefore
  | @exec n choice outcome job call htask hdb _ =>
    by_cases hcall : Takes body call
    · exact Or.inr ⟨n, choice, outcome, job, call, rfl, htask, hcall⟩
    · rcases hdb with hdb | hdb
      · exact Or.inl (hdb ▸ hkept)
      · exact Or.inl (hdb ▸ kept_exec choice hkept hcall)

/-- The stored message stays, unless a call deletes its file. -/
theorem kept_step {e : Event} (hquiet : Quiet id body s e) (h : s.step cfg e = some s')
    (hs : s.db.Kept id body chunks) :
    s'.db.Kept id body chunks ∨ s'.db.Gone id body ∧
      ∃ n job, s.tasks.lookup n = some ⟨job, .call (.deleteFile body)⟩ := by
  rcases kept_settled hquiet.settled h hs with hkept |
    ⟨n, choice, outcome, job, call, rfl, htask, hcall⟩
  · exact Or.inl hkept
  · obtain ⟨job', call', htask', hspares, hdb, -⟩ := exec_quiet h hquiet
    obtain ⟨rfl, rfl⟩ : job' = job ∧ call' = call := by
      simpa using htask'.symm.trans htask
    cases hcall with
    | deleteFiles | deleteChunks => exact nomatch hspares
    | deleteFile =>
      rw [hdb]
      refine Or.inr ⟨⟨fun file' hfile' => ?_, fun chunk hmem => ?_⟩, n, job', htask⟩
      · obtain ⟨hmem, hne⟩ := List.mem_filter.mp hfile'
        exact ⟨fun hname => bne_iff_ne.mp hne ((hs.names file' hmem).mp hname),
          bne_iff_ne.mp hne⟩
      · exact bne_iff_ne.mp (List.mem_filter.mp hmem).2

/-- A stored message that is gone does not come back. -/
theorem gone_step {e : Event} (hquiet : Quiet id body s e) (h : s.step cfg e = some s')
    (hs : s.db.Gone id body) : s'.db.Gone id body := by
  obtain ⟨hfile, hchunks⟩ := hs
  cases storeStep h with
  | same hdb _ => exact hdb ▸ ⟨hfile, hchunks⟩
  | openUpload _ hdb _ => exact hdb ▸ ⟨hfile, hchunks⟩
  | push _ hdb _ => rw [hdb]; exact ⟨hfile, hchunks⟩
  | writeChunk _ _ hdb _ =>
    rw [hdb]
    refine ⟨hfile, fun chunk hmem => ?_⟩
    rcases List.mem_append.mp hmem with hmem | hmem
    · exact hchunks chunk hmem
    · rw [List.mem_singleton.mp hmem]
      exact hquiet
  | finishUpload hupload hfileId hdb _ =>
    rw [hdb]
    refine ⟨fun file hmem => ?_, hchunks⟩
    rcases List.mem_append.mp hmem with hmem | hmem
    · exact hfile file hmem
    · rw [List.mem_singleton.mp hmem]
      exact ⟨fun hname => hquiet.2 _ hupload hfileId (filename_inj hname), hquiet.1⟩
  | setMeta hdb _ =>
    rw [hdb]
    refine ⟨fun file hmem => ?_, hchunks⟩
    rcases ForStd.mem_updateOne hmem with hmem | ⟨before, hbefore, -, rfl⟩
    · exact hfile file hmem
    · exact hfile before hbefore
  | exec _ hdb _ =>
    rcases hdb with hdb | hdb
    · exact hdb ▸ ⟨hfile, hchunks⟩
    · rw [hdb]
      exact ⟨fun file hmem => hfile file (Database.mem_files_exec hmem),
        fun chunk hmem => hchunks chunk (Database.mem_chunks_exec hmem)⟩

/-- No document of the message comes back. -/
theorem queued_of_step {e : Event} (hsettled : Settled id body s e)
    (h : s.step cfg e = some s') (hs : s'.Queued id) : s.Queued id := by
  obtain ⟨delivery, hdelivery, hid⟩ := hs
  rcases mem_queue_step h hdelivery with ⟨before, hbefore, -, heq, -⟩ | ⟨recipients, rfl, -⟩
  · exact ⟨before, hbefore, heq.trans hid⟩
  · exact absurd hid hsettled

/-- The last document of a message is deleted by a `deleteOne`. -/
theorem queued_step {e : Event} (hfits : AllFit s) (hquiet : Quiet id body s e)
    (h : s.step cfg e = some s') (hs : s.Queued id) :
    s'.Queued id ∨ ∃ n task, s'.tasks.lookup n = some task ∧ Follows id body task := by
  obtain ⟨delivery, hdelivery, hid⟩ := hs
  have hsame : s'.db.queue = s.db.queue → s'.Queued id := fun heq =>
    ⟨delivery, heq ▸ hdelivery, hid⟩
  cases storeStep h with
  | same hdb _ => exact Or.inl (hsame (by rw [hdb]))
  | openUpload _ hdb _ => exact Or.inl (hsame (by rw [hdb]))
  | writeChunk _ _ hdb _ => exact Or.inl (hsame (by rw [hdb]))
  | finishUpload _ _ hdb _ => exact Or.inl (hsame (by rw [hdb]))
  | setMeta hdb _ => exact Or.inl (hsame (by rw [hdb]))
  | push _ hdb _ =>
    refine Or.inl ⟨delivery, ?_, hid⟩
    rw [hdb]
    exact List.mem_append_left _ hdelivery
  | @exec n choice =>
    obtain ⟨job, call, htask, hspares, hdb, htask'⟩ := exec_quiet h hquiet
    rcases Database.exists_queue_exec choice call hdelivery with
      ⟨after, hafter, -, heq, -⟩ | rfl | rfl
    · exact Or.inl ⟨after, hdb ▸ hafter, heq.trans hid⟩
    · refine Or.inr ⟨n, _, htask', ?_⟩
      have hreply : (s.db.exec choice (.deleteDelivery delivery.id delivery.seq)).2 = .done := by
        simp only [Database.exec]
        split <;> rfl
      rw [hreply]
      cases hfits n _ htask with
      | deleted _ _ _lock caller => rw [hid]; exact .deleted delivery.seq _lock caller
      | other _ hdelivery => exact absurd rfl (hdelivery _ _)
    · exact absurd hid (bne_iff_ne.mp hspares)

/-! ## The invariants -/

/-- A stored message that has a document is there, and no call of `releaseDelivery` has seen
    that it has none. -/
structure Safe (s : Master) (id : String) (body : ObjectId) (chunks : List Chunk) : Prop where
  fits : AllFit s
  queued : s.Queued id → s.db.Kept id body chunks
  sees : ∀ n task, s.tasks.lookup n = some task → Sees id body task → ¬s.Queued id

/-- No stored message is deleted while it has a document, and none stays without a document and
    without a call that will delete it. -/
structure ReleaseInv (s : Master) (id : String) (body : ObjectId) (chunks : List Chunk) :
    Prop where
  fresh : FreshTasks s
  fits : AllFit s
  stored : s.db.Kept id body chunks ∨ s.db.Gone id body
  queued : s.Queued id → s.db.Kept id body chunks
  sees : ∀ n task, s.tasks.lookup n = some task → Sees id body task → ¬s.Queued id
  follows : s.Queued id ∨ s.db.Gone id body ∨
    ∃ n task, s.tasks.lookup n = some task ∧ Follows id body task

theorem ReleaseInv.safe (hs : ReleaseInv s id body chunks) : Safe s id body chunks :=
  ⟨hs.fits, hs.queued, hs.sees⟩

/-- No call deletes the file of a message that has a document. -/
theorem Safe.not_deleteFile (hs : Safe s id body chunks) (hqueued : s.Queued id) {n : Nat}
    {job : Job} (htask : s.tasks.lookup n = some ⟨job, .call (.deleteFile body)⟩) : False := by
  refine hs.sees n _ htask ?_ hqueued
  cases hs.fits n _ htask with
  | fileDeleted => exact .delete _
  | other _ _ hfile => exact absurd rfl (hfile body)

theorem sees_step {e : Event} (hs : Safe s id body chunks) (hsettled : Settled id body s e)
    (h : s.step cfg e = some s') (n : Nat) (task : Task)
    (htask : s'.tasks.lookup n = some task) (hsees : Sees id body task) : ¬s'.Queued id := by
  intro hqueued'
  have hqueued := queued_of_step hsettled h hqueued'
  have hkept := hs.queued hqueued
  rcases lookup_tasks_of_step h htask with hbefore | hstart |
    ⟨job, call, reply, rfl, hbefore, hreply⟩ | ⟨before, -, hbefore, hgoes⟩
  · exact hs.sees n task hbefore hsees hqueued
  · cases hstart <;> exact nomatch hsees
  · have hfits := hs.fits n _ hbefore
    cases hsees with
    | none caller =>
      -- the `findOne` has found no document
      cases hfits with
      | reference =>
        rcases hreply with hreply | ⟨choice, hreply⟩
        · exact nomatch hreply
        · obtain ⟨delivery, hdelivery, hid⟩ := hqueued
          have hpick : pick (s.db.queue.filter (·.id == id)) choice = none :=
            (Reply.delivery.inj hreply).symm
          exact not_of_pick_filter hpick hdelivery (beq_iff_eq.mpr hid)
      | other hcaller => exact nomatch hcaller
    | @found caller file hfile =>
      cases hfits with
      | removeMessage id' =>
        rcases hreply with hreply | ⟨choice, hreply⟩
        · exact nomatch hreply
        · -- the file is that of the message
          have hpick : pick (s.db.files.filter (·.filename == filename id')) choice = some file :=
            (Reply.file.inj hreply).symm
          obtain ⟨hmem, hname⟩ := mem_of_pick_filter hpick
          have hid : id' = id := filename_inj
            ((beq_iff_eq.mp hname).symm.trans ((hkept.names file hmem).mpr hfile))
          exact hs.sees n _ hbefore (hid ▸ .find caller) hqueued
      | other hcaller => exact nomatch hcaller
  · exact hs.sees n before hbefore (hgoes.sees hsees) hqueued

section releaseInv_step

variable {e : Event} (hs : ReleaseInv s id body chunks) (hquiet : Quiet id body s e)
  (h : s.step cfg e = some s')

include hs hquiet h

/-- The stored message stays as long as it has a document. -/
theorem kept_of_queued (hqueued : s.Queued id) : s'.db.Kept id body chunks := by
  rcases kept_step hquiet h (hs.queued hqueued) with hkept | ⟨-, n, job, htask⟩
  · exact hkept
  · exact (hs.safe.not_deleteFile hqueued htask).elim

/-- A call that follows a deletion goes on to delete the stored message, unless another document
    is left. -/
theorem follows_step {n : Nat} {task : Task} (htask : s.tasks.lookup n = some task)
    (hfollows : Follows id body task) :
    s'.Queued id ∨ s'.db.Gone id body ∨
      ∃ n task, s'.tasks.lookup n = some task ∧ Follows id body task := by
  by_cases hresume : e = .resume n
  · subst hresume
    cases taskStep h with
    | same he => exact absurd rfl (he n)
    | start he => exact absurd rfl (he n)
    | @resume _ task' effect htask' heffect htasks =>
      obtain rfl := Option.some.inj (htask.symm.trans htask')
      have hnext : ∀ next, effect.next = some next → s'.tasks.lookup n = some next := by
        intro next hnext
        rw [htasks, hnext]
        exact (ForStd.lookup_insert s.tasks n n _).trans (if_pos rfl)
      refine Or.inr (Or.inr ⟨n, ?_⟩)
      cases hfollows with
      | deleted seq _lock caller =>
        obtain rfl := Option.some.inj heffect
        exact ⟨_, hnext _ rfl, .look caller⟩
      | look => exact nomatch heffect
      | sees hsees =>
        cases hsees with
        | none caller =>
          obtain rfl := Option.some.inj heffect
          exact ⟨_, hnext _ rfl, .sees (.find caller)⟩
        | find => exact nomatch heffect
        | @found caller file hfile =>
          obtain rfl := Option.some.inj heffect
          exact ⟨_, hnext _ rfl, .sees (hfile ▸ .delete caller)⟩
        | delete => exact nomatch heffect
  · by_cases hexec : ∃ choice outcome, e = .exec n choice outcome
    · obtain ⟨choice, outcome, rfl⟩ := hexec
      obtain ⟨job, call, htask', -, hdb, hafter⟩ := exec_quiet h hquiet
      obtain rfl := Option.some.inj (htask.symm.trans htask')
      cases hfollows with
      | look caller =>
        cases hpick : pick (s.db.queue.filter (·.id == id)) choice with
        | none =>
          refine Or.inr (Or.inr ⟨n, _, hafter, ?_⟩)
          show Follows id body ⟨_, .reply (.delivery (pick _ choice))⟩
          rw [hpick]
          exact .sees (.none caller)
        | some delivery =>
          -- still deliveries left for this message
          obtain ⟨hmem, hid⟩ := mem_of_pick_filter hpick
          refine Or.inl ⟨delivery, ?_, beq_iff_eq.mp hid⟩
          rw [hdb]
          exact hmem
      | sees hsees =>
        cases hsees with
        | find caller =>
          rcases hs.stored with hkept | hgone
          · obtain ⟨file, hfile, hid⟩ := hkept.file
            have hname := (hkept.names file hfile).mpr hid
            cases hpick : pick (s.db.files.filter (·.filename == filename id)) choice with
            | none => exact absurd (beq_iff_eq.mpr hname) (not_of_pick_filter hpick hfile)
            | some found =>
              obtain ⟨hfound, hname⟩ := mem_of_pick_filter hpick
              refine Or.inr (Or.inr ⟨n, _, hafter, ?_⟩)
              show Follows id body ⟨_, .reply (.file (pick _ choice))⟩
              rw [hpick]
              exact .sees (.found caller ((hkept.names found hfound).mp (beq_iff_eq.mp hname)))
          · exact Or.inr (Or.inl (gone_step hquiet h hgone))
        | delete caller =>
          refine Or.inr (Or.inl ?_)
          rcases hs.stored with hkept | hgone
          · rw [hdb]
            refine ⟨fun file hfile => ?_, fun chunk hchunk => ?_⟩
            · obtain ⟨hmem, hne⟩ := List.mem_filter.mp hfile
              exact ⟨fun hname => bne_iff_ne.mp hne ((hkept.names file hmem).mp hname),
                bne_iff_ne.mp hne⟩
            · exact bne_iff_ne.mp (List.mem_filter.mp hchunk).2
          · exact gone_step hquiet h hgone
    · refine Or.inr (Or.inr ⟨n, task, ?_, hfollows⟩)
      exact lookup_tasks_same hs.fresh h htask (fun choice outcome heq =>
        hexec ⟨choice, outcome, heq⟩) hresume

/-- A quiet step keeps the invariants. -/
theorem releaseInv_step : ReleaseInv s' id body chunks where
  fresh := freshTasks_step hs.fresh h
  fits := fits_step hs.fits h
  stored := by
    rcases hs.stored with hkept | hgone
    · exact (kept_step hquiet h hkept).imp_right And.left
    · exact Or.inr (gone_step hquiet h hgone)
  queued hqueued := kept_of_queued hs hquiet h (queued_of_step hquiet.settled h hqueued)
  sees := sees_step hs.safe hquiet.settled h
  follows := by
    rcases hs.follows with hqueued | hgone | ⟨n, task, htask, hfollows⟩
    · exact (queued_step hs.fits hquiet h hqueued).imp_right Or.inr
    · exact Or.inr (Or.inl (gone_step hquiet h hgone))
    · exact follows_step hs hquiet h htask hfollows

end releaseInv_step

/-! ## The runs -/

/-- After the deliveries of a message have been inserted: as long as it has a document its stored
    message is there and no step deletes it, and when it has none and all calls of
    `releaseDelivery` have completed, nothing is left of the stored message. -/
theorem release_counts {db : Database} {es₀ es : List Event} {s₀ : Master}
    (hs₀ : run (step cfg) { db := db } es₀ = some s₀) (hinserted : s₀.Inserted id body chunks)
    (hquiet : Along (step cfg) (Quiet id body) s₀ es) (hs : run (step cfg) s₀ es = some s) :
    (s.Queued id → s.db.Kept id body chunks ∧
      ∀ e s', Quiet id body s e → s.step cfg e = some s' → s'.db.Kept id body chunks) ∧
    (¬s.Queued id → (∀ n task, s.tasks.lookup n = some task → task.job.caller? = none) →
      s.db.Gone id body) := by
  have hstart : FreshTasks s₀ ∧ AllFit s₀ := ForStd.run_invariant
    (I := fun s => FreshTasks s ∧ AllFit s)
    (fun _ _ _ h hstep => ⟨freshTasks_step h.1 hstep, fits_step h.2 hstep⟩)
    ⟨fun n _ => AList.lookup_empty n, allFit_init db⟩ hs₀
  have hinv : ReleaseInv s id body chunks := ForStd.run_invariant_along
    (fun _ _ _ h hquiet hstep => releaseInv_step h hquiet hstep)
    { fresh := hstart.1
      fits := hstart.2
      stored := Or.inl hinserted.kept
      queued := fun _ => hinserted.kept
      sees := fun n task htask hsees => absurd hsees (hinserted.sees n task htask)
      follows := Or.inl hinserted.queued } hquiet hs
  refine ⟨fun hqueued => ⟨hinv.queued hqueued, fun e s' hquiet hstep =>
    kept_of_queued hinv hquiet hstep hqueued⟩, fun hqueued hdone => ?_⟩
  rcases hinv.follows with hqueued' | hgone | ⟨n, task, htask, hfollows⟩
  · exact absurd hqueued' hqueued
  · exact hgone
  · exact absurd (hdone n task htask) hfollows.caller?

/-- A message with two recipients, and a sender for each of them. -/
def twoRecipients : List Event :=
  [.tick 1600000000000, .openUpload "m" 1, .writeChunk ⟨1600000000, 1⟩ ⟨1600000000, 2⟩,
    .finishUpload ⟨1600000000, 1⟩,
    .push "m" [oneRecipient 1600000000, { oneRecipient 1600000000 with
      _id := ⟨1600000000, 10⟩
      index := 2 }],
    .connect 0, .hello 0 "a" (some "default"), .connect 1, .hello 1 "b" (some "default")]

/-- Both senders release their delivery, one step of each at a time. -/
def releaseBoth : List Event :=
  [.request 0 "m" "001" "lock m 001" none, .request 1 "m" "002" "lock m 002" none] ++
    (List.replicate 5 [.exec 0 0 .ok, .exec 1 0 .ok, .resume 0, .resume 1]).flatten

/-- Both calls see that no document is left, and both delete the stored message. -/
theorem release_counts_both : ∃ s₀ s,
    run (step sweptZone) { db := {} } twoRecipients = some s₀ ∧ s₀.db.queue.length = 2 ∧
      run (step sweptZone) s₀ releaseBoth = some s ∧ s.db.queue = [] ∧
        s.db.Gone "m" ⟨1600000000, 1⟩ := by
  have hstored : (run (step sweptZone) { db := {} } twoRecipients).map (fun s =>
      (s.db.queue.map (·.id), s.db.files, s.db.chunks, s.tasks.entries.length)) =
        some (["m", "m"], [⟨⟨1600000000, 1⟩, filename "m", none⟩],
          [⟨⟨1600000000, 2⟩, ⟨1600000000, 1⟩⟩], 0) := by
    decide +kernel
  have hquiet : ∀ s ∈ run (step sweptZone) { db := {} } twoRecipients,
      Along (step sweptZone) (Quiet "m" ⟨1600000000, 1⟩) s releaseBoth := by
    decide +kernel
  have hreleased : (run (step sweptZone) { db := {} } (twoRecipients ++ releaseBoth)).map
      (fun s => (s.db.queue, s.tasks.entries.length)) = some ([], 0) := by
    decide +kernel
  obtain ⟨s₀, hs₀, hfields₀⟩ := Option.map_eq_some_iff.mp hstored
  obtain ⟨s, hs, hfields⟩ := Option.map_eq_some_iff.mp hreleased
  rw [ForStd.run_append, hs₀, Option.bind_some] at hs
  simp only [Prod.mk.injEq] at hfields₀ hfields
  obtain ⟨hqueue₀, hfiles₀, hchunks₀, htasks₀⟩ := hfields₀
  have hinserted : s₀.Inserted "m" ⟨1600000000, 1⟩ [⟨⟨1600000000, 2⟩, ⟨1600000000, 1⟩⟩] := by
    refine ⟨?_, ⟨?_, ?_, ?_⟩, fun n task htask => ?_⟩
    · have hmem : "m" ∈ s₀.db.queue.map (·.id) := by rw [hqueue₀]; exact List.mem_cons_self
      exact List.mem_map.mp hmem
    · rw [hfiles₀]
      exact ⟨_, List.mem_cons_self, rfl⟩
    · rw [hfiles₀]
      intro file hfile
      rw [List.mem_singleton.mp hfile]
      exact iff_of_true rfl rfl
    · rw [hchunks₀]
      rfl
    · exact nomatch (ForStd.lookup_of_entries_eq_nil (List.length_eq_zero_iff.mp htasks₀) n).symm.trans htask
  have hcounts := release_counts hs₀ hinserted (hquiet s₀ hs₀) hs
  refine ⟨s₀, s, hs₀, ?_, hs, hfields.1, hcounts.2 ?_ fun n task htask => ?_⟩
  · rw [← List.length_map (f := (·.id)), hqueue₀]
    rfl
  · rintro ⟨delivery, hdelivery, -⟩
    rw [hfields.1] at hdelivery
    exact absurd hdelivery List.not_mem_nil
  · exact nomatch (ForStd.lookup_of_entries_eq_nil (List.length_eq_zero_iff.mp hfields.2) n).symm.trans htask

end Master

end ZoneMta
