import ZoneMta.Spec.GoWorkersCorrect

/-!
# Content of the Go queue

`Store` inserts the document, and only its deferred `Close` makes the content retrievable, with
an error that is dropped. The content is there for every worker that can see the document if and
only if no document becomes due before its upload is closed, and no such `Close` fails
(`ClosedBeforeDue`).

## Key results

- `inv_step`: what every event keeps under the condition
- `not_contentStored`: an event against it
- `contentStored_iff`: the two of them for every run
- `bounced_before_close`: a worker between `InsertOne` and `Close`
-/

namespace ZoneMta

namespace GoWorkers

open ForStd (run run_invariant_along Along along_of_forall Throughout throughout_iff_along updateOne
  mem_updateOne_of_not)
open GoQueue (QueuedMessage selectNext)

namespace System

variable {s s' : System} {e : Event}

/-- A document that `GetNext` can select has its content, no worker misses the content of its
    message, and `Store` has stored the content when it returns nil. -/
structure ContentStored (s : System) : Prop where
  visible : ∀ m ∈ s.coll, ∀ zone, m.isNext zone s.now = true → ∃ k call,
    s.stores.lookup k = some call ∧ call.message.messageID = m.messageID ∧
      s.files.lookup m.messageID = some call.content
  found : ∀ n worker, s.workers.lookup n = some worker → ∀ err, worker.phase ≠ .bounce true err
  returned : ∀ k call, s.stores.lookup k = some call → call.phase = .returned false →
    s.files.lookup call.message.messageID = some call.content

/-- A document is not due when it is inserted, nor before the upload is closed, and that does not
    fail. -/
def ClosedBeforeDue (s : System) : Event → Prop
  | .tick now => ∀ x ∈ s.stores.entries, x.2.phase = .close false → now < x.2.message.nextAttempt
  | .insert k ok => ok = true → ∀ call ∈ s.stores.lookup k, s.now < call.message.nextAttempt
  | .close k ok => ∀ call ∈ s.stores.lookup k, call.phase = .close false → ok = true
  | _ => True

instance (s : System) : (e : Event) → Decidable (s.ClosedBeforeDue e)
  | .tick _ => inferInstanceAs (Decidable (∀ x ∈ s.stores.entries, _))
  | .insert _ _ => inferInstanceAs (Decidable (_ → _))
  | .close k _ => inferInstanceAs (Decidable (∀ call ∈ s.stores.lookup k, _))
  | .openUpload .. | .write .. | .copyFails .. | .getNext .. | .getContent .. | .updateStatus ..
  | .deliver .. | .record .. | .releaseStaleLocks => isTrue trivial

/-! ## Invariant -/

/-- There is a call of `Store` for the message, in the phase. -/
def HasCall (s : System) (messageID : String) (phase : StorePhase) : Prop :=
  ∃ k call, s.stores.lookup k = some call ∧ call.message.messageID = messageID ∧
    call.phase = phase

/-- The document and the file of a call. -/
structure CallOk (s : System) (call : StoreCall) : Prop where
  new : call.message.status = .queued ∧ call.message.locked = false
  failed : call.phase = .close true ∨ call.phase = .returned true →
    call.message.messageID ∉ s.coll.map (·.messageID)
  pending : call.phase = .close false →
    call.written = call.content ∧ call.message ∈ s.coll ∧ s.now < call.message.nextAttempt
  stored : call.phase = .returned false →
    s.files.lookup call.message.messageID = some call.content

/-- Only calls that have returned have files, and workers process messages whose call has
    returned nil. -/
structure Inv (s : System) : Prop where
  wf : s.WellFormed
  calls : ∀ k call, s.stores.lookup k = some call → s.CallOk call
  files : ∀ f ∈ s.files, ∃ err, s.HasCall f.1 (.returned err)
  workers : ∀ n worker, s.workers.lookup n = some worker →
    s.HasCall worker.message.messageID (.returned false) ∧ ∀ err, worker.phase ≠ .bounce true err

theorem inv_empty : Inv {} := by
  refine ⟨wellFormed_empty, fun k call hk => ?_, by simp, fun n worker hn => ?_⟩
  · simp at hk
  · simp at hn

/-- The call of a message is unique. -/
theorem WellFormed.phase_eq (h : WellFormed s) {k : Nat} {call : StoreCall}
    (hk : s.stores.lookup k = some call) {phase : StorePhase}
    (hcall : s.HasCall call.message.messageID phase) : call.phase = phase := by
  obtain ⟨j, call', hj, hid, hphase⟩ := hcall
  obtain rfl := h.ids j k call' call hj hk hid
  obtain rfl := Option.some.inj (hj.symm.trans hk)
  exact hphase

/-- A call in another phase goes on. -/
theorem HasCall.setStore {messageID : String} {phase : StorePhase}
    (h : s.HasCall messageID phase) {k : Nat} {call : StoreCall}
    (hk : s.stores.lookup k = some call) (hphase : call.phase ≠ phase) (call' : StoreCall) :
    (s.setStore k call').HasCall messageID phase := by
  obtain ⟨j, call₀, hj, hid, hp⟩ := h
  have hjk : j ≠ k := by
    intro hjk
    obtain rfl := Option.some.inj (hj.symm.trans (hjk ▸ hk))
    exact hphase hp
  exact ⟨j, call₀, by rw [lookup_setStore, if_neg hjk, hj], hid, hp⟩

/-- A call without a file yet. -/
theorem Inv.lookup_files (h : Inv s) {k : Nat} {call : StoreCall}
    (hk : s.stores.lookup k = some call) (hphase : ∀ err, call.phase ≠ .returned err) :
    ∀ f ∈ s.files, f.1 ≠ call.message.messageID := by
  intro f hf hid
  obtain ⟨err, hcall⟩ := h.files f hf
  exact hphase err (h.wf.phase_eq hk (hid ▸ hcall))

/-- A document that can be selected belongs to a call that has returned nil. -/
theorem Inv.hasCall_of_isNext (h : Inv s) {m : QueuedMessage} (hm : m ∈ s.coll) {zone : String}
    (hnext : m.isNext zone s.now = true) : s.HasCall m.messageID (.returned false) := by
  obtain ⟨k, call, hk, hid, hcopy⟩ := h.wf.docs m.messageID (List.mem_map_of_mem hm)
  have hcall := h.calls k call hk
  have hdoc : call.message.messageID ∈ s.coll.map (·.messageID) := by
    rw [hid]
    exact List.mem_map_of_mem hm
  cases hphase : call.phase with
  | copy => exact absurd hphase hcopy
  | close err =>
    cases err with
    | true => exact absurd hdoc (hcall.failed (Or.inl hphase))
    | false =>
      -- the document is still that of the call, which is not due
      obtain ⟨_, hmem, hdue⟩ := hcall.pending hphase
      obtain rfl := List.inj_on_of_nodup_map h.wf.nodup hm hmem hid.symm
      simp only [QueuedMessage.isNext, Bool.and_eq_true, decide_eq_true_eq] at hnext
      omega
  | returned err =>
    cases err with
    | true => exact absurd hdoc (hcall.failed (Or.inr hphase))
    | false => exact ⟨k, call, hk, hid, hphase⟩

theorem Inv.lookup_of_hasCall (h : Inv s) {messageID : String}
    (hcall : s.HasCall messageID (.returned false)) : ∃ k call, s.stores.lookup k = some call ∧
      call.message.messageID = messageID ∧ s.files.lookup messageID = some call.content := by
  obtain ⟨k, call, hk, rfl, hphase⟩ := hcall
  exact ⟨k, call, hk, rfl, (h.calls k call hk).stored hphase⟩

theorem Inv.contentStored (h : Inv s) : s.ContentStored where
  visible _ hm _ hnext := h.lookup_of_hasCall (h.hasCall_of_isNext hm hnext)
  found n worker hn := (h.workers n worker hn).2
  returned k call hk hphase := (h.calls k call hk).stored hphase

/-! ## Steps -/

/-- A worker updates the document of its message. -/
theorem Inv.updateOne (h : Inv s) {messageID : String}
    (hcall : s.HasCall messageID (.returned false)) {f : QueuedMessage → QueuedMessage}
    (hf : ∀ m, (f m).messageID = m.messageID) :
    Inv { s with coll := updateOne (·.messageID == messageID) f s.coll } := by
  have hids : (ForStd.updateOne (·.messageID == messageID) f s.coll).map (·.messageID) =
      s.coll.map (·.messageID) := ForStd.map_updateOne hf s.coll
  refine ⟨h.wf.of_eq rfl rfl hids, fun k call hk => ?_, h.files, h.workers⟩
  obtain ⟨hnew, hfailed, hpending, hstored⟩ := h.calls k call hk
  refine ⟨hnew, fun hphase => hids ▸ hfailed hphase, fun hphase => ?_, hstored⟩
  obtain ⟨hwritten, hmem, hdue⟩ := hpending hphase
  -- a document that waits for its upload is another one
  have hne : (call.message.messageID == messageID) = false := by
    rw [beq_eq_false_iff_ne]
    rintro rfl
    rw [h.wf.phase_eq hk hcall] at hphase
    exact nomatch hphase
  exact ⟨hwritten, mem_updateOne_of_not hmem hne, hdue⟩

/-- A worker goes on with its message. -/
theorem Inv.setWorker (h : Inv s) {n : Nat} {worker : Worker}
    (hcall : s.HasCall worker.message.messageID (.returned false))
    (hphase : ∀ err, worker.phase ≠ .bounce true err) : Inv (s.setWorker n worker) := by
  refine ⟨h.wf.of_eq rfl rfl rfl, fun k call hk => ?_, h.files, fun n' worker' hn' => ?_⟩
  · obtain ⟨hnew, hfailed, hpending, hstored⟩ := h.calls k call hk
    exact ⟨hnew, hfailed, hpending, hstored⟩
  · rw [lookup_setWorker] at hn'
    split at hn'
    next =>
      obtain rfl := Option.some.inj hn'
      exact ⟨hcall, hphase⟩
    next => exact h.workers n' worker' hn'

theorem Inv.leave (h : Inv s) (n : Nat) : Inv (s.leave n) := by
  refine ⟨h.wf.of_eq rfl rfl rfl, fun k call hk => ?_, h.files, fun n' worker' hn' => ?_⟩
  · obtain ⟨hnew, hfailed, hpending, hstored⟩ := h.calls k call hk
    exact ⟨hnew, hfailed, hpending, hstored⟩
  · rw [lookup_leave] at hn'
    split at hn'
    next => exact nomatch hn'
    next => exact h.workers n' worker' hn'

theorem Inv.nextRecipient (h : Inv s) {n : Nat} {worker : Worker}
    (hcall : s.HasCall worker.message.messageID (.returned false)) (rest : List String) :
    Inv (s.nextRecipient n worker rest) := by
  cases rest with
  | nil => exact h.leave n
  | cons recipient rest => exact h.setWorker hcall fun err => by simp

/-- A call goes on that has not returned; the documents and files of the others stay. -/
theorem Inv.setStore (h : Inv s) (coll : List QueuedMessage) (files : List (String × List UInt8))
    {k : Nat} {call call' : StoreCall} (hk : s.stores.lookup k = some call)
    (hphase : ∀ err, call.phase ≠ .returned err)
    (hwf : WellFormed { s.setStore k call' with coll := coll, files := files })
    (hcall : CallOk { s.setStore k call' with coll := coll, files := files } call')
    (hothers : ∀ j other, j ≠ k → s.stores.lookup j = some other →
      CallOk { s.setStore k call' with coll := coll, files := files } other)
    (hfiles : ∀ f ∈ files, f ∈ s.files ∨
      f.1 = call'.message.messageID ∧ ∃ err, call'.phase = .returned err) :
    Inv { s.setStore k call' with coll := coll, files := files } := by
  refine ⟨hwf, fun j other hj => ?_, fun f hf => ?_, fun n worker hn => ?_⟩
  · rw [lookup_setStore] at hj
    split at hj
    next =>
      obtain rfl := Option.some.inj hj
      exact hcall
    next hjk => exact hothers j other hjk hj
  · cases hfiles f hf with
    | inl hf =>
      obtain ⟨err, hreturned⟩ := h.files f hf
      exact ⟨err, hreturned.setStore hk (hphase err) call'⟩
    | inr hf =>
      obtain ⟨hid, err, herr⟩ := hf
      exact ⟨err, k, call', by rw [lookup_setStore, if_pos rfl], hid.symm, herr⟩
  · obtain ⟨hreturned, hbounce⟩ := h.workers n worker hn
    exact ⟨hreturned.setStore hk (hphase false) call', hbounce⟩

/-- A new call of `Store`. -/
theorem Inv.open (h : Inv s) {call : StoreCall}
    (hnew : ∀ k call', s.stores.lookup k = some call' →
      call'.message.messageID ≠ call.message.messageID)
    (hmessage : call.message.status = .queued ∧ call.message.locked = false)
    (hphase : call.phase = .copy) :
    Inv { s.setStore s.nextStore call with nextStore := s.nextStore + 1 } := by
  have hold : ∀ {messageID phase}, s.HasCall messageID phase →
      HasCall { s.setStore s.nextStore call with nextStore := s.nextStore + 1 } messageID phase := by
    intro messageID phase hcall
    obtain ⟨k, call₀, hk, hid, hp⟩ := hcall
    have hne : k ≠ s.nextStore := Nat.ne_of_lt (h.wf.fresh k call₀ hk)
    exact ⟨k, call₀, (lookup_setStore s _ k call).trans ((if_neg hne).trans hk), hid, hp⟩
  refine ⟨h.wf.open hnew, fun k call₀ hk => ?_, fun f hf => ?_, fun n worker hn => ?_⟩
  · simp only [lookup_setStore] at hk
    split at hk
    next =>
      obtain rfl := Option.some.inj hk
      exact ⟨hmessage, by simp [hphase], by simp [hphase], by simp [hphase]⟩
    next =>
      obtain ⟨hnew, hfailed, hpending, hstored⟩ := h.calls k call₀ hk
      exact ⟨hnew, hfailed, hpending, hstored⟩
  · obtain ⟨err, hreturned⟩ := h.files f hf
    exact ⟨err, hold hreturned⟩
  · obtain ⟨hreturned, hbounce⟩ := h.workers n worker hn
    exact ⟨hold hreturned, hbounce⟩

/-- `io.Copy` goes on or fails. -/
theorem Inv.copy (h : Inv s) {k : Nat} {call call' : StoreCall}
    (hk : s.stores.lookup k = some call) (hphase : call.phase = .copy)
    (hmessage : call'.message = call.message)
    (hphase' : call'.phase = .copy ∨ call'.phase = .close true) : Inv (s.setStore k call') := by
  have hcall := h.calls k call hk
  have hwf : WellFormed (s.setStore k call') := h.wf.setStore hk hmessage fun hne =>
    absurd hphase hne
  refine h.setStore s.coll s.files hk (fun err => by simp [hphase]) hwf ?_ ?_
    fun f hf => Or.inl hf
  · refine ⟨hmessage ▸ hcall.new, fun _ => ?_, fun hp => ?_, fun hp => ?_⟩
    · exact hmessage ▸ h.wf.notMem_of_copy hk hphase
    · cases hphase' <;> simp_all
    · cases hphase' <;> simp_all
  · intro j other _ hj
    obtain ⟨hnew, hfailed, hpending, hstored⟩ := h.calls j other hj
    exact ⟨hnew, hfailed, hpending, hstored⟩

/-- `InsertOne` of a document that is not due. -/
theorem Inv.insert (h : Inv s) {k : Nat} {call : StoreCall} (hk : s.stores.lookup k = some call)
    (hphase : call.phase = .copy) (hwritten : call.written = call.content)
    (hdue : s.now < call.message.nextAttempt) :
    Inv { s.setStore k { call with phase := .close false } with
      coll := s.coll ++ [call.message] } := by
  refine h.setStore _ s.files hk (fun err => by simp [hphase]) (h.wf.insert hk hphase) ?_
    ?_ fun f hf => Or.inl hf
  · refine ⟨(h.calls k call hk).new, by simp, fun _ => ⟨hwritten, ?_, hdue⟩, by simp⟩
    exact List.mem_append_right _ List.mem_cons_self
  · intro j other hjk hj
    obtain ⟨hnew, hfailed, hpending, hstored⟩ := h.calls j other hj
    refine ⟨hnew, fun hp => ?_, fun hp => ?_, hstored⟩
    · -- the new document has the id of another call
      have hid : other.message.messageID ≠ call.message.messageID := fun hid =>
        hjk (h.wf.ids j k other call hj hk hid)
      simpa [hid] using hfailed hp
    · obtain ⟨hw, hmem, hd⟩ := hpending hp
      exact ⟨hw, List.mem_append_left _ hmem, hd⟩

/-- A call without a file deletes none. -/
theorem Inv.filter_files (h : Inv s) {k : Nat} {call : StoreCall}
    (hk : s.stores.lookup k = some call) (hphase : call.phase = .copy) :
    s.files.filter (·.1 ≠ call.message.messageID) = s.files := by
  refine List.filter_eq_self.mpr fun f hf => decide_eq_true ?_
  exact h.lookup_files hk (fun err => by simp [hphase]) f hf

/-- `Close`, which does not fail after a document was inserted. -/
theorem Inv.close (h : Inv s) {k : Nat} {call : StoreCall} (hk : s.stores.lookup k = some call)
    {err ok : Bool} (hphase : call.phase = .close err) (hok : call.phase = .close false → ok = true) :
    Inv { s.setStore k { call with phase := .returned err } with
      files := if ok then s.files ++ [(call.message.messageID, call.written)] else s.files } := by
  have hcall := h.calls k call hk
  have hne : ∀ err', call.phase ≠ .returned err' := fun err' => by simp [hphase]
  have hwf : WellFormed (s.setStore k { call with phase := .returned err }) :=
    h.wf.setStore hk rfl fun _ => by simp
  refine h.setStore s.coll _ hk hne (hwf.of_eq rfl rfl rfl) ?_ ?_ fun f hf => ?_
  · refine ⟨hcall.new, fun hp => ?_, by simp, fun hp => ?_⟩
    · refine hcall.failed (Or.inl ?_)
      rw [hphase]
      simpa using hp
    · -- the content that was written is the whole content
      obtain rfl : err = false := by simpa using hp
      obtain ⟨hwritten, _, _⟩ := hcall.pending hphase
      have hnone : s.files.lookup call.message.messageID = none := by
        refine List.lookup_eq_none_iff.mpr fun f hf => bne_iff_ne.mpr ?_
        exact (h.lookup_files hk hne f hf).symm
      show List.lookup _ (if ok then _ else _) = _
      rw [hok hphase, if_pos rfl, List.lookup_append, hnone, hwritten]
      simp
  · intro j other hjk hj
    obtain ⟨hnew, hfailed, hpending, hstored⟩ := h.calls j other hj
    refine ⟨hnew, hfailed, hpending, fun hp => ?_⟩
    show List.lookup _ (if ok then _ else _) = _
    split
    · rw [List.lookup_append, hstored hp]
      rfl
    · exact hstored hp
  · split at hf
    · rw [List.mem_append, List.mem_singleton] at hf
      cases hf with
      | inl hf => exact Or.inl hf
      | inr hf => exact Or.inr ⟨hf ▸ rfl, err, rfl⟩
    · exact Or.inl hf

/-- Stale locks are released; a document that waits for its upload has none. -/
theorem Inv.releaseStaleLocks (h : Inv s) :
    Inv { s with coll := s.coll.map (releaseStale s.now) } := by
  have hids := messageIDs_releaseStale s.coll s.now
  refine ⟨h.wf.of_eq rfl rfl hids, fun k call hk => ?_, h.files, h.workers⟩
  obtain ⟨hnew, hfailed, hpending, hstored⟩ := h.calls k call hk
  refine ⟨hnew, fun hp => hids ▸ hfailed hp, fun hp => ?_, hstored⟩
  obtain ⟨hwritten, hmem, hdue⟩ := hpending hp
  refine ⟨hwritten, List.mem_map.mpr ⟨call.message, hmem, ?_⟩, hdue⟩
  simp [releaseStale, hnew.2]

/-- Every event keeps the invariant under the condition. -/
theorem inv_step (h : Inv s) (hclosed : s.ClosedBeforeDue e) (hstep : s.step e = some s') :
    Inv s' := by
  cases goes_of_step hstep with
  | @tick now hnow =>
    refine ⟨h.wf.of_eq rfl rfl rfl, fun k call hk => ?_, h.files, h.workers⟩
    obtain ⟨hnew, hfailed, hpending, hstored⟩ := h.calls k call hk
    refine ⟨hnew, hfailed, fun hp => ?_, hstored⟩
    obtain ⟨hwritten, hmem, _⟩ := hpending hp
    exact ⟨hwritten, hmem, hclosed ⟨k, call⟩ (AList.mem_lookup_iff.mp hk) hp⟩
  | openUpload hnew => exact h.open hnew ⟨rfl, rfl⟩ rfl
  | write hk hphase => exact h.copy hk hphase rfl (Or.inl hphase)
  | copyFails hk hphase => exact h.copy hk hphase rfl (Or.inr rfl)
  | insert hk hphase hwritten => exact h.insert hk hphase hwritten (hclosed rfl _ hk)
  | insertFails hk hphase =>
    rw [h.filter_files hk hphase]
    exact h.copy hk hphase rfl (Or.inr rfl)
  | close hk hphase => exact h.close hk hphase (hclosed _ hk)
  | noMessage => exact h
  | @getNext n zone workerID m hn hm =>
    obtain ⟨hmem, hnext⟩ := GoQueue.isNext_of_selectNext hm
    have hcall := h.hasCall_of_isNext hmem hnext
    have hlock := h.updateOne hcall (f := (·.lock workerID s.now)) fun _ => rfl
    exact hlock.setWorker hcall fun err => by simp
  | contentFails hn hphase =>
    exact h.setWorker (h.workers _ _ hn).1 fun err => by simp
  | getContent hn hphase => exact h.nextRecipient (h.workers _ _ hn).1 _
  | noContent hn hphase hfile =>
    -- the content is there
    obtain ⟨_, call, _, _, hlookup⟩ := h.lookup_of_hasCall (h.workers _ _ hn).1
    obtain ⟨l₁, l₂, hfiles, _⟩ := List.lookup_eq_some_iff.mp hlookup
    have hmem : (_, call.content) ∈ s.files := hfiles ▸ List.mem_append_right l₁ List.mem_cons_self
    exact absurd rfl (hfile _ hmem)
  | updateStatus hn hphase =>
    refine Inv.leave ?_ _
    split
    · exact h.updateOne (h.workers _ _ hn).1 fun _ => rfl
    · exact h
  | deliver hn hphase => exact h.setWorker (h.workers _ _ hn).1 fun err => by simp
  | record hn hphase =>
    have hcall := (h.workers _ _ hn).1
    refine Inv.nextRecipient ?_ ?_ _
    · split
      · exact h.updateOne hcall fun m => messageID_record m _ s.now
      · exact h
    · exact hcall
  | releaseStaleLocks => exact h.releaseStaleLocks

/-- A new document that is due, without a file. -/
theorem not_contentStored_of_due {m : QueuedMessage} (hm : m ∈ s.coll)
    (hnew : m.status = .queued ∧ m.locked = false) (hdue : m.nextAttempt ≤ s.now)
    (hfiles : ∀ f ∈ s.files, f.1 ≠ m.messageID) : ¬s.ContentStored := by
  intro h
  have hnext : m.isNext m.zone s.now = true := by
    simp [QueuedMessage.isNext, hnew.1, hnew.2, hdue]
  obtain ⟨_, call, _, _, hlookup⟩ := h.visible m hm m.zone hnext
  obtain ⟨l₁, l₂, heq, _⟩ := List.lookup_eq_some_iff.mp hlookup
  have hmem : (m.messageID, call.content) ∈ s.files := heq ▸ List.mem_append_right l₁ List.mem_cons_self
  exact hfiles _ hmem rfl

/-- An event against the condition: the document can be seen, or `Store` returns nil, without the
    content. -/
theorem not_contentStored (h : Inv s) (hclosed : ¬s.ClosedBeforeDue e)
    (hstep : s.step e = some s') : ¬s'.ContentStored := by
  cases goes_of_step hstep with
  | @tick now hnow =>
    -- the upload of a document that becomes due is still open
    simp only [ClosedBeforeDue, not_forall, Nat.not_lt] at hclosed
    obtain ⟨⟨k, call⟩, hentry, hphase, hdue⟩ := hclosed
    have hphase : call.phase = .close false := hphase
    have hk := AList.mem_lookup_iff.mpr hentry
    have hcall := h.calls k call hk
    exact not_contentStored_of_due (hcall.pending hphase).2.1 hcall.new hdue
      (h.lookup_files hk fun err => by simp [hphase])
  | @insert k call hk hphase hwritten =>
    have hdue : call.message.nextAttempt ≤ s.now := by
      by_contra hdue
      refine hclosed fun _ call' hk' => ?_
      obtain rfl := Option.some.inj (hk.symm.trans hk')
      omega
    refine not_contentStored_of_due (m := call.message) ?_ (h.calls k call hk).new hdue
      (h.lookup_files hk fun err => by simp [hphase])
    exact List.mem_append_right _ List.mem_cons_self
  | @close k ok err call hk hphase =>
    -- `Close` fails, and its error is dropped
    obtain ⟨rfl, rfl⟩ : ok = false ∧ err = false := by
      by_contra hne
      refine hclosed fun call' hk' hphase' => ?_
      obtain rfl := Option.some.inj (hk.symm.trans hk')
      cases ok with
      | true => rfl
      | false => simp_all
    intro hstored
    have hlookup := hstored.returned k { call with phase := .returned false }
      ((lookup_setStore s k k _).trans (if_pos rfl)) rfl
    obtain ⟨l₁, l₂, heq, _⟩ := List.lookup_eq_some_iff.mp hlookup
    have hmem : (call.message.messageID, call.content) ∈ s.files :=
      heq ▸ List.mem_append_right l₁ List.mem_cons_self
    exact h.lookup_files hk (fun err => by simp [hphase]) _ hmem rfl
  | insertFails => exact absurd (fun hok => nomatch hok) hclosed
  | _ => exact absurd trivial hclosed

/-! ## Every run -/

/-- The content is there whenever it is needed if and only if no document becomes due before its
    upload is closed, and no such `Close` fails. -/
theorem contentStored_iff (es : List Event) (s : System) (hrun : run step {} es = some s) :
    Throughout step ContentStored {} es ↔ Along step ClosedBeforeDue {} es :=
  throughout_iff_along (fun _ _ _ => inv_step) (fun _ _ _ => not_contentStored)
    (fun _ h => h.contentStored) inv_empty hrun

/-- A message that is stored with a later time of its first attempt is found with its content. -/
theorem contentStored_iff_example :
    Throughout step ContentStored {}
      [.openUpload "a" "default" ["b@c"] (some 5) [1], .write 0 1, .insert 0 true, .close 0 true,
        .tick 6, .getNext 0 "default" "w", .getContent 0 none] := by
  have hsome : (run step {}
      [.openUpload "a" "default" ["b@c"] (some 5) [1], .write 0 1, .insert 0 true, .close 0 true,
        .tick 6, .getNext 0 "default" "w", .getContent 0 none]).isSome = true := by decide +kernel
  obtain ⟨s, hrun⟩ := Option.isSome_iff_exists.mp hsome
  exact (contentStored_iff _ s hrun).mpr (by decide +kernel)

/-- A worker gets the message between `InsertOne` and `Close`, and bounces it. -/
theorem bounced_before_close :
    ¬∀ (es : List Event) (s : System), run step {} es = some s → s.ContentStored := by
  intro h
  have hbounced : ((run step {}
      [.openUpload "a" "default" ["b@c"] none [1], .write 0 1, .insert 0 true,
        .getNext 0 "default" "w", .getContent 0 none]).any fun s =>
      (s.workers.lookup 0).any (·.phase == .bounce true fileNotFound)) = true := by decide +kernel
  obtain ⟨s, hrun, hphase⟩ := (Option.any_eq_true _ _).mp hbounced
  obtain ⟨worker, hn, hphase⟩ := (Option.any_eq_true _ _).mp hphase
  exact (h _ s hrun).found 0 worker hn fileNotFound (beq_iff_eq.mp hphase)

/-! ## The callers of `Store` -/

/-- `Store` is called without a time of the first attempt. -/
def DefaultTime : Event → Prop
  | .openUpload _ _ _ nextAttempt _ => nextAttempt = none
  | _ => True

/-- No call has a document for later. -/
def CallsDue (s : System) : Prop :=
  ∀ k call, s.stores.lookup k = some call → call.message.nextAttempt ≤ s.now

theorem CallsDue.setStore (h : s.CallsDue) {k : Nat} {call : StoreCall}
    (hcall : call.message.nextAttempt ≤ s.now) : (s.setStore k call).CallsDue := by
  intro j call' hj
  rw [lookup_setStore] at hj
  split at hj
  next => exact Option.some.inj hj ▸ hcall
  next => exact h j call' hj

theorem callsDue_step (hdefault : DefaultTime e) (h : s.CallsDue) (hstep : s.step e = some s') :
    s'.CallsDue := by
  cases goes_of_step hstep with
  | tick hnow => exact fun k call hk => Nat.le_trans (h k call hk) hnow
  | openUpload =>
    -- the default is the time of the call
    obtain rfl := hdefault
    exact h.setStore (Nat.le_refl s.now)
  | write hk | copyFails hk | insert hk | insertFails hk | close hk =>
    have hcall := h _ _ hk
    exact h.setStore hcall
  | getContent | record =>
    rw [nextRecipient_eq]
    exact h
  | _ => exact h

/-- Without such times every document can be seen from its insertion on, so the content is missing
    after every `InsertOne`. -/
theorem not_closedBeforeDue_of_insert {es : List Event} {k : Nat} (hes : ∀ e ∈ es, DefaultTime e)
    (hrun : run step {} (es ++ [.insert k true]) = some s) :
    ¬Along step ClosedBeforeDue {} (es ++ [.insert k true]) := by
  obtain ⟨t, ht, hinsert⟩ := ForStd.run_concat.mp hrun
  have hdue : t.CallsDue := run_invariant_along (p := fun _ e => DefaultTime e)
    (fun _ _ _ h he => callsDue_step he h) (by intro k call hk; simp at hk)
    (along_of_forall (fun e he _ => hes e he) {}) ht
  intro halong
  have hclosed := (halong.of_append ht).1
  cases goes_of_step hinsert with
  | insert hk => exact absurd (hclosed rfl _ hk) (Nat.not_lt.mpr (hdue _ _ hk))

end System

end GoWorkers

end ZoneMta
