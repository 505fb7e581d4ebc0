import ZoneMta.Native.GoWorkers
import ZoneMta.Spec.GoQueueCorrect

/-!
# Steps of the Go queue

What the events do, one case for each way through `step`, and what holds whatever the clock
does: the calls of `Store` have ids of their own, and a document comes from the call with its id.

## Key results

- `goes_of_step`: what an event does
- `wellFormed_step`: what every event keeps
- `lookup_nextRecipient`: a worker after a recipient
-/

namespace ZoneMta

namespace GoWorkers

open ForStd (updateOne mem_updateOne map_updateOne)
open GoQueue (QueuedMessage DeliveryAttempt MessageStatus selectNext updateStatus
  recordDeliveryAttempt)

/-! ## Updates keep the ids -/

theorem messageID_record (m : QueuedMessage) (attempt : DeliveryAttempt) (now : Nat) :
    (m.record attempt now).messageID = m.messageID := by
  unfold QueuedMessage.record
  cases attempt.status <;> rfl

theorem messageID_releaseStale (now : Nat) (m : QueuedMessage) :
    (releaseStale now m).messageID = m.messageID := by
  rw [releaseStale]
  split <;> rfl

theorem messageIDs_lock (coll : List QueuedMessage) (messageID workerID : String) (now : Nat) :
    (updateOne (·.messageID == messageID) (·.lock workerID now) coll).map (·.messageID) =
      coll.map (·.messageID) := by
  refine map_updateOne (fun m => ?_) coll
  rfl

theorem messageIDs_updateStatus (coll : List QueuedMessage) (messageID : String)
    (status : MessageStatus) (errorMsg : String) :
    (updateStatus coll messageID status errorMsg).map (·.messageID) = coll.map (·.messageID) := by
  refine map_updateOne (fun m => ?_) coll
  rfl

theorem messageIDs_recordDeliveryAttempt (coll : List QueuedMessage) (messageID : String)
    (attempt : DeliveryAttempt) (now : Nat) :
    (recordDeliveryAttempt coll messageID attempt now).map (·.messageID) =
      coll.map (·.messageID) := by
  refine map_updateOne (fun m => ?_) coll
  exact messageID_record m attempt now

theorem messageIDs_releaseStale (coll : List QueuedMessage) (now : Nat) :
    (coll.map (releaseStale now)).map (·.messageID) = coll.map (·.messageID) := by
  rw [List.map_map]
  exact List.map_congr_left fun m _ => messageID_releaseStale now m

namespace System

variable {s s' : System} {e : Event}

/-- What an event does. -/
inductive Goes (s : System) : Event → System → Prop
  | tick {now : Nat} (h : s.now ≤ now) : Goes s (.tick now) { s with now := now }
  | openUpload {messageID zone : String} {recipients : List String} {nextAttempt : Option Nat}
      {content : List UInt8}
      (hnew : ∀ k call, s.stores.lookup k = some call → call.message.messageID ≠ messageID) :
      Goes s (.openUpload messageID zone recipients nextAttempt content)
        { s.setStore s.nextStore
            ⟨newMessage messageID zone recipients (nextAttempt.getD s.now), content, [], .copy⟩ with
          nextStore := s.nextStore + 1 }
  | write {k n : Nat} {call : StoreCall} (hk : s.stores.lookup k = some call)
      (hphase : call.phase = .copy) :
      Goes s (.write k n)
        (s.setStore k { call with written := call.content.take (call.written.length + n) })
  | copyFails {k : Nat} {call : StoreCall} (hk : s.stores.lookup k = some call)
      (hphase : call.phase = .copy) :
      Goes s (.copyFails k) (s.setStore k { call with phase := .close true })
  | insert {k : Nat} {call : StoreCall} (hk : s.stores.lookup k = some call)
      (hphase : call.phase = .copy) (hwritten : call.written = call.content) :
      Goes s (.insert k true)
        { s.setStore k { call with phase := .close false } with
          coll := s.coll ++ [call.message] }
  | insertFails {k : Nat} {call : StoreCall} (hk : s.stores.lookup k = some call)
      (hphase : call.phase = .copy) :
      Goes s (.insert k false)
        { s.setStore k { call with phase := .close true } with
          files := s.files.filter (·.1 ≠ call.message.messageID) }
  | close {k : Nat} {ok err : Bool} {call : StoreCall} (hk : s.stores.lookup k = some call)
      (hphase : call.phase = .close err) :
      Goes s (.close k ok)
        { s.setStore k { call with phase := .returned err } with
          files := if ok then s.files ++ [(call.message.messageID, call.written)] else s.files }
  | noMessage {n : Nat} {zone workerID : String} (hn : s.workers.lookup n = none)
      (hm : selectNext s.coll zone s.now = none) : Goes s (.getNext n zone workerID) s
  | getNext {n : Nat} {zone workerID : String} {m : QueuedMessage} (hn : s.workers.lookup n = none)
      (hm : selectNext s.coll zone s.now = some m) :
      Goes s (.getNext n zone workerID)
        ({ s with
            coll := updateOne (·.messageID == m.messageID) (·.lock workerID s.now) s.coll }.setWorker
          n ⟨m.lock workerID s.now, s.now, .content⟩)
  | contentFails {n : Nat} {err : String} {worker : Worker} (hn : s.workers.lookup n = some worker)
      (hphase : worker.phase = .content) :
      Goes s (.getContent n (some err)) (s.setWorker n { worker with phase := .bounce false err })
  | getContent {n : Nat} {worker : Worker} (hn : s.workers.lookup n = some worker)
      (hphase : worker.phase = .content) :
      Goes s (.getContent n none) (s.nextRecipient n worker worker.message.recipients)
  | noContent {n : Nat} {worker : Worker} (hn : s.workers.lookup n = some worker)
      (hphase : worker.phase = .content) (hfile : ∀ f ∈ s.files, f.1 ≠ worker.message.messageID) :
      Goes s (.getContent n none)
        (s.setWorker n { worker with phase := .bounce true fileNotFound })
  | updateStatus {n : Nat} {ok missing : Bool} {err : String} {worker : Worker}
      (hn : s.workers.lookup n = some worker) (hphase : worker.phase = .bounce missing err) :
      Goes s (.updateStatus n ok)
        ({ s with
            coll :=
              if s.inContext worker ok then
                updateStatus s.coll worker.message.messageID .bounced err
              else s.coll }.leave n)
  | deliver {n duration : Nat} {err : Option String} {recipient : String} {timestamp : Nat}
      {rest : List String} {worker : Worker} (hn : s.workers.lookup n = some worker)
      (hphase : worker.phase = .deliver recipient timestamp rest) :
      Goes s (.deliver n duration err)
        (s.setWorker n { worker with
          phase := .record (s.attempt worker recipient timestamp duration err) rest })
  | record {n : Nat} {ok : Bool} {attempt : DeliveryAttempt} {rest : List String} {worker : Worker}
      (hn : s.workers.lookup n = some worker) (hphase : worker.phase = .record attempt rest) :
      Goes s (.record n ok)
        ({ s with
            coll :=
              if s.inContext worker ok then
                recordDeliveryAttempt s.coll worker.message.messageID attempt s.now
              else s.coll }.nextRecipient n worker rest)
  | releaseStaleLocks :
      Goes s .releaseStaleLocks { s with coll := s.coll.map (releaseStale s.now) }

/-- What an event does. -/
theorem goes_of_step (h : s.step e = some s') : Goes s e s' := by
  cases e with
  | tick now =>
    simp only [step, Option.ite_none_right_eq_some, Option.some.injEq] at h
    obtain ⟨hnow, rfl⟩ := h
    exact .tick hnow
  | openUpload messageID zone recipients nextAttempt content =>
    simp only [step, Option.ite_none_right_eq_some, Option.some.injEq] at h
    obtain ⟨hnew, rfl⟩ := h
    -- the id of the new message is compared with those of all the calls
    refine .openUpload fun k call hk => ?_
    have hentry := List.all_eq_true.mp hnew _ (AList.mem_lookup_iff.mp hk)
    exact bne_iff_ne.mp hentry
  | write k n =>
    obtain ⟨call, hk, h⟩ := Option.bind_eq_some_iff.mp h
    split at h
    next hphase => exact Option.some.inj h ▸ .write hk hphase
    next => exact nomatch h
  | copyFails k =>
    obtain ⟨call, hk, h⟩ := Option.bind_eq_some_iff.mp h
    split at h
    next hphase => exact Option.some.inj h ▸ .copyFails hk hphase
    next => exact nomatch h
  | insert k ok =>
    obtain ⟨call, hk, h⟩ := Option.bind_eq_some_iff.mp h
    simp only [Option.ite_none_right_eq_some] at h
    obtain ⟨⟨hphase, hwritten⟩, h⟩ := h
    cases ok with
    | true => exact Option.some.inj h ▸ .insert hk hphase hwritten
    | false => exact Option.some.inj h ▸ .insertFails hk hphase
  | close k ok =>
    obtain ⟨call, hk, h⟩ := Option.bind_eq_some_iff.mp h
    split at h
    next err hphase => exact Option.some.inj h ▸ .close hk hphase
    next => exact nomatch h
  | getNext n zone workerID =>
    simp only [step, Option.ite_none_left_eq_some] at h
    obtain ⟨hn, h⟩ := h
    have hn : s.workers.lookup n = none := by simpa using hn
    cases hm : selectNext s.coll zone s.now with
    | none =>
      simp only [GoQueue.getNext, hm, Option.some.injEq] at h
      -- without a document the worker stays without one, and tries again
      exact h ▸ .noMessage hn hm
    | some m =>
      simp only [GoQueue.getNext, hm, Option.some.injEq] at h
      exact h ▸ .getNext hn hm
  | getContent n err =>
    obtain ⟨worker, hn, h⟩ := Option.bind_eq_some_iff.mp h
    split at h
    next hphase =>
      cases err with
      | some err => exact Option.some.inj h ▸ .contentFails hn hphase
      | none =>
        simp only at h
        split at h
        next => exact Option.some.inj h ▸ .getContent hn hphase
        next hfile =>
          -- no file has the id of the message
          refine Option.some.inj h ▸ .noContent hn hphase fun f hf hid => hfile ?_
          exact List.any_eq_true.mpr ⟨f, hf, beq_iff_eq.mpr hid⟩
    next => exact nomatch h
  | updateStatus n ok =>
    obtain ⟨worker, hn, h⟩ := Option.bind_eq_some_iff.mp h
    split at h
    next missing err hphase => exact Option.some.inj h ▸ .updateStatus hn hphase
    next => exact nomatch h
  | deliver n duration err =>
    obtain ⟨worker, hn, h⟩ := Option.bind_eq_some_iff.mp h
    split at h
    next recipient timestamp rest hphase => exact Option.some.inj h ▸ .deliver hn hphase
    next => exact nomatch h
  | record n ok =>
    obtain ⟨worker, hn, h⟩ := Option.bind_eq_some_iff.mp h
    split at h
    next attempt rest hphase => exact Option.some.inj h ▸ .record hn hphase
    next => exact nomatch h
  | releaseStaleLocks => exact Option.some.inj h ▸ .releaseStaleLocks

/-! ## Calls and workers after a step -/

theorem lookup_setStore (s : System) (k k' : Nat) (call : StoreCall) :
    (s.setStore k call).stores.lookup k' = if k' = k then some call else s.stores.lookup k' :=
  ForStd.lookup_insert s.stores k k' call

theorem lookup_setWorker (s : System) (n n' : Nat) (worker : Worker) :
    (s.setWorker n worker).workers.lookup n' = if n' = n then some worker else s.workers.lookup n' :=
  ForStd.lookup_insert s.workers n n' worker

theorem lookup_leave (s : System) (n n' : Nat) :
    (s.leave n).workers.lookup n' = if n' = n then none else s.workers.lookup n' :=
  ForStd.lookup_erase s.workers n n'

/-- `nextRecipient` changes the worker only. -/
theorem nextRecipient_eq (s : System) (n : Nat) (worker : Worker) (rest : List String) :
    s.nextRecipient n worker rest =
      { s with workers := (s.nextRecipient n worker rest).workers } := by
  cases rest <;> rfl

/-- A worker after a recipient: it has left, or delivers to the next one. -/
theorem lookup_nextRecipient (s : System) (n n' : Nat) (worker : Worker) (rest : List String) :
    (s.nextRecipient n worker rest).workers.lookup n' =
      if n' = n then
        match rest with
        | [] => none
        | recipient :: rest => some { worker with phase := .deliver recipient s.now rest }
      else s.workers.lookup n' := by
  cases rest with
  | nil => exact lookup_leave s n n'
  | cons recipient rest => exact lookup_setWorker s n n' _

/-! ## Ids -/

/-- The calls of `Store` have numbers and ids of their own, and a document comes from the call
    with its id. -/
structure WellFormed (s : System) : Prop where
  fresh : ∀ k call, s.stores.lookup k = some call → k < s.nextStore
  ids : ∀ k k' call call', s.stores.lookup k = some call → s.stores.lookup k' = some call' →
    call.message.messageID = call'.message.messageID → k = k'
  nodup : (s.coll.map (·.messageID)).Nodup
  docs : ∀ messageID ∈ s.coll.map (·.messageID), ∃ k call, s.stores.lookup k = some call ∧
    call.message.messageID = messageID ∧ call.phase ≠ .copy

theorem wellFormed_empty : WellFormed {} := by
  refine ⟨fun k call hk => ?_, fun k k' call call' hk => ?_, List.nodup_nil, by simp⟩
  · simp at hk
  · simp at hk

/-- A step that changes neither the calls nor the ids of the documents. -/
theorem WellFormed.of_eq (h : WellFormed s) (hstores : s'.stores = s.stores)
    (hnext : s'.nextStore = s.nextStore)
    (hcoll : s'.coll.map (·.messageID) = s.coll.map (·.messageID)) : WellFormed s' := by
  obtain ⟨hfresh, hids, hnodup, hdocs⟩ := h
  rw [← hstores] at hfresh hids hdocs
  rw [← hnext] at hfresh
  rw [← hcoll] at hnodup hdocs
  exact ⟨hfresh, hids, hnodup, hdocs⟩

/-- A step of a call that has an id already. -/
theorem WellFormed.setStore (h : WellFormed s) {k : Nat} {call call' : StoreCall}
    (hk : s.stores.lookup k = some call) (hmessage : call'.message = call.message)
    (hphase : call.phase ≠ .copy → call'.phase ≠ .copy) : WellFormed (s.setStore k call') := by
  -- every call has the message it had before the step
  have hold : ∀ j call₁, (s.setStore k call').stores.lookup j = some call₁ →
      ∃ call₀, s.stores.lookup j = some call₀ ∧ call₁.message = call₀.message := by
    intro j call₁ hj
    rw [lookup_setStore] at hj
    split at hj
    next hjk =>
      obtain rfl := Option.some.inj hj
      exact ⟨call, hjk ▸ hk, hmessage⟩
    next => exact ⟨call₁, hj, rfl⟩
  refine ⟨fun j call₁ hj => ?_, fun i j call₁ call₂ hi hj hid => ?_, h.nodup, fun id hid => ?_⟩
  · obtain ⟨call₀, hj, _⟩ := hold j call₁ hj
    exact h.fresh j call₀ hj
  · obtain ⟨call₀, hi, hm⟩ := hold i call₁ hi
    obtain ⟨call₃, hj, hm'⟩ := hold j call₂ hj
    rw [hm, hm'] at hid
    exact h.ids i j call₀ call₃ hi hj hid
  · obtain ⟨j, call₀, hj, hid, hp⟩ := h.docs id hid
    by_cases hjk : j = k
    · obtain rfl : call₀ = call := Option.some.inj (hj.symm.trans (hjk ▸ hk))
      refine ⟨j, call', ?_, hmessage ▸ hid, hphase hp⟩
      rw [lookup_setStore, if_pos hjk]
    · refine ⟨j, call₀, ?_, hid, hp⟩
      rw [lookup_setStore, if_neg hjk, hj]

/-- A new call has a new number and a new id. -/
theorem WellFormed.open (h : WellFormed s) {call : StoreCall}
    (hnew : ∀ k call', s.stores.lookup k = some call' →
      call'.message.messageID ≠ call.message.messageID) :
    WellFormed { s.setStore s.nextStore call with nextStore := s.nextStore + 1 } := by
  -- the calls that were there have smaller numbers
  have hold : ∀ j, j < s.nextStore →
      (s.setStore s.nextStore call).stores.lookup j = s.stores.lookup j := by
    intro j hj
    rw [lookup_setStore, if_neg (by omega)]
  refine ⟨fun j call₁ hj => ?_, fun i j call₁ call₂ hi hj hid => ?_, h.nodup, fun id hid => ?_⟩
  · simp only [lookup_setStore] at hj
    split at hj
    next hjk => exact hjk ▸ Nat.lt_succ_self _
    next => exact Nat.lt_succ_of_lt (h.fresh j call₁ hj)
  · simp only [lookup_setStore] at hi hj
    split at hi
    next hik =>
      split at hj
      next hjk => rw [hik, hjk]
      next =>
        obtain rfl := Option.some.inj hi
        exact absurd hid.symm (hnew j call₂ hj)
    next =>
      split at hj
      next =>
        obtain rfl := Option.some.inj hj
        exact absurd hid (hnew i call₁ hi)
      next => exact h.ids i j call₁ call₂ hi hj hid
  · obtain ⟨j, call₀, hj, hid, hp⟩ := h.docs id hid
    exact ⟨j, call₀, (hold j (h.fresh j call₀ hj)).trans hj, hid, hp⟩

/-- A call that still copies has no document. -/
theorem WellFormed.notMem_of_copy (h : WellFormed s) {k : Nat} {call : StoreCall}
    (hk : s.stores.lookup k = some call) (hphase : call.phase = .copy) :
    call.message.messageID ∉ s.coll.map (·.messageID) := by
  intro hmem
  obtain ⟨j, call₀, hj, hid, hp⟩ := h.docs _ hmem
  -- the document would come from this call, which has not inserted it yet
  obtain rfl := h.ids j k call₀ call hj hk hid
  obtain rfl := Option.some.inj (hj.symm.trans hk)
  exact hp hphase

/-- The document of a call is inserted. -/
theorem WellFormed.insert (h : WellFormed s) {k : Nat} {call : StoreCall}
    (hk : s.stores.lookup k = some call) (hphase : call.phase = .copy) :
    WellFormed { s.setStore k { call with phase := .close false } with
      coll := s.coll ++ [call.message] } := by
  have hset : WellFormed (s.setStore k { call with phase := .close false }) :=
    h.setStore hk rfl fun _ => by simp
  have hnew := h.notMem_of_copy hk hphase
  refine ⟨hset.fresh, hset.ids, ?_, fun id hid => ?_⟩
  · rw [List.map_append, List.nodup_append]
    -- the call copied until now, so no document has its id
    refine ⟨h.nodup, by simp, fun a ha b hb hab => ?_⟩
    obtain rfl : b = call.message.messageID := by simpa using hb
    exact hnew (hab ▸ ha)
  · rw [List.map_append, List.mem_append] at hid
    cases hid with
    | inl hid => exact hset.docs id hid
    | inr hid =>
      obtain rfl : id = call.message.messageID := by simpa using hid
      refine ⟨k, { call with phase := .close false }, ?_, rfl, by simp⟩
      exact (lookup_setStore s k k _).trans (if_pos rfl)

/-- Every event keeps the ids apart. -/
theorem wellFormed_step (h : WellFormed s) (hstep : s.step e = some s') : WellFormed s' := by
  cases goes_of_step hstep with
  | tick => exact h.of_eq rfl rfl rfl
  | openUpload hnew => exact h.open hnew
  | write hk hphase => exact h.setStore hk rfl id
  | copyFails hk hphase => exact h.setStore hk rfl fun _ => by simp
  | insert hk hphase => exact h.insert hk hphase
  | @insertFails k call hk hphase =>
    have hset : WellFormed (s.setStore k { call with phase := .close true }) :=
      h.setStore hk rfl fun _ => by simp
    exact hset.of_eq rfl rfl rfl
  | @close k ok err call hk hphase =>
    have hset : WellFormed (s.setStore k { call with phase := .returned err }) :=
      h.setStore hk rfl fun _ => by simp
    exact hset.of_eq rfl rfl rfl
  | noMessage => exact h
  | getNext => exact h.of_eq rfl rfl (messageIDs_lock s.coll _ _ s.now)
  | contentFails => exact h.of_eq rfl rfl rfl
  | getContent =>
    rw [nextRecipient_eq]
    exact h.of_eq rfl rfl rfl
  | noContent => exact h.of_eq rfl rfl rfl
  | updateStatus =>
    refine h.of_eq rfl rfl ?_
    show List.map _ (if _ then _ else _) = _
    split
    · exact messageIDs_updateStatus s.coll _ _ _
    · rfl
  | deliver => exact h.of_eq rfl rfl rfl
  | record =>
    rw [nextRecipient_eq]
    refine h.of_eq rfl rfl ?_
    show List.map _ (if _ then _ else _) = _
    split
    · exact messageIDs_recordDeliveryAttempt s.coll _ _ s.now
    · rfl
  | releaseStaleLocks =>
    refine h.of_eq rfl rfl ?_
    exact messageIDs_releaseStale s.coll s.now

end System

end GoWorkers

end ZoneMta
