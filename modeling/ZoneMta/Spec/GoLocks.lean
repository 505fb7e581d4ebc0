import ZoneMta.Spec.GoWorkersCorrect

/-!
# Locks of the Go queue

`RecordDeliveryAttempt` unlocks the message, while the worker goes on with the next recipient.
As long as every worker finishes within the timeout of its lock, no two workers process the same
message and every message is unlocked in turn if and only if only the attempt of a last recipient
is recorded (`RecordsLast`); the others must come too late for the context of the worker.

## Key results

- `held_step`: what every event keeps under the condition
- `unlockedInTurn_of_recordsLast`, `not_unlockedInTurn`: the condition at one event
- `exclusive_iff`: the condition for every run
- `taken_between_recipients`: a second worker gets the message between two recipients
-/

namespace ZoneMta

namespace GoWorkers

open ForStd (run run_invariant_along Along along_congr_of_along Throughout updateOne
  updateOne_eq_map)
open GoQueue (QueuedMessage selectNext)

/-- The attempt that is recorded is that of the last recipient. -/
def WorkerPhase.isLast : WorkerPhase → Bool
  | .record _ rest => rest.isEmpty
  | _ => true

namespace System

variable {s s' : System} {e : Event}

/-- No two workers process the same message. -/
def Exclusive (s : System) : Prop :=
  ∀ n n' worker worker', s.workers.lookup n = some worker → s.workers.lookup n' = some worker' →
    worker.message.messageID = worker'.message.messageID → n = n'

/-- Every worker finishes within the timeout of its lock. -/
def InTime (s : System) : Event → Prop
  | .tick now => ∀ x ∈ s.workers.entries, now < x.2.started + lockTimeout
  | _ => True

/-- A message whose lock is released was locked too long, or the worker that processes it has
    finished. -/
def UnlockedInTurn (s : System) (e : Event) : Prop :=
  ∀ s', s.step e = some s' → ∀ m ∈ s.coll, ∀ m' ∈ s'.coll, m'.messageID = m.messageID →
    m.locked = true → m'.locked = false →
      (∃ until', m.lockedUntil = some until' ∧ until' ≤ s.now) ∨
        ∃ n worker, s.workers.lookup n = some worker ∧
          worker.message.messageID = m.messageID ∧ s'.workers.lookup n = none

/-- Only the attempt of the last recipient is recorded. -/
def RecordsLast (s : System) : Event → Prop
  | .record n ok => ∀ worker ∈ s.workers.lookup n,
      s.inContext worker ok = true → worker.phase.isLast = true
  | _ => True

instance (s : System) : (e : Event) → Decidable (s.InTime e)
  | .tick _ => inferInstanceAs (Decidable (∀ x ∈ s.workers.entries, _))
  | .openUpload .. | .write .. | .copyFails .. | .insert .. | .close .. | .getNext ..
  | .getContent .. | .updateStatus .. | .deliver .. | .record .. | .releaseStaleLocks =>
    isTrue trivial

instance (s : System) : (e : Event) → Decidable (s.RecordsLast e)
  | .record n _ => inferInstanceAs (Decidable (∀ worker ∈ s.workers.lookup n, _))
  | .tick _ | .openUpload .. | .write .. | .copyFails .. | .insert .. | .close .. | .getNext ..
  | .getContent .. | .updateStatus .. | .deliver .. | .releaseStaleLocks => isTrue trivial

/-! ## Invariant -/

/-- The lock of a worker on its document. -/
def HasLock (s : System) (worker : Worker) : Prop :=
  ∃ m ∈ s.coll, m.messageID = worker.message.messageID ∧ m.locked = true ∧
    m.lockedUntil = some (worker.started + lockTimeout) ∧ s.now < worker.started + lockTimeout

/-- Every worker holds the lock of its message. -/
structure Held (s : System) : Prop where
  wf : s.WellFormed
  exclusive : s.Exclusive
  locks : ∀ n worker, s.workers.lookup n = some worker → s.HasLock worker

theorem held_empty : Held {} := by
  refine ⟨wellFormed_empty, fun n n' worker worker' hn => ?_, fun n worker hn => ?_⟩
  · simp at hn
  · simp at hn

/-- The document of a message after an update that keeps the ids. -/
theorem eq_of_mem_map {coll : List QueuedMessage} (hnodup : (coll.map (·.messageID)).Nodup)
    {g : QueuedMessage → QueuedMessage} (hg : ∀ m, (g m).messageID = m.messageID)
    {m m' : QueuedMessage} (hm : m ∈ coll) (hm' : m' ∈ coll.map g)
    (hid : m'.messageID = m.messageID) : m' = g m := by
  obtain ⟨d, hd, rfl⟩ := List.mem_map.mp hm'
  rw [hg] at hid
  rw [List.inj_on_of_nodup_map hnodup hd hm hid]

/-- A lock that has not expired. -/
theorem isNext_of_locked {m : QueuedMessage} {zone : String} {now until' : Nat}
    (hlocked : m.locked = true) (huntil : m.lockedUntil = some until') (hnow : now < until') :
    m.isNext zone now = false := by
  simp [QueuedMessage.isNext, hlocked, huntil, hnow]

/-- A message whose lock is held is not selected. -/
theorem Held.ne_of_isNext (h : Held s) {m : QueuedMessage} (hm : m ∈ s.coll) {zone : String}
    (hnext : m.isNext zone s.now = true) {n : Nat} {worker : Worker}
    (hn : s.workers.lookup n = some worker) : m.messageID ≠ worker.message.messageID := by
  intro hid
  obtain ⟨d, hd, hid', hlocked, huntil, hnow⟩ := h.locks n worker hn
  obtain rfl := List.inj_on_of_nodup_map h.wf.nodup hm hd (hid.trans hid'.symm)
  rw [isNext_of_locked hlocked huntil hnow] at hnext
  exact nomatch hnext

/-- The workers go on or leave, and the locks of those that go on are kept. -/
theorem Held.of_workers (h : Held s) (hwf : WellFormed s')
    (hworkers : ∀ n worker', s'.workers.lookup n = some worker' → ∃ worker,
      s.workers.lookup n = some worker ∧ worker'.message = worker.message ∧
        worker'.started = worker.started ∧ s'.HasLock worker') : Held s' := by
  refine ⟨hwf, fun n n' w w' hn hn' hid => ?_, fun n w hn => ?_⟩
  · obtain ⟨w₀, hn, hm, _⟩ := hworkers n w hn
    obtain ⟨w₁, hn', hm', _⟩ := hworkers n' w' hn'
    rw [hm, hm'] at hid
    exact h.exclusive n n' w₀ w₁ hn hn' hid
  · obtain ⟨_, _, _, _, hlock⟩ := hworkers n w hn
    exact hlock

/-- An update of another message, if there is one. -/
theorem mem_ite_updateOne {coll : List QueuedMessage} {m : QueuedMessage} {messageID : String}
    {f : QueuedMessage → QueuedMessage} {c : Prop} [Decidable c] (hm : m ∈ coll)
    (hne : m.messageID ≠ messageID) :
    m ∈ if c then updateOne (·.messageID == messageID) f coll else coll := by
  split
  · exact ForStd.mem_updateOne_of_not hm (beq_eq_false_iff_ne.mpr hne)
  · exact hm

/-- A lock is kept where its document is. -/
theorem HasLock.of_coll {worker worker' : Worker} (h : s.HasLock worker)
    (hmessage : worker'.message = worker.message) (hstarted : worker'.started = worker.started)
    (hnow : s'.now = s.now)
    (hcoll : ∀ m ∈ s.coll, m.messageID = worker.message.messageID → ∀ until',
      m.lockedUntil = some until' → s.now < until' → m ∈ s'.coll) : s'.HasLock worker' := by
  obtain ⟨m, hm, hid, hlocked, huntil, htime⟩ := h
  rw [← hstarted] at huntil htime
  rw [← hnow] at htime
  exact ⟨m, hcoll m hm hid _ huntil (hnow ▸ htime), hmessage ▸ hid, hlocked, huntil, htime⟩

/-- A step of `Store`. -/
theorem Held.of_coll (h : Held s) (hwf : WellFormed s') (hworkers : s'.workers = s.workers)
    (hnow : s'.now = s.now) (hcoll : ∀ m ∈ s.coll, m ∈ s'.coll) : Held s' := by
  refine h.of_workers hwf fun n worker hn => ?_
  rw [hworkers] at hn
  exact ⟨worker, hn, rfl, rfl, (h.locks n worker hn).of_coll rfl rfl hnow fun m hm _ _ _ _ =>
    hcoll m hm⟩

/-- A worker goes on with its message or leaves, and the documents of the others stay. -/
theorem Held.of_worker (h : Held s) (hwf : WellFormed s') {n : Nat} {worker : Worker}
    (hn : s.workers.lookup n = some worker) (hnow : s'.now = s.now)
    (hothers : ∀ n', n' ≠ n → s'.workers.lookup n' = s.workers.lookup n')
    (hself : ∀ worker', s'.workers.lookup n = some worker' →
      worker'.message = worker.message ∧ worker'.started = worker.started ∧ s'.coll = s.coll)
    (hcoll : ∀ m ∈ s.coll, m.messageID ≠ worker.message.messageID → m ∈ s'.coll) : Held s' := by
  refine h.of_workers hwf fun n' worker' hn' => ?_
  by_cases hnn : n' = n
  · subst hnn
    obtain ⟨hmessage, hstarted, hsame⟩ := hself worker' hn'
    refine ⟨worker, hn, hmessage, hstarted, ?_⟩
    exact (h.locks n' worker hn).of_coll hmessage hstarted hnow fun m hm _ _ _ _ => hsame ▸ hm
  · rw [hothers n' hnn] at hn'
    refine ⟨worker', hn', rfl, rfl, (h.locks n' worker' hn').of_coll rfl rfl hnow ?_⟩
    intro m hm hid _ _ _
    -- another worker has another message
    refine hcoll m hm fun hid' => hnn ?_
    exact h.exclusive n' n worker' worker hn' hn (hid.symm.trans hid')

/-- `GetNext` locks a message that no worker holds. -/
theorem Held.getNext (h : Held s) {n : Nat} {m : QueuedMessage} {zone workerID : String}
    (hm : m ∈ s.coll) (hnext : m.isNext zone s.now = true)
    (hwf : WellFormed ({ s with
      coll := updateOne (·.messageID == m.messageID) (·.lock workerID s.now) s.coll }.setWorker
        n ⟨m.lock workerID s.now, s.now, .content⟩)) :
    Held ({ s with
      coll := updateOne (·.messageID == m.messageID) (·.lock workerID s.now) s.coll }.setWorker
        n ⟨m.lock workerID s.now, s.now, .content⟩) := by
  have hother : ∀ n' worker', s.workers.lookup n' = some worker' →
      m.messageID ≠ worker'.message.messageID := fun n' worker' hn' => h.ne_of_isNext hm hnext hn'
  refine ⟨hwf, fun i j w w' hi hj hid => ?_, fun n' worker' hn' => ?_⟩
  · rw [lookup_setWorker] at hi hj
    split at hi
    next hin =>
      split at hj
      next hjn => rw [hin, hjn]
      next =>
        obtain rfl := Option.some.inj hi
        exact absurd hid (hother j w' hj)
    next =>
      split at hj
      next =>
        obtain rfl := Option.some.inj hj
        exact absurd hid.symm (hother i w hi)
      next => exact h.exclusive i j w w' hi hj hid
  · rw [lookup_setWorker] at hn'
    split at hn'
    next =>
      obtain rfl := Option.some.inj hn'
      refine ⟨m.lock workerID s.now, ?_, rfl, rfl, rfl, Nat.lt_add_of_pos_right (by decide)⟩
      show _ ∈ updateOne _ _ _
      rw [updateOne_eq_map h.wf.nodup]
      exact List.mem_map.mpr ⟨m, hm, if_pos rfl⟩
    next =>
      refine (h.locks n' worker' hn').of_coll rfl rfl rfl fun d hd hid _ _ _ => ?_
      refine ForStd.mem_updateOne_of_not hd (beq_eq_false_iff_ne.mpr ?_)
      rw [hid]
      exact (hother n' worker' hn').symm

/-- Locks that have not expired are not stale. -/
theorem releaseStale_of_locked {m : QueuedMessage} {now until' : Nat}
    (huntil : m.lockedUntil = some until') (hnow : now < until') : releaseStale now m = m := by
  simp [releaseStale, huntil, Nat.not_le.mpr hnow]

/-- The attempt of a recipient that is not the last one has no effect under the condition. -/
theorem rest_of_recordsLast {n : Nat} {ok : Bool} {attempt : GoQueue.DeliveryAttempt}
    {rest : List String} {worker : Worker} (hlast : s.RecordsLast (.record n ok))
    (hn : s.workers.lookup n = some worker) (hphase : worker.phase = .record attempt rest)
    (hcontext : s.inContext worker ok = true) : rest = [] := by
  have hlast := hlast worker hn hcontext
  rw [hphase] at hlast
  exact List.isEmpty_iff.mp hlast

/-- Every event keeps the locks under the condition. -/
theorem held_step (h : Held s) (htime : s.InTime e) (hlast : s.RecordsLast e)
    (hstep : s.step e = some s') : Held s' := by
  have hwf : WellFormed s' := wellFormed_step h.wf hstep
  cases goes_of_step hstep with
  | @tick now hnow =>
    refine h.of_workers hwf fun n worker hn => ⟨worker, hn, rfl, rfl, ?_⟩
    obtain ⟨m, hm, hid, hlocked, huntil, _⟩ := h.locks n worker hn
    exact ⟨m, hm, hid, hlocked, huntil, htime ⟨n, worker⟩ (AList.mem_lookup_iff.mp hn)⟩
  | openUpload | write | copyFails | insertFails | close =>
    exact h.of_coll hwf rfl rfl fun m hm => hm
  | insert => exact h.of_coll hwf rfl rfl fun m hm => List.mem_append_left _ hm
  | noMessage => exact h
  | getNext _ hm =>
    obtain ⟨hmem, hnext⟩ := GoQueue.isNext_of_selectNext hm
    exact h.getNext hmem hnext hwf
  | contentFails hn | noContent hn | deliver hn =>
    refine h.of_worker hwf hn rfl (fun n' hn' => ?_) (fun worker' hn' => ?_) fun m hm _ => hm
    · rw [lookup_setWorker, if_neg hn']
    · rw [lookup_setWorker, if_pos rfl] at hn'
      obtain rfl := Option.some.inj hn'
      exact ⟨rfl, rfl, rfl⟩
  | getContent hn =>
    refine h.of_worker hwf hn ?_ (fun n' hn' => ?_) (fun worker' hn' => ?_) fun m hm _ => ?_
    · rw [nextRecipient_eq]
    · rw [lookup_nextRecipient, if_neg hn']
    · rw [lookup_nextRecipient, if_pos rfl] at hn'
      split at hn'
      next => exact nomatch hn'
      next =>
        obtain rfl := Option.some.inj hn'
        rw [nextRecipient_eq]
        exact ⟨rfl, rfl, rfl⟩
    · rw [nextRecipient_eq]
      exact hm
  | updateStatus hn =>
    refine h.of_worker hwf hn rfl (fun n' hn' => ?_) (fun worker' hn' => ?_) fun m hm hne => ?_
    · rw [lookup_leave, if_neg hn']
    · rw [lookup_leave, if_pos rfl] at hn'
      exact nomatch hn'
    · exact mem_ite_updateOne hm hne
  | record hn hphase =>
    have hrest := rest_of_recordsLast hlast hn hphase
    refine h.of_worker hwf hn ?_ (fun n' hn' => ?_) (fun worker' hn' => ?_) fun m hm hne => ?_
    · rw [nextRecipient_eq]
    · rw [lookup_nextRecipient, if_neg hn']
    · rw [lookup_nextRecipient, if_pos rfl] at hn'
      split at hn'
      next => exact nomatch hn'
      next =>
        -- the attempt came too late
        obtain rfl := Option.some.inj hn'
        rw [nextRecipient_eq]
        refine ⟨rfl, rfl, if_neg fun hcontext => ?_⟩
        exact nomatch hrest hcontext
    · rw [nextRecipient_eq]
      exact mem_ite_updateOne hm hne
  | releaseStaleLocks =>
    refine h.of_workers hwf fun n worker hn => ⟨worker, hn, rfl, rfl, ?_⟩
    refine (h.locks n worker hn).of_coll rfl rfl rfl fun m hm _ until' huntil hnow => ?_
    exact List.mem_map.mpr ⟨m, hm, releaseStale_of_locked huntil hnow⟩

/-! ## Unlocking -/

/-- A message that stays in the queue as it is, is not unlocked. -/
theorem WellFormed.not_unlocked (h : WellFormed s) {m m' : QueuedMessage} (hm : m ∈ s.coll)
    (hm' : m' ∈ s.coll) (hid : m'.messageID = m.messageID) (hlocked : m.locked = true)
    (hunlocked : m'.locked = false) : False := by
  obtain rfl := List.inj_on_of_nodup_map h.nodup hm' hm hid
  rw [hlocked] at hunlocked
  exact nomatch hunlocked

/-- What `GetNext` leaves of a message is locked if the message was. -/
theorem locked_of_mem_lock {coll : List QueuedMessage} (hnodup : (coll.map (·.messageID)).Nodup)
    {messageID workerID : String} {now : Nat} {m m' : QueuedMessage} (hm : m ∈ coll)
    (hm' : m' ∈ updateOne (·.messageID == messageID) (·.lock workerID now) coll)
    (hid : m'.messageID = m.messageID) (hlocked : m.locked = true) : m'.locked = true := by
  rw [updateOne_eq_map hnodup] at hm'
  have hids : ∀ d : QueuedMessage,
      (if d.messageID = messageID then d.lock workerID now else d).messageID = d.messageID := by
    intro d
    split <;> rfl
  rw [eq_of_mem_map hnodup hids hm hm' hid]
  split
  · rfl
  · exact hlocked

/-- Under the condition only the worker that holds a message unlocks it, and then it leaves, or
    the lock has expired. -/
theorem unlockedInTurn_of_recordsLast (h : Held s) (hlast : s.RecordsLast e) :
    s.UnlockedInTurn e := by
  intro s' hstep m hm m' hm' hid hlocked hunlocked
  have hwf : WellFormed s' := wellFormed_step h.wf hstep
  cases goes_of_step hstep with
  | getNext =>
    rw [locked_of_mem_lock h.wf.nodup hm hm' hid hlocked] at hunlocked
    exact nomatch hunlocked
  | insert =>
    exact absurd hunlocked fun hunlocked =>
      hwf.not_unlocked (List.mem_append_left _ hm) hm' hid hlocked hunlocked
  | getContent =>
    rw [nextRecipient_eq] at hm'
    exact (h.wf.not_unlocked hm hm' hid hlocked hunlocked).elim
  | @updateStatus n _ _ _ worker hn =>
    by_cases hself : m.messageID = worker.message.messageID
    · exact Or.inr ⟨n, worker, hn, hself.symm, (lookup_leave _ n n).trans (if_pos rfl)⟩
    · have hkept := hwf.not_unlocked (m := m) (mem_ite_updateOne hm hself) hm' hid hlocked
      exact (hkept hunlocked).elim
  | @record n ok _ rest worker hn hphase =>
    have hrest := rest_of_recordsLast hlast hn hphase
    by_cases hself : m.messageID = worker.message.messageID ∧ s.inContext worker ok = true
    · obtain ⟨hself, hcontext⟩ := hself
      refine Or.inr ⟨n, worker, hn, hself.symm, ?_⟩
      rw [hrest hcontext, lookup_nextRecipient, if_pos rfl]
    · rw [nextRecipient_eq] at hm' hwf
      refine (hwf.not_unlocked (m := m) ?_ hm' hid hlocked hunlocked).elim
      show m ∈ if _ then _ else _
      split
      next hcontext =>
        have hne : m.messageID ≠ worker.message.messageID := fun heq => hself ⟨heq, hcontext⟩
        exact ForStd.mem_updateOne_of_not hm (beq_eq_false_iff_ne.mpr hne)
      next => exact hm
  | releaseStaleLocks =>
    have hm' := eq_of_mem_map h.wf.nodup (messageID_releaseStale s.now) hm hm' hid
    rw [hm', releaseStale] at hunlocked
    split at hunlocked
    next hstale =>
      rw [Bool.and_eq_true, Option.any_eq_true] at hstale
      obtain ⟨_, until', huntil, hle⟩ := hstale
      exact Or.inl ⟨until', huntil, of_decide_eq_true hle⟩
    next =>
      rw [hlocked] at hunlocked
      exact nomatch hunlocked
  | _ => exact (h.wf.not_unlocked hm hm' hid hlocked hunlocked).elim

/-- An attempt that is recorded before the last recipient unlocks the message of a worker that
    goes on. -/
theorem not_unlockedInTurn (h : Held s) (hlast : ¬s.RecordsLast e) (hstep : s.step e = some s') :
    ¬s.UnlockedInTurn e := by
  intro hturn
  cases e with
  | record n ok =>
    simp only [RecordsLast, not_forall] at hlast
    obtain ⟨worker, hn, hcontext, hrest⟩ := hlast
    cases goes_of_step hstep with
    | @record _ _ attempt rest worker' hn' hphase =>
      obtain rfl := Option.some.inj (hn.symm.trans hn')
      rw [hphase] at hrest
      obtain ⟨recipient, rest, rfl⟩ := List.ne_nil_iff_exists_cons.mp
        fun hnil => hrest (List.isEmpty_iff.mpr hnil)
      obtain ⟨m, hm, hid, hlocked, huntil, hnow⟩ := h.locks n worker hn
      have hunlocked : (m.record attempt s.now).locked = false :=
        (GoQueue.record_spec m attempt s.now).2.2.2.1
      have hm' : m.record attempt s.now ∈
          if s.inContext worker ok = true then
            GoQueue.recordDeliveryAttempt s.coll worker.message.messageID attempt s.now
          else s.coll := by
        rw [if_pos hcontext, GoQueue.recordDeliveryAttempt, updateOne_eq_map h.wf.nodup]
        exact List.mem_map.mpr ⟨m, hm, if_pos hid⟩
      cases hturn _ hstep m hm _ hm' (messageID_record m attempt s.now) hlocked hunlocked with
      | inl hexpired =>
        obtain ⟨until', huntil', hle⟩ := hexpired
        obtain rfl := Option.some.inj (huntil.symm.trans huntil')
        exact Nat.not_lt.mpr hle hnow
      | inr hleft =>
        obtain ⟨n', worker', hn', hid', hgone⟩ := hleft
        obtain rfl := h.exclusive n' n worker' worker hn' hn (hid'.trans hid)
        rw [lookup_nextRecipient, if_pos rfl] at hgone
        cases hgone
  | _ => exact hlast trivial

/-! ## Every run -/

/-- As long as the workers finish in time, no two of them process the same message and messages
    are unlocked in turn if and only if only attempts of last recipients are recorded. -/
theorem exclusive_iff (es : List Event) (s : System) (hrun : run step {} es = some s)
    (htime : Along step InTime {} es) :
    (Throughout step Exclusive {} es ∧ Along step UnlockedInTurn {} es) ↔
      Along step RecordsLast {} es := by
  have hiff : Along step RecordsLast {} es ↔ Along step UnlockedInTurn {} es := by
    refine along_congr_of_along (fun s e s' => held_step) (fun s e s' h _ hstep => ?_) held_empty
      htime hrun
    constructor
    · exact fun hlast => unlockedInTurn_of_recordsLast h hlast
    · intro hturn
      by_contra hlast
      exact not_unlockedInTurn h hlast hstep hturn
  constructor
  · intro hboth
    exact hiff.mpr hboth.2
  · intro hlast
    refine ⟨?_, hiff.mp hlast⟩
    exact Along.throughout (I := Held) (fun s e s' h hp => held_step h hp.1 hp.2)
      (fun s h => h.exclusive) held_empty (htime.and hlast)

/-- Two workers and a message for one recipient. -/
theorem exclusive_iff_example :
    Throughout step Exclusive {}
      [.openUpload "a" "default" ["b@c"] none [1], .write 0 1, .insert 0 true, .close 0 true,
        .getNext 0 "default" "w", .getContent 0 none, .tick 20000, .getNext 1 "default" "v",
        .deliver 0 20000 (some "451 Try later"), .record 0 true, .tick 90000,
        .getNext 1 "default" "v"] := by
  have hsome : (run step {}
      [.openUpload "a" "default" ["b@c"] none [1], .write 0 1, .insert 0 true, .close 0 true,
        .getNext 0 "default" "w", .getContent 0 none, .tick 20000, .getNext 1 "default" "v",
        .deliver 0 20000 (some "451 Try later"), .record 0 true, .tick 90000,
        .getNext 1 "default" "v"]).isSome = true := by decide +kernel
  obtain ⟨s, hrun⟩ := Option.isSome_iff_exists.mp hsome
  exact ((exclusive_iff _ s hrun (by decide +kernel)).mpr (by decide +kernel)).1

/-- The first recipient is deferred, which unlocks the message; a minute later another worker gets
    it, while the delivery to the second recipient goes on. -/
theorem taken_between_recipients :
    ¬∀ (es : List Event) (s : System), run step {} es = some s → Along step InTime {} es →
      Throughout step Exclusive {} es ∧ Along step UnlockedInTurn {} es := by
  intro h
  have htaken : ((run step {}
      [.openUpload "a" "default" ["b@c", "d@e"] none [1], .write 0 1, .insert 0 true,
        .close 0 true, .getNext 0 "default" "w", .getContent 0 none,
        .deliver 0 0 (some "451 Try later"), .record 0 true, .tick 60000,
        .getNext 1 "default" "v"]).any fun s =>
      (s.workers.lookup 0).any (·.message.messageID == "a") &&
        (s.workers.lookup 1).any (·.message.messageID == "a")) = true := by decide +kernel
  obtain ⟨s, hrun, htaken⟩ := (Option.any_eq_true _ _).mp htaken
  obtain ⟨h0, h1⟩ := Bool.and_eq_true_iff.mp htaken
  obtain ⟨worker, hn, hid⟩ := (Option.any_eq_true _ _).mp h0
  obtain ⟨worker', hn', hid'⟩ := (Option.any_eq_true _ _).mp h1
  have hexclusive := (h _ s hrun (by decide +kernel)).1.last hrun
  have hsame := hexclusive 0 1 worker worker' hn hn'
    ((beq_iff_eq.mp hid).trans (beq_iff_eq.mp hid').symm)
  exact absurd hsame (by decide)

end System

end GoWorkers

end ZoneMta
