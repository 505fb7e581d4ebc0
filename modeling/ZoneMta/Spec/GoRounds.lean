import Mathlib
import ZoneMta.Spec.GoWorkersCorrect

/-!
# Rounds of the Go queue

A worker that no other call interrupts does, call by call, what `GoQueue.processMessages` does at
once. A round is followed from its end: what is left of it before a call is the call, and what is
left after it.

## Key results

- `left_step`: what is left of a round before an event
- `exists_processMessages`: a round call by call is a round at once
-/

namespace ZoneMta

namespace GoWorkers

open GoQueue (QueuedMessage attempts attemptFor recordDeliveryAttempt updateStatus processMessages)

/-- An event of a round of worker `n`: one of its calls, or time passes. -/
def Event.InRound (n : Nat) : Event → Prop
  | .tick _ => True
  | .getContent k _ => k = n
  | .updateStatus k _ => k = n
  | .deliver k _ _ => k = n
  | .record k _ => k = n
  | _ => False

/-! ## What is left of a round -/

/-- The loop of `processMessages` over these recipients of a message. -/
def deliverAll (coll : List QueuedMessage) (m : QueuedMessage) (r : GoQueue.Round)
    (recipients : List String) : List QueuedMessage :=
  (attempts { m with recipients := recipients } r).foldl (fun coll (attempt, d) =>
    if r.inContext d.recordedAt d.ok then
      recordDeliveryAttempt coll m.messageID attempt d.recordedAt
    else coll) coll

/-- A round with one more delivery at its start. -/
def consDelivery (d : GoQueue.Delivery) (r : GoQueue.Round) : GoQueue.Round :=
  { r with deliveries := fun i => if i = 0 then d else r.deliveries (i - 1) }

theorem deliverAll_cons (coll : List QueuedMessage) (m : QueuedMessage) (d : GoQueue.Delivery)
    (r : GoQueue.Round) (recipient : String) (rest : List String) :
    deliverAll coll m (consDelivery d r) (recipient :: rest) =
      deliverAll
        (if r.inContext d.recordedAt d.ok then
          recordDeliveryAttempt coll m.messageID (attemptFor m recipient d) d.recordedAt
        else coll) m r rest := by
  have hattempts : attempts { m with recipients := recipient :: rest } (consDelivery d r) =
      (attemptFor m recipient d, d) :: attempts { m with recipients := rest } r := by
    simp only [attempts, consDelivery, List.zipIdx_cons, List.map_cons, if_pos]
    congr 1
    rw [List.zipIdx_succ, List.map_map]
    rfl
  rw [deliverAll, hattempts, List.foldl_cons]
  rfl

/-- The end of a round for the worker that is in it: the queue is `coll`, and `coll'` once the
    worker has left. -/
def Left (coll coll' : List QueuedMessage) (worker : Worker) (r : GoQueue.Round) : Prop :=
  match worker.phase with
  | .content =>
    coll' =
      match r.contentErr with
      | some err =>
        if r.inContext r.bouncedAt r.bounceOk then
          updateStatus coll worker.message.messageID .bounced err
        else coll
      | none => deliverAll coll worker.message r worker.message.recipients
  | .bounce _ err =>
    coll' =
      if r.inContext r.bouncedAt r.bounceOk then
        updateStatus coll worker.message.messageID .bounced err
      else coll
  | .deliver recipient _ rest => coll' = deliverAll coll worker.message r (recipient :: rest)
  | .record attempt rest =>
    ∃ now ok, coll' = deliverAll
      (if r.inContext now ok then
        recordDeliveryAttempt coll worker.message.messageID attempt now
      else coll) worker.message r rest

/-- The end of a round for a worker that may be idle. -/
def LeftOf (coll coll' : List QueuedMessage) : Option Worker → Prop
  | none => coll' = coll
  | some worker => ∃ r : GoQueue.Round, r.now = worker.started ∧ Left coll coll' worker r

namespace System

variable {s s' : System} {e : Event} {n : Nat} {coll : List QueuedMessage}

theorem inContext_eq (s : System) {worker : Worker} {r : GoQueue.Round} (h : r.now = worker.started)
    (ok : Bool) : s.inContext worker ok = r.inContext s.now ok := by
  rw [inContext, GoQueue.Round.inContext, h]

/-- What is left before the loop goes on is what the loop does for the other recipients. -/
theorem exists_deliverAll {worker : Worker} {rest : List String}
    (h : LeftOf (s.nextRecipient n worker rest).coll coll
      ((s.nextRecipient n worker rest).workers.lookup n)) :
    ∃ r : GoQueue.Round, r.now = worker.started ∧
      coll = deliverAll s.coll worker.message r rest := by
  rw [lookup_nextRecipient, if_pos rfl, nextRecipient_eq] at h
  cases rest with
  | nil =>
    refine ⟨⟨"", "", worker.started, none, 0, true, fun _ => ⟨0, 0, none, 0, true⟩⟩, rfl, ?_⟩
    exact h
  | cons recipient rest =>
    obtain ⟨r, hnow, hleft⟩ := h
    exact ⟨r, hnow, hleft⟩

/-- What is left of a round before an event: what the event does, and what is left after it. -/
theorem left_step (hgoes : Goes s e s') (hin : e.InRound n)
    (h : LeftOf s'.coll coll (s'.workers.lookup n)) :
    LeftOf s.coll coll (s.workers.lookup n) := by
  cases hgoes with
  | tick => exact h
  | @contentFails _ err worker hn hphase =>
    obtain rfl := hin
    rw [lookup_setWorker, if_pos rfl] at h
    obtain ⟨r, hnow, hleft⟩ := h
    rw [hn]
    refine ⟨{ r with contentErr := some err }, hnow, ?_⟩
    rw [Left, hphase]
    exact hleft
  | getContent hn hphase =>
    obtain rfl := hin
    obtain ⟨r, hnow, hleft⟩ := exists_deliverAll h
    rw [hn]
    refine ⟨{ r with contentErr := none }, hnow, ?_⟩
    rw [Left, hphase]
    exact hleft
  | noContent hn hphase =>
    obtain rfl := hin
    rw [lookup_setWorker, if_pos rfl] at h
    obtain ⟨r, hnow, hleft⟩ := h
    rw [hn]
    refine ⟨{ r with contentErr := some fileNotFound }, hnow, ?_⟩
    rw [Left, hphase]
    exact hleft
  | @updateStatus _ ok _ err worker hn hphase =>
    obtain rfl := hin
    rw [lookup_leave, if_pos rfl] at h
    rw [hn]
    let r : GoQueue.Round :=
      ⟨"", "", worker.started, none, s.now, ok, fun _ => ⟨0, 0, none, 0, true⟩⟩
    refine ⟨r, rfl, ?_⟩
    rw [Left, hphase]
    exact h
  | @deliver _ duration err recipient timestamp rest worker hn hphase =>
    obtain rfl := hin
    rw [lookup_setWorker, if_pos rfl] at h
    obtain ⟨r, hnow, now, ok, hleft⟩ := h
    rw [hn]
    -- the delivery that is recorded next
    refine ⟨consDelivery ⟨timestamp, duration, err, now, ok⟩ r, hnow, ?_⟩
    rw [Left, hphase]
    dsimp only
    rw [deliverAll_cons]
    exact hleft
  | @record _ ok attempt rest worker hn hphase =>
    obtain rfl := hin
    obtain ⟨r, hnow, hleft⟩ := exists_deliverAll h
    rw [hn]
    refine ⟨r, hnow, ?_⟩
    rw [Left, hphase]
    refine ⟨s.now, ok, ?_⟩
    rw [inContext_eq s hnow] at hleft
    exact hleft
  -- the other events do not belong to a round
  | openUpload => exact hin.elim
  | write => exact hin.elim
  | copyFails => exact hin.elim
  | insert => exact hin.elim
  | insertFails => exact hin.elim
  | close => exact hin.elim
  | noMessage => exact hin.elim
  | getNext => exact hin.elim
  | releaseStaleLocks => exact hin.elim

/-- What is left of a round whose worker leaves at the end. -/
theorem left_of_run {es : List Event} (hin : ∀ e ∈ es, e.InRound n)
    (hrun : ForStd.run step s es = some s') (hidle : s'.workers.lookup n = none) :
    LeftOf s.coll s'.coll (s.workers.lookup n) := by
  -- from the end of the round, at which nothing is left
  induction es generalizing s with
  | nil =>
    obtain rfl := Option.some.inj hrun
    rw [hidle]
    rfl
  | cons e es ih =>
    obtain ⟨t, hstep, hrun⟩ := ForStd.run_cons_eq_some.mp hrun
    exact left_step (goes_of_step hstep) (hin e List.mem_cons_self)
      (ih (fun e he => hin e (List.mem_cons_of_mem _ he)) hrun)

/-- A round of a worker that no other call interrupts is one of `GoQueue.processMessages`. -/
theorem exists_processMessages {zone workerID : String} {es : List Event}
    (hin : ∀ e ∈ es, e.InRound n)
    (hrun : ForStd.run step s (.getNext n zone workerID :: es) = some s')
    (hidle : s'.workers.lookup n = none) :
    ∃ r : GoQueue.Round, r.zone = zone ∧ r.workerID = workerID ∧ r.now = s.now ∧
      s'.coll = processMessages s.coll r := by
  obtain ⟨t, hstep, hrun⟩ := ForStd.run_cons_eq_some.mp hrun
  have hleft := left_of_run hin hrun hidle
  cases goes_of_step hstep with
  | noMessage hn hm =>
    rw [hn] at hleft
    refine ⟨⟨zone, workerID, s.now, none, 0, true, fun _ => ⟨0, 0, none, 0, true⟩⟩, rfl, rfl,
      rfl, ?_⟩
    rw [GoQueue.processMessages_of_none hm]
    exact hleft
  | getNext hn hm =>
    rw [lookup_setWorker, if_pos rfl] at hleft
    obtain ⟨⟨_, _, now, contentErr, bouncedAt, bounceOk, deliveries⟩, hnow, hleft⟩ := hleft
    obtain rfl : now = s.now := hnow
    refine ⟨⟨zone, workerID, s.now, contentErr, bouncedAt, bounceOk, deliveries⟩, rfl, rfl, rfl, ?_⟩
    simp only [processMessages, GoQueue.getNext, hm]
    exact hleft

end System

end GoWorkers

end ZoneMta
