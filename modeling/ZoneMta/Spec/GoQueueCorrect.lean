import ZoneMta.ForStd.Transition
import ZoneMta.Native.GoQueue

/-!
# Retries of the Go queue

Each attempt of a delivery round that is recorded overwrites the status of the message, so
after the round the status is that of the last of them. Recipients are retried as they should
be exactly when this does not matter: the recipients are deferred after the round, all or none
(`UniformRound`).

## Key results

- `recordAll_spec`: a message after the attempts of a round
- `settled_afterRound_iff`: when a round leaves the right recipients to be retried
- `inv_step`: what every event keeps
- `retried_iff_deferred`: the same for every run
-/

namespace ZoneMta

namespace GoQueue

open ForStd (updateOne Along Throughout throughout_iff_along)

/-! ## Outcomes and retries -/

/-- The latest outcome of a recipient in a delivery log. -/
def latest (log : List DeliveryAttempt) (recipient : String) : Option AttemptStatus :=
  (log.filter (·.recipient = recipient)).getLast?.map (·.status)

/-- The recipient is attempted in a later round: the loop attempts every recipient, and from
    some time on the message matches the filter of `GetNext`. -/
def Retried (m : QueuedMessage) (recipient : String) : Prop :=
  recipient ∈ m.recipients ∧ ∃ t, ∀ now, t ≤ now → m.isNext m.zone now = true

/-- Once the message was attempted, its deferred recipients are retried and no others. -/
def Settled (m : QueuedMessage) : Prop :=
  m.deliveryLog ≠ [] → ∀ recipient ∈ m.recipients,
    (Retried m recipient ↔ latest m.deliveryLog recipient = some .deferred)

/-- The attempts of a round that are recorded, with the time of that. -/
def recorded (m : QueuedMessage) (r : Round) : List (DeliveryAttempt × Nat) :=
  ((attempts m r).filter fun (_, d) => r.inContext d.recordedAt d.ok).map
    fun (attempt, d) => (attempt, d.recordedAt)

/-- The recipient is deferred after attempts of a round: by its own latest one, or it has none and
    was deferred before. -/
def Defers (m : QueuedMessage) (log : List DeliveryAttempt) (recipient : String) : Prop :=
  latest log recipient = some .deferred ∨ latest log recipient = none ∧ m.deliveryLog ≠ []

/-- A round of a message that was attempted before finds the content, and records some attempt;
    and after a round that finds the content, the recipients are deferred, all or none. -/
def UniformRound (m : QueuedMessage) (r : Round) : Prop :=
  (m.deliveryLog = [] ∨ r.contentErr = none ∧ recorded m r ≠ []) ∧
    (r.contentErr = none →
      (∀ recipient ∈ m.recipients, Defers m ((recorded m r).map (·.1)) recipient) ∨
        ∀ recipient ∈ m.recipients, ¬Defers m ((recorded m r).map (·.1)) recipient)

/-- The rounds of a run are uniform. -/
def UniformEvent (coll : List QueuedMessage) : Event → Prop
  | .store _ _ _ _ => True
  | .round r =>
    match selectNext coll r.zone r.now with
    | none => True
    | some m => m.recipients ≠ [] → UniformRound m r

instance (m : QueuedMessage) (r : Round) : Decidable (UniformRound m r) := by
  unfold UniformRound Defers
  infer_instance

instance (coll : List QueuedMessage) (e : Event) : Decidable (UniformEvent coll e) := by
  unfold UniformEvent
  split
  · infer_instance
  · split <;> infer_instance

theorem latest_append (xs ys : List DeliveryAttempt) (recipient : String) :
    latest (xs ++ ys) recipient = (latest ys recipient).or (latest xs recipient) := by
  rw [latest, latest, latest, List.filter_append, List.getLast?_append]
  cases (ys.filter (·.recipient = recipient)).getLast? <;> rfl

theorem latest_concat (xs : List DeliveryAttempt) (a : DeliveryAttempt) :
    latest (xs ++ [a]) a.recipient = some a.status := by
  rw [latest_append]
  simp [latest]

/-- Only a message that is being sent has a lock. -/
def Free (m : QueuedMessage) : Prop := m.locked = true → m.status = .sending

theorem status_of_isNext {m : QueuedMessage} {zone : String} {now : Nat}
    (h : m.isNext zone now = true) : m.status = .queued ∨ m.status = .deferred := by
  simp only [QueuedMessage.isNext, Bool.and_eq_true, Bool.or_eq_true, beq_iff_eq] at h
  exact h.1.1.2

/-- A message is retried as long as its status says so. -/
theorem retried_iff {m : QueuedMessage} (hfree : Free m) {recipient : String}
    (hr : recipient ∈ m.recipients) :
    Retried m recipient ↔ m.status = .queued ∨ m.status = .deferred := by
  constructor
  · rintro ⟨-, t, ht⟩
    exact status_of_isNext (ht t (Nat.le_refl t))
  · intro hstatus
    have hlocked : m.locked = false := by
      by_contra hlocked
      have hsending := hfree (Bool.eq_true_of_not_eq_false hlocked)
      rw [hsending] at hstatus
      rcases hstatus with h | h <;> exact nomatch h
    refine ⟨hr, m.nextAttempt, fun now hnow => ?_⟩
    simp only [QueuedMessage.isNext, hlocked, Bool.and_eq_true, Bool.or_eq_true, beq_iff_eq,
      decide_eq_true_eq]
    exact ⟨⟨⟨trivial, hstatus⟩, hnow⟩, Or.inl rfl⟩

/-! ## One round -/

/-- The status that an attempt leaves. -/
def AttemptStatus.toMessageStatus : AttemptStatus → MessageStatus
  | .delivered => .delivered
  | .bounced => .bounced
  | .deferred => .deferred

/-- The attempts of a round, recorded one after the other. -/
def QueuedMessage.recordAll (m : QueuedMessage) (as : List (DeliveryAttempt × Nat)) :
    QueuedMessage :=
  as.foldl (fun m (attempt, now) => m.record attempt now) m

theorem record_spec (m : QueuedMessage) (attempt : DeliveryAttempt) (now : Nat) :
    (m.record attempt now).messageID = m.messageID ∧
    (m.record attempt now).recipients = m.recipients ∧
    (m.record attempt now).deliveryLog = m.deliveryLog ++ [attempt] ∧
    (m.record attempt now).locked = false ∧
    (m.record attempt now).status = attempt.status.toMessageStatus := by
  unfold QueuedMessage.record
  cases attempt.status <;> exact ⟨rfl, rfl, rfl, rfl, rfl⟩

/-- A message after the attempts of a round. -/
theorem recordAll_spec (m : QueuedMessage) (as : List (DeliveryAttempt × Nat)) :
    (m.recordAll as).messageID = m.messageID ∧
    (m.recordAll as).recipients = m.recipients ∧
    (m.recordAll as).deliveryLog = m.deliveryLog ++ as.map (·.1) ∧
    (∀ last, as.getLast? = some last →
      (m.recordAll as).locked = false ∧
      (m.recordAll as).status = last.1.status.toMessageStatus) := by
  induction as using List.reverseRecOn with
  | nil => exact ⟨rfl, rfl, by simp [QueuedMessage.recordAll], fun last h => absurd h (by simp)⟩
  | append_singleton as a ih =>
    obtain ⟨hid, hrecipients, hlog, -⟩ := ih
    have hrec : m.recordAll (as ++ [a]) = (m.recordAll as).record a.1 a.2 := by
      simp only [QueuedMessage.recordAll, List.foldl_append, List.foldl_cons, List.foldl_nil]
    obtain ⟨h1, h2, h3, h4, h5⟩ := record_spec (m.recordAll as) a.1 a.2
    rw [hrec]
    refine ⟨h1.trans hid, h2.trans hrecipients, ?_, fun last hlast => ?_⟩
    · rw [h3, hlog, List.map_append, List.append_assoc]
      rfl
    · obtain rfl : a = last := by simpa using hlast
      exact ⟨h4, h5⟩

theorem map_recipient_attempts (m : QueuedMessage) (r : Round) :
    (attempts m r).map (·.1.recipient) = m.recipients := by
  have hfst : (attempts m r).map (·.1.recipient) = m.recipients.zipIdx.map (·.1) := by
    simp [attempts, attemptFor, Function.comp_def]
  rw [hfst, List.zipIdx_map_fst]

/-- An attempt that is recorded is that of a recipient. -/
theorem recipient_of_recorded {m : QueuedMessage} {r : Round} {a : DeliveryAttempt × Nat}
    (h : a ∈ recorded m r) : a.1.recipient ∈ m.recipients := by
  obtain ⟨⟨attempt, d⟩, hmem, rfl⟩ := List.mem_map.mp h
  rw [← map_recipient_attempts m r]
  exact List.mem_map_of_mem (List.mem_filter.mp hmem).1

/-- The recipient is deferred in the log after a round. -/
theorem latest_append_iff {m : QueuedMessage} {log : List DeliveryAttempt} {recipient : String}
    (hbefore : m.deliveryLog ≠ [] → latest m.deliveryLog recipient = some .deferred) :
    latest (m.deliveryLog ++ log) recipient = some .deferred ↔ Defers m log recipient := by
  rw [latest_append, Defers]
  cases hlog : latest log recipient with
  | some status => simp
  | none =>
    rw [Option.none_or]
    by_cases hnil : m.deliveryLog = []
    · simp [hnil, latest]
    · simp [hnil, hbefore hnil]

/-! ## The whole queue -/

/-- What a round makes of the message it has selected. -/
def afterRound (m : QueuedMessage) (r : Round) (d : QueuedMessage) : QueuedMessage :=
  match r.contentErr with
  | some err =>
    if r.inContext r.bouncedAt r.bounceOk then
      { d with
        status := .bounced
        locked := false
        lockedUntil := none
        workerID := ""
        lastError := if err ≠ "" then err else d.lastError }
    else d.lock r.workerID r.now
  | none => (d.lock r.workerID r.now).recordAll (recorded m r)

theorem messageID_afterRound (m : QueuedMessage) (r : Round) (d : QueuedMessage) :
    (afterRound m r d).messageID = d.messageID := by
  unfold afterRound
  split
  · split <;> rfl
  · exact (recordAll_spec _ _).1

theorem attempts_lock (m : QueuedMessage) (r : Round) (workerID : String) (now : Nat) :
    attempts (m.lock workerID now) r = attempts m r := rfl

/-- The loop of `processMessages` records what is recorded. -/
theorem foldl_attempts (m : QueuedMessage) (r : Round) (messageID : String)
    (coll : List QueuedMessage) :
    (attempts m r).foldl (fun coll a =>
        if r.inContext a.2.recordedAt a.2.ok then
          recordDeliveryAttempt coll messageID a.1 a.2.recordedAt
        else coll) coll =
      (recorded m r).foldl (fun coll a => recordDeliveryAttempt coll messageID a.1 a.2) coll := by
  rw [recorded, List.foldl_map, List.foldl_filter]

/-- A round changes the message that `GetNext` selects. -/
theorem processMessages_of_some {coll : List QueuedMessage} {r : Round} {m : QueuedMessage}
    (h : selectNext coll r.zone r.now = some m) :
    processMessages coll r = updateOne (·.messageID == m.messageID) (afterRound m r) coll := by
  have hid : (m.lock r.workerID r.now).messageID = m.messageID := rfl
  have hlock : ∀ d : QueuedMessage,
      ((d.lock r.workerID r.now).messageID == m.messageID) = (d.messageID == m.messageID) :=
    fun _ => rfl
  simp only [processMessages, getNext, h, hid, attempts_lock]
  cases hc : r.contentErr with
  | some err =>
    simp only
    split
    · next hcontext =>
      rw [updateStatus, ForStd.updateOne_updateOne hlock]
      congr 1
      funext d
      simp only [afterRound, hc, if_pos hcontext, Function.comp]
      rfl
    · next hcontext =>
      congr 1
      funext d
      simp only [afterRound, hc, if_neg hcontext]
  | none =>
    have hrecord : ∀ (d : QueuedMessage) (a : DeliveryAttempt × Nat),
        ((d.record a.1 a.2).messageID == m.messageID) = (d.messageID == m.messageID) := fun d a => by
      rw [(record_spec d a.1 a.2).1]
    dsimp only
    rw [foldl_attempts]
    simp only [recordDeliveryAttempt]
    rw [ForStd.foldl_updateOne hrecord, ForStd.updateOne_updateOne hlock]
    congr 1
    funext d
    simp only [afterRound, hc]
    rfl

theorem processMessages_of_none {coll : List QueuedMessage} {r : Round}
    (h : selectNext coll r.zone r.now = none) : processMessages coll r = coll := by
  simp only [processMessages, getNext, h]

theorem isNext_of_selectNext {coll : List QueuedMessage} {zone : String} {now : Nat}
    {m : QueuedMessage} (h : selectNext coll zone now = some m) :
    m ∈ coll ∧ m.isNext zone now = true :=
  List.mem_filter.mp (List.argmin_mem h)

/-- What holds of the queue after uniform rounds: the message ids differ, and the recipients of
    each message are retried as they should be. -/
structure Inv (coll : List QueuedMessage) : Prop where
  nodup : (coll.map (·.messageID)).Nodup
  settled : ∀ m ∈ coll, Settled m
  free : ∀ m ∈ coll, Free m

theorem inv_store {coll : List QueuedMessage} (h : Inv coll) (messageID zone : String)
    (recipients : List String) (now : Nat) : Inv (store coll messageID zone recipients now) := by
  unfold store
  split
  · exact h
  · next hnew =>
    have hnew : ∀ m ∈ coll, m.messageID ≠ messageID := by simpa using hnew
    refine ⟨?_, ?_, ?_⟩
    · rw [List.map_append, List.nodup_append]
      refine ⟨h.nodup, by simp, ?_⟩
      intro a ha b hb
      obtain ⟨m, hm, rfl⟩ := List.mem_map.mp ha
      obtain rfl : b = messageID := by simpa using hb
      exact hnew m hm
    · intro m hm
      rcases List.mem_append.mp hm with hm | hm
      · exact h.settled m hm
      · obtain rfl := List.mem_singleton.mp hm
        exact fun hlog => absurd rfl hlog
    · intro m hm
      rcases List.mem_append.mp hm with hm | hm
      · exact h.free m hm
      · obtain rfl := List.mem_singleton.mp hm
        exact fun hlocked => nomatch hlocked

/-- What a round leaves has a lock only if it is being sent. -/
theorem free_afterRound (m : QueuedMessage) (r : Round) (d : QueuedMessage) :
    Free (afterRound m r d) := by
  unfold afterRound
  split
  · split
    · exact fun hlocked => nomatch hlocked
    · exact fun _ => rfl
  · cases hlast : (recorded m r).getLast? with
    | none =>
      rw [List.getLast?_eq_none_iff.mp hlast]
      exact fun _ => rfl
    | some last =>
      have hlocked := ((recordAll_spec (d.lock r.workerID r.now) _).2.2.2 last hlast).1
      exact fun h => nomatch hlocked.symm.trans h

theorem recipients_afterRound (m : QueuedMessage) (r : Round) (d : QueuedMessage) :
    (afterRound m r d).recipients = d.recipients := by
  unfold afterRound
  split
  · split <;> rfl
  · exact (recordAll_spec _ _).2.1

/-- The recipients of a message that is not retried any more were not to be retried if and only if
    it was never attempted. -/
theorem settled_of_not_retried {m m' : QueuedMessage}
    (hnot : ∀ recipient ∈ m'.recipients, ¬Retried m' recipient) (hne : m.recipients ≠ [])
    (hbefore : m.deliveryLog ≠ [] → ∀ recipient ∈ m.recipients,
      latest m.deliveryLog recipient = some .deferred)
    (hlog : m'.deliveryLog = m.deliveryLog) (hrecipients : m'.recipients = m.recipients) :
    Settled m' ↔ m.deliveryLog = [] := by
  rw [Settled, hlog, hrecipients]
  constructor
  · intro h
    by_contra hattempted
    obtain ⟨recipient, hr⟩ := List.exists_mem_of_ne_nil _ hne
    exact hnot recipient (hrecipients ▸ hr)
      ((h hattempted recipient hr).mpr (hbefore hattempted recipient hr))
  · exact fun hnil h => absurd hnil h

/-- The message that a round leaves is settled if and only if the round was uniform. -/
theorem settled_afterRound_iff {m : QueuedMessage} {r : Round} (hsettled : Settled m)
    (hfree : Free m) (hnext : m.isNext r.zone r.now = true) (hne : m.recipients ≠ []) :
    Settled (afterRound m r m) ↔ UniformRound m r := by
  -- before the round all recipients were deferred
  have hbefore : m.deliveryLog ≠ [] → ∀ recipient ∈ m.recipients,
      latest m.deliveryLog recipient = some .deferred := fun hlog recipient hr =>
    (hsettled hlog recipient hr).mp ((retried_iff hfree hr).mpr (status_of_isNext hnext))
  have hfree' := free_afterRound m r m
  have hnot : ∀ m', Free m' → m'.status = .bounced ∨ m'.status = .sending →
      ∀ recipient ∈ m'.recipients, ¬Retried m' recipient := by
    intro m' hfree' hstatus recipient hr hretried
    rw [retried_iff hfree' hr] at hretried
    rcases hstatus with h | h <;> rw [h] at hretried <;> rcases hretried with h | h <;>
      exact nomatch h
  unfold afterRound at hfree' ⊢
  unfold UniformRound
  cases hcontent : r.contentErr with
  | some err =>
    rw [hcontent] at hfree'
    simp only [reduceCtorEq, false_and, or_false, false_imp_iff, and_true]
    dsimp only at hfree'
    split
    · next hcontext =>
      rw [if_pos hcontext] at hfree'
      exact settled_of_not_retried (hnot _ hfree' (Or.inl rfl)) hne hbefore rfl rfl
    · next hcontext =>
      rw [if_neg hcontext] at hfree'
      exact settled_of_not_retried (hnot _ hfree' (Or.inr rfl)) hne hbefore rfl rfl
  | none =>
    rw [hcontent] at hfree'
    simp only [true_and, forall_const]
    dsimp only at hfree' ⊢
    cases hlast : (recorded m r).getLast? with
    | none =>
      -- the message stays locked
      have hnone := List.getLast?_eq_none_iff.mp hlast
      rw [hnone] at hfree' ⊢
      refine (settled_of_not_retried (hnot _ hfree' (Or.inr rfl)) hne hbefore rfl rfl).trans ?_
      simp only [ne_eq, not_true_eq_false, or_false, List.map_nil, Defers, latest,
        List.filter_nil, List.getLast?_nil, Option.map_none, reduceCtorEq, true_and, false_or]
      exact ⟨fun h => ⟨h, Or.inr fun _ _ hlog => hlog h⟩, And.left⟩
    | some last =>
      obtain ⟨-, hrecipients, hlog, hend⟩ :=
        recordAll_spec (m.lock r.workerID r.now) (recorded m r)
      obtain ⟨-, hstatus⟩ := hend last hlast
      have hmem : last ∈ recorded m r := List.mem_of_getLast? hlast
      have hrecorded : recorded m r ≠ [] := List.ne_nil_of_mem hmem
      -- the message is retried if the last recipient was deferred
      have hretried : ∀ recipient ∈ m.recipients,
          (Retried ((m.lock r.workerID r.now).recordAll (recorded m r)) recipient ↔
            last.1.status = .deferred) := by
        intro recipient hr
        rw [retried_iff hfree' (hrecipients ▸ hr), hstatus]
        cases last.1.status <;> simp [AttemptStatus.toMessageStatus]
      have hlastDefers : Defers m ((recorded m r).map (·.1)) last.1.recipient ↔
          last.1.status = .deferred := by
        have hlatest : latest ((recorded m r).map (·.1)) last.1.recipient =
            some last.1.status := by
          rw [← List.dropLast_append_getLast? last hlast, List.map_append]
          exact latest_concat _ _
        simp [Defers, hlatest]
      have hlastMem : last.1.recipient ∈ m.recipients := recipient_of_recorded hmem
      have hsame : Settled ((m.lock r.workerID r.now).recordAll (recorded m r)) ↔
          ∀ recipient ∈ m.recipients,
            (last.1.status = .deferred ↔ Defers m ((recorded m r).map (·.1)) recipient) := by
        rw [Settled, hlog, hrecipients]
        have hnonempty : (m.lock r.workerID r.now).deliveryLog ++ (recorded m r).map (·.1) ≠ [] := by
          simp [hrecorded]
        rw [forall_prop_of_true hnonempty]
        refine forall₂_congr fun recipient hr => ?_
        rw [hretried recipient hr]
        exact iff_congr Iff.rfl (latest_append_iff fun hlog => hbefore hlog recipient hr)
      rw [hsame, and_iff_right (Or.inr hrecorded)]
      constructor
      · intro h
        by_cases hd : last.1.status = .deferred
        · exact Or.inl fun recipient hr => (h recipient hr).mp hd
        · exact Or.inr fun recipient hr hdefers => hd ((h recipient hr).mpr hdefers)
      · rintro (hall | hnone) recipient hr
        · exact iff_of_true (hlastDefers.mp (hall _ hlastMem)) (hall recipient hr)
        · exact iff_of_false (mt hlastDefers.mpr (hnone _ hlastMem)) (hnone recipient hr)

/-- A document after a round is a document before it or the selected message. -/
theorem mem_processMessages {coll : List QueuedMessage} (hnodup : (coll.map (·.messageID)).Nodup)
    {r : Round} {d : QueuedMessage} (hd : d ∈ processMessages coll r) :
    d ∈ coll ∨ ∃ m, selectNext coll r.zone r.now = some m ∧ d = afterRound m r m := by
  cases hsel : selectNext coll r.zone r.now with
  | none =>
    rw [processMessages_of_none hsel] at hd
    exact Or.inl hd
  | some m =>
    rw [processMessages_of_some hsel] at hd
    refine (ForStd.mem_updateOne hd).imp_right ?_
    rintro ⟨d', hd', hid, rfl⟩
    have : d' = m := List.inj_on_of_nodup_map hnodup hd' (isNext_of_selectNext hsel).1
      (by simpa using hid)
    exact ⟨m, rfl, by rw [this]⟩

theorem inv_processMessages {coll : List QueuedMessage} (h : Inv coll) {r : Round}
    (huniform : UniformEvent coll (.round r)) : Inv (processMessages coll r) := by
  refine ⟨?_, fun d hd => ?_, fun d hd => ?_⟩
  · cases hsel : selectNext coll r.zone r.now with
    | none => rw [processMessages_of_none hsel]; exact h.nodup
    | some m =>
      rw [processMessages_of_some hsel, ForStd.map_updateOne (messageID_afterRound m r)]
      exact h.nodup
  · rcases mem_processMessages h.nodup hd with hd | ⟨m, hsel, rfl⟩
    · exact h.settled d hd
    · obtain ⟨hm, hnext⟩ := isNext_of_selectNext hsel
      by_cases hne : m.recipients = []
      · intro _ recipient hr
        rw [recipients_afterRound, hne] at hr
        exact absurd hr (by simp)
      · rw [UniformEvent, hsel] at huniform
        exact (settled_afterRound_iff (h.settled m hm) (h.free m hm) hnext hne).mpr
          (huniform hne)
  · rcases mem_processMessages h.nodup hd with hd | ⟨m, hsel, rfl⟩
    · exact h.free d hd
    · exact free_afterRound m r m

/-- Every event whose round is uniform keeps the invariant. -/
theorem inv_step {coll coll' : List QueuedMessage} {e : Event} (h : Inv coll)
    (huniform : UniformEvent coll e) (hstep : step coll e = some coll') : Inv coll' := by
  cases e with
  | store messageID zone recipients now =>
    obtain rfl := Option.some.inj hstep
    exact inv_store h messageID zone recipients now
  | round r =>
    obtain rfl := Option.some.inj hstep
    exact inv_processMessages h huniform

theorem inv_nil : Inv [] := ⟨List.nodup_nil, by simp, by simp⟩

/-- After a round that is not uniform its message is not settled. -/
theorem not_settled {coll coll' : List QueuedMessage} {e : Event} (h : Inv coll)
    (huniform : ¬UniformEvent coll e) (hstep : step coll e = some coll') :
    ¬∀ m ∈ coll', Settled m := by
  cases e with
  | store => exact absurd trivial huniform
  | round r =>
    obtain rfl := Option.some.inj hstep
    cases hsel : selectNext coll r.zone r.now with
    | none =>
      rw [UniformEvent, hsel] at huniform
      exact absurd trivial huniform
    | some m =>
      rw [UniformEvent, hsel, Classical.not_imp] at huniform
      obtain ⟨hm, hnext⟩ := isNext_of_selectNext hsel
      have hmem : afterRound m r m ∈ processMessages coll r := by
        rw [processMessages_of_some hsel, ForStd.updateOne_eq_map h.nodup]
        exact List.mem_map.mpr ⟨m, hm, if_pos rfl⟩
      intro hall
      exact huniform.2 ((settled_afterRound_iff (h.settled m hm) (h.free m hm) hnext
        huniform.1).mp (hall _ hmem))

/-- In every run, the recipients that are retried are those whose latest outcome is deferred if
    and only if the rounds are uniform. Then no message that is delivered or bounced has such a
    recipient, and the next round attempts no other one. -/
theorem retried_iff_deferred (es : List Event) (coll : List QueuedMessage)
    (hrun : ForStd.run step [] es = some coll) :
    (Throughout step (fun coll => ∀ m ∈ coll, Settled m) [] es ↔ Along step UniformEvent [] es) ∧
    (Along step UniformEvent [] es →
      (∀ m ∈ coll, m.deliveryLog ≠ [] → m.status = .delivered ∨ m.status = .bounced →
        ∀ recipient ∈ m.recipients, latest m.deliveryLog recipient ≠ some .deferred) ∧
      (∀ r m, selectNext coll r.zone r.now = some m → m.deliveryLog ≠ [] → ∀ a ∈ attempts m r,
        latest m.deliveryLog a.1.recipient = some .deferred)) := by
  refine ⟨throughout_iff_along (fun _ _ _ h => inv_step h) (fun _ _ _ h => not_settled h)
    (fun _ h => h.settled) inv_nil hrun, fun huniform => ?_⟩
  have hinv : Inv coll := ForStd.run_invariant_along (fun _ _ _ h hu hs => inv_step h hu hs) inv_nil
    huniform hrun
  have hstatus : ∀ m ∈ coll, ∀ recipient ∈ m.recipients,
      (Retried m recipient ↔ m.status = .queued ∨ m.status = .deferred) := fun m hm recipient hr =>
    retried_iff (hinv.free m hm) hr
  refine ⟨fun m hm hlog hfinal recipient hr hdef => ?_, fun r m hsel hlog a ha => ?_⟩
  · have hretried := (hinv.settled m hm hlog recipient hr).mpr hdef
    rw [hstatus m hm recipient hr] at hretried
    rcases hfinal with hf | hf <;> simp [hf] at hretried
  · obtain ⟨hm, hnext⟩ := isNext_of_selectNext hsel
    have hr : a.1.recipient ∈ m.recipients := by
      rw [← map_recipient_attempts m r]
      exact List.mem_map_of_mem ha
    exact (hinv.settled m hm hlog _ hr).mp ((hstatus m hm _ hr).mpr (status_of_isNext hnext))

/-! ## A deferred and a delivered recipient -/

/-- A round at the start of the process in which all calls succeed, with the errors of the mail
    servers. -/
def roundOf (err : Nat → Option String) : Round where
  zone := "default"
  workerID := "default-worker-0"
  now := 0
  contentErr := none
  bouncedAt := 0
  bounceOk := true
  deliveries i := ⟨0, 0, err i, 0, true⟩

/-- The first recipient is deferred, the second one accepts the message. -/
def mixedRound : Round := roundOf fun i => if i = 0 then some "451 try again later" else none

/-- Both recipients are deferred. -/
def deferredRound : Round := roundOf fun _ => some "451 try again later"

/-- A message for two recipients. -/
def storeTwo : Event := .store "m" "default" ["a@example.com", "b@example.com"] 0

/-- The message after the mixed round. -/
def mixedMessage : QueuedMessage where
  messageID := "m"
  zone := "default"
  recipients := ["a@example.com", "b@example.com"]
  nextAttempt := 60000
  deliveryAttempts := 2
  status := .delivered
  locked := false
  lockedUntil := none
  workerID := ""
  lastError := "451 try again later"
  deliveryLog := [⟨0, "a@example.com", .deferred, "451 try again later", 0, 0⟩,
    ⟨0, "b@example.com", .delivered, "250 OK", 0, 0⟩]
  bounceReason := ""
  deliveryTime := 0

theorem settled_mixedRound :
    ¬∀ (es : List Event) (coll : List QueuedMessage), ForStd.run step [] es = some coll →
      ∀ m ∈ coll, Settled m := by
  intro h
  have hrun : ForStd.run step [] [storeTwo, .round mixedRound] = some [mixedMessage] := by
    decide +kernel
  have hsettled := h _ _ hrun mixedMessage List.mem_cons_self
  have ha : "a@example.com" ∈ mixedMessage.recipients := by decide
  have hfree : Free mixedMessage := fun hlocked => nomatch hlocked
  have hretried := (hsettled (by decide) "a@example.com" ha).mpr (by decide)
  rw [retried_iff hfree ha] at hretried
  exact absurd hretried (by decide)

theorem retried_iff_deferred_example :
    Throughout step (fun coll => ∀ m ∈ coll, Settled m) [] [storeTwo, .round deferredRound] ∧
      ¬Throughout step (fun coll => ∀ m ∈ coll, Settled m) [] [storeTwo, .round mixedRound] :=
  ⟨(retried_iff_deferred _ _ rfl).1.mpr (by decide +kernel),
    mt (retried_iff_deferred _ _ rfl).1.mp (by decide +kernel)⟩

end GoQueue

end ZoneMta
