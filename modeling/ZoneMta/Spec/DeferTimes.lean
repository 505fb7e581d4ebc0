import ZoneMta.ForStd.Transition
import ZoneMta.ForStd.List
import ZoneMta.Spec.Attempt
import ZoneMta.Spec.Copies
import ZoneMta.Spec.Holds

/-!
# The list of defer times

The count of a delivery is in its document, in the copies of it that are on their way to a
sender, and in the attempt of a sender. As long as the delivery is handed out only when no other
attempt at it is going on, they all are the number of times it has been deferred, and
`handleResponseError` takes the entries of the list one after another.

## Key results

- `Stored`: the count in the document
- `Sole`: the one task or attempt that the count is handed to
- `inv_step`: both at every step
- `deferTimes_in_order`: the delivery is deferred by the entries of the list, in their order
-/

namespace ZoneMta

open ForStd (run Along Map)
open Master (step_cases get_cases exec_cases request_cases)

/-- The sender has the delivery, and has not sent a command for an error. -/
def Attempt.holds (id seq : String) (attempt : Attempt) : Bool :=
  attempt.delivery.isFor id seq && decide (Sender.Undecided attempt.state)

/-- The time of a DEFER. -/
def Sender.Command.ttl? : Sender.Command → Option Nat
  | .defer ttl _ => some ttl
  | _ => none

/-- The update is one of the delivery. -/
def Deferral.isFor (id seq : String) (deferral : Deferral) : Bool :=
  deferral.id == id && deferral.seq == seq

namespace Attempts

/-- The times by which the delivery was deferred. -/
def ttls (s : Attempts) (id seq : String) : List Nat :=
  (s.deferrals.filter (·.isFor id seq)).map (·.ttl)

/-- An attempt at the delivery is going on: a copy is on its way to a sender, the sender of an
    attempt has not decided yet, or a DEFER has not taken effect. -/
def Busy (s : Attempts) (id seq : String) : Prop :=
  (∃ n ∈ s.master.tasks.keys, (s.master.tasks.lookup n).any (·.handles id seq) = true) ∨
    ∃ attempt ∈ s.attempts, attempt.holds id seq = true

instance (s : Attempts) (id seq : String) : Decidable (s.Busy id seq) :=
  inferInstanceAs (Decidable (_ ∨ _))

/-- The delivery that the `findOneAndUpdate` of a `shift` returns. -/
def fetchedBy (master : Master) : ZoneMta.Event → Option Delivery
  | .exec n choice .ok =>
    match master.tasks.lookup n with
    | some ⟨.fetched _, .call call⟩ =>
      match (master.db.exec choice call).2 with
      | .delivery found => found
      | _ => none
    | _ => none
  | _ => none

/-- The delivery is fetched only while no attempt at it is going on. -/
def Alone (id seq : String) (s : Attempts) : Event → Prop
  | .master e => (fetchedBy s.master e).any (·.isFor id seq) = true → ¬s.Busy id seq
  | _ => True

instance (id seq : String) (s : Attempts) (e : Event) : Decidable (Alone id seq s e) :=
  match e with
  | .master _ => inferInstanceAs (Decidable (_ = true → ¬s.Busy id seq))
  | .sender .. => isTrue trivial
  | .restart => isTrue trivial

/-! ## The document -/

/-- The only document of the delivery has its count, from the `push` of the message on. -/
structure Stored (id seq : String) (queue : List Delivery) (pushed : List String) (count : Nat) :
    Prop where
  nodup : (queue.map (·._id)).Nodup
  one : ∀ d ∈ queue, ∀ d' ∈ queue, d.isFor id seq = true → d'.isFor id seq = true → d = d'
  counts : ∀ d ∈ queue, d.isFor id seq = true → d.deferredCount = count
  unpushed : id ∉ pushed → count = 0 ∧ ∀ d ∈ queue, d.id ≠ id

variable {cfg : Config} {config : SenderConfig} {times : List Nat} {s s' : Attempts}
variable {id seq : String} {queue queue' : List Delivery} {pushed : List String} {count : Nat}

/-- There is still one document if none is new. -/
theorem Stored.one_of_ids (h : Stored id seq queue pushed count)
    (hnodup : (queue'.map (·._id)).Nodup)
    (hids : ∀ d' ∈ queue', ∃ d ∈ queue, d._id = d'._id ∧ d.id = d'.id ∧ d.seq = d'.seq) :
    ∀ d ∈ queue', ∀ d' ∈ queue', d.isFor id seq = true → d'.isFor id seq = true → d = d' := by
  intro d hd d' hd' hfor hfor'
  obtain ⟨b, hb, h_id, hid, hseq⟩ := hids d hd
  obtain ⟨b', hb', h_id', hid', hseq'⟩ := hids d' hd'
  have hsame : b = b' := by
    refine h.one b hb b' hb' ?_ ?_
    · rw [Delivery.isFor, hid, hseq]
      exact hfor
    · rw [Delivery.isFor, hid', hseq']
      exact hfor'
  refine List.inj_on_of_nodup_map hnodup hd hd' ?_
  -- both come from the document that there was
  rw [← h_id, ← h_id', hsame]

/-- Steps that leave the documents there as they are, up to the lock. -/
theorem Stored.keep (h : Stored id seq queue pushed count) (hnodup : (queue'.map (·._id)).Nodup)
    (hids : ∀ d' ∈ queue', ∃ d ∈ queue, d._id = d'._id ∧ d.id = d'.id ∧ d.seq = d'.seq)
    (hcount : ∀ d' ∈ queue', d'.isFor id seq = true →
      ∃ d ∈ queue, d.isFor id seq = true ∧ d.deferredCount = d'.deferredCount) :
    Stored id seq queue' pushed count where
  nodup := hnodup
  one := h.one_of_ids hnodup hids
  counts := by
    intro d' hd' hfor
    obtain ⟨d, hd, hdfor, hsame⟩ := hcount d' hd' hfor
    exact hsame.symm.trans (h.counts d hd hdfor)
  unpushed := by
    intro hid
    refine ⟨(h.unpushed hid).1, fun d' hd' heq => ?_⟩
    obtain ⟨d, hd, -, hsame, -⟩ := hids d' hd'
    exact (h.unpushed hid).2 d hd (hsame.trans heq)

/-- A call counts its update. -/
theorem Stored.exec {db : Database} {choice : Nat} {call : Call}
    (h : Stored id seq db.queue pushed count) :
    Stored id seq (db.exec choice call).1.queue pushed
      (count + ((defers db choice call).filter (·.isFor id seq)).length) := by
  have hnodup := Database.nodup_exec choice call h.nodup
  have hids : ∀ d' ∈ (db.exec choice call).1.queue,
      ∃ d ∈ db.queue, d._id = d'._id ∧ d.id = d'.id ∧ d.seq = d'.seq :=
    fun d' hd' => Database.mem_queue_exec hd'
  -- what is not a DEFER of this delivery
  have hother : (∀ now ttl first, call ≠ .defer id seq now ttl first) →
      Stored id seq (db.exec choice call).1.queue pushed count := by
    intro hcall
    refine h.keep hnodup hids fun d' hd' hfor => ?_
    obtain ⟨d, hd, -, hdfor, hsame⟩ := Database.deferredCount_exec h.nodup hcall hd' hfor
    exact ⟨d, hd, hdfor, hsame⟩
  cases call with
  | defer id' seq' now ttl first =>
    cases hpick : pick (db.queue.filter (·.isFor id' seq')) choice with
    | none =>
      simp only [defers, hpick, Database.exec]
      exact h
    | some doc =>
      by_cases hkey : id' = id ∧ seq' = seq
      · obtain ⟨rfl, rfl⟩ := hkey
        obtain ⟨hdoc, hdocFor⟩ := mem_of_pick_filter hpick
        simp only [defers, hpick, Option.map_some, Option.toList_some, Deferral.isFor,
          beq_self_eq_true, Bool.and_self, List.filter_cons_of_pos, List.filter_nil,
          List.length_singleton]
        refine ⟨hnodup, h.one_of_ids hnodup hids, fun d' hd' hfor => ?_, fun hid => ?_⟩
        · rw [Database.deferredCount_defer h.nodup h.one hpick hd' hfor, h.counts doc hdoc hdocFor]
        · -- a message with a document was pushed
          exact absurd (Delivery.isFor_iff.mp hdocFor).1 ((h.unpushed hid).2 doc hdoc)
      · have hfilter : ([⟨id', seq', ttl⟩] : List Deferral).filter (·.isFor id seq) = [] := by
          simp [Deferral.isFor, hkey]
        simp only [defers, hpick, Option.map_some, Option.toList_some, hfilter, List.length_nil,
          Nat.add_zero]
        refine hother fun now ttl first heq => hkey ?_
        simp only [Call.defer.injEq] at heq
        exact ⟨heq.1, heq.2.1⟩
  | _ => exact hother nofun

/-- `push` stores new documents, none of which was deferred. -/
theorem Stored.push {recipients : List Recipient} {id' : String} {db : Database}
    {master : Master} (hdb : master.db = db) (h : Stored id seq db.queue pushed count)
    (hpush : master.canPush recipients = true) (hnew : id' ∉ pushed)
    (hseqs : (recipients.map fun r => deliverySeq r.index).Nodup) :
    Stored id seq (db.queue ++ recipients.map (·.document id')) (pushed ++ [id']) count := by
  subst hdb
  obtain ⟨hnodup, hall⟩ := Bool.and_eq_true_iff.mp hpush
  have hdocs : (recipients.map (·.document id')).map (·._id) = recipients.map (·._id) := by
    rw [List.map_map]
    rfl
  have hids : ((master.db.queue ++ recipients.map (·.document id')).map (·._id)).Nodup := by
    rw [List.map_append, hdocs]
    refine List.nodup_append.mpr ⟨h.nodup, of_decide_eq_true hnodup, ?_⟩
    rintro _ hleft _ hright rfl
    obtain ⟨d, hd, h_id⟩ := List.mem_map.mp hleft
    obtain ⟨recipient, hrecipient, hsame⟩ := List.mem_map.mp hright
    have hfresh := (Bool.and_eq_true_iff.mp (List.all_eq_true.mp hall recipient hrecipient)).2
    exact absurd (h_id.trans hsame.symm) (bne_iff_ne.mp (List.all_eq_true.mp hfresh d hd))
  by_cases hid : id' = id
  · subst hid
    obtain ⟨rfl, hnone⟩ := h.unpushed hnew
    -- the first documents of the delivery: the recipients have different numbers
    have hmem : ∀ d ∈ master.db.queue ++ recipients.map (·.document id'),
        d.isFor id' seq = true → ∃ recipient ∈ recipients, d = recipient.document id' := by
      intro d hd hfor
      rcases List.mem_append.mp hd with hd | hd
      · exact absurd (Delivery.isFor_iff.mp hfor).1 (hnone d hd)
      · obtain ⟨recipient, hrecipient, rfl⟩ := List.mem_map.mp hd
        exact ⟨recipient, hrecipient, rfl⟩
    refine ⟨hids, ?_, ?_, fun habsent => absurd (by simp) habsent⟩
    · intro d hd d' hd' hfor hfor'
      obtain ⟨r, hr, rfl⟩ := hmem d hd hfor
      obtain ⟨r', hr', rfl⟩ := hmem d' hd' hfor'
      have hseq : deliverySeq r.index = deliverySeq r'.index :=
        (Delivery.isFor_iff.mp hfor).2.trans (Delivery.isFor_iff.mp hfor').2.symm
      rw [List.inj_on_of_nodup_map hseqs hr hr' hseq]
    · intro d hd hfor
      obtain ⟨r, -, rfl⟩ := hmem d hd hfor
      unfold Delivery.deferredCount Recipient.document
      split <;> simp [*]
  · -- the documents of another message
    have hmem : ∀ d ∈ master.db.queue ++ recipients.map (·.document id'), d.id = id →
        d ∈ master.db.queue := by
      intro d hd heq
      rcases List.mem_append.mp hd with hd | hd
      · exact hd
      · obtain ⟨recipient, -, rfl⟩ := List.mem_map.mp hd
        exact absurd heq hid
    refine ⟨hids, ?_, ?_, ?_⟩
    · intro d hd d' hd' hfor hfor'
      exact h.one d (hmem d hd (Delivery.isFor_iff.mp hfor).1) d'
        (hmem d' hd' (Delivery.isFor_iff.mp hfor').1) hfor hfor'
    · intro d hd hfor
      exact h.counts d (hmem d hd (Delivery.isFor_iff.mp hfor).1) hfor
    · intro habsent
      have hbefore : id ∉ pushed := fun hin => habsent (List.mem_append_left _ hin)
      exact ⟨(h.unpushed hbefore).1, fun d hd heq => (h.unpushed hbefore).2 d (hmem d hd heq) heq⟩

/-- The locks that `init` releases. -/
theorem Stored.restarted {master : Master} (h : Stored id seq master.db.queue pushed count) :
    Stored id seq (restarted cfg master).db.queue pushed count := by
  have hmem : ∀ d' ∈ (Attempts.restarted cfg master).db.queue, ∃ d ∈ master.db.queue,
      d._id = d'._id ∧ d.id = d'.id ∧ d.seq = d'.seq ∧ d.deferredCount = d'.deferredCount := by
    intro d' hd'
    obtain ⟨d, hd, rfl⟩ := List.mem_map.mp hd'
    refine ⟨d, hd, ?_⟩
    split <;> exact ⟨rfl, rfl, rfl, rfl⟩
  have hids : (Attempts.restarted cfg master).db.queue.map (·._id) =
      master.db.queue.map (·._id) := by
    simp only [Attempts.restarted, List.map_map]
    refine List.map_congr_left fun d _ => ?_
    simp only [Function.comp]
    split <;> rfl
  refine h.keep (hids ▸ h.nodup) (fun d' hd' => ?_) fun d' hd' hfor => ?_
  · obtain ⟨d, hd, h_id, hid, hseq, -⟩ := hmem d' hd'
    exact ⟨d, hd, h_id, hid, hseq⟩
  · obtain ⟨d, hd, -, hid, hseq, hcount⟩ := hmem d' hd'
    refine ⟨d, hd, ?_, hcount⟩
    rw [Delivery.isFor, hid, hseq]
    exact hfor

/-! ## The copies -/

/-- One task or one attempt has the count, at most. -/
structure Sole (id seq : String) (times : List Nat) (tasks : Map Nat Task)
    (attempts : List Attempt) (count : Nat) : Prop where
  copy : ∀ n task d, tasks.lookup n = some task → task.copy? id seq = some d →
    d.deferredCount = count
  deferral : ∀ n task ttl, tasks.lookup n = some task → task.deferral? id seq = some ttl →
    times[count]? = some ttl
  attempt : ∀ a ∈ attempts, a.holds id seq = true → a.delivery.deferredCount = count
  one : ∀ n m task task', tasks.lookup n = some task → tasks.lookup m = some task' →
    task.handles id seq = true → task'.handles id seq = true → n = m
  none : ∀ n task, tasks.lookup n = some task → task.handles id seq = true →
    attempts.countP (·.holds id seq) = 0
  atMost : attempts.countP (·.holds id seq) ≤ 1

variable {tasks tasks' : Map Nat Task} {attempts attempts' : List Attempt}

theorem handles_of_copy? {task : Task} {d : Delivery} (h : task.copy? id seq = some d) :
    task.handles id seq = true := by
  rw [Task.handles, h]
  rfl

theorem handles_of_deferral? {task : Task} {ttl : Nat} (h : task.deferral? id seq = some ttl) :
    task.handles id seq = true := by
  rw [Task.handles, h, Option.isSome_some, Bool.or_true]

/-- A task with a copy has it, or a deferral. -/
theorem handles_cases {task : Task} (h : task.handles id seq = true) :
    (∃ d, task.copy? id seq = some d) ∨ ∃ ttl, task.deferral? id seq = some ttl := by
  rcases Bool.or_eq_true_iff.mp h with h | h
  · exact Or.inl (Option.isSome_iff_exists.mp h)
  · exact Or.inr (Option.isSome_iff_exists.mp h)

/-- No attempt is going on. -/
structure Idle (id seq : String) (tasks : Map Nat Task) (attempts : List Attempt) : Prop where
  tasks : ∀ n task, tasks.lookup n = some task → task.handles id seq = false
  attempts : attempts.countP (·.holds id seq) = 0

theorem idle_of_not_busy (h : ¬s.Busy id seq) : Idle id seq s.master.tasks s.attempts := by
  obtain ⟨htasks, hattempts⟩ := not_or.mp h
  refine ⟨fun n task htask => ?_, ?_⟩
  · by_contra hhandles
    refine htasks ⟨n, ?_, ?_⟩
    · rw [← AList.mem_keys, ← AList.lookup_isSome, htask]
      rfl
    · rw [htask]
      exact eq_true_of_ne_false hhandles
  · rw [List.countP_eq_zero]
    exact fun attempt hmem hholds => hattempts ⟨attempt, hmem, hholds⟩

theorem Idle.sole (h : Idle id seq tasks attempts) : Sole id seq times tasks attempts count := by
  have hnone : ∀ n task, tasks.lookup n = some task → ¬task.handles id seq = true := by
    intro n task hlookup
    rw [h.tasks n task hlookup]
    exact Bool.false_ne_true
  refine ⟨?_, ?_, ?_, ?_, ?_, ?_⟩
  · exact fun n task d hlookup hd => absurd (handles_of_copy? hd) (hnone n task hlookup)
  · exact fun n task ttl hlookup httl => absurd (handles_of_deferral? httl) (hnone n task hlookup)
  · exact fun a ha hholds => absurd hholds (List.countP_eq_zero.mp h.attempts a ha)
  · exact fun n m task _ hlookup _ hhandles _ => absurd hhandles (hnone n task hlookup)
  · exact fun n task hlookup hhandles => absurd hhandles (hnone n task hlookup)
  · rw [h.attempts]
    exact Nat.zero_le 1

/-- One task is handed the count. -/
theorem Idle.insert (h : Idle id seq tasks attempts) {n : Nat} {task : Task}
    (hcopy : ∀ d, task.copy? id seq = some d → d.deferredCount = count)
    (hdeferral : ∀ ttl, task.deferral? id seq = some ttl → times[count]? = some ttl) :
    Sole id seq times (tasks.insert n task) attempts count := by
  have hnew : ∀ m task', (tasks.insert n task).lookup m = some task' →
      task'.handles id seq = true → m = n ∧ task' = task := by
    intro m task' hlookup hhandles
    rw [ForStd.lookup_insert] at hlookup
    split at hlookup
    · next hm => exact ⟨hm, (Option.some.inj hlookup).symm⟩
    · rw [h.tasks m task' hlookup] at hhandles
      exact absurd hhandles Bool.false_ne_true
  refine ⟨?_, ?_, ?_, ?_, ?_, ?_⟩
  · intro m task' d hlookup hd
    obtain ⟨-, rfl⟩ := hnew m task' hlookup (handles_of_copy? hd)
    exact hcopy d hd
  · intro m task' ttl hlookup httl
    obtain ⟨-, rfl⟩ := hnew m task' hlookup (handles_of_deferral? httl)
    exact hdeferral ttl httl
  · exact fun a ha hholds => absurd hholds (List.countP_eq_zero.mp h.attempts a ha)
  · intro m m' task' task'' hlookup hlookup' hhandles hhandles'
    exact (hnew m task' hlookup hhandles).1.trans (hnew m' task'' hlookup' hhandles').1.symm
  · exact fun _ _ _ _ => h.attempts
  · rw [h.attempts]
    exact Nat.zero_le 1

/-- One attempt is handed the count. -/
theorem Idle.hand (h : Idle id seq tasks attempts) {a : Attempt}
    (ha : a.holds id seq = true → a.delivery.deferredCount = count) :
    Sole id seq times tasks (attempts ++ [a]) count := by
  have hsole : Sole id seq times tasks attempts count := h.sole
  have hnone : ∀ n task, tasks.lookup n = some task → ¬task.handles id seq = true := by
    intro n task hlookup
    rw [h.tasks n task hlookup]
    exact Bool.false_ne_true
  refine ⟨hsole.copy, hsole.deferral, ?_, hsole.one, ?_, ?_⟩
  · intro b hb hholds
    rcases List.mem_append.mp hb with hb | hb
    · exact hsole.attempt b hb hholds
    · obtain rfl := List.mem_singleton.mp hb
      exact ha hholds
  · exact fun n task hlookup hhandles => absurd hhandles (hnone n task hlookup)
  · rw [List.countP_append, h.attempts, Nat.zero_add]
    exact List.countP_le_length

/-- Nothing new has the count. -/
theorem Sole.keep (h : Sole id seq times tasks attempts count)
    (hcopy : ∀ n task' d, tasks'.lookup n = some task' → task'.copy? id seq = some d →
      ∃ task, tasks.lookup n = some task ∧ task.copy? id seq = some d)
    (hdeferral : ∀ n task' ttl, tasks'.lookup n = some task' → task'.deferral? id seq = some ttl →
      ∃ task, tasks.lookup n = some task ∧ task.deferral? id seq = some ttl)
    (hattempts : ∀ a' ∈ attempts', a'.holds id seq = true →
      ∃ a ∈ attempts, a.holds id seq = true ∧ a.delivery = a'.delivery)
    (hle : attempts'.countP (·.holds id seq) ≤ attempts.countP (·.holds id seq)) :
    Sole id seq times tasks' attempts' count := by
  have hhandles : ∀ n task', tasks'.lookup n = some task' → task'.handles id seq = true →
      ∃ task, tasks.lookup n = some task ∧ task.handles id seq = true := by
    intro n task' hlookup hhandles
    rcases handles_cases hhandles with ⟨d, hd⟩ | ⟨ttl, httl⟩
    · obtain ⟨task, htask, hd⟩ := hcopy n task' d hlookup hd
      exact ⟨task, htask, handles_of_copy? hd⟩
    · obtain ⟨task, htask, httl⟩ := hdeferral n task' ttl hlookup httl
      exact ⟨task, htask, handles_of_deferral? httl⟩
  refine ⟨?_, ?_, ?_, ?_, ?_, hle.trans h.atMost⟩
  · intro n task' d hlookup hd
    obtain ⟨task, htask, hd⟩ := hcopy n task' d hlookup hd
    exact h.copy n task d htask hd
  · intro n task' ttl hlookup httl
    obtain ⟨task, htask, httl⟩ := hdeferral n task' ttl hlookup httl
    exact h.deferral n task ttl htask httl
  · intro a' ha' hholds
    obtain ⟨a, ha, hholds, hdelivery⟩ := hattempts a' ha' hholds
    rw [← hdelivery]
    exact h.attempt a ha hholds
  · intro n m task task' hlookup hlookup' htask htask'
    obtain ⟨before, hbefore, hhandle⟩ := hhandles n task hlookup htask
    obtain ⟨before', hbefore', hhandle'⟩ := hhandles m task' hlookup' htask'
    exact h.one n m before before' hbefore hbefore' hhandle hhandle'
  · intro n task hlookup htask
    obtain ⟨before, hbefore, hhandle⟩ := hhandles n task hlookup htask
    exact Nat.le_zero.mp (hle.trans (Nat.le_of_eq (h.none n before hbefore hhandle)))

/-- The senders whose connection ends are gone. -/
theorem Sole.filter (h : Sole id seq times tasks attempts count) (p : Attempt → Bool) :
    Sole id seq times tasks (attempts.filter p) count := by
  refine h.keep (fun n task' d hlookup hd => ⟨task', hlookup, hd⟩)
    (fun n task' ttl hlookup httl => ⟨task', hlookup, httl⟩) (fun a ha hholds => ?_) ?_
  · exact ⟨a, (List.mem_filter.mp ha).1, hholds, rfl⟩
  · exact List.filter_sublist.countP_le

/-- The task that has the count ends, and no other one has it. -/
theorem Sole.idle (h : Sole id seq times tasks attempts count) {n : Nat} {task : Task}
    (htask : tasks.lookup n = some task) (hhandles : task.handles id seq = true)
    (hn : ∀ task', tasks'.lookup n = some task' → task'.handles id seq = false)
    (hother : ∀ m, m ≠ n → tasks'.lookup m = tasks.lookup m) : Idle id seq tasks' attempts where
  tasks := by
    intro m task' hlookup
    by_cases hm : m = n
    · subst hm
      exact hn task' hlookup
    -- another task that has the count would be a second one
    · by_contra hhandles'
      rw [hother m hm] at hlookup
      exact hm (h.one m n task' task hlookup htask (eq_true_of_ne_false hhandles')
        hhandles)
  attempts := h.none n task htask hhandles

/-! ## Steps of the master process -/

theorem master_step {e : ZoneMta.Event} (h : step cfg config times s (.master e) = some s') :
    (∀ c id seq _lock ttl, e ≠ .request c id seq _lock ttl) ∧ s.pushes e = true ∧
      ∃ master, s.master.step cfg e = some master ∧
        s' = { master := master
               attempts := (s.attempts ++ handed s.master master).filter (connected master)
               pushed := s.pushed ++ pushedBy e
               deferrals := s.deferrals ++ deferredBy s.master e } := by
  have hstep : (∀ c id seq _lock ttl, e ≠ .request c id seq _lock ttl) ∧
      (if s.pushes e then
        (s.master.step cfg e).map fun master =>
          ({ master := master
             attempts := (s.attempts ++ handed s.master master).filter (connected master)
             pushed := s.pushed ++ pushedBy e
             deferrals := s.deferrals ++ deferredBy s.master e } : Attempts)
      else none) = some s' := by
    cases e with
    | request => exact nomatch h
    | _ => exact ⟨nofun, h⟩
  obtain ⟨hrequest, hstep⟩ := hstep
  obtain ⟨hpushes, hstep⟩ := Option.ite_none_right_eq_some.mp hstep
  obtain ⟨master, hmaster, rfl⟩ := Option.map_eq_some_iff.mp hstep
  exact ⟨hrequest, hpushes, master, hmaster, rfl⟩

theorem deferredBy_exec {master : Master} {n choice : Nat} {outcome : Outcome} {job : Job}
    {call : Call} (htask : master.tasks.lookup n = some ⟨job, .call call⟩) :
    deferredBy master (.exec n choice outcome) =
      if outcome = .failed then [] else defers master.db choice call := by
  simp only [deferredBy, htask]

theorem stored_step {e : ZoneMta.Event}
    (hs : Stored id seq s.master.db.queue s.pushed (s.ttls id seq).length)
    (h : step cfg config times s (.master e) = some s') :
    Stored id seq s'.master.db.queue s'.pushed (s'.ttls id seq).length := by
  obtain ⟨hrequest, hpushes, master, hmaster, rfl⟩ := master_step h
  have hlength : ((s.deferrals ++ deferredBy s.master e).filter (·.isFor id seq)).length =
      (s.ttls id seq).length + ((deferredBy s.master e).filter (·.isFor id seq)).length := by
    rw [List.filter_append, List.length_append, ttls, List.length_map]
  show Stored id seq master.db.queue (s.pushed ++ pushedBy e)
    (((s.deferrals ++ deferredBy s.master e).filter (·.isFor id seq)).map (·.ttl)).length
  rw [List.length_map, hlength]
  have hsame : master.db.queue = s.master.db.queue → deferredBy s.master e = [] →
      pushedBy e = [] → Stored id seq master.db.queue (s.pushed ++ pushedBy e)
        ((s.ttls id seq).length + ((deferredBy s.master e).filter (·.isFor id seq)).length) := by
    intro hqueue hdeferred hpushed
    rw [hqueue, hdeferred, hpushed, List.append_nil]
    exact hs
  cases step_cases hmaster with
  | @get c client =>
    rcases get_cases cfg s.master c client with ⟨-, hget⟩ | ⟨-, -, get, hget⟩ | ⟨-, -, get, hget⟩
    · exact hsame (by rw [hget]; rfl) rfl rfl
    · exact hsame (by rw [hget]; rfl) rfl rfl
    · exact hsame (by rw [hget]; rfl) rfl rfl
  | request => exact absurd rfl (hrequest _ _ _ _ _)
  | @exec n choice outcome job call htask =>
    have hpushed : s.pushed ++ pushedBy (.exec n choice outcome) = s.pushed := List.append_nil _
    cases outcome with
    | failed => exact hsame rfl (deferredBy_exec htask) rfl
    | ok | lost =>
      -- a lost reply does not undo the update
      rw [deferredBy_exec htask, hpushed]
      exact hs.exec
  | push hpush =>
    obtain ⟨hnew, hseqs⟩ := Bool.and_eq_true_iff.mp hpushes
    exact hs.push rfl hpush (by simpa using hnew) (of_decide_eq_true hseqs)
  | _ => exact hsame rfl rfl rfl

/-- What `shift` fetches. -/
theorem fetchedBy_cases {master : Master} {e : ZoneMta.Event} {d : Delivery}
    (h : fetchedBy master e = some d) :
    ∃ n choice get call, e = .exec n choice .ok ∧
      master.tasks.lookup n = some ⟨.fetched get, .call call⟩ ∧
        (master.db.exec choice call).2 = .delivery (some d) := by
  cases e with
  | exec n choice outcome =>
    cases outcome with
    | ok =>
      simp only [fetchedBy] at h
      split at h
      · next get call htask =>
        split at h
        · next found hreply => exact ⟨n, choice, get, call, rfl, htask, h ▸ hreply⟩
        · exact nomatch h
      · exact nomatch h
    | _ => exact nomatch h
  | _ => exact nomatch h

/-- The update of a DEFER that takes effect. -/
theorem deferredBy_cases {master : Master} {e : ZoneMta.Event} {deferral : Deferral}
    (h : deferral ∈ deferredBy master e) :
    ∃ n choice outcome job now first, e = .exec n choice outcome ∧
      master.tasks.lookup n =
        some ⟨job, .call (.defer deferral.id deferral.seq now deferral.ttl first)⟩ ∧
        deferredBy master e = [deferral] := by
  cases e with
  | exec n choice outcome =>
    have hne : deferredBy master (.exec n choice outcome) ≠ [] := List.ne_nil_of_mem h
    cases htask : master.tasks.lookup n with
    | none => simp only [deferredBy, htask, ne_eq, not_true_eq_false] at hne
    | some task =>
      obtain ⟨job, wait⟩ := task
      cases wait with
      | call call =>
        rw [deferredBy_exec htask] at h ⊢
        split at h
        · exact absurd h List.not_mem_nil
        · next houtcome =>
          cases call with
          | defer id seq now ttl first =>
            simp only [defers, Option.mem_toList, Option.map_eq_some_iff] at h
            obtain ⟨doc, hpick, rfl⟩ := h
            refine ⟨n, choice, outcome, job, now, first, rfl, htask, ?_⟩
            rw [if_neg houtcome]
            simp only [defers, hpick, Option.map_some, Option.toList_some]
          | _ => exact absurd h List.not_mem_nil
      | _ => simp only [deferredBy, htask, ne_eq, not_true_eq_false] at hne
  | _ => exact absurd h List.not_mem_nil

theorem copy?_step {master master' : Master} {e : ZoneMta.Event}
    (hasks : ∀ n task, master.tasks.lookup n = some task → task.asks = true)
    (hrequest : ∀ c id seq _lock ttl, e ≠ .request c id seq _lock ttl)
    (h : master.step cfg e = some master')
    (hfetch : ¬(fetchedBy master e).any (·.isFor id seq) = true) {n : Nat} {task' : Task}
    {d : Delivery} (htask' : master'.tasks.lookup n = some task')
    (hd : task'.copy? id seq = some d) :
    ∃ task, master.tasks.lookup n = some task ∧ task.copy? id seq = some d := by
  rcases Master.task_step hrequest h htask' with hbefore | ⟨-, hnew⟩ |
    ⟨choice, outcome, job, call, reply, rfl, hbefore, rfl, hreply⟩ | ⟨before, -, hbefore, hgoes⟩
  · exact ⟨task', hbefore, hd⟩
  · have hhandles := handles_of_copy? hd
    rw [hnew id seq] at hhandles
    exact absurd hhandles Bool.false_ne_true
  · rcases copy?_exec (hasks n _ hbefore) hd with hcopy | ⟨hfor, rfl, get, query, lockTime, rfl, rfl⟩
    · exact ⟨_, hbefore, hcopy⟩
    · -- it has been fetched now
      obtain ⟨rfl, hfound⟩ := hreply.resolve_left nofun
      refine absurd ?_ hfetch
      simp only [fetchedBy, hbefore, ← hfound, Option.any_some]
      exact hfor
  · exact ⟨before, hbefore, hgoes.copy? hd⟩

theorem deferral?_step {master master' : Master} {e : ZoneMta.Event}
    (hasks : ∀ n task, master.tasks.lookup n = some task → task.asks = true)
    (hrequest : ∀ c id seq _lock ttl, e ≠ .request c id seq _lock ttl)
    (h : master.step cfg e = some master') {n : Nat} {task' : Task} {ttl : Nat}
    (htask' : master'.tasks.lookup n = some task') (httl : task'.deferral? id seq = some ttl) :
    ∃ task, master.tasks.lookup n = some task ∧ task.deferral? id seq = some ttl := by
  rcases Master.task_step hrequest h htask' with hbefore | ⟨-, hnew⟩ |
    ⟨choice, outcome, job, call, reply, rfl, hbefore, rfl, hreply⟩ | ⟨before, -, hbefore, hgoes⟩
  · exact ⟨task', hbefore, httl⟩
  · have hhandles := handles_of_deferral? httl
    rw [hnew id seq] at hhandles
    exact absurd hhandles Bool.false_ne_true
  · exact ⟨_, hbefore,
      deferral?_exec (hasks n _ hbefore) (hreply.imp_right And.right) httl⟩
  · exact ⟨before, hbefore, hgoes.deferral? httl⟩

theorem exec_tasks {master master' : Master} {n choice : Nat} {outcome : Outcome} {job : Job}
    {call : Call} (h : master.step cfg (.exec n choice outcome) = some master')
    (htask : master.tasks.lookup n = some ⟨job, .call call⟩) :
    ∃ reply, master'.tasks = master.tasks.insert n ⟨job, .reply reply⟩ ∧
      (outcome = .ok → reply = (master.db.exec choice call).2) := by
  cases step_cases h with
  | exec htask' =>
    obtain ⟨rfl, hwait⟩ := Task.mk.inj (Option.some.inj (htask.symm.trans htask'))
    obtain rfl := Wait.call.inj hwait
    cases outcome with
    | ok => exact ⟨_, rfl, fun _ => rfl⟩
    | failed => exact ⟨_, rfl, nofun⟩
    | lost => exact ⟨_, rfl, nofun⟩

/-- Only `deferDelivery` makes its update. -/
theorem job_of_asks {job : Job} {id' seq' : String} {now ttl : Nat} {first : Bool}
    (h : Task.asks ⟨job, .call (.defer id' seq' now ttl first)⟩ = true) :
    ∃ request, job = .deferred request := by
  cases job with
  | deferred request => exact ⟨request, rfl⟩
  | _ => exact nomatch h

/-- The DEFER of the only task takes effect. -/
theorem idle_defer {master master' : Master} {e : ZoneMta.Event}
    (hasks : ∀ n task, master.tasks.lookup n = some task → task.asks = true)
    (hsole : Sole id seq times master.tasks attempts count)
    (h : master.step cfg e = some master') {deferral : Deferral}
    (hmem : deferral ∈ deferredBy master e) (hfor : deferral.isFor id seq = true) :
    Idle id seq master'.tasks attempts ∧ times[count]? = some deferral.ttl ∧
      handed master master' = [] ∧ deferredBy master e = [deferral] := by
  obtain ⟨hid, hseq⟩ := Bool.and_eq_true_iff.mp hfor
  obtain ⟨n, choice, outcome, job, now, first, rfl, htask, hdeferred⟩ := deferredBy_cases hmem
  -- the task of the DEFER has the count, so that nobody else has it
  obtain ⟨request, rfl⟩ := job_of_asks (hasks n _ htask)
  have hdeferral : Task.deferral? id seq
      ⟨.deferred request, .call (.defer deferral.id deferral.seq now deferral.ttl first)⟩ =
        some deferral.ttl := if_pos ⟨beq_iff_eq.mp hid, beq_iff_eq.mp hseq⟩
  obtain ⟨reply, htasks, -⟩ := exec_tasks h htask
  refine ⟨?_, hsole.deferral n _ _ htask hdeferral, ?_, hdeferred⟩
  · refine hsole.idle htask (handles_of_deferral? hdeferral) (fun task' hlookup => ?_) fun m hm => ?_
    · rw [htasks, ForStd.lookup_insert, if_pos rfl] at hlookup
      obtain rfl := Option.some.inj hlookup
      rfl
    · rw [htasks, ForStd.lookup_insert, if_neg hm]
  -- a call hands no delivery to a client
  · rcases Master.handed_step h with hnil | ⟨_, _, _, _, _, hresume, -⟩
    · exact hnil
    · exact nomatch hresume

/-- The document is fetched, and no other copy of it is there. -/
theorem sole_fetch {master master' : Master} {e : ZoneMta.Event}
    (hs : Stored id seq master.db.queue pushed count) (hidle : Idle id seq master.tasks attempts)
    (h : master.step cfg e = some master')
    (hfetch : (fetchedBy master e).any (·.isFor id seq) = true) :
    Sole id seq times master'.tasks attempts count := by
  obtain ⟨d, hfetched, hfor⟩ := (Option.any_eq_true _ _).mp hfetch
  obtain ⟨n, choice, get, call, rfl, htask, hreply⟩ := fetchedBy_cases hfetched
  obtain ⟨reply, htasks, hok⟩ := exec_tasks h htask
  rw [htasks, hok rfl, hreply]
  -- the copy has the count of the document
  refine hidle.insert (fun d' hd' => ?_) nofun
  obtain ⟨-, rfl⟩ := Master.ite_eq_some.mp hd'
  obtain ⟨doc, hdoc, hid, hseq, hcount⟩ := Database.delivery_of_exec hreply
  rw [← hcount]
  refine hs.counts doc hdoc ?_
  rw [Delivery.isFor, hid, hseq]
  exact hfor

/-- A task hands its copy to a sender, and ends. -/
theorem sole_hand {n : Nat} {get : Get} {delivery : Delivery} {_lock : String} {reply : Reply}
    (hsole : Sole id seq times tasks attempts count)
    (htask : tasks.lookup n = some ⟨.nextMeta get delivery, .reply reply⟩) :
    Sole id seq times (tasks.erase n)
      (attempts ++ [⟨get.client, delivery, _lock, Sender.sendNext⟩]) count := by
  have hother : ∀ m, m ≠ n → (tasks.erase n).lookup m = tasks.lookup m := by
    intro m hm
    rw [ForStd.lookup_erase, if_neg hm]
  have hn : (tasks.erase n).lookup n = none := by rw [ForStd.lookup_erase, if_pos rfl]
  by_cases hfor : delivery.isFor id seq = true
  · have hcopy : Task.copy? id seq ⟨.nextMeta get delivery, .reply reply⟩ = some delivery :=
      if_pos hfor
    have hidle : Idle id seq (tasks.erase n) attempts :=
      hsole.idle htask (handles_of_copy? hcopy)
        (fun task' hlookup => nomatch hn.symm.trans hlookup) hother
    exact hidle.hand fun _ => hsole.copy n _ delivery htask hcopy
  · -- the copy of another delivery
    have hsame : ∀ m task', (tasks.erase n).lookup m = some task' → tasks.lookup m = some task' := by
      intro m task' hlookup
      by_cases hm : m = n
      · subst hm
        exact nomatch hn.symm.trans hlookup
      · rw [← hother m hm]
        exact hlookup
    have hholds : Attempt.holds id seq ⟨get.client, delivery, _lock, Sender.sendNext⟩ = false := by
      rw [Attempt.holds, eq_false_of_ne_true hfor, Bool.false_and]
    refine hsole.keep (fun m task' d hlookup hd => ⟨task', hsame m task' hlookup, hd⟩)
      (fun m task' ttl hlookup httl => ⟨task', hsame m task' hlookup, httl⟩) (fun a ha ha' => ?_) ?_
    · rcases List.mem_append.mp ha with ha | ha
      · exact ⟨a, ha, ha', rfl⟩
      · obtain rfl := List.mem_singleton.mp ha
        rw [hholds] at ha'
        exact absurd ha' Bool.false_ne_true
    · rw [List.countP_append, List.countP_singleton, hholds]
      exact Nat.le_refl _

theorem ttls_append (master : Master) (attempts : List Attempt) (pushed : List String)
    (ds : List Deferral) :
    ttls ⟨master, attempts, pushed, s.deferrals ++ ds⟩ id seq =
      s.ttls id seq ++ (ds.filter (·.isFor id seq)).map (·.ttl) := by
  simp only [ttls, List.filter_append, List.map_append]

/-- The count goes from the document to a task, and from there to an attempt; a deferral is by
    the entry of the list behind those that were used. -/
theorem sole_step {e : ZoneMta.Event}
    (hasks : ∀ n task, s.master.tasks.lookup n = some task → task.asks = true)
    (hs : Stored id seq s.master.db.queue s.pushed (s.ttls id seq).length)
    (hsole : Sole id seq times s.master.tasks s.attempts (s.ttls id seq).length)
    (hinOrder : s.ttls id seq <+: times) (halone : Alone id seq s (.master e))
    (h : step cfg config times s (.master e) = some s') :
    Sole id seq times s'.master.tasks s'.attempts (s'.ttls id seq).length ∧
      s'.ttls id seq <+: times := by
  obtain ⟨hrequest, -, master, hmaster, rfl⟩ := master_step h
  rw [ttls_append]
  -- the DEFER of the delivery takes effect, or its count stays
  cases hdefer : (deferredBy s.master e).filter (·.isFor id seq) with
  | cons deferral rest =>
    obtain ⟨hmem, hfor⟩ := List.mem_filter.mp (hdefer ▸ List.mem_cons_self)
    obtain ⟨hidle, httl, hnil, hdeferred⟩ := idle_defer hasks hsole hmaster hmem hfor
    rw [hdeferred, List.filter_cons_of_pos hfor, List.filter_nil] at hdefer
    obtain ⟨-, rfl⟩ := List.cons.inj hdefer
    rw [hnil, List.append_nil]
    exact ⟨hidle.sole.filter _, ForStd.prefix_concat hinOrder httl⟩
  | nil =>
    rw [List.map_nil, List.append_nil]
    refine ⟨Sole.filter ?_ _, hinOrder⟩
    rcases Master.handed_step hmaster with hnil |
      ⟨n, get, delivery, _lock, file, rfl, htask, htasks, hhanded⟩
    · rw [hnil, List.append_nil]
      by_cases hfetch : (fetchedBy s.master e).any (·.isFor id seq) = true
      · exact sole_fetch hs (idle_of_not_busy (halone hfetch)) hmaster hfetch
      · refine hsole.keep (fun n task' d => copy?_step hasks hrequest hmaster hfetch)
          (fun n task' ttl => deferral?_step hasks hrequest hmaster) ?_ (Nat.le_refl _)
        exact fun a ha hholds => ⟨a, ha, hholds, rfl⟩
    · rw [htasks, hhanded]
      exact sole_hand hsole htask

/-! ## Steps of a sender -/

variable (cfg) in
/-- A command starts a task at the queue server, or does nothing. -/
theorem command_cases (master : Master) (attempt : Attempt) (cmd : Sender.Command) :
    (command cfg master attempt cmd).db = master.db ∧
      ((command cfg master attempt cmd).tasks = master.tasks ∨
        ∃ req : Request, req.ttl = cmd.ttl? ∧ (command cfg master attempt cmd).tasks =
          master.tasks.insert master.nextTask ⟨.getDelivery req,
            .call (.findDelivery attempt.delivery.id attempt.delivery.seq)⟩) := by
  have hrequest : ∀ ttl, ∀ after, after = (master.step cfg (.request attempt.client
      attempt.delivery.id attempt.delivery.seq attempt._lock ttl)).getD master →
        after.db = master.db ∧ (after.tasks = master.tasks ∨
          ∃ req : Request, req.ttl = ttl ∧ after.tasks =
            master.tasks.insert master.nextTask ⟨.getDelivery req,
              .call (.findDelivery attempt.delivery.id attempt.delivery.seq)⟩) := by
    rintro ttl after rfl
    cases hstep : master.step cfg (.request attempt.client attempt.delivery.id
        attempt.delivery.seq attempt._lock ttl) with
    | none => exact ⟨rfl, Or.inl rfl⟩
    | some after =>
      cases step_cases hstep with
      | @request c client =>
        rcases request_cases master attempt.client client attempt.delivery.id
          attempt.delivery.seq attempt._lock ttl with hreq | ⟨req, httl, hreq⟩
        · rw [hreq]
          exact ⟨rfl, Or.inl rfl⟩
        · rw [hreq]
          exact ⟨rfl, Or.inr ⟨req, httl, rfl⟩⟩
  cases cmd with
  | release => exact hrequest none _ rfl
  | defer ttl => exact hrequest (some ttl) _ rfl
  | bounce => exact ⟨rfl, Or.inl rfl⟩

/-- What a sender does: it goes on, and sends one command at most. -/
theorem sender_step {i : Nat} {e : Sender.Event}
    (h : step cfg config times s (.sender i e) = some s') :
    ∃ attempt state, s.attempts[i]? = some attempt ∧ allows config times attempt e = true ∧
      Sender.step config attempt.state e = some state ∧ ∃ master,
        s' = { s with master := master
                      attempts := s.attempts.set i { attempt with state := state } } ∧
          (master = s.master ∨ ∃ cmd, master = command cfg s.master attempt cmd ∧
            state.commands = attempt.state.commands ++ [cmd] ∧
              ∀ ttl category, cmd = .defer ttl category →
                ∃ err delivery, e = .responseErrorHook err delivery) := by
  obtain ⟨attempt, hattempt, h⟩ := Option.bind_eq_some_iff.mp h
  obtain ⟨hallows, h⟩ := Option.ite_none_right_eq_some.mp h
  obtain ⟨state, hstate, rfl⟩ := Option.map_eq_some_iff.mp h
  refine ⟨attempt, state, hattempt, hallows, hstate, _, rfl, ?_⟩
  rcases Sender.commands_step hstate with hsame | ⟨cmd, hcommands, hdefer⟩
  · refine Or.inl ?_
    rw [hsame, List.drop_length]
    rfl
  · refine Or.inr ⟨cmd, ?_, hcommands, hdefer⟩
    rw [hcommands, List.drop_left]
    rfl

/-- A sender that goes on, and a task for another purpose. -/
theorem Sole.go_on (h : Sole id seq times tasks attempts count) {i : Nat} {attempt : Attempt}
    {state : Sender.State} (hattempt : attempts[i]? = some attempt)
    (hundecided : Sender.Undecided state → Sender.Undecided attempt.state)
    (htasks : ∀ n task, tasks'.lookup n = some task → task.handles id seq = true →
      tasks.lookup n = some task) :
    Sole id seq times tasks' (attempts.set i { attempt with state := state }) count := by
  obtain ⟨hi, hget⟩ := List.getElem?_eq_some_iff.mp hattempt
  have hholds : Attempt.holds id seq { attempt with state := state } = true →
      attempt.holds id seq = true := by
    intro hholds
    obtain ⟨hfor, hdecide⟩ := Bool.and_eq_true_iff.mp hholds
    exact Bool.and_eq_true_iff.mpr
      ⟨hfor, decide_eq_true (hundecided (of_decide_eq_true hdecide))⟩
  refine h.keep (fun n task' d hlookup hd => ?_) (fun n task' ttl hlookup httl => ?_)
    (fun a ha hheld => ?_) ?_
  · exact ⟨task', htasks n task' hlookup (handles_of_copy? hd), hd⟩
  · exact ⟨task', htasks n task' hlookup (handles_of_deferral? httl), httl⟩
  · rcases List.mem_or_eq_of_mem_set ha with ha | rfl
    · exact ⟨a, ha, hheld, rfl⟩
    · exact ⟨attempt, List.mem_of_getElem? hattempt, hholds hheld, rfl⟩
  · rw [List.countP_set hi, hget]
    by_cases hheld : Attempt.holds id seq { attempt with state := state } = true
    · -- the attempt was counted before
      have hbefore := hholds hheld
      have hpos : 0 < attempts.countP (·.holds id seq) :=
        List.countP_pos_iff.mpr ⟨attempt, List.mem_of_getElem? hattempt, hbefore⟩
      rw [if_pos hheld, if_pos hbefore]
      omega
    · rw [if_neg hheld]
      exact Nat.sub_le _ _

/-- The attempt that has the count has decided. -/
theorem Sole.decide (h : Sole id seq times tasks attempts count) {i : Nat} {attempt : Attempt}
    {state : Sender.State} (hattempt : attempts[i]? = some attempt)
    (hholds : attempt.holds id seq = true) (hdecided : ¬Sender.Undecided state) :
    Idle id seq tasks (attempts.set i { attempt with state := state }) := by
  obtain ⟨hi, hget⟩ := List.getElem?_eq_some_iff.mp hattempt
  have hpos : 0 < attempts.countP (·.holds id seq) :=
    List.countP_pos_iff.mpr ⟨attempt, List.mem_of_getElem? hattempt, hholds⟩
  refine ⟨fun n task hlookup => ?_, ?_⟩
  · by_contra hhandles
    have hnone := h.none n task hlookup (eq_true_of_ne_false hhandles)
    omega
  · have hafter : Attempt.holds id seq { attempt with state := state } = false := by
      rw [Attempt.holds, decide_eq_false hdecided, Bool.and_false]
    have hmost := h.atMost
    rw [List.countP_set hi, hget, hholds, hafter]
    simp only [if_true, Bool.false_eq_true, if_false]
    omega

/-- What a sender does about an error, by the count of the delivery that it was sent. -/
theorem failure_step {attempt : Attempt} {state : Sender.State} {err : DeliveryError}
    {delivery : SenderDelivery}
    (hallows : allows config times attempt (.responseErrorHook err delivery) = true)
    (h : Sender.step config attempt.state (.responseErrorHook err delivery) = some state) :
    Sender.Undecided attempt.state ∧ ¬Sender.Undecided state ∧
      state.commands = attempt.state.commands ++
        [if (Sender.bounceFor config delivery err).action = "reject" then .release (some false)
         else Sender.failure times attempt.delivery.deferredCount
          (Sender.bounceFor config delivery err).category] := by
  obtain ⟨hpath, ⟨hresponse, hidle⟩, hcommands⟩ := Sender.responseErrorHook_step h
  obtain ⟨hcount, htimes⟩ := Bool.and_eq_true_iff.mp hallows
  -- the sender reads the count and the list from what it was sent
  rw [beq_iff_eq.mp hcount, beq_iff_eq.mp htimes] at hcommands
  refine ⟨Or.inl hpath, ?_, hcommands⟩
  rintro (hundecided | ⟨hundecided, -⟩)
  · exact hresponse hundecided
  · exact hidle hundecided

/-- The count goes from an attempt to the task of its DEFER. -/
theorem sole_sender {i : Nat} {e : Sender.Event}
    (hinv : ∀ attempt ∈ s.attempts, Sender.Inv attempt.state)
    (hsole : Sole id seq times s.master.tasks s.attempts count)
    (h : step cfg config times s (.sender i e) = some s') :
    Sole id seq times s'.master.tasks s'.attempts count := by
  obtain ⟨attempt, state, hattempt, hallows, hstate, master, rfl, hmaster⟩ := sender_step h
  have hundecided := Sender.undecided_step (hinv attempt (List.mem_of_getElem? hattempt)) hstate
  rcases hmaster with rfl | ⟨cmd, rfl, hcommands, hdefer⟩
  · exact hsole.go_on hattempt hundecided fun n task hlookup _ => hlookup
  · rcases (command_cases cfg s.master attempt cmd).2 with hsame | ⟨req, httl, htasks⟩
    · rw [hsame]
      exact hsole.go_on hattempt hundecided fun n task hlookup _ => hlookup
    · rw [htasks]
      by_cases hdecides : attempt.delivery.isFor id seq = true ∧ cmd.ttl? ≠ none
      · -- a DEFER of this delivery
        obtain ⟨hfor, hsome⟩ := hdecides
        obtain ⟨ttl, category, rfl⟩ : ∃ ttl category, cmd = .defer ttl category := by
          cases cmd with
          | defer ttl category => exact ⟨ttl, category, rfl⟩
          | _ => exact absurd rfl hsome
        obtain ⟨err, delivery, rfl⟩ := hdefer ttl category rfl
        obtain ⟨hbefore, hafter, hfailure⟩ := failure_step hallows hstate
        have hholds : attempt.holds id seq = true :=
          Bool.and_eq_true_iff.mpr ⟨hfor, decide_eq_true hbefore⟩
        have hcount := hsole.attempt attempt (List.mem_of_getElem? hattempt) hholds
        have hcmd := List.append_cancel_left (hcommands.symm.trans hfailure)
        have htimes : times[count]? = some ttl := by
          rw [hcount] at hcmd
          unfold Sender.failure at hcmd
          split at hcmd
          · exact nomatch hcmd
          · split at hcmd
            · next hget =>
              simp only [List.cons.injEq, Sender.Command.defer.injEq] at hcmd
              rw [hcmd.1.1]
              exact hget
            · exact nomatch hcmd
        refine (hsole.decide hattempt hholds hafter).insert nofun fun ttl' httl' => ?_
        obtain ⟨-, hreq⟩ := Option.ite_none_right_eq_some.mp httl'
        obtain rfl := Option.some.inj (httl.symm.trans hreq)
        exact htimes
      · refine hsole.go_on hattempt hundecided fun n task hlookup hhandles => ?_
        rw [ForStd.lookup_insert] at hlookup
        split at hlookup
        · obtain rfl := Option.some.inj hlookup
          rcases handles_cases hhandles with ⟨d, hd⟩ | ⟨ttl, hd⟩
          · exact nomatch hd
          · obtain ⟨hkey, hreq⟩ := Option.ite_none_right_eq_some.mp hd
            refine absurd ⟨Delivery.isFor_iff.mpr hkey, ?_⟩ hdecides
            rw [← httl, hreq]
            exact Option.some_ne_none ttl
        · exact hlookup

/-! ## Runs -/

/-- The count of the delivery is the same everywhere: the number of times it has been deferred,
    by the entries of the list in their order. -/
structure Inv (id seq : String) (times : List Nat) (s : Attempts) : Prop where
  asks : ∀ n task, s.master.tasks.lookup n = some task → task.asks = true
  stored : Stored id seq s.master.db.queue s.pushed (s.ttls id seq).length
  sole : Sole id seq times s.master.tasks s.attempts (s.ttls id seq).length
  inOrder : s.ttls id seq <+: times
  senders : ∀ attempt ∈ s.attempts, Sender.Inv attempt.state
  bounces : ∀ attempt ∈ s.attempts,
    Sender.bounces attempt.state ≤ if attempt.state.errorPath = .done then 1 else 0

/-- Without tasks and senders nothing is going on. -/
theorem idle_empty : Idle id seq (∅ : Map Nat Task) [] where
  tasks := by
    intro n task htask
    rw [AList.lookup_empty] at htask
    exact nomatch htask
  attempts := rfl

theorem asks_empty (n : Nat) (task : Task) (htask : (∅ : Map Nat Task).lookup n = some task) :
    task.asks = true := by
  rw [AList.lookup_empty] at htask
  exact nomatch htask

theorem stored_empty : Stored id seq [] [] 0 where
  nodup := List.nodup_nil
  one := fun _ hmem => absurd hmem List.not_mem_nil
  counts := fun _ hmem => absurd hmem List.not_mem_nil
  unpushed := fun _ => ⟨rfl, fun _ hmem => absurd hmem List.not_mem_nil⟩

/-- An empty queue, and any suppression list. -/
def start (suppressionlist : List Suppressed) : Attempts where
  master := { db := { suppressionlist := suppressionlist } }

theorem inv_start (suppressionlist : List Suppressed) :
    Inv id seq times (start suppressionlist) where
  asks := asks_empty
  stored := stored_empty
  sole := idle_empty.sole
  inOrder := List.nil_prefix
  senders := fun _ hmem => absurd hmem List.not_mem_nil
  bounces := fun _ hmem => absurd hmem List.not_mem_nil

/-- The attempts after a step of the master process. -/
theorem attempts_master {master : Master} {attempt : Attempt}
    (h : attempt ∈ (s.attempts ++ handed s.master master).filter (connected master)) :
    attempt ∈ s.attempts ∨ attempt.state = Sender.sendNext := by
  rcases List.mem_append.mp (List.mem_filter.mp h).1 with hmem | hmem
  · exact Or.inl hmem
  · obtain ⟨⟨client, response⟩, -, hnew⟩ := List.mem_filterMap.mp hmem
    cases response with
    | delivery => obtain rfl := Option.some.inj hnew; exact Or.inr rfl
    | _ => exact nomatch hnew

theorem inv_master {e : ZoneMta.Event} (hs : Inv id seq times s)
    (halone : Alone id seq s (.master e)) (h : step cfg config times s (.master e) = some s') :
    Inv id seq times s' := by
  -- `Stored` and `Sole` are about the count before the step, and keep each other
  obtain ⟨hsole, hinOrder⟩ := sole_step hs.asks hs.stored hs.sole hs.inOrder halone h
  have hstored := stored_step hs.stored h
  obtain ⟨hrequest, -, master, hmaster, rfl⟩ := master_step h
  refine ⟨?_, hstored, hsole, hinOrder, fun attempt hmem => ?_, fun attempt hmem => ?_⟩
  · exact fun n task htask => Master.asks_step hs.asks hrequest hmaster htask
  · rcases attempts_master hmem with hmem | hnew
    · exact hs.senders attempt hmem
    · rw [hnew]
      exact Sender.inv_sendNext
  · rcases attempts_master hmem with hmem | hnew
    · exact hs.bounces attempt hmem
    · rw [hnew]
      exact Nat.zero_le _

theorem inv_sender {i : Nat} {e : Sender.Event} (hs : Inv id seq times s)
    (h : step cfg config times s (.sender i e) = some s') : Inv id seq times s' := by
  have hsole := sole_sender hs.senders hs.sole h
  obtain ⟨attempt, state, hattempt, -, hstate, master, rfl, hmaster⟩ := sender_step h
  have hmem := List.mem_of_getElem? hattempt
  have htasks : master.db = s.master.db ∧
      ∀ n task, master.tasks.lookup n = some task → task.asks = true := by
    rcases hmaster with rfl | ⟨cmd, rfl, -, -⟩
    · exact ⟨rfl, hs.asks⟩
    · obtain ⟨hdb, hsame | ⟨req, -, htasks⟩⟩ := command_cases cfg s.master attempt cmd
      · exact ⟨hdb, hsame ▸ hs.asks⟩
      · refine ⟨hdb, fun n task htask => ?_⟩
        rw [htasks, ForStd.lookup_insert] at htask
        split at htask
        · obtain rfl := Option.some.inj htask
          rfl
        · exact hs.asks n task htask
  have hstored : Stored id seq master.db.queue s.pushed (s.ttls id seq).length := by
    rw [htasks.1]
    exact hs.stored
  refine ⟨htasks.2, hstored, hsole, hs.inOrder, fun a ha => ?_, fun a ha => ?_⟩
  · rcases List.mem_or_eq_of_mem_set ha with ha | rfl
    · exact hs.senders a ha
    · exact Sender.inv_step (hs.senders attempt hmem) hstate
  · rcases List.mem_or_eq_of_mem_set ha with ha | rfl
    · exact hs.bounces a ha
    · exact Sender.bounces_step (hs.senders attempt hmem) (hs.bounces attempt hmem) hstate

theorem inv_restarted (hs : Inv id seq times s) :
    Inv id seq times { s with master := restarted cfg s.master, attempts := [] } where
  asks := asks_empty
  stored := hs.stored.restarted
  sole := idle_empty.sole
  inOrder := hs.inOrder
  senders := fun _ hmem => absurd hmem List.not_mem_nil
  bounces := fun _ hmem => absurd hmem List.not_mem_nil

theorem inv_step {e : Event} (hs : Inv id seq times s) (halone : Alone id seq s e)
    (h : step cfg config times s e = some s') : Inv id seq times s' := by
  cases e with
  | master e => exact inv_master hs halone h
  | sender i e => exact inv_sender hs h
  | restart =>
    obtain rfl := Option.some.inj h
    exact inv_restarted hs

/-- In every run in which the delivery is fetched only while no attempt at it is going on, it is
    deferred by the entries of the list in their order, and the attempt that fails behind the end
    of the list releases it, with one bounce at most. -/
theorem deferTimes_in_order {suppressionlist : List Suppressed} {es : List Event}
    (hes : Along (step cfg config times) (Alone id seq) (start suppressionlist) es)
    (hrun : run (step cfg config times) (start suppressionlist) es = some s) :
    s.ttls id seq <+: times ∧ (s.ttls id seq).length ≤ times.length ∧
      (∀ attempt ∈ s.attempts, Sender.bounces attempt.state ≤ 1) ∧
      ∀ i attempt err delivery s', s.attempts[i]? = some attempt →
        attempt.delivery.isFor id seq = true →
        step cfg config times s (.sender i (.responseErrorHook err delivery)) = some s' →
        (Sender.bounceFor config delivery err).action ≠ "reject" →
        ∃ state, s'.attempts[i]? = some { attempt with state := state } ∧
          state.commands = attempt.state.commands ++
            [Sender.failure times (s.ttls id seq).length
              (Sender.bounceFor config delivery err).category] := by
  have hinv : Inv id seq times s := ForStd.run_invariant_along
    (fun _ _ _ ht he hstep => inv_step ht he hstep) (inv_start suppressionlist) hes hrun
  refine ⟨hinv.inOrder, hinv.inOrder.length_le, fun attempt hmem => ?_, ?_⟩
  · refine (hinv.bounces attempt hmem).trans ?_
    split
    · exact Nat.le_refl 1
    · exact Nat.zero_le 1
  · intro i attempt err delivery s' hattempt hfor hstep haction
    obtain ⟨found, state, hfound, hallows, hstate, master, rfl, -⟩ := sender_step hstep
    obtain rfl := Option.some.inj (hattempt.symm.trans hfound)
    obtain ⟨hbefore, -, hcommands⟩ := failure_step hallows hstate
    -- the attempt is the one that has the count
    have hholds : attempt.holds id seq = true :=
      Bool.and_eq_true_iff.mpr ⟨hfor, decide_eq_true hbefore⟩
    have hcount := hinv.sole.attempt attempt (List.mem_of_getElem? hattempt) hholds
    rw [if_neg haction, hcount] at hcommands
    obtain ⟨hi, -⟩ := List.getElem?_eq_some_iff.mp hattempt
    exact ⟨state, List.getElem?_set_self hi, hcommands⟩

/-- The list has one entry. -/
def oneDeferral (count : Nat) : SenderDelivery :=
  { Sender.exampleDelivery with deferredCount := count, deferTimes := [60000] }

/-- A sender gets the delivery, and its hook fails. -/
def hookFails (i count : Nat) : List Event :=
  [.sender i (.get (.delivery (oneDeferral count))),
    .sender i (.fetchHook true (oneDeferral count))]

/-- `handleResponseError`, and the DEFER that it sends. -/
def deferAttempt (i count task : Nat) : List Event :=
  .sender i (.responseErrorHook Sender.connectionReset (oneDeferral count)) ::
    [.exec task 0 .ok, .resume task, .exec task 0 .ok, .resume task].map .master

/-- A second attempt, a minute after the first one. -/
def secondAttempt : List Event :=
  Master.answeredGet.map .master ++ hookFails 0 0 ++ deferAttempt 0 0 1 ++
    [.tick 1600000060000, .get 1, .resume 2, .exec 2 0 .ok, .resume 2, .exec 2 0 .ok, .resume 2,
      .exec 2 0 .ok, .resume 2, .exec 2 0 .ok, .resume 2].map .master ++ hookFails 1 1

theorem deferTimes_in_order_example :
    ∃ s attempt s' state, run (step Master.oneZone Sender.exampleConfig [60000]) (start [])
        secondAttempt = some s ∧ s.ttls "m" "001" = [60000] ∧ s.attempts[1]? = some attempt ∧
      step Master.oneZone Sender.exampleConfig [60000] s
        (.sender 1 (.responseErrorHook Sender.connectionReset (oneDeferral 1))) = some s' ∧
      s'.attempts[1]? = some { attempt with state := state } ∧
      state.commands = attempt.state.commands ++ [.release (some false)] := by
  have hany : (run (step Master.oneZone Sender.exampleConfig [60000]) (start []) secondAttempt).any
      (fun s => decide (s.ttls "m" "001" = [60000]) &&
        s.attempts[1]?.any (fun attempt => attempt.delivery.isFor "m" "001") &&
        (step Master.oneZone Sender.exampleConfig [60000] s
          (.sender 1 (.responseErrorHook Sender.connectionReset (oneDeferral 1)))).isSome) = true := by
    decide +kernel
  obtain ⟨s, hrun, hs⟩ := (Option.any_eq_true _ _).mp hany
  simp only [Bool.and_eq_true, decide_eq_true_eq] at hs
  obtain ⟨⟨httls, hattempt⟩, hstep⟩ := hs
  obtain ⟨attempt, hattempt, hfor⟩ := (Option.any_eq_true _ _).mp hattempt
  obtain ⟨s', hstep⟩ := Option.isSome_iff_exists.mp hstep
  obtain ⟨state, hstate, hcommands⟩ := (deferTimes_in_order (by decide +kernel) hrun).2.2.2 1
    attempt Sender.connectionReset (oneDeferral 1) s' hattempt hfor hstep (by decide)
  rw [httls] at hcommands
  exact ⟨s, attempt, s', state, hrun, httls, hattempt, hstep, hstate, hcommands⟩

/-- The delivery is sent to a second sender after 61 minutes, and then both senders defer it. -/
def twoDeferrals : List Event :=
  Watched.secondSender.map .master ++ hookFails 0 0 ++ deferAttempt 0 0 3 ++ hookFails 1 0 ++
    deferAttempt 1 0 4

theorem deferred_twice :
    ¬∀ (cfg : Config) (config : SenderConfig) (times : List Nat) (es : List Event) (s : Attempts)
      (id seq : String), run (step cfg config times) (start []) es = some s →
        (s.ttls id seq).length ≤ times.length := by
  intro h
  have hany : (run (step Master.oneZone Sender.exampleConfig [60000]) (start []) twoDeferrals).any
      (fun s => decide (s.ttls "m" "001" = [60000, 60000])) = true := by
    decide +kernel
  obtain ⟨s, hrun, hs⟩ := (Option.any_eq_true _ _).mp hany
  have hlength := h _ _ _ _ s "m" "001" hrun
  rw [of_decide_eq_true hs] at hlength
  exact absurd hlength (by decide)

end Attempts

end ZoneMta
