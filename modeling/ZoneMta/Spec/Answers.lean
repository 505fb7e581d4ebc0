import Mathlib
import ZoneMta.Spec.LockReleased
import ZoneMta.Spec.Release
import ZoneMta.Spec.ShiftCorrect
import ZoneMta.Spec.SparesHeld

/-!
# Answers

A GET, RELEASE or DEFER starts a task of the master process, which goes from callback to callback
until one of them sends the answer to the client, while other tasks run between its steps and the
calls of the database fail or lose their answers.

A task has a turn when its call takes effect, and when its callback runs. The rank of a task says how
many turns it has left at most. A GET starts again for every delivery that it finds and cannot use, so
its rank counts the deliveries that its query finds as well.

## Key results

- `answers_effect`: a callback goes on for its client or answers it
- `responses_add_pending`: every command has been answered once, or its task is there
- `exists_turn`: a task can always have its turn
- `rank_step`: a turn takes the rank down
- `turns_request_le`: a RELEASE or DEFER has ten turns at most
- `turns_get_le`: a GET has fifteen turns for every delivery that its query can find
-/

namespace ZoneMta

open ForStd (run countValues totalCost)

/-! ## The client of a task -/

/-- The client that waits for a `releaseDelivery`. -/
def Caller.client? : Caller → Option Nat
  | .shift get _ => some get.client
  | .request req => some req.client
  | .remove _ _ => none
  | .clearGarbage _ => none

/-- The client that waits for a callback. -/
def Job.client? : Job → Option Nat
  | .tryNext get | .fetched get | .notFound get => some get.client
  | .shiftMeta get _ | .messageDeleted get _ | .suppression get _ | .nextMeta get _ =>
    some get.client
  | .getDelivery request | .deferred request | .deferredMeta request => some request.client
  | .deleted _ _ _ caller | .reference _ caller | .removeMessage caller
  | .fileDeleted caller => caller.client?
  | _ => none

namespace Effect

/-- The callback goes on for the client and sends nothing, or the task ends, with an answer if there
    is a client. -/
def Answers (client? : Option Nat) (effect : Effect) : Prop :=
  match effect.next with
  | some next => next.job.client? = client? ∧ effect.send = none
  | none => effect.send.map Prod.fst = client?

theorem answers_callback (err : Bool) (caller : Caller) :
    (caller.callback err).Answers caller.client? := by
  cases caller with
  | shift get delivery =>
    cases err with
    | true => exact rfl
    | false => exact ⟨rfl, rfl⟩
  | request req => exact rfl
  | remove owner rest => exact ⟨rfl, rfl⟩
  | clearGarbage rest => exact ⟨rfl, rfl⟩

/-- The calls of the locker do not matter. -/
theorem answers_ops {effect : Effect} {client? : Option Nat} (h : effect.Answers client?)
    (ops : List QueueLocker.Op) : Effect.Answers client? { effect with ops := ops } := h

theorem answers_release {key : String} {effect : Effect} {client? : Option Nat}
    (h : effect.Answers client?) : (release key effect).Answers client? := h

end Effect

/-- A callback of `releaseDelivery` goes on for its caller. -/
theorem answers_releaseDelivery {cfg : Config} {now : Nat} {locks : QueueLocker} {job : Job}
    {caller : Caller} {reply : Reply} {effect : Effect} (hcaller : job.caller? = some caller)
    (h : callback cfg now locks job reply = some effect) : effect.Answers caller.client? := by
  cases job with
  | deleted id seq _lock caller' =>
    obtain rfl := Option.some.inj hcaller
    simp only [callback] at h
    cases reply with
    | error =>
      obtain rfl := Option.some.inj h
      exact Effect.answers_release (Effect.answers_callback true caller')
    | done => obtain rfl := Option.some.inj h; exact ⟨rfl, rfl⟩
    | _ => cases h
  | reference id caller' =>
    obtain rfl := Option.some.inj hcaller
    simp only [callback] at h
    cases reply with
    | error => obtain rfl := Option.some.inj h; exact Effect.answers_callback true caller'
    | delivery delivery =>
      cases delivery with
      | none => obtain rfl := Option.some.inj h; exact ⟨rfl, rfl⟩
      | some delivery =>
        obtain rfl := Option.some.inj h
        exact Effect.answers_callback false caller'
    | _ => cases h
  | removeMessage caller' =>
    obtain rfl := Option.some.inj hcaller
    simp only [callback] at h
    cases reply with
    | error => obtain rfl := Option.some.inj h; exact Effect.answers_callback false caller'
    | file file =>
      cases file with
      | none => obtain rfl := Option.some.inj h; exact Effect.answers_callback false caller'
      | some file => obtain rfl := Option.some.inj h; exact ⟨rfl, rfl⟩
    | _ => cases h
  | fileDeleted caller' =>
    obtain rfl := Option.some.inj hcaller
    obtain rfl := Option.some.inj h
    exact Effect.answers_callback false caller'
  | _ => cases hcaller

/-- A callback goes on for its client, or it answers it. -/
theorem answers_callback {cfg : Config} {now : Nat} {locks : QueueLocker} {job : Job}
    {reply : Reply} {effect : Effect} (h : callback cfg now locks job reply = some effect) :
    effect.Answers job.client? := by
  cases job with
  | deleted id seq _lock caller => exact answers_releaseDelivery rfl h
  | reference id caller => exact answers_releaseDelivery rfl h
  | removeMessage caller => exact answers_releaseDelivery rfl h
  | fileDeleted caller => exact answers_releaseDelivery rfl h
  | fetched get =>
    simp only [callback] at h
    cases reply with
    | error => obtain rfl := Option.some.inj h; exact rfl
    | delivery delivery =>
      cases delivery with
      | none => obtain rfl := Option.some.inj h; exact ⟨rfl, rfl⟩
      | some delivery =>
        obtain rfl := Option.some.inj h
        refine Effect.answers_ops ?_ _
        split
        · exact ⟨rfl, rfl⟩
        · exact ⟨rfl, rfl⟩
    | _ => cases h
  | removeNext owner rest =>
    simp only [callback] at h
    cases reply with
    | error => obtain rfl := Option.some.inj h; exact rfl
    | done =>
      cases rest with
      | nil => obtain rfl := Option.some.inj h; exact rfl
      | cons delivery rest =>
        obtain rfl := Option.some.inj h
        refine Effect.answers_ops ?_ _
        split
        · exact ⟨rfl, rfl⟩
        · exact ⟨rfl, rfl⟩
    | _ => cases h
  | tryNext get => cases h
  | notFound get => cases h
  | _ =>
    simp only [callback, shiftMeta, shiftDeleted, shiftSuppression, nextMeta, serverDelivery,
      releaseDelivery, deferDeferred, removeFound, gcUnlocked, gcExpired, gcNext, gcOldest,
      gcFiles] at h
    repeat' split at h
    all_goals first
      | obtain rfl := Option.some.inj h
        first
          | exact rfl
          | exact ⟨rfl, rfl⟩
      | cases h

namespace Master

variable {cfg : Config} {s s' : Master} {c n : Nat}

/-- What the callback of a task does for its client. -/
theorem answers_effect {task : Task} {effect : Effect} (h : s.effect cfg task = some effect) :
    effect.Answers task.job.client? := by
  obtain ⟨job, wait⟩ := task
  cases wait with
  | immediate =>
    cases job with
    | tryNext get => obtain rfl := Option.some.inj h; exact ⟨rfl, rfl⟩
    | notFound get => obtain rfl := Option.some.inj h; exact rfl
    | _ => cases h
  | call call => cases h
  | reply reply => exact ZoneMta.answers_callback h

/-! ## Every command is answered once -/

/-- The event is a GET, RELEASE or DEFER of the client. -/
def asks (c : Nat) : Event → Bool
  | .get c' | .request c' _ _ _ _ => c' == c
  | _ => false

/-- How many tasks the client waits for. -/
def pending (s : Master) (c : Nat) : Nat :=
  countValues (fun task => task.job.client? == some c) s.tasks

/-- How many answers the client has been sent. -/
def responses (s : Master) (c : Nat) : Nat := s.sent.countP fun x => x.1 == c

/-- The connection of the client has not ended. -/
def Open (s : Master) (c : Nat) : Prop := (s.clients.lookup c).all (·.connected) = true

/-- The tasks are for clients that have connected. -/
def KnownClients (s : Master) : Prop :=
  ∀ n task, s.tasks.lookup n = some task → ∀ c, task.job.client? = some c →
    (s.clients.lookup c).isSome = true

/-- What GET does: it answers, or starts a task for the client. -/
theorem get_answers (cfg : Config) (s : Master) (c : Nat) (client : Client) :
    s.get cfg c client = s.send c .error ∨ ∃ task locks, task.job.client? = some c ∧
      s.get cfg c client = { s with locks := locks }.start task := by
  unfold get
  split
  · exact Or.inl rfl
  · dsimp only
    split
    · exact Or.inr ⟨_, s.locks, rfl, rfl⟩
    · exact Or.inr ⟨_, _, rfl, rfl⟩

/-- What RELEASE and DEFER do. -/
theorem request_answers (s : Master) (c : Nat) (client : Client) (id seq _lock : String)
    (ttl : Option Nat) :
    s.request c client id seq _lock ttl = s.send c .error ∨ ∃ task, task.job.client? = some c ∧
      s.request c client id seq _lock ttl = s.start task := by
  unfold request
  split
  · exact Or.inl rfl
  · exact Or.inr ⟨_, rfl, rfl⟩

section counts

variable (s : Master) (c : Nat)

/-- What is sent to a client that is connected. -/
theorem responses_send {c' : Nat} (response : Response) {client : Client}
    (hclient : s.clients.lookup c' = some client) (hconnected : client.connected = true) :
    (s.send c' response).responses c = s.responses c + (if c' = c then 1 else 0) := by
  have hsent : (s.send c' response).sent = s.sent ++ [(c', response)] := by
    simp [send, hclient, hconnected]
  rw [responses, hsent, List.countP_append, List.countP_singleton]
  simp only [beq_iff_eq]
  rfl

/-- Nothing else is sent. -/
theorem responses_send_of_ne {c' : Nat} (h : c' ≠ c) (response : Response) :
    (s.send c' response).responses c = s.responses c := by
  unfold responses send
  split
  · simp [List.countP_append, h]
  · rfl

variable {s} in
theorem pending_start (hfresh : s.FreshTasks) (task : Task) :
    (s.start task).pending c = s.pending c + (if task.job.client? = some c then 1 else 0) := by
  have hcount := ForStd.countValues_insert (p := fun task => task.job.client? == some c)
    (hfresh s.nextTask (Nat.le_refl _)) task
  simp only [beq_iff_eq] at hcount
  exact hcount

end counts

/-- The clients that have connected stay known. -/
theorem isSome_lookup_clients {e : Event} (h : s.step cfg e = some s')
    (hc : (s.clients.lookup c).isSome = true) : (s'.clients.lookup c).isSome = true := by
  have hinsert : ∀ c' client, ((s.clients.insert c' client).lookup c).isSome = true := by
    intro c' client
    rw [ForStd.lookup_insert]
    split
    · rfl
    · exact hc
  cases step_cases h with
  | connect => exact hinsert _ _
  | hello => exact hinsert _ _
  | refuse => exact hinsert _ _
  | close => exact hinsert _ _
  | @get c' client =>
    rcases get_answers cfg s c' client with hget | ⟨task, locks, -, hget⟩
    · rw [hget]; exact hc
    · rw [hget]; exact hc
  | @request c' client id seq _lock ttl =>
    rcases request_answers s c' client id seq _lock ttl with hreq | ⟨task, -, hreq⟩
    · rw [hreq]; exact hc
    · rw [hreq]; exact hc
  | @exec n choice outcome job call =>
    obtain ⟨db, reply, hexec, -⟩ := exec_cases s n job call choice outcome
    rw [hexec]
    exact hc
  | _ => exact hc

theorem knownClients_step {e : Event} (hs : KnownClients s) (h : s.step cfg e = some s') :
    KnownClients s' := by
  -- a task that was there before, or is new
  have hkept : ∀ n task, s.tasks.lookup n = some task → ∀ c, task.job.client? = some c →
      (s'.clients.lookup c).isSome = true :=
    fun n task htask c hc => isSome_lookup_clients h (hs n task htask c hc)
  have hstart : ∀ new : Task, s'.tasks = s.tasks.insert s.nextTask new →
      (∀ c, new.job.client? = some c → (s.clients.lookup c).isSome = true) →
        KnownClients s' := by
    intro new htasks hnew n task htask c hc
    rw [htasks, ForStd.lookup_insert] at htask
    split at htask
    · obtain rfl := Option.some.inj htask
      exact isSome_lookup_clients h (hnew c hc)
    · exact hkept n task htask c hc
  cases step_cases h with
  | @get c' client hclient =>
    rcases get_answers cfg s c' client with hget | ⟨task, locks, hjob, hget⟩
    · rw [hget] at hkept ⊢; exact hkept
    · rw [hget] at hstart ⊢
      refine hstart task rfl fun c hc => ?_
      obtain rfl := Option.some.inj (hjob.symm.trans hc)
      rw [hclient]
      rfl
  | @request c' client id seq _lock ttl hclient =>
    rcases request_answers s c' client id seq _lock ttl with hreq | ⟨task, hjob, hreq⟩
    · rw [hreq] at hkept ⊢; exact hkept
    · rw [hreq] at hstart ⊢
      refine hstart task rfl fun c hc => ?_
      obtain rfl := Option.some.inj (hjob.symm.trans hc)
      rw [hclient]
      rfl
  | remove => exact hstart _ rfl fun c hc => absurd hc.symm (Option.some_ne_none c)
  | clearGarbage => exact hstart _ rfl fun c hc => absurd hc.symm (Option.some_ne_none c)
  | @exec n choice outcome job call htask =>
    obtain ⟨db, reply, hexec, -⟩ := exec_cases s n job call choice outcome
    rw [hexec] at hkept ⊢
    intro m task htask' c hc
    rw [ForStd.lookup_insert] at htask'
    split at htask'
    · obtain rfl := Option.some.inj htask'
      exact hkept n _ htask c hc
    · exact hkept m task htask' c hc
  | @resume n task effect htask heffect =>
    have hanswers := answers_effect heffect
    intro m task' htask' c hc
    simp only [perform] at htask'
    split at htask'
    · next next hnext =>
      rw [ForStd.lookup_insert] at htask'
      split at htask'
      · obtain rfl := Option.some.inj htask'
        rw [Effect.Answers, hnext] at hanswers
        exact hkept n task htask c (hanswers.1.symm.trans hc)
      · exact hkept m task' htask' c hc
    · rw [ForStd.lookup_erase] at htask'
      split at htask'
      · exact absurd htask'.symm (Option.some_ne_none _)
      · exact hkept m task' htask' c hc
  | _ => exact hkept

/-- What the callback of a task changes for a client. -/
theorem count_perform {task : Task} {effect : Effect} (hknown : KnownClients s)
    (htask : s.tasks.lookup n = some task) (heffect : s.effect cfg task = some effect)
    (hopen : Open s c) :
    (s.perform n effect).responses c + (s.perform n effect).pending c =
      s.responses c + s.pending c := by
  have hanswers := answers_effect heffect
  rw [Effect.Answers] at hanswers
  cases hnext : effect.next with
  | some next =>
    simp only [hnext] at hanswers
    obtain ⟨hclient, hsend⟩ := hanswers
    have hpending := ForStd.countValues_insert_of_lookup
      (p := fun task => task.job.client? == some c) htask next
    rw [hclient] at hpending
    have hresponses : (s.perform n effect).responses c = s.responses c := by
      simp only [responses, perform, hsend]
    have htasks : (s.perform n effect).pending c =
        countValues (fun task => task.job.client? == some c) (s.tasks.insert n next) := by
      simp only [pending, perform, hnext]
    rw [hresponses, htasks, pending, Nat.add_right_cancel hpending]
  | none =>
    simp only [hnext] at hanswers
    have hpending := ForStd.countValues_erase
      (p := fun task => task.job.client? == some c) htask
    have htasks : (s.perform n effect).pending c =
        countValues (fun task => task.job.client? == some c) (s.tasks.erase n) := by
      simp only [pending, perform, hnext]
    cases hsend : effect.send with
    | none =>
      rw [hsend] at hanswers
      have hresponses : (s.perform n effect).responses c = s.responses c := by
        simp only [responses, perform, hsend]
      rw [← hanswers] at hpending
      rw [hresponses, htasks, pending]
      exact congrArg _ hpending
    | some x =>
      obtain ⟨c', response⟩ := x
      rw [hsend] at hanswers
      rw [← hanswers] at hpending
      have hresponses : (s.perform n effect).responses c = (s.send c' response).responses c := by
        simp only [responses, perform, hsend]
      rw [hresponses, htasks, pending]
      by_cases hc : c' = c
      · subst hc
        -- the client has connected, and has not left
        obtain ⟨client, hclient⟩ := Option.isSome_iff_exists.mp
          (hknown n task htask c' hanswers.symm)
        rw [Open, hclient] at hopen
        rw [responses_send s c' response hclient hopen, if_pos rfl]
        simp only [Option.map_some, beq_self_eq_true, if_true] at hpending
        omega
      · rw [responses_send_of_ne s c hc]
        simp only [Option.map_some, beq_iff_eq, Option.some.injEq, hc, if_false] at hpending
        omega

/-- A client whose connection is there after an event of it. -/
theorem open_of_withClient {f : Client → Option Master} (h : s.withClient c f = some s') :
    Open s c := by
  obtain ⟨client, hclient, hconnected, -⟩ := withClient_eq_some.mp h
  rw [Open, hclient]
  exact hconnected

/-- A connection does not come back. -/
theorem open_of_step {e : Event} (h : s.step cfg e = some s') (hopen : Open s' c) : Open s c := by
  -- the event is one of the client `c'`
  have hinsert : ∀ c' client, Open s c' → s'.clients = s.clients.insert c' client → Open s c := by
    intro c' client hc' hclients
    rw [Open, hclients, ForStd.lookup_insert] at hopen
    split at hopen
    · next hc => exact hc ▸ hc'
    · exact hopen
  cases step_cases h with
  | @connect c' hc' => exact hinsert c' {} (by rw [Open, hc']; rfl) rfl
  | @hello c' id zone client client' => exact hinsert c' client' (open_of_withClient h) rfl
  | @refuse c' id name client => exact hinsert c' _ (open_of_withClient h) rfl
  | @close c' client => exact hinsert c' _ (open_of_withClient h) rfl
  | @get c' client =>
    rcases get_answers cfg s c' client with hget | ⟨task, locks, -, hget⟩
    · rw [hget] at hopen; exact hopen
    · rw [hget] at hopen; exact hopen
  | @request c' client id seq _lock ttl =>
    rcases request_answers s c' client id seq _lock ttl with hreq | ⟨task, -, hreq⟩
    · rw [hreq] at hopen; exact hopen
    · rw [hreq] at hopen; exact hopen
  | @exec n choice outcome job call =>
    obtain ⟨db, reply, hexec, -⟩ := exec_cases s n job call choice outcome
    rw [hexec] at hopen
    exact hopen
  | _ => exact hopen

/-- A command is answered at once or starts a task, every other step answers what it finishes. -/
theorem count_step {e : Event} (hfresh : FreshTasks s) (hknown : KnownClients s)
    (h : s.step cfg e = some s') (hopen : Open s' c) :
    s'.responses c + s'.pending c =
      s.responses c + s.pending c + (if asks c e = true then 1 else 0) := by
  have hopen₀ := open_of_step h hopen
  cases step_cases h with
  | @get c' client hclient hconnected =>
    simp only [asks, beq_iff_eq]
    rcases get_answers cfg s c' client with hget | ⟨task, locks, hjob, hget⟩
    · have hsend := responses_send s c .error hclient hconnected
      have hpending : (s.send c' .error).pending c = s.pending c := rfl
      rw [hget, hsend, hpending, Nat.add_right_comm]
    · have hstart := pending_start c (s := { s with locks := locks }) hfresh task
      have hresponses : ({ s with locks := locks }.start task).responses c = s.responses c := rfl
      rw [hget, hstart, hresponses, hjob, ← Nat.add_assoc]
      simp only [Option.some.injEq]
      rfl
  | @request c' client id seq _lock ttl hclient hconnected =>
    simp only [asks, beq_iff_eq]
    rcases request_answers s c' client id seq _lock ttl with hreq | ⟨task, hjob, hreq⟩
    · have hsend := responses_send s c .error hclient hconnected
      have hpending : (s.send c' .error).pending c = s.pending c := rfl
      rw [hreq, hsend, hpending, Nat.add_right_comm]
    · have hstart := pending_start c hfresh task
      have hresponses : (s.start task).responses c = s.responses c := rfl
      rw [hreq, hstart, hresponses, hjob, ← Nat.add_assoc]
      simp only [Option.some.injEq]
  | @refuse c' id name client hclient =>
    -- the error goes to a client that is gone
    by_cases hc : c' = c
    · subst hc
      rw [Open, disconnect, ForStd.lookup_insert, if_pos rfl] at hopen
      exact absurd hopen Bool.false_ne_true
    · exact congrArg (· + s.pending c) (responses_send_of_ne s c hc .error)
  | remove =>
    exact congrArg (s.responses c + ·) (pending_start c hfresh _)
  | clearGarbage =>
    exact congrArg (s.responses c + ·) (pending_start c hfresh _)
  | @exec n choice outcome job call htask =>
    obtain ⟨db, reply, hexec, -⟩ := exec_cases s n job call choice outcome
    have hpending := ForStd.countValues_insert_of_lookup
      (p := fun task => task.job.client? == some c) htask ⟨job, .reply reply⟩
    rw [hexec]
    exact congrArg (s.responses c + ·) (Nat.add_right_cancel hpending)
  | resume htask heffect => exact count_perform hknown htask heffect hopen₀
  | _ => rfl

/-- The same for a run. -/
theorem count_run {es : List Event} (hfresh : FreshTasks s) (hknown : KnownClients s)
    (hrun : run (step cfg) s es = some s') (hopen : Open s' c) :
    s'.responses c + s'.pending c = s.responses c + s.pending c + es.countP (asks c) := by
  have hinv : ∀ s e s', FreshTasks s ∧ KnownClients s → s.step cfg e = some s' →
      FreshTasks s' ∧ KnownClients s' :=
    fun s e s' hs h => ⟨freshTasks_step hs.1 h, knownClients_step hs.2 h⟩
  induction es generalizing s with
  | nil =>
    obtain rfl := Option.some.inj hrun
    rfl
  | cons e es ih =>
    obtain ⟨t, ht, hrun⟩ := ForStd.run_cons_eq_some.mp hrun
    obtain ⟨hfresh', hknown'⟩ := hinv s e t ⟨hfresh, hknown⟩ ht
    have hopen' : Open t c := ForStd.waits_of_run (fun s => Open s c) hinv
      (fun s e s' _ h => open_of_step h) ⟨hfresh', hknown'⟩ hrun hopen
    have hfirst := count_step hfresh hknown ht hopen'
    have hrest := ih hfresh' hknown' hrun
    rw [List.countP_cons]
    omega

/-- As long as a client is connected, it has been sent one answer to every GET, RELEASE and DEFER of
    it whose task is not there any more. -/
theorem responses_add_pending {db : Database} {es : List Event}
    (hrun : run (step cfg) { db := db } es = some s) (hopen : Open s c) :
    s.responses c + s.pending c = es.countP (asks c) := by
  have hcount := count_run (s := { db := db }) (fun n _ => AList.lookup_empty n)
    (fun n task htask => absurd htask.symm (Option.some_ne_none task)) hrun hopen
  have hstart : ({ db := db } : Master).responses c + ({ db := db } : Master).pending c = 0 := rfl
  rwa [hstart, Nat.zero_add] at hcount

/-- A sender that has been sent a delivery, and waits for its RELEASE. -/
def releasing : List Event := answeredGet ++ [.request 1 "m" "001" "lock m 001" none]

theorem responses_add_pending_example :
    ∃ s, run (step oneZone) { db := {} } releasing = some s ∧ s.responses 1 = 1 ∧
      s.responses 1 + s.pending 1 = 2 := by
  have hrun : (run (step oneZone) { db := {} } releasing).map (fun s =>
      (s.responses 1, (s.clients.lookup 1).all (·.connected))) = some (1, true) := by
    decide +kernel
  obtain ⟨s, hs, hsent⟩ := Option.map_eq_some_iff.mp hrun
  obtain ⟨hresponses, hopen⟩ := Prod.mk.inj hsent
  have hasked : releasing.countP (asks 1) = 2 := by decide
  exact ⟨s, hs, hresponses, (responses_add_pending hs hopen).trans hasked⟩

end Master

/-! ## A task can always go on -/

/-- The callback takes the reply, whatever the state. -/
def Job.Takes (job : Job) (reply : Reply) : Prop :=
  ∀ cfg now locks, (callback cfg now locks job reply).isSome = true

/-- The task waits for something that its callback takes. -/
inductive Task.Live : Task → Prop where
  | tryNext (get : Get) : Live ⟨.tryNext get, .immediate⟩
  | notFound (get : Get) : Live ⟨.notFound get, .immediate⟩
  | call {job : Job} {call : Call} (herror : job.Takes .error)
      (hreply : ∀ db choice, job.Takes (Database.exec db choice call).2) :
      Live ⟨job, .call call⟩
  | reply {job : Job} {reply : Reply} (h : job.Takes reply) : Live ⟨job, .reply reply⟩

/-- The callbacks of the calls that only say that they are done take what they say. -/
theorem live_of_done {job : Job} {call : Call} (herror : job.Takes .error) (hdone : job.Takes .done)
    (hcall : ∀ db choice, (Database.exec db choice call).2 = .done ∨
      (Database.exec db choice call).2 = .error) : Task.Live ⟨job, .call call⟩ := by
  refine .call herror fun db choice => ?_
  rcases hcall db choice with hreply | hreply
  · rw [hreply]; exact hdone
  · rw [hreply]; exact herror

theorem live_deleteDelivery (id seq _lock : String) (caller : Caller) (id' seq' : String) :
    Task.Live ⟨.deleted id seq _lock caller, .call (.deleteDelivery id' seq')⟩ := by
  refine live_of_done (fun _ _ _ => rfl) (fun _ _ _ => rfl) fun db choice => Or.inl ?_
  simp only [Database.exec]
  split
  · rfl
  · rfl

theorem Returns.live {caller : Caller} {next : Task} (h : Returns caller next) : next.Live := by
  cases h with
  | shift get delivery => exact .tryNext get
  | remove owner rest =>
    refine live_of_done (fun _ _ _ => rfl) (fun _ _ _ => ?_) fun db choice => Or.inl rfl
    cases rest with
    | nil => rfl
    | cons delivery rest => rfl
  | clearGarbage rest =>
    refine live_of_done (fun _ _ _ => rfl) (fun _ _ _ => ?_) fun db choice => Or.inl rfl
    cases rest with
    | nil => rfl
    | cons delivery rest => rfl

/-- The callbacks of the calls that return one document or none. -/
theorem live_of_delivery {job : Job} {call : Call} (herror : job.Takes .error)
    (hnone : job.Takes (.delivery none)) (hsome : ∀ delivery, job.Takes (.delivery (some delivery)))
    (hcall : ∀ db choice, ∃ delivery, (Database.exec db choice call).2 = .delivery delivery) :
    Task.Live ⟨job, .call call⟩ := by
  refine .call herror fun db choice => ?_
  obtain ⟨delivery, hreply⟩ := hcall db choice
  rw [hreply]
  cases delivery with
  | none => exact hnone
  | some delivery => exact hsome delivery

/-- Those that look for the file of a message. -/
theorem live_of_file {job : Job} {id : String} (herror : job.Takes .error)
    (hnone : job.Takes (.file none)) (hsome : ∀ file, job.Takes (.file (some file))) :
    Task.Live ⟨job, .call (.findFile id)⟩ := by
  refine .call herror fun db choice => ?_
  simp only [Database.exec]
  cases pick (db.files.filter (·.filename == filename id)) choice with
  | none => exact hnone
  | some file => exact hsome file

theorem live_fetched (get : Get) (now : Nat) :
    Task.Live ⟨.fetched get, .call (.fetch get.query now)⟩ := by
  refine live_of_delivery (fun _ _ _ => rfl) (fun _ _ _ => rfl) (fun _ _ _ _ => rfl)
    fun db choice => ?_
  simp only [Database.exec]
  split
  · exact ⟨none, rfl⟩
  · exact ⟨_, rfl⟩

theorem live_getDelivery (request : Request) (id seq : String) :
    Task.Live ⟨.getDelivery request, .call (.findDelivery id seq)⟩ := by
  refine live_of_delivery (fun _ _ _ => rfl) (fun _ _ _ => rfl) (fun delivery _ now _ => ?_)
    fun db choice => ⟨_, rfl⟩
  simp only [callback, serverDelivery]
  split
  · rfl
  · rfl

theorem live_unlocked (instanceId : String) (now : Nat) :
    Task.Live ⟨.unlocked, .call (.unlock instanceId now)⟩ := by
  refine live_of_done (fun _ _ _ => rfl) (fun cfg now _ => ?_) fun db choice => Or.inl rfl
  simp only [callback, gcUnlocked]
  split
  · rfl
  · split
    · rfl
    · rfl

/-- What a task waits for after a callback is something that its next callback takes. -/
theorem Goes.live {cfg : Config} {now : Nat} {task next : Task} (h : Goes cfg now task next) :
    next.Live := by
  cases h with
  | tryNext get => exact live_fetched get now
  | notFound get => exact .notFound get
  | locked get => exact .tryNext get
  | messageDeleted get => exact .tryNext get
  | fetched => exact live_of_file (fun _ _ _ => rfl) (fun _ _ _ => rfl) fun _ _ _ _ => rfl
  | noBody => exact .call (fun _ _ _ => rfl) fun _ _ _ _ _ => rfl
  | body =>
    refine .call (fun _ _ _ => rfl) fun db choice cfg now locks => ?_
    simp only [callback, shiftSuppression]
    split
    · rfl
    · rfl
  | suppressed => exact live_deleteDelivery ..
  | notSuppressed => exact live_of_file (fun _ _ _ => rfl) (fun _ _ _ => rfl) fun _ _ _ _ => rfl
  | deleted =>
    exact live_of_delivery (fun _ _ _ => rfl) (fun _ _ _ => rfl) (fun _ _ _ _ => rfl)
      fun db choice => ⟨_, rfl⟩
  | unreferenced => exact live_of_file (fun _ _ _ => rfl) (fun _ _ _ => rfl) fun _ _ _ _ => rfl
  | removeMessage => exact .call (fun _ _ _ => rfl) fun _ _ _ _ _ => rfl
  | released _ _ hreturns => exact hreturns.live
  | release => exact live_deleteDelivery ..
  | defer =>
    refine live_of_delivery (fun _ _ _ => rfl) (fun _ _ _ => rfl) (fun _ _ _ _ => rfl)
      fun db choice => ?_
    simp only [Database.exec]
    split
    · exact ⟨none, rfl⟩
    · exact ⟨_, rfl⟩
  | deferred => exact .call (fun _ _ _ => rfl) fun _ _ _ _ _ => rfl
  | removeFound => exact (Returns.remove _ _).live
  | removeNext => exact live_deleteDelivery ..
  | removeLocked => exact (Returns.remove _ _).live
  | unlocked => exact .call (fun _ _ _ => rfl) fun _ _ _ _ _ => rfl
  | noMaximum =>
    exact live_of_delivery (fun _ _ _ => rfl) (fun _ _ _ => rfl) (fun _ _ _ _ => rfl)
      fun db choice => ⟨_, rfl⟩
  | expired => exact (Returns.clearGarbage _).live
  | expiredNext => exact live_deleteDelivery ..
  | expiredEnd =>
    exact live_of_delivery (fun _ _ _ => rfl) (fun _ _ _ => rfl) (fun _ _ _ _ => rfl)
      fun db choice => ⟨_, rfl⟩
  | oldestFound => exact live_of_done (fun _ _ _ => rfl) (fun _ _ _ => rfl) fun _ _ => Or.inl rfl
  | filesDeleted => exact .call (fun _ _ _ => rfl) fun _ _ _ _ _ => rfl

theorem live_starts {task : Task} (h : Master.Starts task) : task.Live := by
  cases h with
  | tryNext get => exact .tryNext get
  | notFound get => exact .notFound get
  | getDelivery request id seq => exact live_getDelivery request id seq
  | unlocked instanceId now => exact live_unlocked instanceId now
  | removeFound random id seq => exact .call (fun _ _ _ => rfl) fun _ _ _ _ _ => rfl

namespace Master

variable {cfg : Config} {s s' : Master} {n : Nat}

/-- All tasks can go on. -/
def AllLive (s : Master) : Prop := ∀ n task, s.tasks.lookup n = some task → task.Live

theorem allLive_step {e : Event} (hs : AllLive s) (h : s.step cfg e = some s') : AllLive s' := by
  intro n task htask
  cases taskStep h with
  | same _ htasks _ => exact hs n task (htasks ▸ htask)
  | start _ htasks _ hstart =>
    rw [htasks, ForStd.lookup_insert] at htask
    split at htask
    · obtain rfl := Option.some.inj htask; exact live_starts hstart
    · exact hs n task htask
  | @exec m choice _ before call reply hbefore hwait hreply htasks _ =>
    rw [htasks, ForStd.lookup_insert] at htask
    split at htask
    · obtain rfl := Option.some.inj htask
      -- the callback takes an error, and what the call returns
      obtain ⟨job, wait⟩ := before
      obtain rfl : wait = .call call := hwait
      cases hs m _ hbefore with
      | call herror hcall =>
        rcases hreply with rfl | rfl
        · exact .reply herror
        · exact .reply (hcall s.db choice)
    · exact hs n task htask
  | @resume m before effect hbefore heffect htasks _ =>
    rw [htasks] at htask
    split at htask
    · next next hnext =>
      rw [ForStd.lookup_insert] at htask
      split at htask
      · obtain rfl := Option.some.inj htask
        exact (goes_effect heffect hnext).live
      · exact hs n task htask
    · rw [ForStd.lookup_erase] at htask
      split at htask
      · exact absurd htask.symm (Option.some_ne_none _)
      · exact hs n task htask

/-- The event is a turn of the task: its call takes effect, or its callback runs. -/
def turn (n : Nat) : Event → Bool
  | .exec m _ _ | .resume m => m == n
  | _ => false

end Master

/-! ## The turns of a task -/

/-- The turns that are left to the caller of a `releaseDelivery`. -/
def Caller.rank : Caller → Nat
  | .shift _ _ => 4
  | _ => 0

/-- The turns that are left when a callback runs. -/
def Job.rank : Job → Nat
  | .notFound _ | .nextMeta _ _ | .deferredMeta _ => 1
  | .fetched _ => 2
  | .deferred _ => 3
  | .tryNext _ => 4
  | .messageDeleted _ _ => 5
  | .getDelivery _ => 9
  | .suppression _ _ => 13
  | .shiftMeta _ _ => 15
  | .fileDeleted caller => 1 + caller.rank
  | .removeMessage caller => 3 + caller.rank
  | .reference _ caller => 5 + caller.rank
  | .deleted _ _ _ caller => 7 + caller.rank
  | _ => 0

/-- The turns that are left to a task for a client, where a GET that has found a delivery may start
    once more. -/
def Task.rank : Task → Nat
  | ⟨.fetched _, .reply (.delivery (some _))⟩ => 17
  | ⟨job, .call _⟩ => job.rank + 1
  | ⟨job, _⟩ => job.rank

theorem client?_of_caller? {job : Job} {caller : Caller} (h : job.caller? = some caller) :
    job.client? = caller.client? := by
  cases job with
  | deleted | reference | removeMessage | fileDeleted => obtain rfl := Option.some.inj h; rfl
  | _ => cases h

theorem rank_of_caller? {job : Job} {caller : Caller} (h : job.caller? = some caller)
    (reply : Reply) : caller.rank < Task.rank ⟨job, .reply reply⟩ := by
  cases job with
  | deleted | reference | removeMessage | fileDeleted =>
    obtain rfl := Option.some.inj h
    simp only [Task.rank, Job.rank]
    omega
  | _ => cases h

/-- A callback of a task for a client takes its rank down. -/
theorem Goes.rank_lt {cfg : Config} {now : Nat} {task next : Task} (h : Goes cfg now task next)
    {c : Nat} (hc : task.job.client? = some c) : next.rank < task.rank := by
  cases h with
  | @released job caller _ reply hcaller hreturns =>
    have hrank := rank_of_caller? hcaller reply
    rw [client?_of_caller? hcaller] at hc
    cases hreturns with
    | shift get delivery => exact hrank
    | remove => cases hc
    | clearGarbage => cases hc
  | deleted | unreferenced | removeMessage | suppressed | release =>
    simp only [Task.rank, Job.rank, Caller.rank]
    omega
  | removeFound | removeNext | removeLocked | unlocked | noMaximum | expired | expiredNext
  | expiredEnd | oldestFound | filesDeleted => cases hc
  | _ => simp [Task.rank, Job.rank]

/-- The RELEASE or DEFER of a `releaseDelivery`. -/
def Caller.req? : Caller → Option Request
  | .request req => some req
  | _ => none

/-- The RELEASE or DEFER that a callback belongs to. -/
def Job.req? : Job → Option Request
  | .getDelivery req | .deferred req | .deferredMeta req => some req
  | .deleted _ _ _ caller | .reference _ caller | .removeMessage caller
  | .fileDeleted caller => caller.req?
  | _ => none

theorem req?_of_caller? {job : Job} {caller : Caller} (h : job.caller? = some caller) :
    job.req? = caller.req? := by
  cases job with
  | deleted | reference | removeMessage | fileDeleted => obtain rfl := Option.some.inj h; rfl
  | _ => cases h

/-- A RELEASE or DEFER goes on as that RELEASE or DEFER. -/
theorem Goes.next_req? {cfg : Config} {now : Nat} {task next : Task} {req : Request}
    (h : Goes cfg now task next) (hreq : task.job.req? = some req) : next.job.req? = some req := by
  cases h with
  | released _ hcaller hreturns =>
    rw [req?_of_caller? hcaller] at hreq
    cases hreturns with | _ => cases hreq
  | deleted | unreferenced | removeMessage | release | defer | deferred => exact hreq
  | _ => cases hreq

/-- A GET goes on as that GET. -/
theorem Goes.next_get? {cfg : Config} {now : Nat} {task next : Task} {get : Get}
    (h : Goes cfg now task next) (hget : task.job.get? = some get) : next.job.get? = some get := by
  cases h with
  | @released job caller _ _ hcaller hreturns =>
    have hjob : job.get? = caller.get? := by
      cases job with
      | deleted | reference | removeMessage | fileDeleted =>
        obtain rfl := Option.some.inj hcaller
        rfl
      | _ => cases hcaller
    rw [hjob] at hget
    cases hreturns with
    | shift => exact hget
    | _ => cases hget
  | deleted | unreferenced | removeMessage => exact hget
  | tryNext | notFound | locked | fetched | noBody | body | messageDeleted | suppressed
  | notSuppressed => exact hget
  | _ => cases hget

theorem client?_of_req? {job : Job} {req : Request} (h : job.req? = some req) :
    job.client? = some req.client := by
  have hcaller : ∀ caller : Caller, caller.req? = some req →
      caller.client? = some req.client := by
    intro caller hreq
    cases caller with
    | request req' => obtain rfl := Option.some.inj hreq; rfl
    | _ => cases hreq
  cases job with
  | getDelivery | deferred | deferredMeta => obtain rfl := Option.some.inj h; rfl
  | deleted | reference | removeMessage | fileDeleted => exact hcaller _ h
  | _ => cases h

theorem client?_of_get? {job : Job} {get : Get} (h : job.get? = some get) :
    job.client? = some get.client := by
  have hcaller : ∀ caller : Caller, caller.get? = some get →
      caller.client? = some get.client := by
    intro caller hget
    cases caller with
    | shift get' delivery => obtain rfl := Option.some.inj hget; rfl
    | _ => cases hget
  cases job with
  | tryNext | fetched | notFound => obtain rfl := Option.some.inj h; rfl
  | shiftMeta | messageDeleted | suppression | nextMeta => obtain rfl := Option.some.inj h; rfl
  | deleted | reference | removeMessage | fileDeleted => exact hcaller _ h
  | _ => cases h

/-- A task for a client has a turn left. -/
theorem rank_pos {task : Task} {c : Nat} (h : task.job.client? = some c) : 0 < task.rank := by
  obtain ⟨job, wait⟩ := task
  have hjob : 0 < job.rank := by
    cases job with
    | removeFound | removeNext | unlocked | expired | expiredNext | oldestFound | filesDeleted
    | chunksDeleted => cases h
    | _ => simp [Job.rank]
  unfold Task.rank
  split
  · decide
  · exact Nat.succ_pos _
  · next heq =>
    obtain rfl := (Task.mk.inj heq).1
    exact hjob

namespace Master

variable {cfg : Config} {s s' : Master} {n : Nat}

/-- What a step does to a task that is there after it: nothing, or it is a turn of the task. -/
theorem turn_step {e : Event} (h : s.step cfg e = some s') (hn : n < s.nextTask) {task' : Task}
    (htask' : s'.tasks.lookup n = some task') :
    (turn n e = false ∧ s.tasks.lookup n = some task') ∨
    (∃ job call choice outcome reply, e = .exec n choice outcome ∧
      s.tasks.lookup n = some ⟨job, .call call⟩ ∧ task' = ⟨job, .reply reply⟩ ∧
        (reply = .error ∨ reply = (s.db.exec choice call).2 ∧
          s'.db = (s.db.exec choice call).1)) ∨
    ∃ task, e = .resume n ∧ s.tasks.lookup n = some task ∧ Goes cfg s.now task task' := by
  -- a new task has another number
  have hstart : ∀ (t : Master) (new : Task), t.tasks = s.tasks → t.nextTask = s.nextTask →
      (t.start new).tasks.lookup n = some task' → s.tasks.lookup n = some task' := by
    intro t new htasks hnext hlookup
    rwa [start, ForStd.lookup_insert, hnext, if_neg (Nat.ne_of_lt hn), htasks] at hlookup
  cases step_cases h with
  | @get c client =>
    rcases get_answers cfg s c client with hget | ⟨task, locks, -, hget⟩
    · rw [hget] at htask'; exact Or.inl ⟨rfl, htask'⟩
    · rw [hget] at htask'; exact Or.inl ⟨rfl, hstart _ _ rfl rfl htask'⟩
  | @request c client id seq _lock ttl =>
    rcases request_answers s c client id seq _lock ttl with hreq | ⟨task, -, hreq⟩
    · rw [hreq] at htask'; exact Or.inl ⟨rfl, htask'⟩
    · rw [hreq] at htask'; exact Or.inl ⟨rfl, hstart _ _ rfl rfl htask'⟩
  | remove => exact Or.inl ⟨rfl, hstart _ _ rfl rfl htask'⟩
  | clearGarbage => exact Or.inl ⟨rfl, hstart _ _ rfl rfl htask'⟩
  | @exec m choice outcome job call htask =>
    obtain ⟨db, reply, hexec, -, hreply⟩ := exec_cases s m job call choice outcome
    rw [hexec] at htask' ⊢
    rw [ForStd.lookup_insert] at htask'
    split at htask'
    · next hm =>
      subst hm
      obtain rfl := Option.some.inj htask'
      exact Or.inr (Or.inl ⟨job, call, choice, outcome, reply, rfl, htask, rfl, hreply⟩)
    · next hm => exact Or.inl ⟨beq_false_of_ne (Ne.symm hm), htask'⟩
  | @resume m task effect htask heffect =>
    by_cases hm : n = m
    · subst hm
      cases hnext : effect.next with
      | none =>
        simp only [perform, hnext, ForStd.lookup_erase, if_true] at htask'
        exact absurd htask'.symm (Option.some_ne_none _)
      | some next =>
        simp only [perform, hnext, ForStd.lookup_insert, if_true] at htask'
        obtain rfl := Option.some.inj htask'
        exact Or.inr (Or.inr ⟨task, rfl, htask, goes_effect heffect hnext⟩)
    · refine Or.inl ⟨beq_false_of_ne (Ne.symm hm), ?_⟩
      simp only [perform] at htask'
      split at htask'
      · rwa [ForStd.lookup_insert, if_neg hm] at htask'
      · rwa [ForStd.lookup_erase, if_neg hm] at htask'
  | _ => exact Or.inl ⟨rfl, htask'⟩

/-- The turns that are left to the task. -/
def rank (s : Master) (n : Nat) : Nat := (s.tasks.lookup n).elim 0 (·.rank)

theorem rank_of_lookup {task : Task} (h : s.tasks.lookup n = some task) : s.rank n = task.rank := by
  rw [rank, h]
  rfl

/-- A task that is there after a step was there before it. -/
theorem lookup_ne_none_of_step {e : Event} (hn : n < s.nextTask) (h : s.step cfg e = some s')
    (hwaits : s'.tasks.lookup n ≠ none) : s.tasks.lookup n ≠ none := by
  obtain ⟨task', htask'⟩ := Option.ne_none_iff_exists'.mp hwaits
  rcases turn_step h hn htask' with ⟨-, htask⟩ | ⟨job, call, choice, outcome, reply, -, htask, -⟩ |
    ⟨task, -, htask, -⟩
  · rw [htask]; exact Option.some_ne_none _
  · rw [htask]; exact Option.some_ne_none _
  · rw [htask]; exact Option.some_ne_none _

/-- The number of a task is in use. -/
theorem lt_nextTask {db : Database} {es : List Event} (hrun : run (step cfg) { db := db } es = some s)
    {task : Task} (htask : s.tasks.lookup n = some task) : n < s.nextTask := by
  have hfresh : FreshTasks s := ForStd.run_invariant (fun _ _ _ hs h => freshTasks_step hs h)
    (fun n _ => AList.lookup_empty n) hrun
  by_contra hn
  rw [hfresh n (Nat.le_of_not_lt hn)] at htask
  exact Option.some_ne_none _ htask.symm

/-! ### RELEASE and DEFER -/

/-- The task is that of the RELEASE or DEFER, as long as it is there. -/
structure Requests (n : Nat) (req : Request) (s : Master) : Prop where
  lt : n < s.nextTask
  job : ∀ task, s.tasks.lookup n = some task → task.job.req? = some req

theorem requests_step {req : Request} {e : Event} (hs : Requests n req s)
    (h : s.step cfg e = some s') : Requests n req s' where
  lt := Nat.lt_of_lt_of_le hs.lt (nextTask_step h)
  job := by
    intro task' htask'
    rcases turn_step h hs.lt htask' with ⟨-, htask⟩ |
      ⟨job, call, choice, outcome, reply, -, htask, rfl, -⟩ | ⟨task, -, htask, hgoes⟩
    · exact hs.job task' htask
    · have hjob := hs.job _ htask
      exact hjob
    · exact hgoes.next_req? (hs.job task htask)

/-- A turn takes the rank of a RELEASE or DEFER down, and no other step changes it. -/
theorem rank_step {req : Request} {e : Event} (hs : Requests n req s)
    (hwaits : s'.tasks.lookup n ≠ none) (h : s.step cfg e = some s') :
    s'.rank n + (if turn n e = true then 1 else 0) ≤ s.rank n := by
  obtain ⟨task', htask'⟩ := Option.ne_none_iff_exists'.mp hwaits
  rw [rank_of_lookup htask']
  rcases turn_step h hs.lt htask' with ⟨hturn, htask⟩ |
    ⟨job, call, choice, outcome, reply, rfl, htask, rfl, -⟩ | ⟨task, rfl, htask, hgoes⟩
  · rw [rank_of_lookup htask, hturn]
    exact Nat.le_refl _
  · rw [rank_of_lookup htask]
    have hjob := hs.job _ htask
    cases job with
    | fetched get => cases hjob
    | _ => simp [turn, Task.rank]
  · rw [rank_of_lookup htask]
    have hlt := hgoes.rank_lt (client?_of_req? (hs.job task htask))
    simp only [turn, beq_self_eq_true, if_true]
    omega

/-- The RELEASE has looked up and deleted the document, while the clock goes on. -/
def releaseTurns : List Event :=
  [.exec 1 0 .ok, .tick 1600000000001, .resume 1, .exec 1 0 .lost]

/-! ### GET -/

/-- How many deliveries the query finds. -/
def found (query : Query) (s : Master) : Nat := s.db.queue.countP query.matches

/-- How many more deliveries the query finds after a step. -/
def appear (query : Query) (s s' : Master) : Nat := s'.found query - s.found query

/-- A delivery that was fetched is not found again. -/
theorem countP_fetch {db : Database} (hids : (db.queue.map (·._id)).Nodup) {query : Query}
    {choice : Nat} (lockTime : Nat) {delivery : Delivery}
    (hpick : pick (db.queue.filter query.matches) choice = some delivery) :
    (db.update delivery (·.fetched lockTime query.instanceId)).queue.countP query.matches <
      db.queue.countP query.matches := by
  rw [List.countP_eq_length_filter, List.countP_eq_length_filter,
    Database.filter_update_fetched hids]
  refine List.length_filter_lt_length_iff_exists.mpr
    ⟨delivery, List.mem_of_getElem? hpick, ?_⟩
  simp

/-- The task is that of the GET, as long as it is there. -/
structure Gets (n : Nat) (get : Get) (s : Master) : Prop where
  lt : n < s.nextTask
  ids : (s.db.queue.map (·._id)).Nodup
  job : ∀ task, s.tasks.lookup n = some task → task.job.get? = some get
  fetch : ∀ call, s.tasks.lookup n = some ⟨.fetched get, .call call⟩ →
    ∃ lockTime, call = .fetch get.query lockTime

theorem gets_step {get : Get} {e : Event} (hs : Gets n get s) (h : s.step cfg e = some s') :
    Gets n get s' where
  lt := Nat.lt_of_lt_of_le hs.lt (nextTask_step h)
  ids := nodup_step hs.ids h
  job := by
    intro task' htask'
    rcases turn_step h hs.lt htask' with ⟨-, htask⟩ |
      ⟨job, call, choice, outcome, reply, -, htask, rfl, -⟩ | ⟨task, -, htask, hgoes⟩
    · exact hs.job task' htask
    · have hjob := hs.job _ htask
      exact hjob
    · exact hgoes.next_get? (hs.job task htask)
  fetch := by
    intro call htask'
    rcases turn_step h hs.lt htask' with ⟨-, htask⟩ |
      ⟨job, call, choice, outcome, reply, -, -, heq, -⟩ | ⟨task, -, -, hgoes⟩
    · exact hs.fetch call htask
    · cases heq
    · cases hgoes with
      | tryNext => exact ⟨s.now, rfl⟩
      | released _ _ hreturns => cases hreturns

/-- A turn takes the rank of a GET down, or the number of the deliveries that it can find. -/
theorem rank_get_step {get : Get} {e : Event} (hs : Gets n get s)
    (hwaits : s'.tasks.lookup n ≠ none) (h : s.step cfg e = some s') :
    s'.rank n + 15 * s'.found get.query + (if turn n e = true then 1 else 0) ≤
      s.rank n + 15 * s.found get.query + 15 * appear get.query s s' := by
  obtain ⟨task', htask'⟩ := Option.ne_none_iff_exists'.mp hwaits
  have happear : s'.found get.query ≤ s.found get.query + appear get.query s s' := by
    unfold appear
    omega
  rw [rank_of_lookup htask']
  rcases turn_step h hs.lt htask' with ⟨hturn, htask⟩ |
    ⟨job, call, choice, outcome, reply, rfl, htask, rfl, hreply⟩ | ⟨task, rfl, htask, hgoes⟩
  · rw [rank_of_lookup htask, hturn, if_neg Bool.false_ne_true]
    omega
  · rw [rank_of_lookup htask]
    simp only [turn, beq_self_eq_true, if_true]
    have hjob := hs.job _ htask
    cases job with
    | fetched get' =>
      obtain rfl := Option.some.inj hjob
      obtain ⟨lockTime, rfl⟩ := hs.fetch call htask
      rcases hreply with rfl | ⟨rfl, hdb⟩
      · simp only [Task.rank, Job.rank]
        omega
      · cases hpick : pick (s.db.queue.filter get'.query.matches) choice with
        | none =>
          simp only [Database.exec, hpick, Task.rank, Job.rank]
          omega
        | some delivery =>
          -- it starts again at most, with one delivery less to find
          have hless := countP_fetch hs.ids lockTime hpick
          have hfound : s'.found get'.query < s.found get'.query := by
            rw [found, hdb]
            simp only [Database.exec, hpick]
            exact hless
          simp only [Database.exec, hpick, Task.rank, Job.rank]
          omega
    | _ =>
      simp only [Task.rank]
      omega
  · rw [rank_of_lookup htask]
    have hlt := hgoes.rank_lt (client?_of_get? (hs.job task htask))
    simp only [turn, beq_self_eq_true, if_true]
    omega

/-- A GET has fifteen turns at most for every delivery that its query finds at its start or comes to
    find, and four: it does not wait for ever for others that come first. -/
theorem turns_get_le {db : Database} {es₀ es : List Event} {get : Get}
    (hids : (db.queue.map (·._id)).Nodup) (hrun₀ : run (step cfg) { db := db } es₀ = some s)
    (htask : s.tasks.lookup n = some ⟨.tryNext get, .immediate⟩)
    (hrun : run (step cfg) s es = some s') (hwaits : s'.tasks.lookup n ≠ none) :
    es.countP (turn n) <
      4 + 15 * (s.found get.query + totalCost (step cfg) (appear get.query) s es) := by
  have hget : Gets n get s := by
    refine ⟨lt_nextTask hrun₀ htask, ForStd.run_invariant (fun _ _ _ hs h => nodup_step hs h) hids
      hrun₀, fun task htask' => ?_, fun call htask' => ?_⟩
    · obtain rfl := Option.some.inj (htask.symm.trans htask')
      rfl
    · cases htask.symm.trans htask'
  have hcount : es.countP (turn n) + (s'.rank n + 15 * s'.found get.query) ≤
      s.rank n + 15 * s.found get.query +
        totalCost (step cfg) (fun s s' => 15 * appear get.query s s') s es :=
    ForStd.countP_add_rank_le (I := Gets n get) (fun s => s.tasks.lookup n ≠ none) (turn n)
      (fun s => s.rank n + 15 * s.found get.query) _
      (fun _ _ _ hs h => gets_step hs h) (fun _ _ _ hs h => lookup_ne_none_of_step hs.lt h)
      (fun _ _ _ hs _ hwaits h => rank_get_step hs hwaits h) hget hrun hwaits
  -- the task has a turn left
  have hget' := ForStd.run_invariant (fun _ _ _ hs h => gets_step hs h) hget hrun
  obtain ⟨task', htask'⟩ := Option.ne_none_iff_exists'.mp hwaits
  have hpos := rank_pos (client?_of_get? (hget'.job task' htask'))
  have hrank : s.rank n = 4 := rank_of_lookup htask
  rw [hrank, rank_of_lookup htask', ForStd.totalCost_const_mul] at hcount
  omega

/-- The GET of the sender has fetched the document, and looks for the message. -/
def getTurns : List Event := [.resume 0, .exec 0 0 .ok, .tick 1600000000001, .resume 0]

theorem turns_get_le_example :
    ∃ s s', run (step oneZone) { db := {} } Shifting.calledGet = some s ∧
      run (step oneZone) s getTurns = some s' ∧ getTurns.countP (turn 0) <
        4 + 15 * (s.found Shifting.firstGet.query +
          totalCost (step oneZone) (appear Shifting.firstGet.query) s getTurns) := by
  have hids : ((({} : Database).queue).map (·._id)).Nodup := List.nodup_nil
  have hstart : ((run (step oneZone) { db := {} } Shifting.calledGet).bind fun s =>
      s.tasks.lookup 0) = some ⟨.tryNext Shifting.firstGet, .immediate⟩ := by decide +kernel
  have hend : ((run (step oneZone) { db := {} } (Shifting.calledGet ++ getTurns)).map fun s =>
      (s.tasks.lookup 0).isSome) = some true := by decide +kernel
  obtain ⟨s, hs, htask⟩ := Option.bind_eq_some_iff.mp hstart
  obtain ⟨s', hs', hwaits⟩ := Option.map_eq_some_iff.mp hend
  rw [ForStd.run_append, hs, Option.bind_some] at hs'
  exact ⟨s, s', hs, hs', turns_get_le hids hs htask hs'
    (Option.ne_none_iff_isSome.mpr hwaits)⟩

end Master

end ZoneMta
