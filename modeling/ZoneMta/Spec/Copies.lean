import ZoneMta.Native.Attempts
import ZoneMta.Spec.MasterCorrect

/-!
# Copies of a delivery

Between the `findOneAndUpdate` of `shift` and the response to GET a task has a copy of the
document, and between DEFER and the `findOneAndUpdate` of `deferDelivery` a task is about to
change it. Both are read off what the task waits for, and no callback makes a new one.

## Key results

- `asks_step`: each function waits for the calls that it makes
- `Goes.copy?`, `Goes.deferral?`: what the callbacks hand on
- `deferredCount_exec`, `deferredCount_defer`: the counter of the document
- `handed_step`: the response to GET
-/

namespace ZoneMta

/-! ## Tasks -/

namespace Task

variable (id seq : String)

/-- The copy of the delivery that the task may send to its client. -/
def copy? : Task → Option Delivery
  | ⟨.fetched _, .reply (.delivery (some delivery))⟩
  | ⟨.shiftMeta _ delivery, _⟩ | ⟨.suppression _ delivery, _⟩ | ⟨.nextMeta _ delivery, _⟩ =>
    if delivery.isFor id seq then some delivery else none
  | _ => none

/-- The time by which the task is about to defer the delivery. -/
def deferral? : Task → Option Nat
  | ⟨.getDelivery request, .call (.findDelivery id' seq')⟩ =>
    if id' = id ∧ seq' = seq then request.ttl else none
  | ⟨.getDelivery request, .reply (.delivery (some delivery))⟩ =>
    if delivery.isFor id seq then request.ttl else none
  | ⟨_, .call (.defer id' seq' _ ttl _)⟩ => if id' = id ∧ seq' = seq then some ttl else none
  | _ => none

/-- The task has a copy of the delivery, or is about to defer it. -/
def handles (task : Task) : Bool := (task.copy? id seq).isSome || (task.deferral? id seq).isSome

/-- The function waits for a call that it makes. -/
def asks : Task → Bool
  | ⟨.fetched _, .call (.fetch _ _)⟩ => true
  | ⟨.fetched _, .call _⟩ => false
  | ⟨.getDelivery _, .call (.findDelivery _ _)⟩ => true
  | ⟨.getDelivery _, .call _⟩ => false
  | ⟨.deferred _, .call (.defer ..)⟩ => true
  | ⟨_, .call (.defer ..)⟩ => false
  | _ => true

end Task

variable {cfg : Config} {now : Nat} {task next : Task} {id seq : String}

theorem Delivery.isFor_iff {delivery : Delivery} :
    delivery.isFor id seq = true ↔ delivery.id = id ∧ delivery.seq = seq := by
  simp only [Delivery.isFor, Bool.and_eq_true, beq_iff_eq]

/-- A copy is handed on from callback to callback. -/
theorem Goes.copy? (h : Goes cfg now task next) {delivery : Delivery}
    (hnext : next.copy? id seq = some delivery) : task.copy? id seq = some delivery := by
  cases h with
  -- the callbacks between `fetch` and the GET's answer have the copy in the job
  | fetched | body | notSuppressed => exact hnext
  | released _ _ hreturns => cases hreturns <;> exact nomatch hnext
  | _ => exact nomatch hnext

theorem Goes.deferral? (h : Goes cfg now task next) {ttl : Nat}
    (hnext : next.deferral? id seq = some ttl) : task.deferral? id seq = some ttl := by
  cases h with
  | @defer request delivery ttl' httl =>
    simp only [Task.deferral?] at hnext ⊢
    obtain ⟨hfor, rfl⟩ := Master.ite_eq_some.mp hnext
    rw [if_pos (Delivery.isFor_iff.mpr hfor), httl]
  | released _ _ hreturns => cases hreturns <;> exact nomatch hnext
  | _ => exact nomatch hnext

theorem Goes.asks (h : Goes cfg now task next) : next.asks = true := by
  cases h with
  | released _ _ hreturns => cases hreturns <;> rfl
  | _ => rfl

/-! ## Calls -/

namespace Database

variable {db : Database} {choice : Nat} {call : Call}

/-- What a call finds is in the queue before it. -/
theorem delivery_of_exec {delivery : Delivery}
    (h : (db.exec choice call).2 = .delivery (some delivery)) :
    ∃ doc ∈ db.queue, doc.id = delivery.id ∧ doc.seq = delivery.seq ∧
      doc.deferredCount = delivery.deferredCount := by
  cases call with
  | fetch query lockTime =>
    simp only [exec] at h
    split at h
    · exact nomatch h
    · next doc hpick =>
      obtain rfl := Option.some.inj (Reply.delivery.inj h)
      exact ⟨doc, (mem_of_pick_filter hpick).1, rfl, rfl, rfl⟩
  | findDelivery id seq =>
    have hmem := mem_of_pick (Reply.delivery.inj h)
    exact ⟨delivery, (List.mem_filter.mp hmem).1, rfl, rfl, rfl⟩
  | findReference id =>
    have hmem := mem_of_pick (Reply.delivery.inj h)
    exact ⟨delivery, (List.mem_filter.mp hmem).1, rfl, rfl, rfl⟩
  | deleteDelivery id seq =>
    simp only [exec] at h
    split at h <;> exact nomatch h
  | defer id seq now ttl first =>
    simp only [exec] at h
    split at h
    · exact nomatch h
    · next doc hpick =>
      obtain rfl := Option.some.inj (Reply.delivery.inj h)
      exact ⟨doc, (mem_of_pick_filter hpick).1, rfl, rfl, rfl⟩
  | findOldest => exact ⟨delivery, oldest_mem (Reply.delivery.inj h), rfl, rfl, rfl⟩
  | deleteFile fileId =>
    simp only [exec] at h
    split at h <;> exact nomatch h
  | _ => exact nomatch h

/-- Only `deferDelivery` changes the counter of a document. -/
theorem deferredCount_exec (h : (db.queue.map (·._id)).Nodup) {id seq : String}
    (hcall : ∀ now ttl first, call ≠ .defer id seq now ttl first) {delivery : Delivery}
    (hmem : delivery ∈ (db.exec choice call).1.queue) (hfor : delivery.isFor id seq = true) :
    ∃ before ∈ db.queue, before._id = delivery._id ∧ before.isFor id seq = true ∧
      before.deferredCount = delivery.deferredCount := by
  have hsame : delivery ∈ db.queue → ∃ before ∈ db.queue, before._id = delivery._id ∧
      before.isFor id seq = true ∧ before.deferredCount = delivery.deferredCount :=
    fun hmem => ⟨delivery, hmem, rfl, hfor, rfl⟩
  cases call with
  | fetch query lockTime =>
    simp only [exec] at hmem
    split at hmem
    · exact hsame hmem
    -- `fetched` leaves the ids and the counter
    · rcases ForStd.mem_updateOne hmem with hmem | ⟨before, hbefore, -, rfl⟩
      · exact hsame hmem
      · exact ⟨before, hbefore, rfl, hfor, rfl⟩
  | defer id' seq' now ttl first =>
    simp only [exec] at hmem
    split at hmem
    · exact hsame hmem
    · next doc hpick =>
      obtain ⟨hdoc, hdocFor⟩ := mem_of_pick_filter hpick
      rcases ForStd.mem_updateOne hmem with hmem | ⟨before, hbefore, hid, rfl⟩
      · exact hsame hmem
      · -- the document that is changed is another one
        obtain rfl := List.inj_on_of_nodup_map h hbefore hdoc (beq_iff_eq.mp hid)
        obtain ⟨rfl, rfl⟩ := Delivery.isFor_iff.mp hdocFor
        obtain ⟨rfl, rfl⟩ := Delivery.isFor_iff.mp hfor
        exact absurd rfl (hcall now ttl first)
  | deleteDelivery id seq =>
    simp only [exec] at hmem
    split at hmem
    · exact hsame hmem
    · exact hsame (List.mem_of_mem_erase hmem)
  | deleteMessage id => exact hsame (List.mem_filter.mp hmem).1
  | unlock instanceId now =>
    obtain ⟨before, hbefore, rfl⟩ := List.mem_map.mp hmem
    refine ⟨before, hbefore, ?_⟩
    split at hfor <;> split <;> exact ⟨rfl, hfor, rfl⟩
  | _ => exact hsame hmem

/-- `deferDelivery` increments the counter of the only document of the delivery. -/
theorem deferredCount_defer (h : (db.queue.map (·._id)).Nodup) {id seq : String}
    {now ttl : Nat} {first : Bool}
    (hone : ∀ d ∈ db.queue, ∀ d' ∈ db.queue, d.isFor id seq = true → d'.isFor id seq = true → d = d')
    {doc : Delivery} (hpick : pick (db.queue.filter (·.isFor id seq)) choice = some doc)
    {delivery : Delivery} (hmem : delivery ∈ (db.exec choice (.defer id seq now ttl first)).1.queue)
    (hfor : delivery.isFor id seq = true) :
    delivery.deferredCount = doc.deferredCount + 1 := by
  obtain ⟨hdoc, hdocFor⟩ := mem_of_pick_filter hpick
  simp only [exec, hpick, update] at hmem
  rw [ForStd.updateOne_eq_map h] at hmem
  obtain ⟨before, hbefore, rfl⟩ := List.mem_map.mp hmem
  -- the update leaves the `id` and the `seq`
  have hbeforeFor : before.isFor id seq = true := by
    split at hfor <;> exact hfor
  obtain rfl := hone before hbefore doc hdoc hbeforeFor hdocFor
  rw [if_pos rfl]
  rfl

end Database

/-- A call brings a new copy of a delivery only to `shift`. -/
theorem copy?_exec {job : Job} {call : Call} {reply : Reply}
    (hasks : Task.asks ⟨job, .call call⟩ = true) {delivery : Delivery}
    (h : Task.copy? id seq ⟨job, .reply reply⟩ = some delivery) :
    Task.copy? id seq ⟨job, .call call⟩ = some delivery ∨
      delivery.isFor id seq = true ∧ reply = .delivery (some delivery) ∧
        ∃ get query lockTime, job = .fetched get ∧ call = .fetch query lockTime := by
  cases job with
  | shiftMeta | suppression | nextMeta => exact Or.inl h
  | fetched get =>
    have hcall : ∃ query lockTime, call = .fetch query lockTime := by
      cases call with
      | fetch query lockTime => exact ⟨query, lockTime, rfl⟩
      | _ => exact nomatch hasks
    obtain ⟨query, lockTime, rfl⟩ := hcall
    refine Or.inr ?_
    cases reply with
    | delivery found =>
      cases found with
      | none => exact nomatch h
      | some found =>
        obtain ⟨hfor, rfl⟩ := Master.ite_eq_some.mp h
        exact ⟨hfor, rfl, get, query, lockTime, rfl, rfl⟩
    | _ => exact nomatch h
  | _ => exact nomatch h

/-- What `getDelivery` finds is what it looks for. -/
theorem deferral?_exec {db : Database} {choice : Nat} {job : Job} {call : Call} {reply : Reply}
    (hasks : Task.asks ⟨job, .call call⟩ = true)
    (hreply : reply = .error ∨ reply = (db.exec choice call).2) {ttl : Nat}
    (h : Task.deferral? id seq ⟨job, .reply reply⟩ = some ttl) :
    Task.deferral? id seq ⟨job, .call call⟩ = some ttl := by
  cases job with
  | getDelivery request =>
    have hcall : ∃ id' seq', call = .findDelivery id' seq' := by
      cases call with
      | findDelivery id' seq' => exact ⟨id', seq', rfl⟩
      | _ => exact nomatch hasks
    obtain ⟨id', seq', rfl⟩ := hcall
    rcases hreply with rfl | rfl
    · exact nomatch h
    · simp only [Database.exec] at h
      cases hpick : pick (db.queue.filter (·.isFor id' seq')) choice with
      | none =>
        rw [hpick] at h
        exact nomatch h
      | some found =>
        rw [hpick] at h
        obtain ⟨hfor, httl⟩ := Option.ite_none_right_eq_some.mp h
        obtain ⟨rfl, rfl⟩ := Delivery.isFor_iff.mp (mem_of_pick_filter hpick).2
        simp only [Task.deferral?]
        rw [if_pos (Delivery.isFor_iff.mp hfor), httl]
  | _ => exact nomatch h

/-! ## Steps -/

namespace Master

variable {s s' : Master}

/-- A task after a step that is not a RELEASE or DEFER: it was there before, or it is new, or its
    call has taken effect, or its callback has run. -/
theorem task_step {e : Event} (he : ∀ c id seq _lock ttl, e ≠ .request c id seq _lock ttl)
    (h : s.step cfg e = some s') {m : Nat} (htask : s'.tasks.lookup m = some task) :
    s.tasks.lookup m = some task ∨ (task.asks = true ∧ ∀ id seq, task.handles id seq = false) ∨
      (∃ choice outcome job call reply, e = .exec m choice outcome ∧
        s.tasks.lookup m = some ⟨job, .call call⟩ ∧ task = ⟨job, .reply reply⟩ ∧
          (reply = .error ∨ outcome = .ok ∧ reply = (s.db.exec choice call).2)) ∨
      ∃ before, e = .resume m ∧ s.tasks.lookup m = some before ∧ Goes cfg s.now before task := by
  -- a task that is started has no copy yet
  have hstart : ∀ {new : Task}, (s.tasks.insert s.nextTask new).lookup m = some task →
      new.asks = true → (∀ id seq, new.handles id seq = false) →
        s.tasks.lookup m = some task ∨
          (task.asks = true ∧ ∀ id seq, task.handles id seq = false) := by
    intro new hlookup hasks hhandles
    rw [ForStd.lookup_insert] at hlookup
    split at hlookup
    · obtain rfl := Option.some.inj hlookup
      exact Or.inr ⟨hasks, hhandles⟩
    · exact Or.inl hlookup
  cases step_cases h with
  | @get c client =>
    rcases get_cases cfg s c client with ⟨-, hget⟩ | ⟨-, -, get, hget⟩ | ⟨-, -, get, hget⟩
    · rw [hget] at htask
      exact Or.inl htask
    · rw [hget] at htask
      exact (hstart htask rfl fun _ _ => rfl).imp_right Or.inl
    · rw [hget] at htask
      exact (hstart htask rfl fun _ _ => rfl).imp_right Or.inl
  | request => exact absurd rfl (he _ _ _ _ _)
  | @exec n choice outcome job call hbefore =>
    -- the call fails, before or behind its effect, or it returns
    have hreply : ∃ db reply, s.exec n ⟨job, .call call⟩ call choice outcome =
        { s with db := db, tasks := s.tasks.insert n ⟨job, .reply reply⟩ } ∧
        (reply = .error ∨ outcome = .ok ∧ reply = (s.db.exec choice call).2) := by
      cases outcome with
      | ok => exact ⟨_, _, rfl, Or.inr ⟨rfl, rfl⟩⟩
      | failed => exact ⟨_, _, rfl, Or.inl rfl⟩
      | lost => exact ⟨_, _, rfl, Or.inl rfl⟩
    obtain ⟨db, reply, hexec, hreply⟩ := hreply
    rw [hexec, ForStd.lookup_insert] at htask
    split at htask
    · next hm =>
      subst hm
      exact Or.inr (Or.inr (Or.inl ⟨choice, outcome, job, call, reply, rfl, hbefore,
        (Option.some.inj htask).symm, hreply⟩))
    · exact Or.inl htask
  | @resume n before effect hbefore heffect =>
    simp only [perform] at htask
    cases hnext : effect.next with
    | some next =>
      rw [hnext, ForStd.lookup_insert] at htask
      split at htask
      · next hm =>
        obtain rfl := Option.some.inj htask
        subst hm
        exact Or.inr (Or.inr (Or.inr ⟨before, rfl, hbefore, goes_effect heffect hnext⟩))
      · exact Or.inl htask
    | none =>
      rw [hnext, ForStd.lookup_erase] at htask
      split at htask
      · cases htask
      · exact Or.inl htask
  | remove => exact (hstart htask rfl fun _ _ => rfl).imp_right Or.inl
  | clearGarbage => exact (hstart htask rfl fun _ _ => rfl).imp_right Or.inl
  | _ => exact Or.inl htask

theorem asks_step {e : Event} (hs : ∀ n task, s.tasks.lookup n = some task → task.asks = true)
    (he : ∀ c id seq _lock ttl, e ≠ .request c id seq _lock ttl) (h : s.step cfg e = some s')
    {n : Nat}
    (htask : s'.tasks.lookup n = some task) : task.asks = true := by
  rcases task_step he h htask with hbefore | ⟨hasks, -⟩ | ⟨_, _, job, call, reply, -, -, rfl, -⟩ |
    ⟨before, -, -, hgoes⟩
  · exact hs n task hbefore
  · exact hasks
  · cases job <;> rfl
  · exact hgoes.asks

/-- The callbacks of `releaseDelivery` send no delivery. -/
theorem send_callback {err : Bool} {caller : Caller} {client : Nat} {delivery : Delivery}
    {_lock : String} {data : Option String} :
    (caller.callback err).send ≠ some (client, .delivery delivery _lock data) := by
  cases caller with
  | shift | request => cases err <;> simp [Caller.callback, Effect.release, Effect.answer,
      Effect.immediate]
  | remove | clearGarbage => exact (Option.some_ne_none _).symm

/-- Only the last callback of a GET sends a delivery. -/
theorem delivery_of_callback {locks : QueueLocker} {job : Job} {reply : Reply} {effect : Effect}
    (h : callback cfg now locks job reply = some effect) {client : Nat} {delivery : Delivery}
    {_lock : String} {data : Option String}
    (hsend : effect.send = some (client, .delivery delivery _lock data)) :
    effect.next = none ∧ ∃ get file, job = .nextMeta get delivery ∧ reply = .file file ∧
      get.client = client := by
  cases job with
  | nextMeta get found =>
    -- the only answer with a delivery
    cases reply with
    | error => obtain rfl := Option.some.inj h; cases hsend
    | file file =>
      obtain rfl := Option.some.inj h
      obtain ⟨rfl, hresponse⟩ := Prod.mk.inj (Option.some.inj hsend)
      obtain ⟨rfl, -, -⟩ := Response.delivery.inj hresponse
      exact ⟨rfl, get, file, rfl, rfl, rfl⟩
    | _ => cases h
  | fetched get =>
    simp only [callback, shiftFetched] at h
    split at h
    · obtain rfl := Option.some.inj h; cases hsend
    · obtain rfl := Option.some.inj h; cases hsend
    · obtain rfl := Option.some.inj h
      dsimp only at hsend
      split at hsend <;> cases hsend
    · cases h
  | removeNext owner rest =>
    simp only [callback, removeNext] at h
    split at h
    · obtain rfl := Option.some.inj h; cases hsend
    · split at h
      · obtain rfl := Option.some.inj h; cases hsend
      · obtain rfl := Option.some.inj h
        dsimp only at hsend
        split at hsend <;> cases hsend
    · cases h
  | deleted id seq key caller =>
    simp only [callback, releaseDeleted] at h
    split at h
    · obtain rfl := Option.some.inj h; exact absurd hsend send_callback
    · obtain rfl := Option.some.inj h; cases hsend
    · cases h
  | reference id caller =>
    simp only [callback, releaseReference] at h
    split at h
    · obtain rfl := Option.some.inj h; exact absurd hsend send_callback
    · obtain rfl := Option.some.inj h; exact absurd hsend send_callback
    · obtain rfl := Option.some.inj h; cases hsend
    · cases h
  | removeMessage caller =>
    simp only [callback, ZoneMta.removeMessage] at h
    split at h
    · obtain rfl := Option.some.inj h; exact absurd hsend send_callback
    · obtain rfl := Option.some.inj h; exact absurd hsend send_callback
    · obtain rfl := Option.some.inj h; cases hsend
    · cases h
  | fileDeleted caller => obtain rfl := Option.some.inj h; exact absurd hsend send_callback
  | deferred request =>
    simp only [callback, deferDeferred] at h
    split at h
    · obtain rfl := Option.some.inj h; cases hsend
    · obtain rfl := Option.some.inj h
      simp only [Effect.release] at hsend
      split at hsend <;> cases hsend
    · cases h
  | _ =>
    simp only [callback, shiftMeta, shiftDeleted, shiftSuppression, serverDelivery, removeFound,
      gcUnlocked, gcExpired, gcNext, gcOldest, gcFiles] at h
    repeat' split at h
    all_goals
      cases h
      try cases hsend

theorem delivery_of_effect {effect : Effect} (h : s.effect cfg task = some effect) {client : Nat}
    {delivery : Delivery} {_lock : String} {data : Option String}
    (hsend : effect.send = some (client, .delivery delivery _lock data)) :
    effect.next = none ∧ ∃ get file, task = ⟨.nextMeta get delivery, .reply (.file file)⟩ ∧
      get.client = client := by
  obtain ⟨job, wait⟩ := task
  cases wait with
  | immediate =>
    cases job with
    | tryNext | notFound => obtain rfl := Option.some.inj h; exact nomatch hsend
    | _ => exact nomatch h
  | call call => exact nomatch h
  | reply reply =>
    obtain ⟨hnext, get, file, rfl, rfl, hclient⟩ := delivery_of_callback h hsend
    exact ⟨hnext, get, file, rfl, hclient⟩

/-- Nothing is handed to a sender without a response. -/
theorem handed_of_sent (h : s'.sent = s.sent) : Attempts.handed s s' = [] := by
  rw [Attempts.handed, h, List.drop_length]
  rfl

theorem handed_error {c : Nat} : Attempts.handed s (s.send c .error) = [] := by
  unfold Attempts.handed send
  split
  · rw [List.drop_left]
    rfl
  · rw [List.drop_length]
    rfl

/-- What a step sends: a delivery only as the response to the GET of a task that has its copy,
    and that ends with it. -/
theorem handed_step {e : Event} (h : s.step cfg e = some s') :
    Attempts.handed s s' = [] ∨ ∃ n get delivery _lock file, e = .resume n ∧
      s.tasks.lookup n = some ⟨.nextMeta get delivery, .reply (.file file)⟩ ∧
        s'.tasks = s.tasks.erase n ∧
          Attempts.handed s s' = [⟨get.client, delivery, _lock, Sender.sendNext⟩] := by
  cases step_cases h with
  | @get c client =>
    rcases get_cases cfg s c client with ⟨-, hget⟩ | ⟨-, -, get, hget⟩ | ⟨-, -, get, hget⟩
    · rw [hget]; exact Or.inl handed_error
    · rw [hget]; exact Or.inl (handed_of_sent rfl)
    · rw [hget]; exact Or.inl (handed_of_sent rfl)
  | @request c client id seq _lock ttl =>
    rcases request_cases s c client id seq _lock ttl with hreq | ⟨req, -, hreq⟩
    · rw [hreq]; exact Or.inl handed_error
    · rw [hreq]; exact Or.inl (handed_of_sent rfl)
  | @exec n choice outcome job call =>
    obtain ⟨db, reply, hexec, -⟩ := exec_cases s n job call choice outcome
    rw [hexec]
    exact Or.inl (handed_of_sent rfl)
  | refuse => exact Or.inl (handed_error (s := s))
  | @resume n before effect hbefore heffect =>
    cases hsend : effect.send with
    | none => exact Or.inl (handed_of_sent (by simp only [perform, hsend]))
    | some sent =>
      obtain ⟨client, response⟩ := sent
      have hsent : (s.perform n effect).sent = (s.send client response).sent := by
        simp only [perform, hsend]
      have hhanded : Attempts.handed s (s.perform n effect) =
          Attempts.handed s (s.send client response) := by
        simp only [Attempts.handed, hsent]
      rw [hhanded]
      cases response with
      | delivery delivery _lock data =>
        obtain ⟨hnext, get, file, rfl, rfl⟩ := delivery_of_effect heffect hsend
        by_cases hconnected : (s.clients.lookup get.client).any (·.connected) = true
        · refine Or.inr ⟨n, get, delivery, _lock, file, rfl, hbefore, ?_, ?_⟩
          · simp only [perform, hnext]
          · simp only [Attempts.handed, send, if_pos hconnected, List.drop_left]
            rfl
        · exact Or.inl (handed_of_sent (by simp only [send, if_neg hconnected]))
      | _ =>
        refine Or.inl ?_
        simp only [Attempts.handed, send]
        split
        · rw [List.drop_left]
          rfl
        · rw [List.drop_length]
          rfl
  | _ => exact Or.inl (handed_of_sent rfl)

end Master

end ZoneMta
