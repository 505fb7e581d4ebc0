import ZoneMta.Spec.ShiftCorrect

/-!
# The task of shift

A try of `shift` is what the task of a GET does in the master process from one `tryNext` to the
next, as long as the steps are its own, no call fails and the metadata have no keys of the delivery.

## Key results

- `reaches_call`: a call of the database and its callback
- `reaches_tryNext`: a try
-/

namespace ZoneMta

namespace MailQueue

open ForStd (run run_append)

variable {cfg : Config} {n : Nat}

/-- The event is a step of the task, and its call succeeds. -/
def OwnStep (n : Nat) (e : Event) : Prop := e = .resume n ∨ ∃ choice, e = .exec n choice .ok

/-- Steps of the task lead from one state to the other. -/
def Reaches (cfg : Config) (n : Nat) (s s' : Master) : Prop :=
  ∃ es, (∀ e ∈ es, OwnStep n e) ∧ run (Master.step cfg) s es = some s'

theorem Reaches.one {s s' : Master} {e : Event} (he : OwnStep n e)
    (h : s.step cfg e = some s') : Reaches cfg n s s' := by
  refine ⟨[e], fun e' he' => List.mem_singleton.mp he' ▸ he, ?_⟩
  rw [run, h]
  rfl

theorem Reaches.trans {s s₁ s' : Master} (h : Reaches cfg n s s₁) (h' : Reaches cfg n s₁ s') :
    Reaches cfg n s s' := by
  obtain ⟨es, hes, hrun⟩ := h
  obtain ⟨es', hes', hrun'⟩ := h'
  refine ⟨es ++ es', fun e he => (List.mem_append.mp he).elim (hes e) (hes' e), ?_⟩
  rw [run_append, hrun]
  exact hrun'

/-- The master process has the collections, the locks and the cache of the queue, and the task. -/
structure At (q : MailQueue) (n : Nat) (now : Nat) (task : Task) (s : Master) : Prop where
  db : s.db = q.db
  locks : s.locks = q.locks
  cache : s.cache = q.cache
  now : s.now = now
  task : s.tasks.lookup n = some task

/-- What a callback does to the locks and the cache. -/
def perform (q : MailQueue) (now : Nat) (effect : Effect) : MailQueue :=
  { q with
    locks := effect.ops.foldl (QueueLocker.apply now) q.locks
    cache := match effect.emptyZone with
      | some zone => q.cache.insert zone (now + 5 * 1000)
      | none => q.cache }

variable {q : MailQueue} {now : Nat} {s : Master}

/-- A callback of the task. -/
theorem reaches_resume (cfg : Config) {task next : Task} {effect : Effect} (h : At q n now task s)
    (heffect : s.effect cfg task = some effect) (hnext : effect.next = some next) :
    ∃ s', Reaches cfg n s s' ∧ At (q.perform now effect) n now next s' := by
  refine ⟨s.perform n effect, .one (Or.inl rfl) ?_, h.db, ?_, ?_, h.now, ?_⟩
  · rw [Master.step, h.task, Option.bind_some, heffect]
    rfl
  · rw [perform, ← h.locks, ← h.now]
    rfl
  · rw [perform, ← h.cache, ← h.now]
    rfl
  · simp only [Master.perform, hnext]
    exact AList.lookup_insert _

/-- A call of the database, and its callback. -/
theorem reaches_call (cfg : Config) {job : Job} {call : Call} {db : Database} {reply : Reply}
    {next : Task} {effect : Effect} (h : At q n now ⟨job, .call call⟩ s) (choice : Nat)
    (hdb : (q.db.exec choice call).1 = db) (hreply : (q.db.exec choice call).2 = reply)
    (heffect : callback cfg now q.locks job reply = some effect)
    (hnext : effect.next = some next) :
    ∃ s', Reaches cfg n s s' ∧
      At ({ q with db := db }.perform now effect) n now next s' := by
  -- the call has run, and the callback is due
  have hexec : At { q with db := db } n now
      ⟨job, .reply reply⟩ (s.exec n ⟨job, .call call⟩ call choice .ok) := by
    refine ⟨?_, h.locks, h.cache, h.now, ?_⟩
    · rw [← hdb, ← h.db]
      rfl
    · rw [← hreply, ← h.db]
      exact AList.lookup_insert _
  have hstep : s.step cfg (.exec n choice .ok) =
      some (s.exec n ⟨job, .call call⟩ call choice .ok) := by
    rw [Master.step, h.task]
    rfl
  have hresume : (s.exec n ⟨job, .call call⟩ call choice .ok).effect cfg
      ⟨job, .reply reply⟩ = some effect := by
    rw [← heffect, ← hexec.locks, ← hexec.now]
    rfl
  obtain ⟨s', hreaches, hat⟩ := reaches_resume cfg hexec hresume hnext
  exact ⟨s', (Reaches.one (Or.inr ⟨choice, rfl⟩) hstep).trans hreaches, hat⟩

/-! ## A try -/

section

variable {get : Get} {d : Delivery} (round : Round)

/-- The end of `releaseDelivery`, where no document of the message is left. -/
theorem reaches_removeMessage
    (h : At q n now ⟨.removeMessage (.shift get d), .call (.findFile d.id)⟩ s) :
    ∃ s', Reaches cfg n s s' ∧
      At (q.removeMessage round d.id) n now ⟨.tryNext get, .immediate⟩ s' := by
  unfold MailQueue.removeMessage
  rcases q.db.findFile_cases round.message d.id with ⟨hreply, -⟩ | ⟨file, -, -, hreply⟩
  · simp only [hreply]
    exact reaches_call cfg h round.message rfl hreply rfl rfl
  · simp only [hreply]
    obtain ⟨s₁, hreaches, hat⟩ := reaches_call cfg h round.message rfl hreply rfl rfl
    obtain ⟨s', hreaches', hat'⟩ := reaches_call cfg hat 0 rfl rfl rfl rfl
    exact ⟨s', hreaches.trans hreaches', hat'⟩

/-- A suppressed delivery is released, and the next one is tried. -/
theorem reaches_releaseDelivery (h : At q n now ⟨.deleted d.id d.seq (lockKey d.id d.seq)
    (.shift get d), .call (.deleteDelivery d.id d.seq)⟩ s) :
    ∃ s', Reaches cfg n s s' ∧
      At (q.releaseDelivery round (d.withMetadata {})) n now ⟨.tryNext get, .immediate⟩ s' := by
  have hdone : (q.db.exec round.deleted (.deleteDelivery d.id d.seq)).2 = .done := by
    simp only [Database.exec]
    split <;> rfl
  obtain ⟨s₁, hreaches, hat⟩ := reaches_call cfg h round.deleted rfl hdone rfl rfl
  unfold MailQueue.releaseDelivery
  simp only [Delivery.withMetadata, Option.getD_none]
  generalize (q.db.exec round.deleted (.deleteDelivery d.id d.seq)).1 = db at hat ⊢
  rcases db.findReference_cases round.reference d.id with ⟨hreply, -⟩ | ⟨other, -, -, hreply⟩
  · obtain ⟨s₂, hreaches₂, hat₂⟩ := reaches_call cfg hat round.reference rfl hreply rfl rfl
    obtain ⟨s', hreaches', hat'⟩ := reaches_removeMessage round hat₂
    simp only [hreply]
    exact ⟨s', (hreaches.trans hreaches₂).trans hreaches', hat'⟩
  · -- still deliveries left for this message
    obtain ⟨s', hreaches', hat'⟩ := reaches_call cfg hat round.reference rfl hreply rfl rfl
    simp only [hreply]
    exact ⟨s', hreaches.trans hreaches', hat'⟩

/-- How the task goes on after a try. -/
def Continues (get : Get) : Option (Option Shifted) → Task → Prop
  | none, task => task = ⟨.tryNext get, .immediate⟩
  | some none, task => task = ⟨.notFound get, .immediate⟩
  | some (some shifted), task =>
    ∃ d, task = ⟨.nextMeta get d, .call (.findFile d.id)⟩ ∧ shifted = d.withMetadata {}

/-- The part behind the lock. -/
theorem reaches_shiftLocked (h : At q n now ⟨.shiftMeta get d, .call (.findFile d.id)⟩ s) :
    ∃ s' task, Reaches cfg n s s' ∧
      At (shiftLocked cfg (fun _ => {}) q round d).2 n now task s' ∧
      Continues get (shiftLocked cfg (fun _ => {}) q round d).1 task := by
  unfold shiftLocked
  rcases q.db.findFile_cases round.file d.id with ⟨hreply, -⟩ | ⟨file, -, -, hreply⟩
  · obtain ⟨s₁, hreaches, hat⟩ := reaches_call cfg h round.file rfl hreply rfl rfl
    obtain ⟨s', hreaches', hat'⟩ := reaches_call cfg hat 0 rfl rfl rfl rfl
    simp only [hreply]
    exact ⟨s', _, hreaches.trans hreaches', hat', rfl⟩
  -- the metadata are read only for the message that is returned
  · have hdata : file.metadata (fun _ => {}) = {} := by
      unfold File.metadata
      cases file.data <;> rfl
    obtain ⟨s₁, hreaches, hat⟩ := reaches_call cfg h round.file rfl hreply rfl rfl
    simp only [hreply, hdata]
    have hfound : (q.db.exec 0 (.findSuppressed (cfg.text.normal d.recipient)
        (cfg.text.normal d.domain))).2 =
          .suppressed ((d.withMetadata {}).suppressed cfg.text q.db) :=
      (d.withMetadata {}).findSuppressed cfg.text q.db
    cases hsuppressed : (d.withMetadata {}).suppressed cfg.text q.db with
    | true =>
      rw [hsuppressed] at hfound
      obtain ⟨s₂, hreaches₂, hat₂⟩ := reaches_call cfg hat 0 rfl hfound rfl rfl
      obtain ⟨s', hreaches', hat'⟩ := reaches_releaseDelivery round hat₂
      exact ⟨s', _, (hreaches.trans hreaches₂).trans hreaches', hat', rfl⟩
    | false =>
      rw [hsuppressed] at hfound
      obtain ⟨s', hreaches', hat'⟩ := reaches_call cfg hat 0 rfl hfound rfl rfl
      exact ⟨s', _, hreaches.trans hreaches', hat', d, rfl, rfl⟩

/-- A try is a run of the task, from one `tryNext` to the next callback of `shift` or of its
    caller. -/
theorem reaches_tryNext (hzone : get.zone = get.query.sendingZone)
    (h : At q n round.now ⟨.tryNext get, .immediate⟩ s) :
    ∃ s' task, Reaches cfg n s s' ∧
      At (tryNext cfg (fun _ => {}) get.query get.lockOwner round q).2 n round.now task s' ∧
      Continues get (tryNext cfg (fun _ => {}) get.query get.lockOwner round q).1 task := by
  have heffect : s.effect cfg ⟨.tryNext get, .immediate⟩ =
      some (ZoneMta.tryNext round.now get) := by
    rw [← h.now]
    rfl
  obtain ⟨s₁, hreaches, hat⟩ := reaches_resume cfg h heffect rfl
  -- what `findOneAndUpdate` finds decides about the callback
  cases hpick : pick (q.db.queue.filter get.query.matches) round.fetched with
  | none =>
    have hexec : q.db.exec round.fetched (.fetch get.query round.now) = (q.db, .delivery none) := by
      simp only [Database.exec, hpick]
    obtain ⟨s', hreaches', hat'⟩ := reaches_call cfg hat round.fetched
      (congrArg Prod.fst hexec) (congrArg Prod.snd hexec) rfl rfl
    have htry : MailQueue.tryNext cfg (fun _ => {}) get.query get.lockOwner round q =
        (some none, { q with cache := q.cache.insert get.zone (round.now + 5 * 1000) }) := by
      rw [MailQueue.tryNext, hexec, hzone]
    rw [htry]
    exact ⟨s', _, hreaches.trans hreaches', hat', rfl⟩
  | some d =>
    have hexec : q.db.exec round.fetched (.fetch get.query round.now) =
        (q.fetch get.query round d,
          .delivery (some (d.fetched round.now get.query.instanceId))) := by
      simp only [Database.exec, hpick]
      rfl
    have hlock := QueueLocker.fst_lock q.locks (lockKey d.id d.seq) get.zone d.domain get.lockOwner
      (cfg.limit d.domain) (60 * 60 * 1000) round.now
    have hcallback : callback cfg round.now q.locks (.fetched get)
        (.delivery (some (d.fetched round.now get.query.instanceId))) = some
          { (if !q.locks.lockExists (lockKey d.id d.seq) then
              Effect.wait (.shiftMeta get (d.fetched round.now get.query.instanceId))
                (.findFile d.id)
            else Effect.immediate (.tryNext get)) with
            ops := [.lock (lockKey d.id d.seq) get.zone d.domain get.lockOwner (cfg.limit d.domain)
              (60 * 60 * 1000)] } := by
      rw [← hlock]
      rfl
    rw [tryNext_of_pick hpick]
    cases hexists : q.locks.lockExists (lockKey d.id d.seq) with
    | true =>
      rw [hexists] at hcallback
      obtain ⟨s', hreaches', hat'⟩ := reaches_call cfg hat round.fetched
        (congrArg Prod.fst hexec) (congrArg Prod.snd hexec) hcallback rfl
      -- the callback calls `lock` in any case
      have hsame : q.locks.apply round.now (.lock (lockKey d.id d.seq) get.zone d.domain
          get.lockOwner (cfg.limit d.domain) (60 * 60 * 1000)) = q.locks :=
        congrArg Prod.snd (QueueLocker.lock_of_exists hexists)
      exact ⟨s', _, hreaches.trans hreaches',
        ⟨hat'.db, hat'.locks.trans hsame, hat'.cache, hat'.now, hat'.task⟩, rfl⟩
    | false =>
      rw [hexists] at hcallback
      obtain ⟨s₂, hreaches₂, hat₂⟩ := reaches_call cfg hat round.fetched
        (congrArg Prod.fst hexec) (congrArg Prod.snd hexec) hcallback rfl
      have hlocked : At { q with
          db := q.fetch get.query round d
          locks := q.lockFor cfg get.query get.lockOwner round d } n round.now
          ⟨.shiftMeta get (d.fetched round.now get.query.instanceId),
            .call (.findFile d.id)⟩ s₂ := by
        refine ⟨hat₂.db, hat₂.locks.trans ?_, hat₂.cache, hat₂.now, hat₂.task⟩
        rw [lockFor, ← hzone]
        rfl
      obtain ⟨s', task, hreaches', hat', hcontinues⟩ := reaches_shiftLocked round hlocked
      exact ⟨s', task, (hreaches.trans hreaches₂).trans hreaches', hat', hcontinues⟩

end

end MailQueue

end ZoneMta
