import ZoneMta.Spec.Disconnect

/-!
# The lock of a finished delivery

RELEASE and DEFER name the lock of the delivery that they finish. The lock is released in the
callback of the `deleteOne` of RELEASE, whatever it reports, and in that of the
`findOneAndUpdate` of DEFER unless it reports an error. A request whose delivery is not found
is answered before it gets there.

## Key results

- `stage_effect`: the callback of a request goes on, or answers, or releases the lock
- `along_succeeds_of_closed`: nothing fails after the release
- `releases_iff`: an answered request has released its lock if and only if its callbacks
  `Succeed`
- `released_failed`: an error in `getDelivery` leaves the lock in place
-/

namespace ZoneMta

open ForStd (run Along)

/-- The jobs of a request before its lock is released. -/
def Job.Opens (req : Request) : Job → Prop
  | .getDelivery req' => req' = req
  | .deleted _ _ _lock (.request req') => req' = req ∧ _lock = req._lock
  | .deferred req' => req' = req
  | _ => False

/-- The jobs of a request after its lock is released. -/
def Job.Closes : Job → Prop
  | .reference _ (.request _) => True
  | .removeMessage (.request _) => True
  | .fileDeleted (.request _) => True
  | .deferredMeta _ => True
  | _ => False

namespace Master

variable {cfg : Config} {s s' : Master} {n : Nat} {req : Request}

/-- The client has a zone and holds the lock. -/
def HoldsLock (s : Master) (c : Nat) (_lock : String) : Prop :=
  ∃ client, s.clients.lookup c = some client ∧ client.zone ≠ "" ∧
    ∃ lock ∈ s.locks.locks, lock.key = _lock ∧ lock.lockOwner = client.id

/-- `getDelivery` finds the delivery, and the update of DEFER reports no error, when the callback
    of the task runs. -/
def Succeeds (n : Nat) (s : Master) : Event → Prop
  | .resume m => m = n →
    match s.tasks.lookup n with
    | some ⟨.getDelivery _, .reply reply⟩ => ∃ delivery, reply = .delivery (some delivery)
    | some ⟨.deferred _, .reply reply⟩ => reply ≠ .error
    | _ => True
  | _ => True

/-- A callback of the task releases the lock, and then the key is free. -/
def Releases (cfg : Config) (n : Nat) (_lock : String) (s : Master) (es : List Event) : Prop :=
  ∃ es₁ es₂ t t', es = es₁ ++ .resume n :: es₂ ∧ run (step cfg) s es₁ = some t ∧
    t.step cfg (.resume n) = some t' ∧ .release _lock ∈ t.lockOps cfg (.resume n) ∧
    t'.locks.lockExists _lock = false

/-! ## The task of a request -/

/-- The task is over, or its lock is released. -/
def Closed (n : Nat) (s : Master) : Prop :=
  n < s.nextTask ∧ ∀ task, s.tasks.lookup n = some task → task.job.Closes

/-- What the callback of a request does before its lock is released: it finds what it looks for
    and goes on, or it releases the lock, or it fails and answers. -/
inductive Stage (req : Request) (task : Task) (effect : Effect) : Prop where
  | next (task' : Task) (hnext : effect.next = some task') (hopens : task'.job.Opens req)
      (hops : effect.ops = [])
      (hfound : ∃ delivery, task = ⟨.getDelivery req, .reply (.delivery (some delivery))⟩)
  | release (hops : .release req._lock ∈ effect.ops)
      (hrest : ∀ op ∈ effect.ops, op = .release req._lock)
      (hnext : ∀ task', effect.next = some task' → task'.job.Closes)
      (hjob : (∃ id seq _lock caller, task.job = .deleted id seq _lock caller) ∨
        ∃ reply, task = ⟨.deferred req, .reply reply⟩ ∧ reply ≠ .error)
  | fail (hnext : effect.next = none) (hops : effect.ops = [])
      (hreply : task = ⟨.getDelivery req, .reply .error⟩ ∨
        task = ⟨.getDelivery req, .reply (.delivery none)⟩ ∨ task = ⟨.deferred req, .reply .error⟩)

/-- The callback of `getDelivery`. -/
theorem stage_serverDelivery {now : Nat} {reply : Reply} {effect : Effect}
    (h : serverDelivery now req reply = some effect) :
    Stage req ⟨.getDelivery req, .reply reply⟩ effect := by
  cases reply with
  | error =>
    obtain rfl := Option.some.inj h
    exact .fail rfl rfl (Or.inl rfl)
  | delivery delivery =>
    cases delivery with
    | none =>
      obtain rfl := Option.some.inj h
      exact .fail rfl rfl (Or.inr (Or.inl rfl))
    | some delivery =>
      simp only [serverDelivery] at h
      cases httl : req.ttl with
      | none =>
        rw [httl] at h
        obtain rfl := Option.some.inj h
        exact .next _ rfl ⟨rfl, rfl⟩ rfl ⟨delivery, rfl⟩
      | some ttl =>
        rw [httl] at h
        obtain rfl := Option.some.inj h
        exact .next _ rfl rfl rfl ⟨delivery, rfl⟩
  | _ => cases h

/-- The callback of the `deleteOne`. -/
theorem stage_releaseDeleted {id seq : String} {reply : Reply} {effect : Effect}
    (h : releaseDeleted id req._lock (.request req) reply = some effect) :
    Stage req ⟨.deleted id seq req._lock (.request req), .reply reply⟩ effect := by
  have hjob : ∃ id' seq' _lock caller,
      Job.deleted id seq req._lock (.request req) = .deleted id' seq' _lock caller :=
    ⟨id, seq, _, _, rfl⟩
  cases reply with
  | error =>
    obtain rfl := Option.some.inj h
    have hnone : (Effect.release req._lock ((Caller.request req).callback true)).next = none := rfl
    refine .release List.mem_cons_self (fun op hop => List.mem_singleton.mp hop) ?_ (Or.inl hjob)
    intro task' hnext
    rw [hnone] at hnext
    exact nomatch hnext
  | done =>
    obtain rfl := Option.some.inj h
    refine .release List.mem_cons_self (fun op hop => List.mem_singleton.mp hop) ?_ (Or.inl hjob)
    intro task' hnext
    rw [← Option.some.inj hnext]
    exact trivial
  | _ => exact nomatch h

/-- The callback of the `findOneAndUpdate`. -/
theorem stage_deferDeferred {reply : Reply} {effect : Effect}
    (h : deferDeferred req reply = some effect) :
    Stage req ⟨.deferred req, .reply reply⟩ effect := by
  cases reply with
  | error =>
    obtain rfl := Option.some.inj h
    exact .fail rfl rfl (Or.inr (Or.inr rfl))
  | delivery item =>
    obtain rfl := Option.some.inj h
    refine .release List.mem_cons_self ?_ ?_ (Or.inr ⟨_, rfl, fun h => nomatch h⟩)
    · intro op hop
      dsimp only [Effect.release] at hop
      split at hop <;> exact List.mem_singleton.mp hop
    · intro task' hnext
      dsimp only [Effect.release] at hnext
      split at hnext
      · rw [← Option.some.inj hnext]
        exact trivial
      · exact nomatch hnext
  | _ => exact nomatch h

theorem stage_effect {task : Task} {effect : Effect} (hopens : task.job.Opens req)
    (heffect : s.effect cfg task = some effect) : Stage req task effect := by
  obtain ⟨job, wait⟩ := task
  cases wait with
  | call call => exact nomatch heffect
  | immediate =>
    cases job with
    | tryNext get => exact False.elim hopens
    | notFound get => exact False.elim hopens
    | _ => exact nomatch heffect
  | reply reply =>
    cases job with
    | getDelivery req' =>
      obtain rfl : req' = req := hopens
      exact stage_serverDelivery heffect
    | deleted id seq _lock caller =>
      cases caller with
      | request req' =>
        obtain ⟨rfl, rfl⟩ := hopens
        exact stage_releaseDeleted heffect
      | _ => exact False.elim hopens
    | deferred req' =>
      obtain rfl : req' = req := hopens
      exact stage_deferDeferred heffect
    | _ => exact False.elim hopens

/-- After the release the request only answers, or goes on to remove the message. -/
theorem closes_effect {task task' : Task} {effect : Effect} (hcloses : task.job.Closes)
    (heffect : s.effect cfg task = some effect) (hnext : effect.next = some task') :
    task'.job.Closes := by
  cases goes_effect heffect hnext with
  | unreferenced id caller =>
    cases caller with
    | request req => exact trivial
    | _ => exact False.elim hcloses
  | removeMessage caller file =>
    cases caller with
    | request req => exact trivial
    | _ => exact False.elim hcloses
  | @released job caller next reply hcaller hreturns =>
    -- the caller is the request, which answers
    cases job with
    | reference id caller =>
      obtain rfl := Option.some.inj hcaller
      cases hreturns <;> exact False.elim hcloses
    | removeMessage caller =>
      obtain rfl := Option.some.inj hcaller
      cases hreturns <;> exact False.elim hcloses
    | fileDeleted caller =>
      obtain rfl := Option.some.inj hcaller
      cases hreturns <;> exact False.elim hcloses
    | deleted id seq _lock caller => exact False.elim hcloses
    | _ => exact nomatch hcaller
  | _ => exact False.elim hcloses

/-! ## Runs -/

/-- A step that is not the callback of a task leaves its job alone. -/
theorem job_step {e : Event} (h : s.step cfg e = some s') (hn : n < s.nextTask)
    (he : e ≠ .resume n) {task' : Task} (htask' : s'.tasks.lookup n = some task') :
    ∃ task, s.tasks.lookup n = some task ∧ task.job = task'.job := by
  cases taskStep h with
  | same _ htasks _ => exact ⟨task', htasks ▸ htask', rfl⟩
  | start _ htasks _ _ =>
    rw [htasks, ForStd.lookup_insert, if_neg (by omega)] at htask'
    exact ⟨task', htask', rfl⟩
  | @exec m _ _ task call reply htask _ _ htasks _ =>
    rw [htasks, ForStd.lookup_insert] at htask'
    split at htask'
    · next hm =>
      obtain rfl := Option.some.inj htask'
      exact ⟨task, hm ▸ htask, rfl⟩
    · exact ⟨task', htask', rfl⟩
  | @resume m _ effect _ _ htasks _ =>
    have hne : n ≠ m := fun hm => he (hm ▸ rfl)
    rw [htasks] at htask'
    split at htask'
    · rw [ForStd.lookup_insert, if_neg hne] at htask'
      exact ⟨task', htask', rfl⟩
    · rw [ForStd.lookup_erase, if_neg hne] at htask'
      exact ⟨task', htask', rfl⟩

theorem nextTask_step {e : Event} (h : s.step cfg e = some s') : s.nextTask ≤ s'.nextTask := by
  cases taskStep h with
  | same _ _ hnext => omega
  | start _ _ hnext _ => omega
  | exec _ _ _ _ hnext => omega
  | resume _ _ _ hnext => omega

/-- The callback of a task. -/
theorem resume_step (h : s.step cfg (.resume n) = some s') : ∃ task effect,
    s.tasks.lookup n = some task ∧ s.effect cfg task = some effect ∧
      s.lockOps cfg (.resume n) = effect.ops ∧ s'.tasks.lookup n = effect.next := by
  cases taskStep h with
  | same he _ _ => exact absurd rfl (he n)
  | start he _ _ _ => exact absurd rfl (he n)
  | @resume n task effect htask heffect htasks _ =>
    refine ⟨task, effect, htask, heffect, lockOps_resume htask heffect, ?_⟩
    rw [htasks]
    cases effect.next with
    | none => exact (ForStd.lookup_erase _ _ _).trans (if_pos rfl)
    | some next => exact (ForStd.lookup_insert _ _ _ _).trans (if_pos rfl)

theorem Closed.of_step {e : Event} (hs : Closed n s) (h : s.step cfg e = some s') :
    Closed n s' := by
  refine ⟨Nat.lt_of_lt_of_le hs.1 (nextTask_step h), fun task' htask' => ?_⟩
  by_cases he : e = .resume n
  · subst he
    obtain ⟨task, effect, htask, heffect, -, hnext⟩ := resume_step h
    exact closes_effect (hs.2 task htask) heffect (hnext ▸ htask')
  · obtain ⟨task, htask, hjob⟩ := job_step h hs.1 he htask'
    exact hjob ▸ hs.2 task htask

/-- After the release nothing can fail. -/
theorem along_succeeds_of_closed (hs : Closed n s) (es : List Event) :
    Along (step cfg) (Succeeds n) s es := by
  induction es generalizing s with
  | nil => exact trivial
  | cons e es ih =>
    refine ⟨?_, fun t ht => ih (hs.of_step ht)⟩
    cases e with
    | resume m =>
      intro _
      split
      · next htask => exact False.elim (hs.2 _ htask)
      · next htask => exact False.elim (hs.2 _ htask)
      · exact trivial
    | _ => exact trivial

/-- A task that is over releases nothing. -/
theorem not_releases_of_none {_lock : String} (hn : n < s.nextTask)
    (htask : s.tasks.lookup n = none) (es : List Event) : ¬Releases cfg n _lock s es := by
  intro h
  obtain ⟨es₁, es₂, t, t', -, hrun, hstep, -⟩ := h
  have hnone : n < t.nextTask ∧ t.tasks.lookup n = none := by
    refine ForStd.run_invariant (I := fun t => n < t.nextTask ∧ t.tasks.lookup n = none)
      ?_ ⟨hn, htask⟩ hrun
    intro u e u' hu hu'
    refine ⟨Nat.lt_of_lt_of_le hu.1 (nextTask_step hu'), ?_⟩
    by_cases he : e = .resume n
    · subst he
      obtain ⟨task, -, hlookup, -⟩ := resume_step hu'
      exact nomatch hu.2.symm.trans hlookup
    · by_contra hsome
      obtain ⟨task', htask'⟩ := Option.ne_none_iff_exists'.mp hsome
      obtain ⟨task, hlookup, -⟩ := job_step hu' hu.1 he htask'
      exact nomatch hu.2.symm.trans hlookup
  obtain ⟨task, -, hlookup, -⟩ := resume_step hstep
  exact nomatch hnone.2.symm.trans hlookup

/-- A release in the first step of a run, or in the rest of it. -/
theorem releases_cons {_lock : String} {e : Event} {es : List Event}
    (h : s.step cfg e = some s') : Releases cfg n _lock s (e :: es) ↔
      (e = .resume n ∧ .release _lock ∈ s.lockOps cfg e ∧ s'.locks.lockExists _lock = false) ∨
        Releases cfg n _lock s' es := by
  constructor
  · intro ⟨es₁, es₂, t, t', hes, hrun, hstep, hops, hfree⟩
    cases es₁ with
    | nil =>
      obtain ⟨rfl, rfl⟩ := List.cons.inj hes
      obtain rfl := Option.some.inj hrun
      obtain rfl := Option.some.inj (h.symm.trans hstep)
      exact Or.inl ⟨rfl, hops, hfree⟩
    | cons e' es₁ =>
      obtain ⟨rfl, rfl⟩ := List.cons.inj hes
      obtain ⟨u, hu, hrun⟩ := ForStd.run_cons_eq_some.mp hrun
      obtain rfl := Option.some.inj (h.symm.trans hu)
      exact Or.inr ⟨es₁, es₂, t, t', rfl, hrun, hstep, hops, hfree⟩
  · intro hor
    cases hor with
    | inl hfirst =>
      obtain ⟨rfl, hops, hfree⟩ := hfirst
      exact ⟨[], es, s, s', rfl, rfl, h, hops, hfree⟩
    | inr hrest =>
      obtain ⟨es₁, es₂, t, t', rfl, hrun, hstep, hops, hfree⟩ := hrest
      exact ⟨e :: es₁, es₂, t, t', rfl, ForStd.run_cons_eq_some.mpr ⟨s', h, hrun⟩, hstep,
        hops, hfree⟩

/-- A step that only releases the lock frees its key. -/
theorem lockExists_of_release {_lock : String} {e : Event} (hq : s.locks.WF)
    (h : s.step cfg e = some s') (hmem : .release _lock ∈ s.lockOps cfg e)
    (hops : ∀ op ∈ s.lockOps cfg e, op = .release _lock) :
    s'.locks.lockExists _lock = false := by
  by_contra hex
  rw [Bool.not_eq_false, QueueLocker.lockExists_iff] at hex
  obtain ⟨lock, hlock, hkey⟩ := hex
  rw [locks_step h, QueueLocker.mem_locks_foldl hq] at hlock
  · exact hlock.2 _ hmem hkey
  · intro key zone domain lockOwner maxConnections ttl hlockOp
    exact nomatch hops _ hlockOp

/-- Before its lock is released: a request that is answered has released its lock if and only if
    its callbacks succeed. -/
theorem releases_iff_of_opens {es : List Event} {task : Task} (hq : s.locks.WF)
    (hfresh : FreshTasks s) (htask : s.tasks.lookup n = some task) (hopens : task.job.Opens req)
    (hrun : run (step cfg) s es = some s') (hanswered : s'.tasks.lookup n = none) :
    Releases cfg n req._lock s es ↔ Along (step cfg) (Succeeds n) s es := by
  induction es generalizing s task with
  | nil =>
    obtain rfl := Option.some.inj hrun
    exact nomatch htask.symm.trans hanswered
  | cons e es ih =>
    obtain ⟨t, ht, hrunt⟩ := ForStd.run_cons_eq_some.mp hrun
    have hqt := wf_step hq ht
    have hfresht := freshTasks_step hfresh ht
    have hn : n < s.nextTask := by
      by_contra hn
      exact nomatch htask.symm.trans (hfresh n (Nat.le_of_not_lt hn))
    have halong : ∀ {p : Prop}, p → (Along (step cfg) (Succeeds n) t es ↔
        p ∧ ∀ t', s.step cfg e = some t' → Along (step cfg) (Succeeds n) t' es) := by
      intro p hp
      refine ⟨fun hes => ⟨hp, fun t' ht' => ?_⟩, fun hes => hes.2 t ht⟩
      exact Option.some.inj (ht.symm.trans ht') ▸ hes
    rw [releases_cons ht]
    by_cases he : e = .resume n
    · subst he
      obtain ⟨task', effect, htask', heffect, hlockOps, hnext⟩ := resume_step ht
      obtain rfl := Option.some.inj (htask.symm.trans htask')
      rw [hlockOps]
      cases stage_effect hopens heffect with
      | next task' hnext' hopens' hops hfound =>
        have hrest := ih hqt hfresht (hnext.trans hnext') hopens' hrunt
        have hsucceeds : Succeeds n s (.resume n) := by
          obtain ⟨delivery, rfl⟩ := hfound
          intro _
          rw [htask]
          exact ⟨delivery, rfl⟩
        rw [hops, hrest, Along]
        simp only [List.not_mem_nil, false_and, and_false, false_or]
        exact halong hsucceeds
      | release hops hall hcloses hjob =>
        have hclosed : Closed n t := by
          refine ⟨Nat.lt_of_lt_of_le hn (nextTask_step ht), fun task' htask' => ?_⟩
          exact hcloses task' (hnext.symm.trans htask')
        have hfree := lockExists_of_release hq ht (hlockOps ▸ hops) (hlockOps ▸ hall)
        have hsucceeds : Succeeds n s (.resume n) := by
          intro _
          rw [htask]
          obtain ⟨id, seq, _lock, caller, hjob⟩ | ⟨reply, rfl, hreply⟩ := hjob
          · obtain ⟨job, wait⟩ := task
            obtain rfl : job = .deleted id seq _lock caller := hjob
            exact trivial
          · exact hreply
        refine ⟨fun _ => ⟨hsucceeds, fun t' _ => ?_⟩, fun _ => Or.inl ⟨rfl, hops, hfree⟩⟩
        rename_i ht'
        exact Option.some.inj (ht.symm.trans ht') ▸ along_succeeds_of_closed hclosed es
      | fail hnext' hops hreply =>
        have hgone : ¬Releases cfg n req._lock t es := not_releases_of_none
          (Nat.lt_of_lt_of_le hn (nextTask_step ht)) (hnext.trans hnext') es
        rw [hops]
        refine ⟨fun hor => ?_, fun hes => ?_⟩
        · exact hor.elim (fun h => nomatch h.2.1) fun h => absurd h hgone
        · have hsucceeds := hes.1 rfl
          rw [htask] at hsucceeds
          obtain rfl | rfl | rfl := hreply
          · obtain ⟨delivery, hdelivery⟩ := hsucceeds
            exact nomatch hdelivery
          · obtain ⟨delivery, hdelivery⟩ := hsucceeds
            exact nomatch hdelivery
          · exact absurd rfl hsucceeds
    · obtain ⟨wait, htaskt⟩ := lookup_tasks_step hfresh ht htask he
      have hrest := ih hqt hfresht htaskt hopens hrunt
      have hsucceeds : Succeeds n s e := by
        cases e with
        | resume m => exact fun hm => absurd (hm ▸ rfl) he
        | _ => exact trivial
      rw [hrest, or_iff_right fun h => he h.1, Along]
      exact halong hsucceeds

/-- A RELEASE or DEFER of a client that holds the lock it names has released the lock when it is
    answered, if and only if its callbacks succeed. -/
theorem releases_iff {db : Database} {es₀ es : List Event} {s₀ s₁ : Master} {c : Nat}
    {id seq _lock : String} {ttl : Option Nat}
    (hrun₀ : run (step cfg) { db := db } es₀ = some s₀) (hholds : s₀.HoldsLock c _lock)
    (hstep : s₀.step cfg (.request c id seq _lock ttl) = some s₁)
    (hrun : run (step cfg) s₁ es = some s) (hanswered : s.tasks.lookup s₀.nextTask = none) :
    Releases cfg s₀.nextTask _lock s₁ es ↔ Along (step cfg) (Succeeds s₀.nextTask) s₁ es := by
  have hq := wf_run hrun₀
  have hfresh : FreshTasks s₀ :=
    ForStd.run_invariant (fun _ _ _ ht hu => freshTasks_step ht hu) (fun _ _ => rfl) hrun₀
  obtain ⟨client, hclient, hzone, -⟩ := hholds
  have htask : ∃ req : Request, req._lock = _lock ∧
      s₁.tasks.lookup s₀.nextTask = some ⟨.getDelivery req, .call (.findDelivery id seq)⟩ := by
    obtain ⟨client', hclient', -, hreq⟩ := withClient_eq_some.mp hstep
    obtain rfl := Option.some.inj (hclient.symm.trans hclient')
    obtain rfl := Option.some.inj hreq
    rw [request, if_neg hzone]
    exact ⟨_, rfl, (ForStd.lookup_insert _ _ _ _).trans (if_pos rfl)⟩
  obtain ⟨req, rfl, htask⟩ := htask
  exact releases_iff_of_opens (wf_step hq hstep) (freshTasks_step hfresh hstep) htask rfl hrun
    hanswered

/-- RELEASE by the sender that has been sent the delivery. -/
def releaseHeld : Event := .request 1 "m" "001" "lock m 001" none

/-- All calls of RELEASE succeed. -/
def releaseCalls : List Event :=
  [.exec 1 0 .ok, .resume 1, .exec 1 0 .ok, .resume 1, .exec 1 0 .ok, .resume 1, .exec 1 0 .ok,
    .resume 1, .exec 1 0 .ok, .resume 1]

/-- The sender holds its delivery. -/
theorem holdsLock_answeredGet {s : Master} (h : run (step oneZone) {} answeredGet = some s) :
    s.nextTask = 1 ∧ s.HoldsLock 1 "lock m 001" := by
  have hfields : ((run (step oneZone) {} answeredGet).map fun s =>
      (s.nextTask, s.clients.lookup 1, s.locks.locks.map fun l => (l.key, l.lockOwner))) =
        some (1, some ⟨"c1", "default", true⟩, [("lock m 001", "c1")]) := by decide +kernel
  rw [h, Option.map_some, Option.some.injEq, Prod.mk.injEq, Prod.mk.injEq] at hfields
  obtain ⟨hnext, hclient, hlocks⟩ := hfields
  have hmem : ("lock m 001", "c1") ∈ s.locks.locks.map fun l => (l.key, l.lockOwner) := by
    rw [hlocks]
    exact List.mem_cons_self
  obtain ⟨lock, hlock, hkey⟩ := List.mem_map.mp hmem
  obtain ⟨hkey, howner⟩ := Prod.mk.inj hkey
  exact ⟨hnext, _, hclient, by decide, lock, hlock, hkey, howner⟩

theorem releases_iff_example :
    ∃ s₁, run (step oneZone) {} (answeredGet ++ [releaseHeld]) = some s₁ ∧
      (Releases oneZone 1 "lock m 001" s₁ releaseCalls ↔
        Along (step oneZone) (Succeeds 1) s₁ releaseCalls) := by
  have hrun : ((run (step oneZone) {} (answeredGet ++ releaseHeld :: releaseCalls)).map
      fun s => s.tasks.lookup 1) = some none := by decide +kernel
  obtain ⟨s, hs, hanswered⟩ := Option.map_eq_some_iff.mp hrun
  rw [ForStd.run_append, Option.bind_eq_some_iff] at hs
  obtain ⟨s₀, hs₀, hs⟩ := hs
  obtain ⟨s₁, hs₁, hs⟩ := ForStd.run_cons_eq_some.mp hs
  obtain ⟨hnext, hholds⟩ := holdsLock_answeredGet hs₀
  exact ⟨s₁, ForStd.run_concat.mpr ⟨s₀, hs₀, hs₁⟩,
    hnext ▸ releases_iff hs₀ hholds hs₁ hs (hnext ▸ hanswered)⟩

/-- The `findOne` of `getDelivery` fails. -/
def failedLookup : List Event := [.exec 1 0 .failed, .resume 1]

theorem released_failed :
    ¬∀ (cfg : Config) (es₀ es : List Event) (s₀ s : Master) (c : Nat) (id seq _lock : String)
      (ttl : Option Nat), run (step cfg) {} es₀ = some s₀ → s₀.HoldsLock c _lock →
        run (step cfg) s₀ (.request c id seq _lock ttl :: es) = some s →
          s.tasks.lookup s₀.nextTask = none → s.locks.lockExists _lock = false := by
  intro h
  have hrun : ((run (step oneZone) {} (answeredGet ++ releaseHeld :: failedLookup)).map
      fun s => (s.tasks.lookup 1, s.locks.lockExists "lock m 001")) = some (none, true) := by
    decide +kernel
  obtain ⟨s, hs, hfields⟩ := Option.map_eq_some_iff.mp hrun
  obtain ⟨hanswered, hlocked⟩ := Prod.mk.inj hfields
  rw [ForStd.run_append, Option.bind_eq_some_iff] at hs
  obtain ⟨s₀, hs₀, hs⟩ := hs
  obtain ⟨hnext, hholds⟩ := holdsLock_answeredGet hs₀
  have hfree := h oneZone answeredGet failedLookup s₀ s 1 "m" "001" "lock m 001" none hs₀ hholds hs
    (hnext ▸ hanswered)
  exact Bool.false_ne_true (hfree.symm.trans hlocked)

end Master

end ZoneMta
