import ZoneMta.Spec.MasterCorrect

/-!
# The end of a connection

When a connection ends, the locks of the client are released. A GET that is not finished goes
on: it takes a lock after that, and keeps it when its callback finds the client gone.

## Key results

- `getInv_step`: the locks of a client that is gone belong to its GETs that are not finished
- `leavesNoLocks`: they do not stay when no GET hands over its delivery after that
- `leavesNoLocks_late`: a GET whose lock stays
- `mem_locks_close`: the locks after the end of a connection
-/

namespace ZoneMta

open ForStd (run Along)
open QueueLocker (Op)

/-! ## GETs -/

/-- The `shift` that the callback of a `releaseDelivery` belongs to. -/
def Caller.get? : Caller → Option Get
  | .shift get _ => some get
  | _ => none

/-- The GET that a callback belongs to. -/
def Job.get? : Job → Option Get
  | .tryNext get | .fetched get | .notFound get => some get
  | .shiftMeta get _ | .messageDeleted get _ | .suppression get _ | .nextMeta get _ => some get
  | .deleted _ _ _ caller | .reference _ caller | .removeMessage caller
  | .fileDeleted caller => caller.get?
  | _ => none

/-- The lock that a GET has taken and not given back: its owner and its key. -/
def Job.lock? : Job → Option (String × String)
  | .shiftMeta get delivery | .messageDeleted get delivery | .suppression get delivery
  | .nextMeta get delivery => some (get.lockOwner, lockKey delivery.id delivery.seq)
  | .deleted _ _ _lock caller => caller.get?.map fun get => (get.lockOwner, _lock)
  | _ => none

theorem Job.get?_of_lock? {job : Job} {owner key : String} (h : job.lock? = some (owner, key)) :
    ∃ get, job.get? = some get ∧ get.lockOwner = owner := by
  cases job with
  | deleted id seq _lock caller =>
    obtain ⟨get, hget, heq⟩ := Option.map_eq_some_iff.mp h
    exact ⟨get, hget, congrArg Prod.fst heq⟩
  | shiftMeta get delivery => exact ⟨get, rfl, congrArg Prod.fst (Option.some.inj h)⟩
  | messageDeleted get delivery => exact ⟨get, rfl, congrArg Prod.fst (Option.some.inj h)⟩
  | suppression get delivery => exact ⟨get, rfl, congrArg Prod.fst (Option.some.inj h)⟩
  | nextMeta get delivery => exact ⟨get, rfl, congrArg Prod.fst (Option.some.inj h)⟩
  | _ => exact nomatch h

/-- The GET does not change from callback to callback. -/
theorem Goes.get? {cfg : Config} {now : Nat} {task next : Task} {get : Get}
    (h : Goes cfg now task next) (hget : next.job.get? = some get) : task.job.get? = some get := by
  cases h with
  -- `releaseDelivery` returns to the GET that called it
  | @released job caller _ _ hcaller hreturns =>
    have hjob : job.get? = caller.get? := by
      cases job with
      | deleted | reference | removeMessage | fileDeleted =>
        obtain rfl := Option.some.inj hcaller
        rfl
      | _ => exact nomatch hcaller
    cases hreturns with
    | shift => exact hjob.trans hget
    | _ => exact nomatch hget
  | deleted | unreferenced | removeMessage => exact hget
  | tryNext | notFound | locked | fetched | noBody | body | messageDeleted | suppressed
  | notSuppressed => exact hget
  | _ => exact nomatch hget

/-- A GET that has a lock releases it or still has it after the callback, unless it hands the
    delivery over. -/
theorem lock?_callback {cfg : Config} {now : Nat} {locks : QueueLocker} {job : Job}
    {reply : Reply} {effect : Effect} {owner key : String}
    (h : callback cfg now locks job reply = some effect)
    (hlock : job.lock? = some (owner, key)) :
    .release key ∈ effect.ops ∨
      (∃ next, effect.next = some next ∧ next.job.lock? = some (owner, key)) ∨
      ∃ get delivery file, job = .nextMeta get delivery ∧ reply = .file file := by
  cases job with
  | shiftMeta get delivery =>
    obtain ⟨rfl, rfl⟩ := Prod.mk.inj (Option.some.inj hlock)
    simp only [callback] at h
    cases reply with
    | error => obtain rfl := Option.some.inj h; exact Or.inl List.mem_cons_self
    | file file =>
      cases file with
      | none => obtain rfl := Option.some.inj h; exact Or.inr (Or.inl ⟨_, rfl, rfl⟩)
      | some file => obtain rfl := Option.some.inj h; exact Or.inr (Or.inl ⟨_, rfl, rfl⟩)
    | _ => cases h
  | messageDeleted get delivery =>
    obtain ⟨rfl, rfl⟩ := Prod.mk.inj (Option.some.inj hlock)
    obtain rfl := Option.some.inj h
    exact Or.inl List.mem_cons_self
  | suppression get delivery =>
    obtain ⟨rfl, rfl⟩ := Prod.mk.inj (Option.some.inj hlock)
    simp only [callback, shiftSuppression] at h
    split at h
    · obtain rfl := Option.some.inj h; exact Or.inr (Or.inl ⟨_, rfl, rfl⟩)
    · obtain rfl := Option.some.inj h; exact Or.inr (Or.inl ⟨_, rfl, rfl⟩)
  | nextMeta get delivery =>
    obtain ⟨rfl, rfl⟩ := Prod.mk.inj (Option.some.inj hlock)
    simp only [callback] at h
    cases reply with
    | error => obtain rfl := Option.some.inj h; exact Or.inl List.mem_cons_self
    | file file => exact Or.inr (Or.inr ⟨get, delivery, file, rfl, rfl⟩)
    | _ => cases h
  | deleted id seq _lock caller =>
    obtain ⟨get, hget, heq⟩ := Option.map_eq_some_iff.mp hlock
    obtain rfl : _lock = key := congrArg Prod.snd heq
    simp only [callback] at h
    cases reply with
    | error => obtain rfl := Option.some.inj h; exact Or.inl List.mem_cons_self
    | done => obtain rfl := Option.some.inj h; exact Or.inl List.mem_cons_self
    | _ => cases h
  | _ => cases hlock

/-! ## API deletions -/

/-- The owner of the locks of the `remove` that called `releaseDelivery`. -/
def Caller.owner? : Caller → Option String
  | .remove owner _ => some owner
  | _ => none

/-- The owner of the locks of the `remove` that a callback belongs to. -/
def Job.owner? : Job → Option String
  | .removeFound owner | .removeNext owner _ => some owner
  | .deleted _ _ _ caller | .reference _ caller | .removeMessage caller
  | .fileDeleted caller => caller.owner?
  | _ => none

/-- The ids that `remove` makes for the owner of its locks. -/
def IsDeleteId (owner : String) : Prop := "delete:".toList <+: owner.toList

theorem isDeleteId_deleteId (random : String) : IsDeleteId (deleteId random) := by
  rw [IsDeleteId, deleteId, String.toList_append]
  exact List.prefix_append _ _

/-- The owner does not change from callback to callback. -/
theorem Goes.owner? {cfg : Config} {now : Nat} {task next : Task} {owner : String}
    (h : Goes cfg now task next) (howner : next.job.owner? = some owner) :
    task.job.owner? = some owner := by
  cases h with
  | removeFound => exact howner
  | removeNext => exact howner
  | removeLocked => exact howner
  | deleted => exact howner
  | unreferenced => exact howner
  | removeMessage => exact howner
  | @released job caller _ _ hcaller hreturns =>
    have hjob : job.owner? = caller.owner? := by
      cases job with
      | deleted | reference | removeMessage | fileDeleted =>
        obtain rfl := Option.some.inj hcaller
        rfl
      | _ => exact nomatch hcaller
    cases hreturns with
    | remove => exact hjob.trans howner
    | _ => exact nomatch howner
  | _ => exact nomatch howner

namespace Master

variable {cfg : Config} {s s' : Master}

/-! ## Locks of clients that are gone -/

/-- No client has the id of a `remove`. -/
def ClientIds (s : Master) : Prop :=
  ∀ c client, s.clients.lookup c = some client → ¬IsDeleteId client.id

theorem clientIds_step {e : Event} (hs : ClientIds s) (h : s.step cfg e = some s') :
    ClientIds s' := by
  have hinsert : ∀ {c' : Nat} {client' : Client}, ¬IsDeleteId client'.id →
      ∀ c client, (s.clients.insert c' client').lookup c = some client →
        ¬IsDeleteId client.id := by
    intro c' client' hid c client hclient
    rw [ForStd.lookup_insert] at hclient
    split at hclient
    · exact Option.some.inj hclient ▸ hid
    · exact hs c client hclient
  cases step_cases h with
  | connect =>
    refine hinsert ?_
    show ¬"delete:".toList <+: []
    rw [List.prefix_nil]
    decide
  | hello _ _ hid hid' => exact hinsert (hid' ▸ hid)
  | refuse _ hid => exact hinsert hid
  | @close c client hclient =>
    exact hinsert (show ¬IsDeleteId client.id from hs c client hclient)
  | @get c client =>
    rcases get_cases cfg s c client with ⟨-, hget⟩ | ⟨-, -, get, hget⟩ | ⟨-, -, get, hget⟩
    · rw [hget]; exact hs
    · rw [hget]; exact hs
    · rw [hget]; exact hs
  | @request c client id seq _lock ttl =>
    rcases request_cases s c client id seq _lock ttl with hreq | ⟨req, -, hreq⟩
    · rw [hreq]; exact hs
    · rw [hreq]; exact hs
  | @exec n choice outcome job call =>
    obtain ⟨db, reply, hexec, -⟩ := exec_cases s n job call choice outcome
    rw [hexec]
    exact hs
  | _ => exact hs

/-- The owner of the locks of a `remove` is the id that was made for it. -/
def RemoveOwners (s : Master) : Prop :=
  ∀ n task owner, s.tasks.lookup n = some task → task.job.owner? = some owner → IsDeleteId owner

theorem removeOwners_step {e : Event} (hs : RemoveOwners s) (h : s.step cfg e = some s') :
    RemoveOwners s' := by
  intro m task owner htask howner
  rcases lookup_tasks_of_step h htask with hbefore | hstart |
    ⟨job, call, reply, rfl, hbefore, -⟩ | ⟨before, -, hbefore, hgoes⟩
  · exact hs m task owner hbefore howner
  · cases hstart with
    | removeFound random id seq => exact Option.some.inj howner ▸ isDeleteId_deleteId random
    | _ => exact nomatch howner
  · exact hs m _ owner hbefore howner
  · exact hs m before owner hbefore (hgoes.owner? howner)

/-- When a GET hands over a delivery whose lock it still has, its client is connected. -/
def HandsOverInTime (s : Master) : Event → Prop
  | .resume n =>
    match s.tasks.lookup n with
    | some ⟨.nextMeta get delivery, .reply (.file _)⟩ =>
      get.lockOwner ≠ "" →
        (∃ lock ∈ s.locks.locks,
          lock.key = lockKey delivery.id delivery.seq ∧ lock.lockOwner = get.lockOwner) →
            ∀ entry ∈ s.clients.entries, entry.2.id = get.lockOwner → entry.2.connected = true
    | _ => True
  | _ => True

instance (s : Master) (e : Event) : Decidable (HandsOverInTime s e) := by
  unfold HandsOverInTime
  split
  · split <;> infer_instance
  · infer_instance

/-- The locks of a client that is gone belong to its GETs that are not finished. -/
structure GetInv (s : Master) : Prop where
  wf : s.locks.WF
  fresh : FreshTasks s
  ids : ClientIds s
  owners : RemoveOwners s
  held : ∀ c client, s.clients.lookup c = some client → client.connected = false →
    client.id ≠ "" → ∀ lock ∈ s.locks.locks, lock.lockOwner = client.id →
      ∃ n task, s.tasks.lookup n = some task ∧
        task.job.lock? = some (lock.lockOwner, lock.key)

/-- The lock that a step spares has its GET after it, unless the GET hands its delivery over. -/
theorem lock?_step {e : Event} (hs : GetInv s) (he : HandsOverInTime s e)
    (h : s.step cfg e = some s') {c : Nat} {client : Client}
    (hclient : s.clients.lookup c = some client) (hclosed : client.connected = false)
    (hid : client.id ≠ "") {lock : Lock} (hlock : lock ∈ s.locks.locks)
    (howner : lock.lockOwner = client.id) (hspare : ∀ op ∈ s.lockOps cfg e, op.Spares s.now lock) :
    ∃ n task, s'.tasks.lookup n = some task ∧
      task.job.lock? = some (lock.lockOwner, lock.key) := by
  obtain ⟨n, task, htask, hjob⟩ := hs.held c client hclient hclosed hid lock hlock howner
  by_cases hresume : e = .resume n
  · subst hresume
    cases taskStep h with
    | same hne _ _ => exact absurd rfl (hne n)
    | start hne _ _ _ => exact absurd rfl (hne n)
    | @resume _ task' effect htask' heffect htasks _ =>
      obtain rfl := Option.some.inj (htask.symm.trans htask')
      rw [lockOps_resume htask heffect] at hspare
      obtain ⟨job, wait⟩ := task
      cases wait with
      | immediate =>
        cases job with
        | tryNext get => exact nomatch hjob
        | notFound get => exact nomatch hjob
        | _ => exact nomatch heffect
      | call call => exact nomatch heffect
      | reply reply =>
        rcases lock?_callback heffect hjob with hrel | ⟨next, hnext, hnextJob⟩ |
          ⟨get, delivery, file, rfl, rfl⟩
        · exact absurd rfl (hspare _ hrel)
        · rw [hnext] at htasks
          exact ⟨n, next, by rw [htasks, ForStd.lookup_insert, if_pos rfl], hnextJob⟩
        · -- the client is gone
          obtain ⟨hget, hkey⟩ := Prod.mk.inj (Option.some.inj hjob)
          simp only [HandsOverInTime, htask] at he
          have hgone := he (by rw [hget, howner]; exact hid) ⟨lock, hlock, hkey.symm, hget.symm⟩
            ⟨c, client⟩ (AList.mem_lookup_iff.mp hclient) (howner.symm.trans hget.symm)
          rw [hclosed] at hgone
          exact absurd hgone Bool.false_ne_true
  · obtain ⟨wait, htask'⟩ := lookup_tasks_step hs.fresh h htask hresume
    exact ⟨n, _, htask', hjob⟩

/-- The lock that a GET takes belongs to it. -/
theorem lock?_fetches {e : Event} (h : s.step cfg e = some s') {get : Get} {delivery : Delivery}
    (hfetch : s.Fetches e get delivery)
    (hfree : s.locks.lockExists (lockKey delivery.id delivery.seq) = false) :
    ∃ n task, s'.tasks.lookup n = some task ∧
      task.job.lock? = some (get.lockOwner, lockKey delivery.id delivery.seq) := by
  obtain ⟨n, rfl, htask⟩ := hfetch
  cases taskStep h with
  | same hne _ _ => exact absurd rfl (hne n)
  | start hne _ _ _ => exact absurd rfl (hne n)
  | @resume _ task' effect htask' heffect htasks _ =>
    obtain rfl := Option.some.inj (htask.symm.trans htask')
    obtain rfl := Option.some.inj heffect
    rw [QueueLocker.fst_lock, hfree, Bool.not_false, if_pos rfl] at htasks
    exact ⟨n, ⟨.shiftMeta get delivery, .call (.findFile delivery.id)⟩,
      by rw [htasks]; exact (ForStd.lookup_insert _ _ _ _).trans (if_pos rfl), rfl⟩

theorem getInv_step {e : Event} (hs : GetInv s) (he : HandsOverInTime s e)
    (h : s.step cfg e = some s') : GetInv s' where
  wf := wf_step hs.wf h
  fresh := freshTasks_step hs.fresh h
  ids := clientIds_step hs.ids h
  owners := removeOwners_step hs.owners h
  held := by
    intro c client hclient hclosed hid lock hlock howner
    rcases (mem_locks_step hs.wf h).mp hlock with ⟨hold, hspare⟩ |
      ⟨key, zone, domain, o, m, ttl, hop, hfree, rfl⟩
    · rcases closed_step h hclient hclosed with hbefore | hops
      · exact lock?_step hs he h hbefore hclosed hid hold howner hspare
      · -- the step has released the locks of the client
        rw [hops, closeOps, if_neg hid] at hspare
        exact absurd howner (hspare _ List.mem_cons_self)
    · rcases (lockOps_lock hop).2 with ⟨get, delivery, hfetch, heq⟩ |
        ⟨owner, delivery, ⟨n, rest, reply, -, htask⟩, heq⟩
      · injection heq with hkey _ _ ho _ _
        subst hkey ho
        exact lock?_fetches h hfetch hfree
      · -- the lock of a `remove`
        injection heq with _ _ _ ho _ _
        have hdelete := hs.owners n _ owner htask rfl
        rcases closed_step h hclient hclosed with hbefore | hops
        · rw [← ho] at hdelete
          exact absurd (howner ▸ hdelete) (hs.ids c client hbefore)
        · rw [hops] at hop
          exact absurd hop not_lock_mem_closeOps

/-- The master process before its first client. -/
theorem getInv_init (db : Database) : GetInv { db := db } where
  wf := QueueLocker.wf_empty
  fresh n _ := AList.lookup_empty n
  ids c _ h := nomatch (AList.lookup_empty c).symm.trans h
  owners n _ _ h := nomatch (AList.lookup_empty n).symm.trans h
  held c _ h := nomatch (AList.lookup_empty c).symm.trans h

/-- A client that is gone, and whose GETs are finished, has no lock. -/
def LeavesNoLocks (s : Master) : Prop :=
  ∀ c client, s.clients.lookup c = some client → client.connected = false → client.id ≠ "" →
    (∀ n task get, s.tasks.lookup n = some task → task.job.get? = some get →
      get.lockOwner ≠ client.id) →
        ∀ lock ∈ s.locks.locks, lock.lockOwner ≠ client.id

/-- In every run in which no GET hands over a delivery, with its lock, to a client that is
    gone, no client leaves locks behind. -/
theorem leavesNoLocks {db : Database} {es : List Event}
    (hes : Along (step cfg) HandsOverInTime { db := db } es)
    (hrun : run (step cfg) { db := db } es = some s) : LeavesNoLocks s := by
  have hinv : GetInv s := ForStd.run_invariant_along
    (fun _ _ _ ht he hstep => getInv_step ht he hstep) (getInv_init db) hes hrun
  intro c client hclient hclosed hid hdone lock hlock howner
  obtain ⟨n, task, htask, hjob⟩ := hinv.held c client hclient hclosed hid lock hlock howner
  obtain ⟨get, hget, hgetOwner⟩ := Job.get?_of_lock? hjob
  exact hdone n task get htask hget (hgetOwner.trans howner)

/-- A configuration of one zone. -/
def oneZone : Config where
  instanceId := "default"
  sendingZone := some
  maxConnections _ := 0
  disableGC := true
  maxQueueTime := 0
  text := .ascii

/-- A message with one recipient, and a sender that calls GET. -/
def oneGet : List Event :=
  [.tick 1600000000000, .openUpload "m" 1, .finishUpload ⟨1600000000, 1⟩,
    .push "m" [⟨⟨1600000000, 2⟩, 1, "user@example.com", "example.com", "default",
      1600000000000, 1600000000000⟩],
    .connect 1, .hello 1 "c1" (some "default"), .get 1, .resume 0, .exec 0 0 .ok]

/-- The sender is gone before the lock is taken, and its GET runs to its end. -/
def lateGet : List Event :=
  oneGet ++ [.close 1, .resume 0, .exec 0 0 .ok, .resume 0, .exec 0 0 .ok, .resume 0,
    .exec 0 0 .ok, .resume 0]

theorem leavesNoLocks_late :
    ¬∀ (cfg : Config) (es : List Event) (s : Master), run (step cfg) {} es = some s →
      LeavesNoLocks s := by
  intro h
  have hrun : ((run (step oneZone) {} lateGet).map fun s =>
      (s.clients.lookup 1, s.tasks.entries, s.locks.locks.map (·.lockOwner))) =
        some (some ⟨"c1", "default", false⟩, [], ["c1"]) := by decide +kernel
  obtain ⟨s, hs, hfields⟩ := Option.map_eq_some_iff.mp hrun
  obtain ⟨hclient, hfields⟩ := Prod.mk.inj hfields
  obtain ⟨htasks, howners⟩ := Prod.mk.inj hfields
  have howner : "c1" ∈ s.locks.locks.map (·.lockOwner) := by rw [howners]; decide
  obtain ⟨lock, hlock, hlockOwner⟩ := List.mem_map.mp howner
  refine h oneZone lateGet s hs 1 _ hclient rfl (by decide) ?_ lock hlock hlockOwner
  intro n task get htask
  rw [ForStd.lookup_of_entries_eq_nil htasks] at htask
  exact nomatch htask

/-- The sender is gone while its GET has the lock: it is released then. -/
def closedGet : List Event :=
  oneGet ++ [.resume 0, .close 1, .exec 0 0 .ok, .resume 0, .exec 0 0 .ok, .resume 0,
    .exec 0 0 .ok, .resume 0]

theorem leavesNoLocks_closed :
    ∃ s, run (step oneZone) { db := {} } closedGet = some s ∧ LeavesNoLocks s := by
  have hrun : (run (step oneZone) { db := {} } closedGet).isSome = true := by decide +kernel
  obtain ⟨s, hs⟩ := Option.isSome_iff_exists.mp hrun
  exact ⟨s, hs, leavesNoLocks (by decide +kernel) hs⟩

/-! ## The end of a connection -/

/-- The locker is well-formed in every run. -/
theorem wf_run {db : Database} {es : List Event}
    (hrun : run (step cfg) { db := db } es = some s) : s.locks.WF :=
  ForStd.run_invariant (I := fun t => t.locks.WF) (fun _ _ _ ht hstep => wf_step ht hstep)
    QueueLocker.wf_empty hrun

/-- The locks after the end of a connection. -/
theorem mem_locks_close (hq : s.locks.WF) {c : Nat} {client : Client}
    (hclient : s.clients.lookup c = some client) (h : s.step cfg (.close c) = some s')
    {lock : Lock} :
    lock ∈ s'.locks.locks ↔
      lock ∈ s.locks.locks ∧ (client.id = "" ∨ lock.lockOwner ≠ client.id) := by
  have hops : s.lockOps cfg (.close c) = closeOps client.id := by
    rw [lockOps, hclient]
    rfl
  rw [mem_locks_step hq h, hops]
  refine (or_iff_left ?_).trans (and_congr_right fun _ => ?_)
  · rintro ⟨key, zone, domain, o, m, ttl, hop, -⟩
    exact not_lock_mem_closeOps hop
  · unfold closeOps
    split
    · next hid => exact ⟨fun _ => Or.inl hid, fun _ op hop => absurd hop List.not_mem_nil⟩
    · next hid =>
      constructor
      · exact fun hall => Or.inr (hall _ List.mem_cons_self)
      · intro hor op hop
        rw [List.mem_singleton.mp hop]
        exact hor.resolve_left hid

/-- The sender has been sent the delivery. -/
def answeredGet : List Event :=
  oneGet ++ [.resume 0, .exec 0 0 .ok, .resume 0, .exec 0 0 .ok, .resume 0, .exec 0 0 .ok,
    .resume 0]

/-- The document of the delivery that the sender has been sent. -/
def heldDelivery : Delivery where
  _id := ⟨1600000000, 2⟩
  id := "m"
  seq := "001"
  domain := "example.com"
  sendingZone := "default"
  recipient := "user@example.com"
  locked := true
  lockTime := 1600000000000
  assigned := "default"
  queued := 1600000000000
  created := 1600000000000
  _deferred := none

end Master

end ZoneMta
