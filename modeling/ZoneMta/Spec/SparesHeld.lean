import ZoneMta.Spec.Holds

/-!
# Deletions of held deliveries

`remove` takes the lock of a delivery before it deletes the document, and `clearGarbage` asks for
documents that are not locked. Between that question and the delete, which comes after those of all
documents in front of it, a GET may be handed the delivery. The lock of a `remove` may be gone when
its delete takes effect: it expires after a minute, and a RELEASE with its key frees it.

## Key results

- `getOwners_step`: no GET has the id of a `remove` for the owner of its locks
- `sparesHeld_of_along`: deletes that find no lock of a client spare what the clients hold
- `deletes_held`: a sweep that deletes a delivery which a client holds
-/

namespace ZoneMta

open ForStd (run Along)

/-- A `remove` or a sweep. -/
def Caller.erases : Caller → Bool
  | .remove .. | .clearGarbage _ => true
  | _ => false

namespace Master

variable {cfg : Config} {s s' : Master}

/-! ## The owners of the locks of GETs -/

/-- No GET has the id of a `remove`. -/
def GetOwners (s : Master) : Prop :=
  ∀ n task get, s.tasks.lookup n = some task → task.job.get? = some get →
    ¬IsDeleteId get.lockOwner

/-- A new GET is for its client. -/
theorem lookup_tasks_get {c m : Nat} {client : Client} {task : Task} {get : Get}
    (htask : (s.get cfg c client).tasks.lookup m = some task) (hget : task.job.get? = some get) :
    s.tasks.lookup m = some task ∨ get.lockOwner = client.id := by
  unfold Master.get at htask
  dsimp only at htask
  split at htask
  · exact Or.inl htask
  · split at htask
    · simp only [start, ForStd.lookup_insert] at htask
      split at htask
      · obtain rfl := Option.some.inj htask
        exact Or.inr (Option.some.inj hget ▸ rfl)
      · exact Or.inl htask
    · simp only [start, ForStd.lookup_insert] at htask
      split at htask
      · obtain rfl := Option.some.inj htask
        exact Or.inr (Option.some.inj hget ▸ rfl)
      · exact Or.inl htask

/-- A task for a GET was there before, or it is new and for a client. -/
theorem get?_of_step {e : Event} (h : s.step cfg e = some s') {m : Nat} {task : Task} {get : Get}
    (htask : s'.tasks.lookup m = some task) (hget : task.job.get? = some get) :
    (∃ before, s.tasks.lookup m = some before ∧ before.job.get? = some get) ∨
      ∃ c client, s.clients.lookup c = some client ∧ get.lockOwner = client.id := by
  -- a task without a GET that is started
  have hstart : ∀ {t : Master} {new : Task}, t.tasks = s.tasks → new.job.get? = none →
      (t.start new).tasks.lookup m = some task → s.tasks.lookup m = some task := by
    intro t new htasks hnew htask
    simp only [start, ForStd.lookup_insert, htasks] at htask
    split at htask
    · obtain rfl := Option.some.inj htask
      exact nomatch hnew.symm.trans hget
    · exact htask
  cases step_cases h with
  | @get c client hclient =>
    rcases lookup_tasks_get htask hget with hbefore | howner
    · exact Or.inl ⟨task, hbefore, hget⟩
    · exact Or.inr ⟨c, client, hclient, howner⟩
  | @request c client id seq _lock ttl =>
    rcases request_cases s c client id seq _lock ttl with hreq | ⟨req, -, hreq⟩
    · rw [hreq] at htask
      exact Or.inl ⟨task, htask, hget⟩
    · rw [hreq] at htask
      exact Or.inl ⟨task, hstart rfl rfl htask, hget⟩
  -- a call and its reply have the same GET
  | @exec n choice outcome job call hbefore =>
    obtain ⟨db, reply, hexec, -⟩ := exec_cases s n job call choice outcome
    rw [hexec] at htask
    simp only [ForStd.lookup_insert] at htask
    split at htask
    · next hm =>
      obtain rfl := Option.some.inj htask
      exact Or.inl ⟨⟨job, .call call⟩, hm ▸ hbefore, hget⟩
    · exact Or.inl ⟨task, htask, hget⟩
  | @resume n before effect hbefore heffect =>
    simp only [perform] at htask
    split at htask
    · next next hnext =>
      rw [ForStd.lookup_insert] at htask
      split at htask
      · next hm =>
        obtain rfl := Option.some.inj htask
        exact Or.inl ⟨before, hm ▸ hbefore, (goes_effect heffect hnext).get? hget⟩
      · exact Or.inl ⟨task, htask, hget⟩
    · rw [ForStd.lookup_erase] at htask
      split at htask
      · exact nomatch htask
      · exact Or.inl ⟨task, htask, hget⟩
  | remove => exact Or.inl ⟨task, hstart rfl rfl htask, hget⟩
  | clearGarbage => exact Or.inl ⟨task, hstart rfl rfl htask, hget⟩
  | _ => exact Or.inl ⟨task, htask, hget⟩

theorem getOwners_step {e : Event} (hclients : ClientIds s) (hs : GetOwners s)
    (h : s.step cfg e = some s') : GetOwners s' := by
  intro m task get htask hget
  rcases get?_of_step h htask hget with ⟨before, hbefore, hgetBefore⟩ | ⟨c, client, hclient, howner⟩
  · exact hs m before get hbefore hgetBefore
  · rw [howner]
    exact hclients c client hclient

/-! ## The deletes -/

/-- The `deleteOne` of `releaseDelivery` that the step runs: its caller and the delivery. -/
def deletes (s : Master) : Event → Option (Caller × String × String)
  | .exec _ _ .failed => none
  | .exec n _ _ =>
    match s.tasks.lookup n with
    | some ⟨.deleted _ _ _ caller, .call (.deleteDelivery id seq)⟩ => some (caller, id, seq)
    | _ => none
  | _ => none

/-- No client has the lock of the delivery: a `remove` that deletes it still has the lock, and a
    sweep finds no lock, or that of a `remove`. -/
def Unlocked (s : Master) (id seq : String) : Caller → Prop
  | .remove owner _ => ∃ lock ∈ s.locks.locks, lock.key = lockKey id seq ∧ lock.lockOwner = owner
  | .clearGarbage _ =>
    ∀ lock ∈ s.locks.locks, lock.key = lockKey id seq → IsDeleteId lock.lockOwner
  | _ => True

/-- A delete of a `remove` or of a sweep finds no lock of a client. -/
def FindsUnlocked (s : Master) (e : Event) : Prop :=
  ∀ x ∈ s.deletes e, s.Unlocked x.2.1 x.2.2 x.1

instance (owner : String) : Decidable (IsDeleteId owner) :=
  inferInstanceAs (Decidable ("delete:".toList <+: owner.toList))

instance (s : Master) (id seq : String) : (caller : Caller) → Decidable (s.Unlocked id seq caller)
  | .remove owner _ => inferInstanceAs (Decidable
      (∃ lock ∈ s.locks.locks, lock.key = lockKey id seq ∧ lock.lockOwner = owner))
  | .clearGarbage _ => inferInstanceAs (Decidable
      (∀ lock ∈ s.locks.locks, lock.key = lockKey id seq → IsDeleteId lock.lockOwner))
  | .shift .. => isTrue trivial
  | .request _ => isTrue trivial

instance (s : Master) (e : Event) : Decidable (FindsUnlocked s e) :=
  inferInstanceAs (Decidable (∀ x ∈ s.deletes e, _))

end Master

namespace Watched

open Master (ClientIds RemoveOwners GetOwners FindsUnlocked)

variable {cfg : Config} {w w' : Watched}

/-- A `remove` or a sweep deletes no delivery that a client was granted. -/
def SparesHeld (w : Watched) (e : Event) : Prop :=
  ∀ x ∈ w.master.deletes e, x.1.erases = true →
    ∀ hold ∈ w.holds, w.master.now < hold.expires → ¬(hold.id = x.2.1 ∧ hold.seq = x.2.2)

instance (w : Watched) (e : Event) : Decidable (SparesHeld w e) :=
  inferInstanceAs (Decidable (∀ x ∈ w.master.deletes e, _))

/-- What is granted has its lock, and its owner is no `remove`. -/
structure Guarded (w : Watched) : Prop where
  backed : Backed w
  clients : ClientIds w.master
  removes : RemoveOwners w.master
  gets : GetOwners w.master
  holds : ∀ hold ∈ w.holds, ¬IsDeleteId hold.client

theorem guarded_init (db : Database) : Guarded { master := { db := db } } where
  backed := ⟨QueueLocker.wf_empty, fun _ hmem => absurd hmem List.not_mem_nil⟩
  clients c _ h := nomatch (AList.lookup_empty c).symm.trans h
  removes n _ _ h := nomatch (AList.lookup_empty n).symm.trans h
  gets n _ _ h := nomatch (AList.lookup_empty n).symm.trans h
  holds _ h := absurd h List.not_mem_nil

/-- A delivery is granted to the owner of the locks of a GET. -/
theorem get_of_granted {s : Master} {e : Event} {hold : Hold} (h : hold ∈ s.granted e) :
    ∃ n task get, s.tasks.lookup n = some task ∧ task.job.get? = some get ∧
      hold.client = get.lockOwner := by
  cases e with
  | resume n =>
    simp only [Master.granted] at h
    split at h
    · next get delivery htask =>
      split at h
      · exact absurd h List.not_mem_nil
      · exact ⟨n, _, get, htask, rfl, by rw [List.mem_singleton.mp h]⟩
    · exact absurd h List.not_mem_nil
  | _ => exact absurd h List.not_mem_nil

theorem guarded_step {e : Event} (hw : Guarded w) (he : FreesNoHold cfg w e)
    (h : w.step cfg e = some w') : Guarded w' := by
  obtain ⟨master, hmaster, hw'⟩ := Option.map_eq_some_iff.mp h
  have hmaster' : w.master.step cfg e = some w'.master := by rw [hmaster, ← hw']
  -- the other fields do not depend on what is granted
  refine ⟨backed_step hw.backed he h, Master.clientIds_step hw.clients hmaster',
    Master.removeOwners_step hw.removes hmaster',
    Master.getOwners_step hw.clients hw.gets hmaster', fun hold hhold => ?_⟩
  rcases mem_holds_step h hhold with ⟨before, hbefore, -, hclient, -⟩ | hgrant
  · rw [hclient]
    exact hw.holds before hbefore
  · obtain ⟨n, task, get, htask, hget, hclient⟩ := get_of_granted hgrant
    rw [hclient]
    exact hw.gets n task get htask hget

/-- The caller of a delete is that of a task. -/
theorem task_of_deletes {s : Master} {e : Event} {caller : Caller} {id seq : String}
    (h : s.deletes e = some (caller, id, seq)) :
    ∃ n id' seq' _lock, s.tasks.lookup n =
      some ⟨.deleted id' seq' _lock caller, .call (.deleteDelivery id seq)⟩ := by
  unfold Master.deletes at h
  split at h
  · exact nomatch h
  · split at h
    · next htask =>
      obtain ⟨rfl, hids⟩ := Prod.mk.inj (Option.some.inj h)
      obtain ⟨rfl, rfl⟩ := Prod.mk.inj hids
      exact ⟨_, _, _, _, htask⟩
    · exact nomatch h
  · exact nomatch h

/-- A delete that finds no lock of a client is for no delivery that is granted to one. -/
theorem sparesHeld_of_findsUnlocked {e : Event} (hw : Guarded w)
    (he : FindsUnlocked w.master e) : SparesHeld w e := by
  rintro ⟨caller, id, seq⟩ hdeletes herases hold hhold hlive ⟨hid, hseq⟩
  -- the delivery has the lock of the client it is granted to
  obtain ⟨lock, hlock, hkey, howner, -⟩ := hw.backed.lock hold hhold hlive
  have hlockKey : lock.key = lockKey id seq := by
    rw [hkey, Hold.key]
    exact congrArg₂ lockKey hid hseq
  have hclient : ¬IsDeleteId lock.lockOwner := howner ▸ hw.holds hold hhold
  have hunlocked := he _ hdeletes
  cases caller with
  | remove owner rest =>
    obtain ⟨lock', hlock', hkey', howner'⟩ := hunlocked
    -- the delivery has one lock
    have hsame : lock' = lock :=
      hw.backed.wf.eq_of_key hlock' hlock (hkey'.trans hlockKey.symm)
    obtain ⟨n, id', seq', _lock, htask⟩ := task_of_deletes hdeletes
    -- its owner would be a `remove`
    have hdelete := hw.removes n _ owner htask rfl
    rw [← howner', hsame] at hdelete
    exact hclient hdelete
  | clearGarbage rest => exact hclient (hunlocked lock hlock hlockKey)
  | shift get delivery => cases herases
  | request req => cases herases

/-- In every run in which no release frees the lock of a delivery that is granted to someone else,
    and each delete of a `remove` or of a sweep finds no lock of a client, they delete no delivery
    that a client holds or is being sent. -/
theorem sparesHeld_of_along {db : Database} {es : List Event}
    (hes : Along (step cfg) (fun w e => FreesNoHold cfg w e ∧ FindsUnlocked w.master e)
      { master := { db := db } } es) :
    Along (step cfg) SparesHeld { master := { db := db } } es :=
  hes.imp (I := Guarded) (fun _ _ _ hw he h => guarded_step hw he.1 h)
    (fun _ _ hw he => sparesHeld_of_findsUnlocked hw he.2) (guarded_init db)

/-! ## A `remove` and a sweep -/

/-- A sender holds the delivery, and its message is deleted: the `remove` skips the delivery. -/
def removeHeld : List Event :=
  Master.answeredGet ++ [.remove "m" none "r", .exec 1 0 .ok, .resume 1, .exec 1 0 .ok, .resume 1,
    .exec 1 0 .ok, .resume 1]

theorem sparesHeld_of_along_removeHeld :
    (run (step Master.oneZone) { master := { db := {} } } removeHeld).map (fun w =>
      (w.holds.map (·.client), w.master.tasks.keys, w.master.db.queue.map (·.id))) =
        some (["c1"], [], ["m"]) ∧
      Along (step Master.oneZone) SparesHeld { master := { db := {} } } removeHeld :=
  ⟨by decide +kernel, sparesHeld_of_along (by decide +kernel)⟩

/-- Deliveries are kept for an hour. -/
def hourLimit : Config := { Master.oneZone with disableGC := false, maxQueueTime := 60 * 60 * 1000 }

/-- A sweep finds a delivery that is an hour old and not locked, and before it deletes the document
    the delivery is sent to a client. -/
def sweepHeld : List Event :=
  [.tick 1600000000000, .openUpload "m" 1, .finishUpload ⟨1600000000, 1⟩,
    .push "m" [⟨⟨1600000000, 2⟩, 1, "user@example.com", "example.com", "default",
      1600000000000, 1600000000000⟩],
    .tick (1600000000000 + 61 * 60 * 1000), .clearGarbage, .exec 0 0 .ok, .resume 0,
    .exec 0 0 .ok, .resume 0, .exec 0 0 .ok, .resume 0] ++ sendTo 1 1 "c1"

theorem deletes_held :
    (∃ w, run (step hourLimit) {} sweepHeld = some w ∧ (∃ hold, Held w hold ∧
      (hold.client, hold.id, hold.seq) = ("c1", "m", "001")) ∧
        w.master.db.queue.map (fun d => (d.id, d.seq, d.locked)) = [("m", "001", true)] ∧
          (w.step hourLimit (.exec 0 0 .ok)).map (·.master.db.queue) = some []) ∧
      ¬Along (step hourLimit) SparesHeld {} (sweepHeld ++ [.exec 0 0 .ok]) := by
  refine ⟨?_, by decide +kernel⟩
  have hrun : (run (step hourLimit) {} sweepHeld).any (fun w =>
      (∃ hold ∈ w.holds, (hold.answered = true ∧ w.master.now < hold.expires) ∧
        (hold.client, hold.id, hold.seq) = ("c1", "m", "001")) ∧
      w.master.db.queue.map (fun d => (d.id, d.seq, d.locked)) = [("m", "001", true)] ∧
        (w.step hourLimit (.exec 0 0 .ok)).map (·.master.db.queue) = some []) = true := by
    decide +kernel
  obtain ⟨w, hw, hfields⟩ := (Option.any_eq_true _ _).mp hrun
  obtain ⟨⟨hold, hhold, hheld, hids⟩, hqueue⟩ := of_decide_eq_true hfields
  exact ⟨w, hw, ⟨hold, ⟨hhold, hheld⟩, hids⟩, hqueue⟩

end Watched

end ZoneMta
