import ZoneMta.Spec.Disconnect

/-!
# What a call of shift leaves locked

`shift` locks a document in the database first, and then in the locker. It may go on without the
delivery: the locker refuses it, which is right if another client holds it, the message has no
metadata, or the recipient is suppressed. And it may give up: an error of `getMeta`, in `shift` or
in `findNext`, or of the `deleteOne` of a suppressed delivery. The errors release the lock of the
locker, and leave the document locked in the database.

## Key results

- `running_exec`, `inv_resume`: what one step of the call does to the documents it has locked
- `placed_of_along`: the documents that a call has locked, when what it does is taken back
- `stranded_getMeta`: an error of `getMeta`
-/

namespace ZoneMta

open ForStd (run Along)
open QueueLocker (Op)

/-- The delivery that a `findOneAndUpdate` returns. -/
def Reply.delivery? : Reply → Option Delivery
  | .delivery found => found
  | _ => none

namespace Master

/-- The document that a step of a call of `shift` locks in the database. -/
def taken (s : Master) : Event → List ObjectId
  | .exec m choice outcome =>
    match s.tasks.lookup m with
    | some ⟨_, .call (.fetch query lockTime)⟩ =>
      match outcome, (s.db.exec choice (.fetch query lockTime)).2 with
      | .failed, _ => []
      | _, .delivery (some delivery) => [delivery._id]
      | _, _ => []
    | _ => []
  | _ => []

end Master

/-- The master process, and the documents that a call of `shift` has locked. -/
structure Shifting where
  master : Master
  taken : List ObjectId := []
deriving DecidableEq

namespace Shifting

/-- A step of the call of the task. -/
def step (cfg : Config) (w : Shifting) (e : Event) : Option Shifting :=
  (w.master.step cfg e).map fun master =>
    { master := master, taken := w.taken ++ w.master.taken e }

/-- The event is a step of the task, or time passes. -/
def Of (n : Nat) : Event → Prop
  | .exec m _ _ | .resume m => m = n
  | .tick _ => True
  | _ => False

instance (n : Nat) : (e : Event) → Decidable (Of n e)
  | .exec m _ _ | .resume m => inferInstanceAs (Decidable (m = n))
  | .tick _ => instDecidableTrue
  | .connect .. | .hello .. | .close .. | .get .. | .request .. | .checkExpired | .cacheExpired
  | .remove .. | .clearGarbage | .openUpload .. | .writeChunk .. | .finishUpload .. | .setMeta ..
  | .push .. => instDecidableFalse

/-- The lock is that of another client, which is connected, and it has not expired. -/
def OfOther (get : Get) (s : Master) (lock : Lock) : Prop :=
  s.now < lock.expires ∧ lock.lockOwner ≠ get.lockOwner ∧
    ∃ entry ∈ s.clients.entries, entry.1 ≠ get.client ∧ entry.2.connected = true ∧
      entry.2.id = lock.lockOwner

/-- Another client holds the delivery. -/
def HeldByOther (get : Get) (s : Master) (d : Delivery) : Prop :=
  ∃ lock ∈ s.locks.locks, lock.key = lockKey d.id d.seq ∧ OfOther get s lock

instance (get : Get) (s : Master) (d : Delivery) : Decidable (HeldByOther get s d) := by
  unfold HeldByOther OfOther
  infer_instance

/-- A document is not locked, or it was handed to the client, or another client holds it. -/
def Placed (get : Get) (s₁ s : Master) (d : Delivery) : Prop :=
  d.locked = false ∨
  (∃ delivery _lock data, s.sent = s₁.sent ++ [(get.client, .delivery delivery _lock data)] ∧
    delivery._id = d._id) ∨
  HeldByOther get s d

/-- What the call of `shift` has done to a document is taken back: the `findOneAndUpdate` reports
    the document that it has locked, and the locker gives out its lock, unless another client
    holds it, which goes on while time passes; no `getMeta` fails, and what is to be deleted
    is deleted. -/
def TakesBack (get : Get) (n : Nat) (w : Shifting) : Event → Prop
  | .exec m choice outcome => m = n →
    match w.master.tasks.lookup n with
    | some ⟨.fetched _, .call call⟩ => outcome = .lost →
      ∀ delivery ∈ (w.master.db.exec choice call).2.delivery?, HeldByOther get w.master delivery
    | some ⟨.shiftMeta .., .call _⟩ | some ⟨.nextMeta .., .call _⟩ => outcome = .ok
    | some ⟨.messageDeleted .., .call _⟩ => outcome ≠ .failed
    | some ⟨.deleted _ _ _ (.shift _ delivery), .call call⟩ =>
      outcome ≠ .failed ∧ ∀ d ∈ (w.master.db.exec choice call).1.queue, d._id ≠ delivery._id
    | _ => True
  | .resume m => m = n →
    match w.master.tasks.lookup n with
    | some ⟨.fetched _, .reply (.delivery (some delivery))⟩ =>
      w.master.locks.lockExists (lockKey delivery.id delivery.seq) = true →
        HeldByOther get w.master delivery
    | _ => True
  | .tick now => ∀ d ∈ w.master.db.queue, d._id ∈ w.taken → d.locked = true →
    HeldByOther get w.master d → HeldByOther get { w.master with now := now } d
  | _ => True

instance (get : Get) (n : Nat) (w : Shifting) : (e : Event) → Decidable (w.TakesBack get n e)
  | .exec m choice outcome =>
    @instDecidableForall (m = n) _ inferInstance <| by
      rcases w.master.tasks.lookup n with _ | ⟨job, wait⟩
      · exact isTrue trivial
      · -- the caller of the `deleteOne` decides too
        rcases job with _ | _ | _ | _ | _ | _ | _ | _ | ⟨_, _, _, _ | _ | _ | _⟩ | _ <;>
          rcases wait <;> dsimp only <;> infer_instance
  | .resume m =>
    @instDecidableForall (m = n) _ inferInstance <| by
      rcases w.master.tasks.lookup n with _ | ⟨job, wait⟩
      · exact isTrue trivial
      · rcases job <;> rcases wait with _ | _ | ⟨_ | _ | ⟨_ | _⟩ | _ | _ | _⟩ <;> infer_instance
  | .tick now => by
    unfold TakesBack
    infer_instance
  | .connect .. | .hello .. | .close .. | .get .. | .request .. | .checkExpired | .cacheExpired
  | .remove .. | .clearGarbage | .openUpload .. | .writeChunk .. | .finishUpload .. | .setMeta ..
  | .push .. => isTrue trivial

/-! ## The task of the call -/

/-- The tasks of a call of `shift`. -/
inductive Stage (get : Get) : Task → Prop where
  | tryNext : Stage get ⟨.tryNext get, .immediate⟩
  | fetch {lockTime : Nat} : Stage get ⟨.fetched get, .call (.fetch get.query lockTime)⟩
  | fetched {reply : Reply} : Stage get ⟨.fetched get, .reply reply⟩
  | notFound : Stage get ⟨.notFound get, .immediate⟩
  | getMeta {d : Delivery} : Stage get ⟨.shiftMeta get d, .call (.findFile d.id)⟩
  | shiftMeta {d : Delivery} {file : Option File} : Stage get ⟨.shiftMeta get d, .reply (.file file)⟩
  | deleteMessage {d : Delivery} : Stage get ⟨.messageDeleted get d, .call (.deleteMessage d.id)⟩
  | messageDeleted {d : Delivery} {reply : Reply} : Stage get ⟨.messageDeleted get d, .reply reply⟩
  | findSuppressed {d : Delivery} {address domain : String} :
      Stage get ⟨.suppression get d, .call (.findSuppressed address domain)⟩
  | suppression {d : Delivery} {reply : Reply} : Stage get ⟨.suppression get d, .reply reply⟩
  | deleteDelivery {d : Delivery} : Stage get
      ⟨.deleted d.id d.seq (lockKey d.id d.seq) (.shift get d), .call (.deleteDelivery d.id d.seq)⟩
  | deleted {d : Delivery} {reply : Reply} : Stage get
      ⟨.deleted d.id d.seq (lockKey d.id d.seq) (.shift get d), .reply reply⟩
  | findReference {d : Delivery} :
      Stage get ⟨.reference d.id (.shift get d), .call (.findReference d.id)⟩
  | reference {d : Delivery} {reply : Reply} :
      Stage get ⟨.reference d.id (.shift get d), .reply reply⟩
  | findFile {d : Delivery} : Stage get ⟨.removeMessage (.shift get d), .call (.findFile d.id)⟩
  | removeMessage {d : Delivery} {reply : Reply} :
      Stage get ⟨.removeMessage (.shift get d), .reply reply⟩
  | deleteFile {d : Delivery} {fileId : ObjectId} :
      Stage get ⟨.fileDeleted (.shift get d), .call (.deleteFile fileId)⟩
  | fileDeleted {d : Delivery} {reply : Reply} :
      Stage get ⟨.fileDeleted (.shift get d), .reply reply⟩
  | nextGetMeta {d : Delivery} : Stage get ⟨.nextMeta get d, .call (.findFile d.id)⟩
  | nextMeta {d : Delivery} {file : Option File} : Stage get ⟨.nextMeta get d, .reply (.file file)⟩

/-- The delivery that the call is about, once its lock is taken. -/
def about : Task → Option Delivery
  | ⟨.shiftMeta _ d, _⟩ | ⟨.messageDeleted _ d, _⟩ | ⟨.suppression _ d, _⟩ | ⟨.nextMeta _ d, _⟩
  | ⟨.deleted _ _ _ (.shift _ d), _⟩ | ⟨.reference _ (.shift _ d), _⟩
  | ⟨.removeMessage (.shift _ d), _⟩ | ⟨.fileDeleted (.shift _ d), _⟩ => some d
  | _ => none

/-- The delivery whose lock the call has. -/
def own : Task → Option Delivery
  | ⟨.shiftMeta _ d, _⟩ | ⟨.messageDeleted _ d, _⟩ | ⟨.suppression _ d, _⟩ | ⟨.nextMeta _ d, _⟩
  | ⟨.deleted _ _ _ (.shift _ d), _⟩ => some d
  | _ => none

/-- The delivery whose document may still be locked. -/
def current : Task → Option Delivery
  | ⟨.fetched _, .reply (.delivery (some d))⟩ => some d
  | ⟨.shiftMeta _ d, _⟩ | ⟨.messageDeleted _ d, .call _⟩ | ⟨.suppression _ d, _⟩
  | ⟨.nextMeta _ d, _⟩ | ⟨.deleted _ _ _ (.shift _ d), .call _⟩ => some d
  | _ => none

section

variable (get : Get) (s₁ : Master)

/-- What holds at every step of the call, about the locks that are there already and about the
    collection. -/
structure Base (s : Master) : Prop where
  wf : s.locks.WF
  ids : (s.db.queue.map (·._id)).Nodup
  kept : ∀ lock ∈ s₁.locks.locks, lock ∈ s.locks.locks
  client : (s.clients.lookup get.client).any (·.connected) = true

/-- What holds while the call has not returned. -/
structure Running (w : Shifting) (task : Task) : Prop where
  stage : Stage get task
  sent : w.master.sent = s₁.sent
  placed : ∀ d ∈ w.master.db.queue, d._id ∈ w.taken →
    d.locked = false ∨
    (∃ lock ∈ s₁.locks.locks, lock.key = lockKey d.id d.seq ∧ OfOther get w.master lock) ∨
    ∃ cur, current task = some cur ∧ d._id = cur._id ∧ d.id = cur.id ∧ d.seq = cur.seq
  locks : ∀ lock ∈ w.master.locks.locks, lock ∈ s₁.locks.locks ∨
    ∃ cur, own task = some cur ∧ lock.key = lockKey cur.id cur.seq ∧
      lock.lockOwner = get.lockOwner
  about : ∀ cur, about task = some cur → ∀ lock ∈ s₁.locks.locks,
    lock.key ≠ lockKey cur.id cur.seq

/-- What holds at every step. -/
structure Inv (n : Nat) (w : Shifting) : Prop where
  base : Base get s₁ w.master
  task : ∀ task, w.master.tasks.lookup n = some task → Running get s₁ w task
  returned : w.master.tasks.lookup n = none → ∀ d ∈ w.master.db.queue, d._id ∈ w.taken →
    Placed get s₁ w.master d

end

variable {cfg : Config} {get : Get} {s₁ : Master} {n : Nat} {w w' : Shifting}

/-! ## A call of the database takes effect -/

/-- A call that changes no document: those that are left were there before, and the one that the
    call of `shift` is about is left only if it still is the current one. -/
theorem Running.of_subset {task task' : Task} (h : Running get s₁ w task)
    (hstage : Stage get task') (hown : own task' = own task)
    (habout : Shifting.about task' = Shifting.about task)
    (hsent : w'.master.sent = w.master.sent) (hlocks : w'.master.locks = w.master.locks)
    (hother : ∀ lock, OfOther get w.master lock → OfOther get w'.master lock)
    (htaken : w'.taken = w.taken)
    (hqueue : ∀ d ∈ w'.master.db.queue, d ∈ w.master.db.queue ∧ ∀ cur, current task = some cur →
      d._id = cur._id → d.id = cur.id → current task' = some cur) :
    Running get s₁ w' task' where
  stage := hstage
  sent := hsent.trans h.sent
  placed := by
    intro d hd hdtaken
    obtain ⟨hold, hcur⟩ := hqueue d hd
    rcases h.placed d hold (htaken ▸ hdtaken) with hunlocked | ⟨lock, hlock, hkey, hheld⟩ |
      ⟨cur, hcurrent, hid, hids⟩
    · exact Or.inl hunlocked
    · exact Or.inr (Or.inl ⟨lock, hlock, hkey, hother lock hheld⟩)
    · exact Or.inr (Or.inr ⟨cur, hcur cur hcurrent hid hids.1, hid, hids⟩)
  locks := by
    rw [hlocks, hown]
    exact h.locks
  about := by
    rw [habout]
    exact h.about

/-- A lock of another client was there before the call. -/
theorem Running.mem_of_other {task : Task} (h : Running get s₁ w task) {lock : Lock}
    (hlock : lock ∈ w.master.locks.locks) (hother : OfOther get w.master lock) :
    lock ∈ s₁.locks.locks := by
  rcases h.locks lock hlock with hold | ⟨-, -, -, howner⟩
  · exact hold
  · exact absurd howner hother.2.1

/-- The answer of the `findOneAndUpdate`. -/
theorem Running.fetch {lockTime choice : Nat} {outcome : Outcome} {s : Master}
    {taken : List ObjectId}
    (h : Running get s₁ ⟨s, taken⟩ ⟨.fetched get, .call (.fetch get.query lockTime)⟩)
    (hids : (s.db.queue.map (·._id)).Nodup)
    (htask : s.tasks.lookup n = some ⟨.fetched get, .call (.fetch get.query lockTime)⟩)
    (hp : (⟨s, taken⟩ : Shifting).TakesBack get n (.exec n choice outcome)) :
    ∃ reply, (s.exec n ⟨.fetched get, .call (.fetch get.query lockTime)⟩
        (.fetch get.query lockTime) choice outcome).tasks.lookup n =
          some ⟨.fetched get, .reply reply⟩ ∧
      Running get s₁ ⟨s.exec n ⟨.fetched get, .call (.fetch get.query lockTime)⟩
        (.fetch get.query lockTime) choice outcome, taken ++ s.taken (.exec n choice outcome)⟩
          ⟨.fetched get, .reply reply⟩ := by
  -- a document of the queue after the update of one that was found
  have hupdated : ∀ {found : Delivery}, found ∈ s.db.queue →
      ∀ d ∈ (s.db.update found (·.fetched lockTime get.query.instanceId)).queue,
        (d ∈ s.db.queue ∧ d._id ≠ found._id) ∨
          (d._id = found._id ∧ d.id = found.id ∧ d.seq = found.seq) := by
    intro found hfound d hd
    have hmap := ForStd.updateOne_eq_map hids found._id
      (fun d : Delivery => d.fetched lockTime get.query.instanceId)
    simp only [Database.update] at hd
    rw [hmap] at hd
    obtain ⟨old, hold, rfl⟩ := List.mem_map.mp hd
    split
    · next heq =>
      have hsame : old = found := List.inj_on_of_nodup_map hids hold hfound heq
      exact Or.inr ⟨heq, hsame ▸ rfl, hsame ▸ rfl⟩
    · next hne => exact Or.inl ⟨hold, hne⟩
  cases hpick : pick (s.db.queue.filter get.query.matches) choice with
  | none =>
    have hexec : s.db.exec choice (.fetch get.query lockTime) = (s.db, .delivery none) := by
      simp only [Database.exec, hpick]
    have htaken : s.taken (.exec n choice outcome) = [] := by
      simp only [Master.taken, htask, hexec]
      cases outcome <;> rfl
    rw [htaken, List.append_nil]
    cases outcome with
    | ok =>
      refine ⟨.delivery none, ?_, ?_⟩
      · simp [Master.exec, hexec]
      · exact h.of_subset .fetched rfl rfl rfl rfl (fun _ hother => hother) rfl fun d hd =>
          ⟨by simpa [Master.exec, hexec] using hd, fun cur hcur => nomatch hcur⟩
    | failed =>
      refine ⟨.error, ?_, ?_⟩
      · simp [Master.exec]
      · exact h.of_subset .fetched rfl rfl rfl rfl (fun _ hother => hother) rfl fun d hd =>
          ⟨by simpa [Master.exec] using hd, fun cur hcur => nomatch hcur⟩
    | lost =>
      refine ⟨.error, ?_, ?_⟩
      · simp [Master.exec]
      · exact h.of_subset .fetched rfl rfl rfl rfl (fun _ hother => hother) rfl fun d hd =>
          ⟨by simpa [Master.exec, hexec] using hd, fun cur hcur => nomatch hcur⟩
  | some found =>
    have hfound : found ∈ s.db.queue := List.mem_of_mem_filter (mem_of_pick hpick)
    have hexec : s.db.exec choice (.fetch get.query lockTime) =
        (s.db.update found (·.fetched lockTime get.query.instanceId),
          .delivery (some (found.fetched lockTime get.query.instanceId))) := by
      simp only [Database.exec, hpick]
    -- the documents other than the one that was found
    have hplaced : ∀ d ∈ (s.db.update found (·.fetched lockTime get.query.instanceId)).queue,
        d._id ∈ taken ++ [found._id] →
        (d.locked = false ∨
          ∃ lock ∈ s₁.locks.locks, lock.key = lockKey d.id d.seq ∧ OfOther get s lock) ∨
          (d._id = found._id ∧ d.id = found.id ∧ d.seq = found.seq) := by
      intro d hd hdtaken
      rcases hupdated hfound d hd with ⟨hold, hne⟩ | hsame
      · have hmem : d._id ∈ taken := by
          rcases List.mem_append.mp hdtaken with hmem | hmem
          · exact hmem
          · exact absurd (List.mem_singleton.mp hmem) hne
        rcases h.placed d hold hmem with hunlocked | hlock | ⟨cur, hcur, -⟩
        · exact Or.inl (Or.inl hunlocked)
        · exact Or.inl (Or.inr hlock)
        · exact nomatch hcur
      · exact Or.inr hsame
    cases outcome with
    | ok =>
      have htaken : s.taken (.exec n choice .ok) = [found._id] := by
        simp only [Master.taken, htask, hexec]
        rfl
      refine ⟨.delivery (some (found.fetched lockTime get.query.instanceId)), ?_, .fetched, h.sent,
        fun d hd hdtaken => ?_, h.locks, fun cur hcur => nomatch hcur⟩
      · simp [Master.exec, hexec]
      · have hd : d ∈ (s.db.update found (·.fetched lockTime get.query.instanceId)).queue := by
          simpa [Master.exec, hexec] using hd
        rcases hplaced d hd (htaken ▸ hdtaken) with (hunlocked | hlock) | hsame
        · exact Or.inl hunlocked
        · exact Or.inr (Or.inl hlock)
        · exact Or.inr (Or.inr ⟨_, rfl, hsame⟩)
    | failed =>
      have htaken : s.taken (.exec n choice .failed) = [] := by
        simp only [Master.taken, htask]
      rw [htaken, List.append_nil]
      refine ⟨.error, ?_, ?_⟩
      · simp [Master.exec]
      · exact h.of_subset .fetched rfl rfl rfl rfl (fun _ hother => hother) rfl fun d hd =>
          ⟨by simpa [Master.exec] using hd, fun cur hcur => nomatch hcur⟩
    | lost =>
      have htaken : s.taken (.exec n choice .lost) = [found._id] := by
        simp only [Master.taken, htask, hexec]
        rfl
      -- another client holds the document that was found
      have hheld : HeldByOther get s (found.fetched lockTime get.query.instanceId) := by
        simp only [TakesBack, htask] at hp
        exact hp trivial trivial (found.fetched lockTime get.query.instanceId)
          (by rw [hexec]; rfl)
      refine ⟨.error, ?_, .fetched, h.sent, fun d hd hdtaken => ?_, h.locks,
        fun cur hcur => nomatch hcur⟩
      · simp [Master.exec]
      · have hd : d ∈ (s.db.update found (·.fetched lockTime get.query.instanceId)).queue := by
          simpa [Master.exec, hexec] using hd
        rcases hplaced d hd (htaken ▸ hdtaken) with (hunlocked | hlock) | hsame
        · exact Or.inl hunlocked
        · exact Or.inr (Or.inl hlock)
        · obtain ⟨lock, hlock, hkey, hother⟩ := hheld
          refine Or.inr (Or.inl ⟨lock, h.mem_of_other hlock hother, ?_, hother⟩)
          rw [hkey, hsame.2.1, hsame.2.2]
          rfl

/-- The state after a call of the database. -/
theorem exec_eq (s : Master) (n : Nat) (job : Job) (call : Call) (choice : Nat)
    (outcome : Outcome) : ∃ reply, s.exec n ⟨job, .call call⟩ call choice outcome =
      { s with
        db := if outcome = .failed then s.db else (s.db.exec choice call).1
        tasks := s.tasks.insert n ⟨job, .reply reply⟩ } ∧
      (outcome = .ok → reply = (s.db.exec choice call).2) := by
  cases outcome with
  | ok => exact ⟨_, rfl, fun _ => rfl⟩
  | failed => exact ⟨_, rfl, fun h => nomatch h⟩
  | lost => exact ⟨_, rfl, fun h => nomatch h⟩

theorem taken_eq_nil {s : Master} {job : Job} {call : Call} {choice : Nat} {outcome : Outcome}
    (htask : s.tasks.lookup n = some ⟨job, .call call⟩)
    (hcall : ∀ query lockTime, call ≠ .fetch query lockTime) :
    s.taken (.exec n choice outcome) = [] := by
  unfold Master.taken
  dsimp only
  rw [htask]
  cases call with
  | fetch query lockTime => exact absurd rfl (hcall query lockTime)
  | _ => rfl

/-- A call of the database, other than the first one, takes effect. The documents after it were
    there before. -/
theorem Running.exec {job : Job} {call : Call} {choice : Nat} {outcome : Outcome} {s : Master}
    {taken : List ObjectId} (h : Running get s₁ ⟨s, taken⟩ ⟨job, .call call⟩)
    (htask : s.tasks.lookup n = some ⟨job, .call call⟩)
    (hcall : ∀ query lockTime, call ≠ .fetch query lockTime)
    (hstage : ∀ reply, (outcome = .ok → reply = (s.db.exec choice call).2) →
      Stage get ⟨job, .reply reply⟩)
    (hown : ∀ reply, own ⟨job, .reply reply⟩ = own ⟨job, .call call⟩)
    (habout : ∀ reply, Shifting.about ⟨job, .reply reply⟩ = Shifting.about ⟨job, .call call⟩)
    (hqueue : ∀ d ∈ (if outcome = .failed then s.db else (s.db.exec choice call).1).queue,
      d ∈ s.db.queue ∧ ∀ cur, current ⟨job, .call call⟩ = some cur → d._id = cur._id →
        d.id = cur.id → ∀ reply, current ⟨job, .reply reply⟩ = some cur) :
    ∃ task', (s.exec n ⟨job, .call call⟩ call choice outcome).tasks.lookup n = some task' ∧
      Running get s₁ ⟨s.exec n ⟨job, .call call⟩ call choice outcome,
        taken ++ s.taken (.exec n choice outcome)⟩ task' := by
  obtain ⟨reply, hexec, hreply⟩ := exec_eq s n job call choice outcome
  rw [hexec, taken_eq_nil htask hcall, List.append_nil]
  refine ⟨⟨job, .reply reply⟩, AList.lookup_insert _, ?_⟩
  exact h.of_subset (hstage reply hreply) (hown reply) (habout reply) rfl rfl
    (fun _ hother => hother) rfl fun d hd =>
    ⟨(hqueue d hd).1, fun cur hcur hid hid' => (hqueue d hd).2 cur hcur hid hid' reply⟩

/-- A call of the database takes effect. -/
theorem running_exec {job : Job} {call : Call} {choice : Nat} {outcome : Outcome} {s : Master}
    {taken : List ObjectId} (h : Running get s₁ ⟨s, taken⟩ ⟨job, .call call⟩)
    (hids : (s.db.queue.map (·._id)).Nodup)
    (htask : s.tasks.lookup n = some ⟨job, .call call⟩)
    (hp : (⟨s, taken⟩ : Shifting).TakesBack get n (.exec n choice outcome)) :
    ∃ task', (s.exec n ⟨job, .call call⟩ call choice outcome).tasks.lookup n = some task' ∧
      Running get s₁ ⟨s.exec n ⟨job, .call call⟩ call choice outcome,
        taken ++ s.taken (.exec n choice outcome)⟩ task' := by
  have htakes := hp rfl
  dsimp only at htakes
  rw [htask] at htakes
  have hsame : ∀ {d : Delivery} (db : Database), db.queue = s.db.queue →
      d ∈ (if outcome = .failed then s.db else db).queue → d ∈ s.db.queue := by
    intro d db hdb hd
    split at hd
    · exact hd
    · exact hdb ▸ hd
  cases h.stage with
  | fetch =>
    obtain ⟨reply, hlookup, hrunning⟩ := h.fetch hids htask hp
    exact ⟨_, hlookup, hrunning⟩
  | getMeta =>
    refine h.exec htask (fun _ _ => nofun) (fun reply hreply => ?_) (fun _ => rfl) (fun _ => rfl)
      fun d hd => ⟨hsame _ rfl hd, fun cur hcur _ _ _ => hcur⟩
    rw [hreply htakes]
    exact .shiftMeta
  | nextGetMeta =>
    refine h.exec htask (fun _ _ => nofun) (fun reply hreply => ?_) (fun _ => rfl) (fun _ => rfl)
      fun d hd => ⟨hsame _ rfl hd, fun cur hcur _ _ _ => hcur⟩
    rw [hreply htakes]
    exact .nextMeta
  | deleteMessage =>
    refine h.exec htask (fun _ _ => nofun) (fun _ _ => .messageDeleted) (fun _ => rfl)
      (fun _ => rfl) fun d hd => ?_
    rw [if_neg htakes] at hd
    obtain ⟨hd, hne⟩ := List.mem_filter.mp hd
    refine ⟨hd, fun cur hcur _ hid => ?_⟩
    -- the document is deleted
    obtain rfl := Option.some.inj hcur
    simp [hid] at hne
  | findSuppressed =>
    exact h.exec htask (fun _ _ => nofun) (fun _ _ => .suppression) (fun _ => rfl) (fun _ => rfl)
      fun d hd => ⟨hsame _ rfl hd, fun cur hcur _ _ _ => hcur⟩
  | deleteDelivery =>
    refine h.exec htask (fun _ _ => nofun) (fun _ _ => .deleted) (fun _ => rfl) (fun _ => rfl)
      fun d hd => ?_
    rw [if_neg htakes.1] at hd
    refine ⟨?_, fun cur hcur hid _ => ?_⟩
    · simp only [Database.exec] at hd
      split at hd
      · exact hd
      · exact List.mem_of_mem_erase hd
    · obtain rfl := Option.some.inj hcur
      exact absurd hid (htakes.2 d hd)
  | findReference =>
    exact h.exec htask (fun _ _ => nofun) (fun _ _ => .reference) (fun _ => rfl) (fun _ => rfl)
      fun d hd => ⟨hsame _ rfl hd, fun cur hcur _ _ _ => hcur⟩
  | findFile =>
    exact h.exec htask (fun _ _ => nofun) (fun _ _ => .removeMessage) (fun _ => rfl) (fun _ => rfl)
      fun d hd => ⟨hsame _ rfl hd, fun cur hcur _ _ _ => hcur⟩
  | @deleteFile d fileId =>
    exact h.exec htask (fun _ _ => nofun) (fun _ _ => .fileDeleted) (fun _ => rfl) (fun _ => rfl)
      fun d hd => ⟨hsame (s.db.exec choice (.deleteFile fileId)).1 rfl hd,
        fun cur hcur _ _ _ => hcur⟩

/-! ## A callback runs -/

theorem about_of_own {task : Task} {cur : Delivery} (h : own task = some cur) :
    about task = some cur := by
  unfold own at h
  unfold about
  split at h <;> first | exact h | exact nomatch h

/-- The locks after a callback that releases one key at most. -/
theorem mem_locks_resume (key : String) {s : Master} {task : Task} {effect : Effect}
    (hq : s.locks.WF) (htask : s.tasks.lookup n = some task)
    (heffect : s.effect cfg task = some effect) (hops : ∀ op ∈ effect.ops, op = .release key)
    {lock : Lock} : lock ∈ (s.perform n effect).locks.locks ↔
      lock ∈ s.locks.locks ∧ (effect.ops ≠ [] → lock.key ≠ key) := by
  have hstep : s.step cfg (.resume n) = some (s.perform n effect) := by
    simp [Master.step, htask, heffect]
  rw [Master.mem_locks_step hq hstep, Master.lockOps_resume htask heffect]
  constructor
  · rintro (⟨hlock, hspares⟩ | ⟨_, _, _, _, _, _, hop, -⟩)
    · refine ⟨hlock, fun hne => ?_⟩
      obtain ⟨op, hop⟩ := List.exists_mem_of_ne_nil _ hne
      have hspared := hspares op hop
      rw [hops op hop] at hspared
      exact hspared
    · exact nomatch hops _ hop
  · rintro ⟨hlock, hkey⟩
    refine Or.inl ⟨hlock, fun op hop => ?_⟩
    rw [hops op hop]
    exact hkey (List.ne_nil_of_mem hop)

theorem lookup_perform (s : Master) (n : Nat) (effect : Effect) :
    (s.perform n effect).tasks.lookup n = effect.next := by
  simp only [Master.perform]
  cases effect.next with
  | none => exact AList.lookup_erase n s.tasks
  | some task => exact AList.lookup_insert s.tasks

section

variable {s : Master} {taken : List ObjectId} {task : Task} {effect : Effect}

/-- The locks that were there before the call are there after a callback that releases the lock of
    the call at most. -/
theorem Base.resume (hbase : Base get s₁ s) (h : Running get s₁ ⟨s, taken⟩ task)
    (htask : s.tasks.lookup n = some task) (heffect : s.effect cfg task = some effect)
    (hops : ∀ op ∈ effect.ops, ∃ cur, about task = some cur ∧
      op = .release (lockKey cur.id cur.seq)) : Base get s₁ (s.perform n effect) where
  wf := by
    have hstep : s.step cfg (.resume n) = some (s.perform n effect) := by
      simp [Master.step, htask, heffect]
    exact Master.wf_step hbase.wf hstep
  ids := hbase.ids
  kept := by
    intro lock hlock
    cases habout : about task with
    | none =>
      refine (mem_locks_resume "" hbase.wf htask heffect fun op hop => ?_).mpr
        ⟨hbase.kept lock hlock, fun hne => ?_⟩
      · obtain ⟨cur, hcur, -⟩ := hops op hop
        exact nomatch habout.symm.trans hcur
      · obtain ⟨op, hop⟩ := List.exists_mem_of_ne_nil _ hne
        obtain ⟨cur, hcur, -⟩ := hops op hop
        exact nomatch habout.symm.trans hcur
    | some cur =>
      refine (mem_locks_resume _ hbase.wf htask heffect fun op hop => ?_).mpr
        ⟨hbase.kept lock hlock, fun _ => h.about cur habout lock hlock⟩
      obtain ⟨cur', hcur', hop⟩ := hops op hop
      obtain rfl := Option.some.inj (habout.symm.trans hcur')
      exact hop
  client := hbase.client

/-- The call goes on, and has released its lock if it has it no longer. -/
theorem inv_of_next (hbase : Base get s₁ s) (h : Running get s₁ ⟨s, taken⟩ task)
    (htask : s.tasks.lookup n = some task) (heffect : s.effect cfg task = some effect)
    (hops : ∀ op ∈ effect.ops, ∃ cur, about task = some cur ∧
      op = .release (lockKey cur.id cur.seq)) {task' : Task} (hnext : effect.next = some task')
    (hsend : effect.send = none) (hstage : Stage get task')
    (hcurrent : ∀ cur, current task = some cur → current task' = some cur)
    (hown : own task' = own task ∨ own task' = none ∧ (own task = none ∨ effect.ops ≠ []))
    (habout : ∀ cur, about task' = some cur → about task = some cur) :
    Inv get s₁ n ⟨s.perform n effect, taken⟩ := by
  have hlookup := lookup_perform s n effect
  rw [hnext] at hlookup
  refine ⟨hbase.resume h htask heffect hops, fun task'' htask'' => ?_, fun hnone => ?_⟩
  · obtain rfl := Option.some.inj (hlookup.symm.trans htask'')
    refine ⟨hstage, ?_, fun d hd hdtaken => ?_, fun lock hlock => ?_, fun cur hcur =>
      h.about cur (habout cur hcur)⟩
    · simp only [Master.perform, hsend]
      exact h.sent
    · rcases h.placed d hd hdtaken with hunlocked | hlock | ⟨cur, hcur, hids⟩
      · exact Or.inl hunlocked
      · exact Or.inr (Or.inl hlock)
      · exact Or.inr (Or.inr ⟨cur, hcurrent cur hcur, hids⟩)
    · cases howner : own task with
      | none =>
        have hold : lock ∈ s.locks.locks := by
          cases haboutTask : about task with
          | none =>
            refine ((mem_locks_resume "" hbase.wf htask heffect fun op hop => ?_).mp
              hlock).1
            obtain ⟨cur, hcur, -⟩ := hops op hop
            exact nomatch haboutTask.symm.trans hcur
          | some cur =>
            refine ((mem_locks_resume (lockKey cur.id cur.seq) hbase.wf htask heffect
              fun op hop => ?_).mp hlock).1
            obtain ⟨cur', hcur', hop⟩ := hops op hop
            obtain rfl := Option.some.inj (haboutTask.symm.trans hcur')
            exact hop
        rcases h.locks lock hold with hthere | ⟨cur, hcur, -⟩
        · exact Or.inl hthere
        · exact nomatch howner.symm.trans hcur
      | some cur =>
        have hreleases : ∀ op ∈ effect.ops, op = .release (lockKey cur.id cur.seq) := by
          intro op hop
          obtain ⟨cur', hcur', hop⟩ := hops op hop
          obtain rfl := Option.some.inj ((about_of_own howner).symm.trans hcur')
          exact hop
        obtain ⟨hold, hkey⟩ := (mem_locks_resume _ hbase.wf htask heffect hreleases).mp hlock
        rcases h.locks lock hold with hthere | ⟨cur', hcur', hkey'⟩
        · exact Or.inl hthere
        · rcases hown with hsame | ⟨-, hnone | hne⟩
          · exact Or.inr ⟨cur', hsame.trans hcur', hkey'⟩
          · exact nomatch howner.symm.trans hnone
          · obtain rfl := Option.some.inj (howner.symm.trans hcur')
            exact absurd hkey'.1 (hkey hne)
  · exact nomatch hlookup.symm.trans hnone

/-- The call returns: it has nothing, or hands out the delivery. -/
theorem inv_of_return (hbase : Base get s₁ s) (h : Running get s₁ ⟨s, taken⟩ task)
    (htask : s.tasks.lookup n = some task) (heffect : s.effect cfg task = some effect)
    (hops : ∀ op ∈ effect.ops, ∃ cur, about task = some cur ∧
      op = .release (lockKey cur.id cur.seq)) (hnext : effect.next = none)
    (hcurrent : ∀ cur, current task = some cur → ∃ _lock data,
      effect.send = some (get.client, .delivery cur _lock data)) :
    Inv get s₁ n ⟨s.perform n effect, taken⟩ := by
  have hlookup := lookup_perform s n effect
  rw [hnext] at hlookup
  have hbase' := hbase.resume h htask heffect hops
  refine ⟨hbase', fun task' htask' => ?_, fun _ d hd hdtaken => ?_⟩
  · exact nomatch hlookup.symm.trans htask'
  · rcases h.placed d hd hdtaken with hunlocked | ⟨lock, hlock, hheld⟩ | ⟨cur, hcur, hid, -⟩
    · exact Or.inl hunlocked
    · exact Or.inr (Or.inr ⟨lock, hbase'.kept lock hlock, hheld⟩)
    · obtain ⟨_lock, data, hsend⟩ := hcurrent cur hcur
      refine Or.inr (Or.inl ⟨cur, _lock, data, ?_, hid.symm⟩)
      simp only [Master.perform, hsend, Master.send]
      rw [if_pos hbase.client]
      exact congrArg (· ++ _) h.sent

end

section

variable {s : Master} {taken : List ObjectId}

/-- The callback of the `findOneAndUpdate` has a delivery, and takes its lock unless another client
    has it. -/
theorem inv_lock {d : Delivery} {effect : Effect} (hbase : Base get s₁ s)
    (h : Running get s₁ ⟨s, taken⟩ ⟨.fetched get, .reply (.delivery (some d))⟩)
    (htask : s.tasks.lookup n = some ⟨.fetched get, .reply (.delivery (some d))⟩)
    (heffect : s.effect cfg ⟨.fetched get, .reply (.delivery (some d))⟩ = some effect)
    (hp : (⟨s, taken⟩ : Shifting).TakesBack get n (.resume n)) :
    Inv get s₁ n ⟨s.perform n effect, taken⟩ := by
  have hstep : s.step cfg (.resume n) = some (s.perform n effect) := by
    simp [Master.step, htask, heffect]
  have hlookup := lookup_perform s n effect
  have hmem := fun lock => Master.mem_locks_step (l := lock) hbase.wf hstep
  rw [Master.lockOps_resume htask heffect] at hmem
  simp only [Master.effect, callback, shiftFetched, Option.some.injEq,
    QueueLocker.fst_lock] at heffect
  -- the locks that were there before the call are those of the others
  have hthere : ∀ lock ∈ s.locks.locks, lock ∈ s₁.locks.locks := by
    intro lock hlock
    rcases h.locks lock hlock with hthere | ⟨cur, hcur, -⟩
    · exact hthere
    · cases hcur
  have hops : effect.ops = [.lock (lockKey d.id d.seq) get.zone d.domain get.lockOwner
      (cfg.limit d.domain) (60 * 60 * 1000)] := by
    rw [← heffect]
  have hsend : effect.send = none := by
    rw [← heffect]
    dsimp only
    split <;> rfl
  have hkept : ∀ lock ∈ s.locks.locks, lock ∈ (s.perform n effect).locks.locks := by
    intro lock hlock
    refine (hmem lock).mpr (Or.inl ⟨hlock, fun op hop => ?_⟩)
    rw [hops, List.mem_singleton] at hop
    rw [hop]
    trivial
  have hbase' : Base get s₁ (s.perform n effect) :=
    { wf := Master.wf_step hbase.wf hstep
      ids := hbase.ids
      kept := fun lock hlock => hkept lock (hbase.kept lock hlock)
      client := hbase.client }
  have hsent : (s.perform n effect).sent = s₁.sent := by
    simp only [Master.perform, hsend]
    exact h.sent
  cases hexists : s.locks.lockExists (lockKey d.id d.seq) with
  | true =>
    -- already locked by another client
    obtain ⟨held, hheld, hkey, hother⟩ : HeldByOther get s d := by
      simp only [TakesBack, htask] at hp
      exact hp trivial hexists
    have hnext : effect.next = some ⟨.tryNext get, .immediate⟩ := by
      rw [← heffect, hexists]
      rfl
    rw [hnext] at hlookup
    refine ⟨hbase', fun task htask' => ?_, fun hnone => ?_⟩
    swap
    · cases hlookup.symm.trans hnone
    obtain rfl := Option.some.inj (hlookup.symm.trans htask')
    refine ⟨.tryNext, hsent, fun d' hd' htaken => ?_, fun lock hlock => ?_,
      fun cur hcur => ?_⟩
    · rcases h.placed d' hd' htaken with hunlocked | hlocked | ⟨cur, hcur, -, hid, hseq⟩
      · exact Or.inl hunlocked
      · exact Or.inr (Or.inl hlocked)
      · obtain rfl := Option.some.inj hcur
        exact Or.inr (Or.inl ⟨held, hthere held hheld, by rw [hkey, hid, hseq], hother⟩)
    · rcases (hmem lock).mp hlock with ⟨hold, -⟩ | ⟨_, _, _, _, _, _, hop, hfree, -⟩
      · exact Or.inl (hthere lock hold)
      · rw [hops, List.mem_singleton] at hop
        obtain ⟨rfl, -⟩ := QueueLocker.Op.lock.inj hop
        cases hexists.symm.trans hfree
    · cases hcur
  | false =>
    have hnext : effect.next = some ⟨.shiftMeta get d, .call (.findFile d.id)⟩ := by
      rw [← heffect, hexists]
      rfl
    rw [hnext] at hlookup
    refine ⟨hbase', fun task htask' => ?_, fun hnone => ?_⟩
    swap
    · cases hlookup.symm.trans hnone
    obtain rfl := Option.some.inj (hlookup.symm.trans htask')
    refine ⟨.getMeta, hsent, fun d' hd' htaken => ?_, fun lock hlock => ?_, fun cur hcur lock hlock
      hkey => ?_⟩
    · rcases h.placed d' hd' htaken with hunlocked | hlocked | ⟨cur, hcur, hids⟩
      · exact Or.inl hunlocked
      · exact Or.inr (Or.inl hlocked)
      · exact Or.inr (Or.inr ⟨cur, hcur, hids⟩)
    · rcases (hmem lock).mp hlock with ⟨hold, -⟩ | ⟨_, _, _, _, _, _, hop, -, hnew⟩
      · exact Or.inl (hthere lock hold)
      · rw [hops, List.mem_singleton] at hop
        obtain ⟨rfl, -, -, rfl, -⟩ := QueueLocker.Op.lock.inj hop
        exact Or.inr ⟨d, rfl, by rw [hnew]; rfl, by rw [hnew]; rfl⟩
    · obtain rfl := Option.some.inj hcur
      have hheld := QueueLocker.lockExists_iff.mpr ⟨lock, hbase.kept lock hlock, hkey⟩
      cases hexists.symm.trans hheld

end

section

variable {s : Master} {taken : List ObjectId}

/-- The release of the delivery, if it was suppressed, has come to its end. -/
theorem inv_callback {d : Delivery} {task : Task} {err : Bool} {effect : Effect}
    (hbase : Base get s₁ s) (h : Running get s₁ ⟨s, taken⟩ task)
    (htask : s.tasks.lookup n = some task) (heffect : s.effect cfg task = some effect)
    (hcaller : effect = (Caller.shift get d).callback err) (habout : about task = some d)
    (hcurrent : current task = none) (hown : own task = none) :
    Inv get s₁ n ⟨s.perform n effect, taken⟩ := by
  have hnone : ∀ cur, current task = some cur → False := by
    intro cur hcur
    exact nomatch hcurrent.symm.trans hcur
  cases err with
  | true =>
    refine inv_of_return hbase h htask heffect (fun op hop => ?_) (by rw [hcaller]; rfl)
      fun cur hcur => (hnone cur hcur).elim
    rw [hcaller] at hop
    exact ⟨d, habout, List.mem_singleton.mp hop⟩
  | false =>
    have hnext : effect.next = some ⟨.tryNext get, .immediate⟩ := by rw [hcaller]; rfl
    refine inv_of_next hbase h htask heffect (fun op hop => ?_) hnext (by rw [hcaller]; rfl)
      .tryNext (fun cur hcur => (hnone cur hcur).elim) (Or.inr ⟨rfl, Or.inl hown⟩) nofun
    rw [hcaller] at hop
    exact nomatch hop

/-- A callback of the call runs. -/
theorem inv_resume {task : Task} {effect : Effect} (hbase : Base get s₁ s)
    (h : Running get s₁ ⟨s, taken⟩ task) (htask : s.tasks.lookup n = some task)
    (heffect : s.effect cfg task = some effect)
    (hp : (⟨s, taken⟩ : Shifting).TakesBack get n (.resume n)) :
    Inv get s₁ n ⟨s.perform n effect, taken⟩ := by
  have hreturns := inv_of_return hbase h htask heffect
  have hops {P : QueueLocker.Op → Prop} : ∀ op ∈ [], P op := List.forall_mem_nil P
  have hnone {P : Delivery → Prop} : ∀ cur, none = some cur → P cur :=
    fun cur hcur => (Option.some_ne_none cur hcur.symm).elim
  have hgoes := @inv_of_next cfg get s₁ n s taken task effect hbase h htask heffect
  cases h.stage with
  | tryNext =>
    obtain rfl := Option.some.inj heffect
    exact hgoes hops rfl rfl .fetch hnone (Or.inl rfl) hnone
  | @fetched reply =>
    cases reply with
    | error =>
      obtain rfl := Option.some.inj heffect
      exact hreturns hops rfl hnone
    | delivery delivery =>
      cases delivery with
      | none =>
        obtain rfl := Option.some.inj heffect
        exact hgoes hops rfl rfl .notFound hnone (Or.inl rfl) hnone
      | some d => exact inv_lock hbase h htask heffect hp
    | _ => cases heffect
  | notFound =>
    obtain rfl := Option.some.inj heffect
    exact hreturns hops rfl hnone
  | @shiftMeta d file =>
    cases file with
    | none =>
      obtain rfl := Option.some.inj heffect
      exact hgoes hops rfl rfl .deleteMessage (fun _ hcur => hcur) (Or.inl rfl)
        fun _ hcur => hcur
    | some file =>
      obtain rfl := Option.some.inj heffect
      exact hgoes hops rfl rfl .findSuppressed (fun _ hcur => hcur) (Or.inl rfl)
        fun _ hcur => hcur
  | @messageDeleted d reply =>
    obtain rfl := Option.some.inj heffect
    refine hgoes (fun op hop => ⟨d, rfl, List.mem_singleton.mp hop⟩) rfl rfl .tryNext hnone
      (Or.inr ⟨rfl, Or.inr (List.cons_ne_nil _ _)⟩) hnone
  | @suppression d reply =>
    by_cases hsuppressed : reply = .suppressed true
    · subst hsuppressed
      obtain rfl := Option.some.inj heffect
      exact hgoes hops rfl rfl .deleteDelivery (fun _ hcur => hcur) (Or.inl rfl)
        fun _ hcur => hcur
    · have hother : effect = .wait (.nextMeta get d) (.findFile d.id) := by
        simp only [Master.effect, callback, shiftSuppression] at heffect
        exact (Option.some.inj heffect).symm
      subst hother
      exact hgoes hops rfl rfl .nextGetMeta (fun _ hcur => hcur) (Or.inl rfl)
        fun _ hcur => hcur
  | @deleted d reply =>
    cases reply with
    | error =>
      obtain rfl := Option.some.inj heffect
      refine hreturns (fun op hop => ⟨d, rfl, ?_⟩) rfl hnone
      -- the lock is released twice
      rcases List.mem_cons.mp hop with rfl | hop
      · rfl
      · exact List.mem_singleton.mp hop
    | done =>
      obtain rfl := Option.some.inj heffect
      exact hgoes (fun op hop => ⟨d, rfl, List.mem_singleton.mp hop⟩) rfl rfl .findReference hnone
        (Or.inr ⟨rfl, Or.inr (List.cons_ne_nil _ _)⟩) fun _ hcur => hcur
    | _ => cases heffect
  | @reference d reply =>
    cases reply with
    | error => exact inv_callback hbase h htask heffect (Option.some.inj heffect).symm rfl rfl rfl
    | delivery delivery =>
      cases delivery with
      | some left =>
        exact inv_callback hbase h htask heffect (Option.some.inj heffect).symm rfl rfl rfl
      | none =>
        obtain rfl := Option.some.inj heffect
        exact hgoes hops rfl rfl .findFile hnone (Or.inl rfl) fun _ hcur => hcur
    | _ => cases heffect
  | @removeMessage d reply =>
    cases reply with
    | error => exact inv_callback hbase h htask heffect (Option.some.inj heffect).symm rfl rfl rfl
    | file file =>
      cases file with
      | none =>
        exact inv_callback hbase h htask heffect (Option.some.inj heffect).symm rfl rfl rfl
      | some file =>
        obtain rfl := Option.some.inj heffect
        exact hgoes hops rfl rfl .deleteFile hnone (Or.inl rfl) fun _ hcur => hcur
    | _ => cases heffect
  | fileDeleted =>
    exact inv_callback hbase h htask heffect (Option.some.inj heffect).symm rfl rfl rfl
  | @nextMeta d file =>
    obtain rfl := Option.some.inj heffect
    refine hreturns hops rfl fun cur hcur => ?_
    obtain rfl := Option.some.inj hcur
    exact ⟨_, _, rfl⟩
  | fetch | getMeta | deleteMessage | findSuppressed | deleteDelivery | findReference | findFile
  | deleteFile | nextGetMeta => cases heffect

/-! ## A step of the call -/

/-- A step of the call keeps what holds. -/
theorem inv_step {e : Event} (h : Inv get s₁ n w) (he : Of n e)
    (hp : w.TakesBack get n e) (hstep : w.step cfg e = some w') : Inv get s₁ n w' := by
  obtain ⟨master, hmaster, rfl⟩ := Option.map_eq_some_iff.mp hstep
  obtain ⟨s, taken⟩ := w
  cases e with
  | exec m choice outcome =>
    obtain rfl : m = n := he
    simp only [Master.step, Option.bind_eq_some_iff] at hmaster
    obtain ⟨⟨job, wait⟩, htask, hmaster⟩ := hmaster
    cases wait with
    | call call =>
      obtain rfl := Option.some.inj hmaster
      obtain ⟨task', hlookup, hrunning⟩ := running_exec (h.task _ htask) h.base.ids htask hp
      refine ⟨?_, fun task htask' => ?_, fun hnone => nomatch hlookup.symm.trans hnone⟩
      · obtain ⟨reply, hexec, -⟩ := exec_eq s m job call choice outcome
        rw [hexec]
        refine ⟨h.base.wf, ?_, h.base.kept, h.base.client⟩
        dsimp only
        split
        · exact h.base.ids
        · exact Database.nodup_exec choice call h.base.ids
      · obtain rfl := Option.some.inj (hlookup.symm.trans htask')
        exact hrunning
    | _ => exact nomatch hmaster
  | resume m =>
    obtain rfl : m = n := he
    simp only [Master.step, Option.bind_eq_some_iff, Option.map_eq_some_iff] at hmaster
    obtain ⟨task, htask, effect, heffect, rfl⟩ := hmaster
    have hinv := inv_resume h.base (h.task task htask) htask heffect hp
    simpa [Master.taken] using hinv
  | tick now =>
    simp only [Master.step] at hmaster
    split at hmaster
    · obtain rfl := Option.some.inj hmaster
      simp only [Master.taken, List.append_nil]
      refine ⟨⟨h.base.wf, h.base.ids, h.base.kept, h.base.client⟩, fun task htask => ?_,
        fun hnone d hd hdtaken => ?_⟩
      · have hrunning := h.task task htask
        refine ⟨hrunning.stage, hrunning.sent, fun d hd hdtaken => ?_, hrunning.locks,
          hrunning.about⟩
        rcases hrunning.placed d hd hdtaken with hunlocked | ⟨lock, hlock, hkey, hother⟩ | hcur
        · exact Or.inl hunlocked
        · -- the other client holds the document all the time
          by_cases hlocked : d.locked = true
          · obtain ⟨lock, hlock, hkey, hother⟩ :=
              hp d hd hdtaken hlocked ⟨lock, h.base.kept lock hlock, hkey, hother⟩
            refine Or.inr (Or.inl ⟨lock, ?_, hkey, hother⟩)
            rcases hrunning.locks lock hlock with hold | ⟨-, -, -, howner⟩
            · exact hold
            · exact absurd howner hother.2.1
          · exact Or.inl (Bool.eq_false_iff.mpr hlocked)
        · exact Or.inr (Or.inr hcur)
      · rcases h.returned hnone d hd hdtaken with hunlocked | hsent | hheld
        · exact Or.inl hunlocked
        · exact Or.inr (Or.inl hsent)
        · by_cases hlocked : d.locked = true
          · exact Or.inr (Or.inr (hp d hd hdtaken hlocked hheld))
          · exact Or.inl (Bool.eq_false_iff.mpr hlocked)
    · exact nomatch hmaster
  | _ => exact he.elim

end

/-! ## Calls -/

theorem inv_start (hwf : s₁.locks.WF) (hids : (s₁.db.queue.map (·._id)).Nodup)
    (hclient : (s₁.clients.lookup get.client).any (·.connected) = true)
    (htask : s₁.tasks.lookup n = some ⟨.tryNext get, .immediate⟩) :
    Inv get s₁ n { master := s₁ } where
  base := ⟨hwf, hids, fun _ hlock => hlock, hclient⟩
  task := by
    intro task htask'
    obtain rfl := Option.some.inj (htask.symm.trans htask')
    exact ⟨.tryNext, rfl, nofun, fun _ hlock => Or.inl hlock, nofun⟩
  returned := fun hnone => nomatch htask.symm.trans hnone

/-- No call of `shift` leaves a delivery locked that nobody holds, as long as what it has done is
    taken back. -/
theorem placed_of_along {es : List Event} (hwf : s₁.locks.WF)
    (hids : (s₁.db.queue.map (·._id)).Nodup)
    (hclient : (s₁.clients.lookup get.client).any (·.connected) = true)
    (htask : s₁.tasks.lookup n = some ⟨.tryNext get, .immediate⟩)
    (hes : Along (step cfg) (fun w e => Of n e ∧ w.TakesBack get n e) { master := s₁ } es)
    (hrun : run (step cfg) { master := s₁ } es = some w)
    (hreturned : w.master.tasks.lookup n = none) :
    ∀ d ∈ w.master.db.queue, d._id ∈ w.taken → Placed get s₁ w.master d := by
  have hinv : Inv get s₁ n w := ForStd.run_invariant_along
    (fun _ _ _ h hp hstep => inv_step h hp.1 hp.2 hstep)
    (inv_start hwf hids hclient htask) hes hrun
  exact hinv.returned hreturned

/-- A message with one recipient, and a sender that has called GET. -/
def calledGet : List Event := Master.oneGet.take 7

/-- The call of `shift` of that GET. -/
def firstGet : Get where
  client := 1
  lockOwner := "c1"
  zone := "default"
  query := Master.oneZone.query "default" 1600000000000 []

/-- What is left of a run: the state at the call, and the state at the end. -/
def callOf (es : List Event) : Option (Master × Shifting) :=
  (run (Master.step Master.oneZone) {} calledGet).bind fun s₁ =>
    (run (step Master.oneZone) { master := s₁ } es).map fun w => (s₁, w)

theorem callOf_some {es : List Event} {s₁ : Master} {w : Shifting}
    (h : callOf es = some (s₁, w)) : run (Master.step Master.oneZone) {} calledGet = some s₁ ∧
      run (step Master.oneZone) { master := s₁ } es = some w := by
  simp only [callOf, Option.bind_eq_some_iff, Option.map_eq_some_iff, Prod.mk.injEq] at h
  obtain ⟨_, hs₁, _, hw, rfl, rfl⟩ := h
  exact ⟨hs₁, hw⟩

/-- The delivery is handed out. -/
def handedOut : List Event :=
  [.resume 0, .exec 0 0 .ok, .resume 0, .exec 0 0 .ok, .resume 0, .exec 0 0 .ok, .resume 0,
    .exec 0 0 .ok, .resume 0]

theorem placed_handedOut : ∃ s₁ w, callOf handedOut = some (s₁, w) ∧
    ∀ d ∈ w.master.db.queue, d._id ∈ w.taken → Placed firstGet s₁ w.master d := by
  have hrun : (callOf handedOut).any (fun (s₁, w) =>
      decide ((s₁.db.queue.map (·._id)).Nodup) &&
      (s₁.clients.lookup 1).any (·.connected) &&
      decide (s₁.tasks.lookup 0 = some ⟨.tryNext firstGet, .immediate⟩) &&
      decide (Along (step Master.oneZone) (fun w e => Of 0 e ∧ w.TakesBack firstGet 0 e)
        { master := s₁ } handedOut) &&
      decide (w.master.tasks.lookup 0 = none)) = true := by decide +kernel
  obtain ⟨⟨s₁, w⟩, hw, hfields⟩ := (Option.any_eq_true _ _).mp hrun
  simp only [Bool.and_eq_true, decide_eq_true_eq] at hfields
  obtain ⟨⟨⟨⟨hids, hclient⟩, htask⟩, hes⟩, hreturned⟩ := hfields
  obtain ⟨hs₁, hrun⟩ := callOf_some hw
  exact ⟨s₁, w, hw, placed_of_along (Master.wf_run hs₁) hids (show (s₁.clients.lookup
    firstGet.client).any (·.connected) = true from hclient) htask hes hrun hreturned⟩

/-- The `getMeta` of `shift` fails. -/
def failedMeta : List Event :=
  [.resume 0, .exec 0 0 .ok, .resume 0, .exec 0 0 .failed, .resume 0]

/-- The delivery is locked, and nobody holds it. -/
theorem stranded_getMeta :
    ¬∀ (cfg : Config) (get : Get) (s₁ : Master) (n : Nat) (es : List Event) (w : Shifting),
      s₁.locks.WF → (s₁.db.queue.map (·._id)).Nodup →
      (s₁.clients.lookup get.client).any (·.connected) = true →
      s₁.tasks.lookup n = some ⟨.tryNext get, .immediate⟩ → (∀ e ∈ es, Of n e) →
      run (step cfg) { master := s₁ } es = some w → w.master.tasks.lookup n = none →
      ∀ d ∈ w.master.db.queue, d._id ∈ w.taken → Placed get s₁ w.master d := by
  intro h
  have hrun : (callOf failedMeta).any (fun (s₁, w) =>
      decide ((s₁.db.queue.map (·._id)).Nodup) &&
      (s₁.clients.lookup 1).any (·.connected) &&
      decide (s₁.tasks.lookup 0 = some ⟨.tryNext firstGet, .immediate⟩) &&
      decide (w.master.tasks.lookup 0 = none) &&
      decide (s₁.sent = []) && decide (w.master.sent = [(1, .error)]) &&
      decide (w.master.locks.locks = []) &&
      w.master.db.queue.any fun d => d.locked && decide (d._id ∈ w.taken)) = true := by
    decide +kernel
  obtain ⟨⟨s₁, w⟩, hw, hfields⟩ := (Option.any_eq_true _ _).mp hrun
  simp only [Bool.and_eq_true, decide_eq_true_eq, List.any_eq_true] at hfields
  obtain ⟨⟨⟨⟨⟨⟨⟨hids, hclient⟩, htask⟩, hreturned⟩, hsent₁⟩, hsent⟩, hlocks⟩, d, hd, hlocked,
    htaken⟩ := hfields
  obtain ⟨hs₁, hrun⟩ := callOf_some hw
  have hplaced := h Master.oneZone firstGet s₁ 0 failedMeta w (Master.wf_run hs₁) hids hclient
    htask (by simp [failedMeta, Of]) hrun hreturned d hd htaken
  rcases hplaced with hunlocked | ⟨_, _, _, hhanded, -⟩ | ⟨lock, hlock, -⟩
  · exact Bool.noConfusion (hlocked.symm.trans hunlocked)
  · rw [hsent₁, hsent] at hhanded
    simp at hhanded
  · rw [hlocks] at hlock
    exact nomatch hlock

end Shifting

end ZoneMta
