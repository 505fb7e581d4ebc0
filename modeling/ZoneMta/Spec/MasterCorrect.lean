import ZoneMta.ForStd.Transition
import ZoneMta.Native.Master
import ZoneMta.Spec.DatabaseCorrect
import ZoneMta.Spec.QueueLockerCorrect

/-!
# The steps of the master process

What a step does to the locker is a list of its operations, read off the event.

## Key results

- `locks_step`: the locker after a step
- `ops_callback`: the operations of a callback
- `lockOps_lock`: which steps take a lock
- `wf_step`: the locker stays well-formed
-/

namespace ZoneMta

open QueueLocker (Op)

namespace Master

variable {cfg : Config} {s s' : Master}

/-! ## The locker -/

/-- What the end of a connection does to the locker. -/
def closeOps (id : String) : List Op := if id = "" then [] else [.releaseLockOwner id]

/-- What a step does to the locker. -/
def lockOps (cfg : Config) (s : Master) : Event → List Op
  | .hello _ id (some name) => if (cfg.sendingZone name).isNone then closeOps id else []
  | .close c => ((s.clients.lookup c).map fun client => closeOps client.id).getD []
  | .get c =>
    match s.clients.lookup c with
    | some client =>
      if client.zone = "" ∨ (s.cache.lookup client.zone).any (s.now ≤ ·) then []
      else [.listSkipDomains client.zone]
    | none => []
  | .resume n =>
    (((s.tasks.lookup n).bind (s.effect cfg)).map fun effect => effect.ops).getD []
  | .checkExpired => [.checkExpired]
  | _ => []

theorem locks_disconnect (s : Master) (c : Nat) (client : Client) :
    (s.disconnect c client).locks =
      (closeOps client.id).foldl (QueueLocker.apply s.now) s.locks := by
  unfold disconnect closeOps
  split <;> rfl

theorem withClient_eq_some {c : Nat} {f : Client → Option Master} :
    s.withClient c f = some s' ↔
      ∃ client, s.clients.lookup c = some client ∧ client.connected = true ∧
        f client = some s' := by
  unfold withClient
  rw [Option.bind_eq_some_iff]
  refine exists_congr fun client => and_congr_right fun _ => ?_
  cases client.connected with
  | true => simp
  | false => simp

theorem ite_eq_some {α : Type} {p : Prop} [Decidable p] {a b : α} :
    (if p then some a else none) = some b ↔ p ∧ a = b := by
  split <;> simp [*]

/-- The events that can happen, and the states after them. -/
inductive Step (cfg : Config) (s : Master) : Event → Master → Prop where
  | tick {now : Nat} (hnow : s.now ≤ now) : Step cfg s (.tick now) { s with now := now }
  | connect {c : Nat} (hc : s.clients.lookup c = none) :
      Step cfg s (.connect c) { s with clients := s.clients.insert c {} }
  | hello {c : Nat} {id : String} {zone : Option String} {client client' : Client}
      (hclient : s.clients.lookup c = some client) (hconnected : client'.connected = true)
      (hid : ¬"delete:".toList <+: id.toList) (hid' : client'.id = id)
      (hzone : ∀ name, zone = some name → (cfg.sendingZone name).isNone = false) :
      Step cfg s (.hello c id zone) { s with clients := s.clients.insert c client' }
  | refuse {c : Nat} {id name : String} {client : Client}
      (hclient : s.clients.lookup c = some client)
      (hid : ¬"delete:".toList <+: id.toList) (hzone : (cfg.sendingZone name).isNone = true) :
      Step cfg s (.hello c id (some name))
        ((s.send c .error).disconnect c { client with id := id, zone := "" })
  | close {c : Nat} {client : Client} (hclient : s.clients.lookup c = some client)
      (hconnected : client.connected = true) : Step cfg s (.close c) (s.disconnect c client)
  | get {c : Nat} {client : Client} (hclient : s.clients.lookup c = some client)
      (hconnected : client.connected = true) : Step cfg s (.get c) (s.get cfg c client)
  | request {c : Nat} {client : Client} {id seq _lock : String} {ttl : Option Nat}
      (hclient : s.clients.lookup c = some client) (hconnected : client.connected = true) :
      Step cfg s (.request c id seq _lock ttl) (s.request c client id seq _lock ttl)
  | exec {n choice : Nat} {outcome : Outcome} {job : Job} {call : Call}
      (htask : s.tasks.lookup n = some ⟨job, .call call⟩) :
      Step cfg s (.exec n choice outcome) (s.exec n ⟨job, .call call⟩ call choice outcome)
  | resume {n : Nat} {task : Task} {effect : Effect} (htask : s.tasks.lookup n = some task)
      (heffect : s.effect cfg task = some effect) :
      Step cfg s (.resume n) (s.perform n effect)
  | checkExpired (htimer : s.locks.lockCheckTimer.any (· ≤ s.now) = true) :
      Step cfg s .checkExpired { s with locks := s.locks.checkExpired s.now }
  | cacheExpired (cache : ForStd.Map String Nat) :
      Step cfg s .cacheExpired { s with cache := cache }
  | remove {id random : String} {seq : Option String} :
      Step cfg s (.remove id seq random)
        (s.start ⟨.removeFound (deleteId random), .call (.findDeliveries id seq)⟩)
  | clearGarbage : Step cfg s .clearGarbage (s.start (clearGarbage cfg s.now))
  | openUpload {id : String} {unique : Nat} (hunique : unique ≠ 0) :
      Step cfg s (.openUpload id unique)
        { s with uploads := s.uploads ++ [⟨id, ⟨s.seconds, unique⟩, false⟩] }
  | writeChunk {fileId chunkId : ObjectId} {upload : Upload} (hupload : upload ∈ s.uploads)
      (hfile : upload.fileId = fileId) (hunique : chunkId.unique ≠ 0)
      (hfirst : fileId.time ≤ chunkId.time) (hlast : chunkId.time ≤ s.seconds) :
      Step cfg s (.writeChunk fileId chunkId)
        { s with db := { s.db with chunks := s.db.chunks ++ [⟨chunkId, fileId⟩] } }
  | finishUpload {fileId : ObjectId} {upload : Upload} (hupload : upload ∈ s.uploads)
      (hfile : upload.fileId = fileId) :
      Step cfg s (.finishUpload fileId)
        { s with
          db := { s.db with files := s.db.files ++ [⟨fileId, filename upload.id, none⟩] }
          uploads := ForStd.updateOne (·.fileId == fileId)
            (fun upload => { upload with finished := true }) s.uploads }
  | setMeta {id data : String} {files : List File}
      (hfiles : files = ForStd.updateOne (·.filename == filename id)
        (fun file => { file with data := some data }) s.db.files) :
      Step cfg s (.setMeta id data) { s with db := { s.db with files := files } }
  | push {id : String} {recipients : List Recipient} (hpush : s.canPush recipients = true) :
      Step cfg s (.push id recipients)
        { s with db := { s.db with queue := s.db.queue ++ recipients.map (·.document id) } }

/-- What a step does. -/
theorem step_cases {e : Event} (h : s.step cfg e = some s') : Step cfg s e s' := by
  cases e with
  | tick now => obtain ⟨hnow, rfl⟩ := ite_eq_some.mp h; exact .tick hnow
  | connect c =>
    obtain ⟨hc, rfl⟩ := ite_eq_some.mp h
    exact .connect (Option.isNone_iff_eq_none.mp hc)
  | hello c id zone =>
    obtain ⟨client, hclient, hconnected, h⟩ := withClient_eq_some.mp h
    simp only [hello] at h
    split at h
    · exact nomatch h
    · next hid =>
      rw [List.isPrefixOf_iff_prefix] at hid
      split at h
      · obtain rfl := Option.some.inj h
        exact .hello hclient hconnected hid rfl nofun
      · split at h
        · next hzone =>
          obtain rfl := Option.some.inj h
          exact .refuse hclient hid (by rw [hzone]; rfl)
        · next hzone =>
          obtain rfl := Option.some.inj h
          refine .hello hclient hconnected hid rfl fun name hname => ?_
          obtain rfl := Option.some.inj hname
          rw [hzone]
          rfl
  | close c =>
    obtain ⟨client, hclient, hconnected, h⟩ := withClient_eq_some.mp h
    obtain rfl := Option.some.inj h
    exact .close hclient hconnected
  | get c =>
    obtain ⟨client, hclient, hconnected, h⟩ := withClient_eq_some.mp h
    obtain rfl := Option.some.inj h
    exact .get hclient hconnected
  | request c id seq _lock ttl =>
    obtain ⟨client, hclient, hconnected, h⟩ := withClient_eq_some.mp h
    obtain rfl := Option.some.inj h
    exact .request hclient hconnected
  | exec n choice outcome =>
    obtain ⟨⟨job, wait⟩, htask, h⟩ := Option.bind_eq_some_iff.mp h
    cases wait with
    | call call => obtain rfl := Option.some.inj h; exact .exec htask
    | _ => exact nomatch h
  | resume n =>
    obtain ⟨task, htask, h⟩ := Option.bind_eq_some_iff.mp h
    obtain ⟨effect, heffect, rfl⟩ := Option.map_eq_some_iff.mp h
    exact .resume htask heffect
  | checkExpired => obtain ⟨htimer, rfl⟩ := ite_eq_some.mp h; exact .checkExpired htimer
  | cacheExpired => obtain rfl := Option.some.inj h; exact .cacheExpired _
  | remove id seq random => obtain rfl := Option.some.inj h; exact .remove
  | clearGarbage => obtain rfl := Option.some.inj h; exact .clearGarbage
  | openUpload id unique => obtain ⟨hopen, rfl⟩ := ite_eq_some.mp h; exact .openUpload hopen.1
  | writeChunk fileId chunkId =>
    obtain ⟨⟨hany, hunique, hfirst, hlast⟩, rfl⟩ := ite_eq_some.mp h
    obtain ⟨upload, hupload, hmatch⟩ := List.any_eq_true.mp hany
    exact .writeChunk hupload (beq_iff_eq.mp (Bool.and_eq_true_iff.mp hmatch).1) hunique hfirst
      hlast
  | finishUpload fileId =>
    obtain ⟨upload, hfind, rfl⟩ := Option.map_eq_some_iff.mp h
    have hmatch := List.find?_some hfind
    exact .finishUpload (List.mem_of_find?_eq_some hfind)
      (beq_iff_eq.mp (Bool.and_eq_true_iff.mp hmatch).1)
  | setMeta id data => obtain rfl := Option.some.inj h; exact .setMeta rfl
  | push id recipients => obtain ⟨hpush, rfl⟩ := ite_eq_some.mp h; exact .push hpush

/-! ### What GET, RELEASE, DEFER and the calls leave as it is -/

section fields

variable (cfg : Config) (s : Master)

/-- GET sends an error, or starts a task and makes the list of domains to skip. -/
theorem get_cases (c : Nat) (client : Client) :
    (client.zone = "" ∧ s.get cfg c client = s.send c .error) ∨
    (client.zone ≠ "" ∧ (s.cache.lookup client.zone).any (s.now ≤ ·) = true ∧
      ∃ get, s.get cfg c client = s.start ⟨.notFound get, .immediate⟩) ∨
    (client.zone ≠ "" ∧ (s.cache.lookup client.zone).any (s.now ≤ ·) = false ∧
      ∃ get, s.get cfg c client =
        { s with locks := (s.locks.listSkipDomains client.zone).2 }.start
          ⟨.tryNext get, .immediate⟩) := by
  unfold get
  by_cases hzone : client.zone = ""
  · exact Or.inl ⟨hzone, by rw [if_pos hzone]⟩
  · rw [if_neg hzone]
    cases hcache : (s.cache.lookup client.zone).any (s.now ≤ ·) with
    | true => exact Or.inr (Or.inl ⟨hzone, rfl, _, rfl⟩)
    | false => exact Or.inr (Or.inr ⟨hzone, rfl, _, rfl⟩)

/-- RELEASE and DEFER send an error or start a task. -/
theorem request_cases (c : Nat) (client : Client) (id seq _lock : String) (ttl : Option Nat) :
    s.request c client id seq _lock ttl = s.send c .error ∨
    ∃ req : Request, req.ttl = ttl ∧ s.request c client id seq _lock ttl =
      s.start ⟨.getDelivery req, .call (.findDelivery id seq)⟩ := by
  unfold request
  split
  · exact Or.inl rfl
  · exact Or.inr ⟨_, rfl, rfl⟩

/-- A call changes the collections, or not if it fails, and leaves an answer. -/
theorem exec_cases (n : Nat) (job : Job) (call : Call) (choice : Nat) (outcome : Outcome) :
    ∃ db reply, s.exec n ⟨job, .call call⟩ call choice outcome =
        { s with db := db, tasks := s.tasks.insert n ⟨job, .reply reply⟩ } ∧
      (db = s.db ∨ db = (s.db.exec choice call).1) ∧
      (reply = .error ∨ reply = (s.db.exec choice call).2 ∧ db = (s.db.exec choice call).1) := by
  cases outcome with
  | ok => exact ⟨_, _, rfl, Or.inr rfl, Or.inr ⟨rfl, rfl⟩⟩
  | failed => exact ⟨_, _, rfl, Or.inl rfl, Or.inl rfl⟩
  | lost => exact ⟨_, _, rfl, Or.inr rfl, Or.inl rfl⟩

end fields

/-- The locker after a step. -/
theorem locks_step {e : Event} (h : s.step cfg e = some s') :
    s'.locks = (s.lockOps cfg e).foldl (QueueLocker.apply s.now) s.locks := by
  cases step_cases h with
  | @hello c id zone client client' hclient _ _ _ hzone =>
    cases zone with
    | none => rfl
    | some name => rw [lockOps, hzone name rfl, if_neg Bool.false_ne_true]; rfl
  | @refuse c id name client hclient hid hzone =>
    rw [locks_disconnect, lockOps, hzone, if_pos rfl]
    rfl
  | close hclient =>
    rw [locks_disconnect, lockOps, hclient]
    rfl
  | @get c client hclient =>
    rw [lockOps, hclient]
    dsimp only
    rcases get_cases cfg s c client with ⟨hzone, hget⟩ | ⟨hzone, hcache, get, hget⟩ |
      ⟨hzone, hcache, get, hget⟩
    · rw [hget, if_pos (Or.inl hzone)]; rfl
    · rw [hget, if_pos (Or.inr hcache)]; rfl
    · rw [hget, if_neg (by rw [hcache]; exact fun h => h.elim hzone Bool.false_ne_true)]; rfl
  | @request c client id seq _lock ttl =>
    rcases request_cases s c client id seq _lock ttl with hreq | ⟨req, -, hreq⟩
    · rw [hreq]; rfl
    · rw [hreq]; rfl
  | @exec n choice outcome job call =>
    obtain ⟨db, reply, hexec, -⟩ := exec_cases s n job call choice outcome
    rw [hexec]
    rfl
  | resume htask heffect =>
    rw [lockOps, htask, Option.bind_some, heffect]
    rfl
  | _ => rfl

end Master

/-! ## The callbacks -/

namespace Effect

/-- The callback calls `release` only, if it calls the locker. -/
def Releases (effect : Effect) : Prop := ∀ op ∈ effect.ops, ∃ key, op = .release key

@[simp] theorem releases_wait (job : Job) (call : Call) : (wait job call).Releases :=
  fun _ h => nomatch h

@[simp] theorem releases_immediate (job : Job) : (immediate job).Releases :=
  fun _ h => nomatch h

@[simp] theorem releases_answer (client : Nat) (response : Response) :
    (answer client response).Releases :=
  fun _ h => nomatch h

@[simp] theorem releases_finish : finish.Releases :=
  fun _ h => nomatch h

@[simp] theorem releases_release {key : String} {effect : Effect} :
    (release key effect).Releases ↔ effect.Releases := by
  simp [Releases, release]

@[simp] theorem releases_callback (err : Bool) (caller : Caller) :
    (caller.callback err).Releases := by
  cases caller with
  | shift get delivery =>
    simp only [Caller.callback]
    split <;> simp
  | request req => simp [Caller.callback]
  | remove owner rest => simp [Caller.callback]
  | clearGarbage rest => simp [Caller.callback]

end Effect

/-- What the callbacks do to the locker: that of the `findOneAndUpdate` of `shift` and that of
    the `cursor.next` of `remove` call `lock`, a `remove` that fails releases its locks, the
    others release single locks. -/
theorem ops_callback {cfg : Config} {now : Nat} {locks : QueueLocker} {job : Job} {reply : Reply}
    {effect : Effect} (h : callback cfg now locks job reply = some effect) :
    effect.Releases ∨
      (∃ get delivery, job = .fetched get ∧ reply = .delivery (some delivery) ∧
        effect.ops = [.lock (lockKey delivery.id delivery.seq) get.zone delivery.domain
          get.lockOwner (cfg.limit delivery.domain) (60 * 60 * 1000)]) ∨
      (∃ owner delivery rest, job = .removeNext owner (delivery :: rest) ∧
        effect.ops = [.lock (lockKey delivery.id delivery.seq) "" "" owner 0 (1 * 60 * 1000)]) ∨
      (∃ owner, (job = .removeFound owner ∨ ∃ rest, job = .removeNext owner rest) ∧
        effect.ops = [.releaseLockOwner owner]) := by
  cases job with
  | fetched get =>
    simp only [callback] at h
    cases reply with
    | delivery delivery =>
      cases delivery with
      | none => obtain rfl := Option.some.inj h; exact Or.inl fun _ h => nomatch h
      | some delivery =>
        obtain rfl := Option.some.inj h
        exact Or.inr (Or.inl ⟨get, delivery, rfl, rfl, rfl⟩)
    | error => obtain rfl := Option.some.inj h; exact Or.inl (by simp)
    | _ => exact nomatch h
  | removeNext owner rest =>
    simp only [callback] at h
    cases reply with
    | error =>
      obtain rfl := Option.some.inj h
      exact Or.inr (Or.inr (Or.inr ⟨owner, Or.inr ⟨rest, rfl⟩, rfl⟩))
    | done =>
      cases rest with
      | nil => obtain rfl := Option.some.inj h; exact Or.inl (by simp)
      | cons delivery rest =>
        obtain rfl := Option.some.inj h
        exact Or.inr (Or.inr (Or.inl ⟨owner, delivery, rest, rfl, rfl⟩))
    | _ => exact nomatch h
  | removeFound owner =>
    simp only [callback] at h
    cases reply with
    | error =>
      obtain rfl := Option.some.inj h
      exact Or.inr (Or.inr (Or.inr ⟨owner, Or.inl rfl, rfl⟩))
    | deliveries deliveries => obtain rfl := Option.some.inj h; exact Or.inl (by simp)
    | _ => exact nomatch h
  | _ =>
    refine Or.inl ?_
    simp only [callback, shiftMeta, shiftDeleted, shiftSuppression, nextMeta, serverDelivery,
      releaseDelivery, releaseDeleted, releaseReference, removeMessage, deferDeferred, gcUnlocked,
      gcExpired, gcNext, gcOldest, gcFiles] at h
    repeat' split at h
    all_goals first
      | obtain rfl := Option.some.inj h
        simp
      | cases h

theorem lockKey_ne (id seq : String) : lockKey id seq ≠ "" := by
  intro h
  have hlength := congrArg String.length h
  rw [lockKey, String.length_append, String.length_append, String.length_append] at hlength
  have hlock : "lock ".length = 5 := rfl
  have hempty : "".length = 0 := rfl
  omega

namespace Master

variable {cfg : Config} {s s' : Master}

theorem releases_immediate {now : Nat} {job : Job} {effect : Effect}
    (h : immediate now job = some effect) : effect.Releases := by
  cases job with
  | tryNext get => obtain rfl := Option.some.inj h; exact Effect.releases_wait _ _
  | notFound get => obtain rfl := Option.some.inj h; exact Effect.releases_answer _ _
  | _ => exact nomatch h

/-- The operations of a callback. -/
theorem lockOps_resume {n : Nat} {task : Task} {effect : Effect}
    (htask : s.tasks.lookup n = some task) (heffect : s.effect cfg task = some effect) :
    s.lockOps cfg (.resume n) = effect.ops := by
  rw [lockOps, htask, Option.bind_some, heffect]
  rfl

/-- The end of a connection takes no lock. -/
theorem not_lock_mem_closeOps {id key zone domain lockOwner : String}
    {maxConnections ttl : Nat} :
    .lock key zone domain lockOwner maxConnections ttl ∉ closeOps id := by
  unfold closeOps
  split
  · exact List.not_mem_nil
  · exact fun h => nomatch List.mem_singleton.mp h

/-- The callback of `shift` with the delivery that its `findOneAndUpdate` has found. -/
def Fetches (s : Master) (e : Event) (get : Get) (delivery : Delivery) : Prop :=
  ∃ n, e = .resume n ∧
    s.tasks.lookup n = some ⟨.fetched get, .reply (.delivery (some delivery))⟩

/-- The callback of `remove` with its next delivery. -/
def Removes (s : Master) (e : Event) (owner : String) (delivery : Delivery) : Prop :=
  ∃ n rest reply, e = .resume n ∧
    s.tasks.lookup n = some ⟨.removeNext owner (delivery :: rest), .reply reply⟩

/-- The calls of `lock` of a step: it is the callback of `shift` or of `remove`, which call it
    once and do nothing else to the locker. -/
theorem lockOps_lock {e : Event} {key zone domain lockOwner : String} {maxConnections ttl : Nat}
    (h : .lock key zone domain lockOwner maxConnections ttl ∈ s.lockOps cfg e) :
    s.lockOps cfg e = [.lock key zone domain lockOwner maxConnections ttl] ∧
      ((∃ get delivery, s.Fetches e get delivery ∧
        Op.lock key zone domain lockOwner maxConnections ttl =
          .lock (lockKey delivery.id delivery.seq) get.zone delivery.domain get.lockOwner
            (cfg.limit delivery.domain) (60 * 60 * 1000)) ∨
      (∃ owner delivery, s.Removes e owner delivery ∧
        Op.lock key zone domain lockOwner maxConnections ttl =
          .lock (lockKey delivery.id delivery.seq) "" "" owner 0 (1 * 60 * 1000))) := by
  cases e with
  | resume n =>
    cases htask : s.tasks.lookup n with
    | none => rw [lockOps, htask] at h; exact nomatch h
    | some task =>
      cases heffect : s.effect cfg task with
      | none => rw [lockOps, htask, Option.bind_some, heffect] at h; exact nomatch h
      | some effect =>
        rw [lockOps_resume htask heffect] at h ⊢
        obtain ⟨job, wait⟩ := task
        cases wait with
        | immediate =>
          obtain ⟨key', hop⟩ := releases_immediate heffect _ h
          exact nomatch hop
        | call call => exact nomatch heffect
        | reply reply =>
          rcases ops_callback heffect with hrel | ⟨get, delivery, rfl, rfl, hops⟩ |
            ⟨owner, delivery, rest, rfl, hops⟩ | ⟨owner, -, hops⟩
          · obtain ⟨key', hop⟩ := hrel _ h
            exact nomatch hop
          · rw [hops, List.mem_singleton] at h
            exact ⟨hops.trans (h ▸ rfl), Or.inl ⟨get, delivery, ⟨n, rfl, htask⟩, h⟩⟩
          · rw [hops, List.mem_singleton] at h
            exact ⟨hops.trans (h ▸ rfl),
              Or.inr ⟨owner, delivery, ⟨n, rest, reply, rfl, htask⟩, h⟩⟩
          · rw [hops, List.mem_singleton] at h
            exact nomatch h
  | hello c id zone =>
    cases zone with
    | none => exact nomatch h
    | some name =>
      simp only [lockOps] at h
      split at h
      · exact absurd h not_lock_mem_closeOps
      · exact nomatch h
  | close c =>
    simp only [lockOps] at h
    cases hclient : s.clients.lookup c with
    | none => rw [hclient] at h; exact nomatch h
    | some client => rw [hclient] at h; exact absurd h not_lock_mem_closeOps
  | get c =>
    simp only [lockOps] at h
    split at h
    · split at h
      · exact nomatch h
      · exact nomatch List.mem_singleton.mp h
    · exact nomatch h
  | checkExpired => exact nomatch List.mem_singleton.mp h
  | _ => exact nomatch h

/-- A step locks no empty key. -/
theorem keyed_lockOps {e : Event} {op : Op} (h : op ∈ s.lockOps cfg e) : op.Keyed := by
  cases op with
  | lock key zone domain lockOwner maxConnections ttl =>
    rcases (lockOps_lock h).2 with ⟨get, delivery, -, hop⟩ | ⟨owner, delivery, -, hop⟩
    · rw [hop]; exact lockKey_ne _ _
    · rw [hop]; exact lockKey_ne _ _
  | _ => exact trivial

/-- A step keeps the locker well-formed. -/
theorem wf_step {e : Event} (hq : s.locks.WF) (h : s.step cfg e = some s') : s'.locks.WF := by
  rw [locks_step h]
  exact QueueLocker.wf_foldl_apply hq s.now fun _ => keyed_lockOps

/-- The locks after a step: those that its operations spare, and the new one of a `shift` or of
    a `remove`. -/
theorem mem_locks_step {e : Event} (hq : s.locks.WF) (h : s.step cfg e = some s') {l : Lock} :
    l ∈ s'.locks.locks ↔
      (l ∈ s.locks.locks ∧ ∀ op ∈ s.lockOps cfg e, op.Spares s.now l) ∨
      ∃ key zone domain lockOwner maxConnections ttl,
        .lock key zone domain lockOwner maxConnections ttl ∈ s.lockOps cfg e ∧
          s.locks.lockExists key = false ∧
            l = QueueLocker.newLock key zone domain lockOwner maxConnections ttl s.now := by
  rw [locks_step h]
  by_cases hlock : ∃ key zone domain lockOwner maxConnections ttl,
      .lock key zone domain lockOwner maxConnections ttl ∈ s.lockOps cfg e
  · -- it is the only operation
    obtain ⟨key, zone, domain, o, m, ttl, hlock⟩ := hlock
    rw [(lockOps_lock hlock).1, List.foldl_cons, List.foldl_nil,
      QueueLocker.mem_locks_apply hq]
    simp only [List.mem_singleton, forall_eq, eq_comm]
  · simp only [not_exists] at hlock
    rw [QueueLocker.mem_locks_foldl hq hlock]
    refine (or_iff_left ?_).symm
    rintro ⟨key, zone, domain, o, m, ttl, hmem, -⟩
    exact hlock key zone domain o m ttl hmem

/-! ## Time -/

/-- Time does not go back. -/
theorem now_step {e : Event} (h : s.step cfg e = some s') : s.now ≤ s'.now := by
  cases step_cases h with
  | tick hnow => exact hnow
  | @get c client =>
    rcases get_cases cfg s c client with ⟨-, hget⟩ | ⟨-, -, get, hget⟩ | ⟨-, -, get, hget⟩
    · rw [hget]; exact Nat.le_refl _
    · rw [hget]; exact Nat.le_refl _
    · rw [hget]; exact Nat.le_refl _
  | @request c client id seq _lock ttl =>
    rcases request_cases s c client id seq _lock ttl with hreq | ⟨req, -, hreq⟩
    · rw [hreq]; exact Nat.le_refl _
    · rw [hreq]; exact Nat.le_refl _
  | @exec n choice outcome job call =>
    obtain ⟨db, reply, hexec, -⟩ := exec_cases s n job call choice outcome
    rw [hexec]
  | _ => exact Nat.le_refl _

/-! ## Where a task goes -/

end Master

/-- The time that a sweep goes by: that of the document it has found, or the present. -/
def clearUntil (now : Nat) : Option Delivery → Nat
  | some delivery => delivery._id.time * 1000
  | none => now

/-- The cut-off of a sweep that goes by this time. -/
def cutoffOf (clearUntil : Nat) : ObjectId :=
  .createFromTime (roundSeconds (clearUntil - 10 * 60 * 1000))

/-- The documents that are released have ids up to this one. -/
def expiredUntil (cfg : Config) (now : Nat) : ObjectId :=
  .createFromTime (roundSeconds (now - cfg.maxQueueTime))

/-- Who has called the `releaseDelivery` that a callback belongs to. -/
def Job.caller? : Job → Option Caller
  | .deleted _ _ _ caller | .reference _ caller | .removeMessage caller
  | .fileDeleted caller => some caller
  | _ => none

/-- What a caller of `releaseDelivery` does next. -/
inductive Returns : Caller → Task → Prop where
  | shift (get : Get) (delivery : Delivery) :
      Returns (.shift get delivery) ⟨.tryNext get, .immediate⟩
  | remove (owner : String) (rest : List Delivery) :
      Returns (.remove owner rest) ⟨.removeNext owner rest, .call .cursorNext⟩
  | clearGarbage (rest : List Delivery) :
      Returns (.clearGarbage rest) ⟨.expiredNext rest, .call .cursorNext⟩

/-- The callbacks: what a task waits for, and what it waits for next. -/
inductive Goes (cfg : Config) (now : Nat) : Task → Task → Prop where
  -- `shift`
  | tryNext (get : Get) :
      Goes cfg now ⟨.tryNext get, .immediate⟩ ⟨.fetched get, .call (.fetch get.query now)⟩
  | notFound (get : Get) :
      Goes cfg now ⟨.fetched get, .reply (.delivery none)⟩ ⟨.notFound get, .immediate⟩
  | locked (get : Get) (delivery : Delivery) :
      Goes cfg now ⟨.fetched get, .reply (.delivery (some delivery))⟩ ⟨.tryNext get, .immediate⟩
  | fetched (get : Get) (delivery : Delivery) :
      Goes cfg now ⟨.fetched get, .reply (.delivery (some delivery))⟩
        ⟨.shiftMeta get delivery, .call (.findFile delivery.id)⟩
  | noBody (get : Get) (delivery : Delivery) :
      Goes cfg now ⟨.shiftMeta get delivery, .reply (.file none)⟩
        ⟨.messageDeleted get delivery, .call (.deleteMessage delivery.id)⟩
  | body (get : Get) (delivery : Delivery) (file : File) :
      Goes cfg now ⟨.shiftMeta get delivery, .reply (.file (some file))⟩
        ⟨.suppression get delivery, .call (.findSuppressed (cfg.text.normal delivery.recipient)
          (cfg.text.normal delivery.domain))⟩
  | messageDeleted (get : Get) (delivery : Delivery) (reply : Reply) :
      Goes cfg now ⟨.messageDeleted get delivery, .reply reply⟩ ⟨.tryNext get, .immediate⟩
  | suppressed (get : Get) (delivery : Delivery) :
      Goes cfg now ⟨.suppression get delivery, .reply (.suppressed true)⟩
        ⟨.deleted delivery.id delivery.seq (lockKey delivery.id delivery.seq)
          (.shift get delivery), .call (.deleteDelivery delivery.id delivery.seq)⟩
  | notSuppressed (get : Get) (delivery : Delivery) (reply : Reply) :
      Goes cfg now ⟨.suppression get delivery, .reply reply⟩
        ⟨.nextMeta get delivery, .call (.findFile delivery.id)⟩
  -- `releaseDelivery`
  | deleted (id seq _lock : String) (caller : Caller) :
      Goes cfg now ⟨.deleted id seq _lock caller, .reply .done⟩
        ⟨.reference id caller, .call (.findReference id)⟩
  | unreferenced (id : String) (caller : Caller) :
      Goes cfg now ⟨.reference id caller, .reply (.delivery none)⟩
        ⟨.removeMessage caller, .call (.findFile id)⟩
  | removeMessage (caller : Caller) (file : File) :
      Goes cfg now ⟨.removeMessage caller, .reply (.file (some file))⟩
        ⟨.fileDeleted caller, .call (.deleteFile file._id)⟩
  | released {job : Job} {caller : Caller} {next : Task} (reply : Reply)
      (hcaller : job.caller? = some caller) (hnext : Returns caller next) :
      Goes cfg now ⟨job, .reply reply⟩ next
  -- RELEASE and DEFER
  | release (request : Request) (delivery : Delivery) (httl : request.ttl = none) :
      Goes cfg now ⟨.getDelivery request, .reply (.delivery (some delivery))⟩
        ⟨.deleted delivery.id delivery.seq request._lock (.request request),
          .call (.deleteDelivery delivery.id delivery.seq)⟩
  | defer (request : Request) (delivery : Delivery) {ttl : Nat}
      (httl : request.ttl = some ttl) :
      Goes cfg now ⟨.getDelivery request, .reply (.delivery (some delivery))⟩
        ⟨.deferred request,
          .call (.defer delivery.id delivery.seq now ttl delivery._deferred.isNone)⟩
  | deferred (request : Request) (delivery : Option Delivery) :
      Goes cfg now ⟨.deferred request, .reply (.delivery delivery)⟩
        ⟨.deferredMeta request, .call (.findFile request.id)⟩
  -- `remove`
  | removeFound (owner : String) (deliveries : List Delivery) :
      Goes cfg now ⟨.removeFound owner, .reply (.deliveries deliveries)⟩
        ⟨.removeNext owner deliveries, .call .cursorNext⟩
  | removeNext (owner : String) (delivery : Delivery) (rest : List Delivery) :
      Goes cfg now ⟨.removeNext owner (delivery :: rest), .reply .done⟩
        ⟨.deleted delivery.id delivery.seq (lockKey delivery.id delivery.seq)
          (.remove owner rest), .call (.deleteDelivery delivery.id delivery.seq)⟩
  | removeLocked (owner : String) (delivery : Delivery) (rest : List Delivery) :
      Goes cfg now ⟨.removeNext owner (delivery :: rest), .reply .done⟩
        ⟨.removeNext owner rest, .call .cursorNext⟩
  -- `clearGarbage`
  | unlocked (hmax : cfg.maxQueueTime > 0) :
      Goes cfg now ⟨.unlocked, .reply .done⟩
        ⟨.expired, .call (.findQueued (expiredUntil cfg now))⟩
  | noMaximum :
      Goes cfg now ⟨.unlocked, .reply .done⟩ ⟨.oldestFound, .call .findOldest⟩
  | expired (deliveries : List Delivery) :
      Goes cfg now ⟨.expired, .reply (.deliveries deliveries)⟩
        ⟨.expiredNext deliveries, .call .cursorNext⟩
  | expiredNext (delivery : Delivery) (rest : List Delivery) :
      Goes cfg now ⟨.expiredNext (delivery :: rest), .reply .done⟩
        ⟨.deleted delivery.id delivery.seq "" (.clearGarbage rest),
          .call (.deleteDelivery delivery.id delivery.seq)⟩
  | expiredEnd :
      Goes cfg now ⟨.expiredNext [], .reply .done⟩ ⟨.oldestFound, .call .findOldest⟩
  | oldestFound (delivery : Option Delivery) :
      Goes cfg now ⟨.oldestFound, .reply (.delivery delivery)⟩
        ⟨.filesDeleted (cutoffOf (clearUntil now delivery)),
          .call (.deleteFiles (cutoffOf (clearUntil now delivery)))⟩
  | filesDeleted (cutoff : ObjectId) :
      Goes cfg now ⟨.filesDeleted cutoff, .reply .done⟩
        ⟨.chunksDeleted, .call (.deleteChunks cutoff)⟩

theorem returns_callback {err : Bool} {caller : Caller} {next : Task}
    (h : (caller.callback err).next = some next) : Returns caller next := by
  cases caller with
  | shift get delivery =>
    cases err with
    | true => exact nomatch h
    | false => obtain rfl := Option.some.inj h; exact .shift get delivery
  | request req => exact nomatch h
  | remove owner rest => obtain rfl := Option.some.inj h; exact .remove owner rest
  | clearGarbage rest => obtain rfl := Option.some.inj h; exact .clearGarbage rest

/-- The callbacks of `shift`. -/
theorem goes_shift {cfg : Config} {now : Nat} {locks : QueueLocker} {get : Get} {reply : Reply}
    {effect : Effect} {next : Task} (h : shiftFetched cfg now locks get reply = some effect)
    (hnext : effect.next = some next) : Goes cfg now ⟨.fetched get, .reply reply⟩ next := by
  cases reply with
  | delivery delivery =>
    cases delivery with
    | none =>
      obtain rfl := Option.some.inj h
      obtain rfl := Option.some.inj hnext
      exact .notFound get
    | some delivery =>
      obtain rfl := Option.some.inj h
      dsimp only at hnext
      split at hnext
      · obtain rfl := Option.some.inj hnext; exact .fetched get delivery
      · obtain rfl := Option.some.inj hnext; exact .locked get delivery
  | error => obtain rfl := Option.some.inj h; exact nomatch hnext
  | _ => exact nomatch h

/-- The callbacks of `releaseDelivery`. -/
theorem goes_release {cfg : Config} {now : Nat} {locks : QueueLocker} {job : Job}
    {caller : Caller} {reply : Reply} {effect : Effect} {next : Task}
    (hcaller : job.caller? = some caller) (h : callback cfg now locks job reply = some effect)
    (hnext : effect.next = some next) : Goes cfg now ⟨job, .reply reply⟩ next := by
  have hreturns : ∀ {err : Bool}, (caller.callback err).next = some next →
      Goes cfg now ⟨job, .reply reply⟩ next :=
    fun h => .released reply hcaller (returns_callback h)
  cases job with
  | deleted id seq _lock caller' =>
    obtain rfl := Option.some.inj hcaller
    simp only [callback] at h
    cases reply with
    | error => obtain rfl := Option.some.inj h; exact hreturns hnext
    | done =>
      obtain rfl := Option.some.inj h
      obtain rfl := Option.some.inj hnext
      exact .deleted id seq _lock caller'
    | _ => exact nomatch h
  | reference id caller' =>
    obtain rfl := Option.some.inj hcaller
    simp only [callback] at h
    cases reply with
    | error => obtain rfl := Option.some.inj h; exact hreturns hnext
    | delivery delivery =>
      cases delivery with
      | none =>
        obtain rfl := Option.some.inj h
        obtain rfl := Option.some.inj hnext
        exact .unreferenced id caller'
      | some delivery => obtain rfl := Option.some.inj h; exact hreturns hnext
    | _ => exact nomatch h
  | removeMessage caller' =>
    obtain rfl := Option.some.inj hcaller
    simp only [callback] at h
    cases reply with
    | error => obtain rfl := Option.some.inj h; exact hreturns hnext
    | file file =>
      cases file with
      | none => obtain rfl := Option.some.inj h; exact hreturns hnext
      | some file =>
        obtain rfl := Option.some.inj h
        obtain rfl := Option.some.inj hnext
        exact .removeMessage caller' file
    | _ => exact nomatch h
  | fileDeleted caller' =>
    obtain rfl := Option.some.inj hcaller
    obtain rfl := Option.some.inj h
    exact hreturns hnext
  | _ => exact nomatch hcaller

/-- Where a callback leads to. -/
theorem goes_callback {cfg : Config} {now : Nat} {locks : QueueLocker} {job : Job}
    {reply : Reply} {effect : Effect} {next : Task}
    (h : callback cfg now locks job reply = some effect) (hnext : effect.next = some next) :
    Goes cfg now ⟨job, .reply reply⟩ next := by
  cases job with
  | fetched get => exact goes_shift h hnext
  | deleted id seq _lock caller => exact goes_release rfl h hnext
  | reference id caller => exact goes_release rfl h hnext
  | removeMessage caller => exact goes_release rfl h hnext
  | fileDeleted caller => exact goes_release rfl h hnext
  | removeNext owner rest =>
    simp only [callback] at h
    cases reply with
    | error => obtain rfl := Option.some.inj h; exact nomatch hnext
    | done =>
      cases rest with
      | nil => obtain rfl := Option.some.inj h; exact nomatch hnext
      | cons delivery rest =>
        obtain rfl := Option.some.inj h
        dsimp only at hnext
        split at hnext
        · obtain rfl := Option.some.inj hnext; exact .removeNext owner delivery rest
        · obtain rfl := Option.some.inj hnext; exact .removeLocked owner delivery rest
    | _ => exact nomatch h
  | tryNext get => exact nomatch h
  | notFound get => exact nomatch h
  | _ =>
    simp only [callback, shiftMeta, shiftDeleted, shiftSuppression, nextMeta, serverDelivery,
      releaseDelivery, deferDeferred, removeFound, gcUnlocked, gcExpired, gcNext, gcOldest,
      gcFiles] at h
    repeat' split at h
    all_goals first
      | obtain rfl := Option.some.inj h
        first
          | obtain rfl := Option.some.inj hnext
            first
              | exact .noBody ..
              | exact .body ..
              | exact .messageDeleted ..
              | exact .suppressed ..
              | exact .notSuppressed ..
              | exact .release _ _ ‹_›
              | exact .defer _ _ ‹_›
              | exact .deferred ..
              | exact .removeFound ..
              | exact .unlocked ‹_›
              | exact .noMaximum
              | exact .expired ..
              | exact .expiredNext ..
              | exact .expiredEnd
              | exact .oldestFound ..
              | exact .filesDeleted ..
          | cases hnext
      | cases h

namespace Master

variable {cfg : Config} {s s' : Master}

/-- Where a task goes. -/
theorem goes_effect {task : Task} {effect : Effect} {next : Task}
    (h : s.effect cfg task = some effect) (hnext : effect.next = some next) :
    Goes cfg s.now task next := by
  obtain ⟨job, wait⟩ := task
  cases wait with
  | immediate =>
    cases job with
    | tryNext get =>
      obtain rfl := Option.some.inj h
      obtain rfl := Option.some.inj hnext
      exact .tryNext get
    | notFound get => obtain rfl := Option.some.inj h; exact nomatch hnext
    | _ => exact nomatch h
  | call call => exact nomatch h
  | reply reply => exact goes_callback h hnext

/-! ## Tasks and clients -/

/-- The tasks that an event starts. -/
inductive Starts : Task → Prop where
  | tryNext (get : Get) : Starts ⟨.tryNext get, .immediate⟩
  | notFound (get : Get) : Starts ⟨.notFound get, .immediate⟩
  | getDelivery (request : Request) (id seq : String) :
      Starts ⟨.getDelivery request, .call (.findDelivery id seq)⟩
  | unlocked (instanceId : String) (now : Nat) :
      Starts ⟨.unlocked, .call (.unlock instanceId now)⟩
  | removeFound (random id : String) (seq : Option String) :
      Starts ⟨.removeFound (deleteId random), .call (.findDeliveries id seq)⟩

/-- What a step does to the tasks: nothing, or it starts one, or a call of one takes effect, or
    a callback of one runs. -/
inductive TaskStep (cfg : Config) (s s' : Master) : Event → Prop where
  | same {e : Event} (he : ∀ n, e ≠ .resume n) (htasks : s'.tasks = s.tasks)
      (hnext : s'.nextTask = s.nextTask) : TaskStep cfg s s' e
  | start {e : Event} {task : Task} (he : ∀ n, e ≠ .resume n)
      (htasks : s'.tasks = s.tasks.insert s.nextTask task)
      (hnext : s'.nextTask = s.nextTask + 1) (hstart : Starts task) : TaskStep cfg s s' e
  | exec {n choice : Nat} {outcome : Outcome} {task : Task} {call : Call} {reply : Reply}
      (htask : s.tasks.lookup n = some task) (hwait : task.wait = .call call)
      (hreply : reply = .error ∨ reply = (s.db.exec choice call).2)
      (htasks : s'.tasks = s.tasks.insert n { task with wait := .reply reply })
      (hnext : s'.nextTask = s.nextTask) : TaskStep cfg s s' (.exec n choice outcome)
  | resume {n : Nat} {task : Task} {effect : Effect} (htask : s.tasks.lookup n = some task)
      (heffect : s.effect cfg task = some effect)
      (htasks : s'.tasks = match effect.next with
        | some next => s.tasks.insert n next
        | none => s.tasks.erase n)
      (hnext : s'.nextTask = s.nextTask) : TaskStep cfg s s' (.resume n)

theorem taskStep {e : Event} (h : s.step cfg e = some s') : TaskStep cfg s s' e := by
  cases step_cases h with
  | @get c client =>
    rcases get_cases cfg s c client with ⟨-, hget⟩ | ⟨-, -, get, hget⟩ | ⟨-, -, get, hget⟩
    · rw [hget]; exact .same nofun rfl rfl
    · rw [hget]; exact .start nofun rfl rfl (.notFound get)
    · rw [hget]; exact .start nofun rfl rfl (.tryNext get)
  | @request c client id seq _lock ttl =>
    rcases request_cases s c client id seq _lock ttl with hreq | ⟨req, -, hreq⟩
    · rw [hreq]; exact .same nofun rfl rfl
    · rw [hreq]; exact .start nofun rfl rfl (.getDelivery req id seq)
  | @exec n choice outcome job call htask =>
    obtain ⟨db, reply, hexec, -, hreply⟩ := exec_cases s n job call choice outcome
    rw [hexec]
    exact .exec htask rfl (hreply.imp_right And.left) rfl rfl
  | resume htask heffect => exact .resume htask heffect rfl rfl
  | clearGarbage => exact .start nofun rfl rfl (.unlocked cfg.instanceId s.now)
  | @remove id random seq => exact .start nofun rfl rfl (.removeFound random id seq)
  | _ => exact .same nofun rfl rfl

/-- The numbers from `nextTask` on are not in use. -/
def FreshTasks (s : Master) : Prop := ∀ n, s.nextTask ≤ n → s.tasks.lookup n = none

theorem freshTasks_step {e : Event} (hs : FreshTasks s) (h : s.step cfg e = some s') :
    FreshTasks s' := by
  intro m hm
  have hlt : ∀ {n : Nat} {task : Task}, s.tasks.lookup n = some task → n < s.nextTask := by
    intro n task htask
    by_contra hn
    rw [hs n (Nat.le_of_not_lt hn)] at htask
    exact nomatch htask
  cases taskStep h with
  | same _ htasks hnext => rw [htasks]; exact hs m (hnext ▸ hm)
  | start _ htasks hnext _ =>
    rw [htasks, ForStd.lookup_insert, if_neg (show m ≠ s.nextTask from by omega)]
    exact hs m (by omega)
  | exec htask _ _ htasks hnext =>
    have hn := hlt htask
    rw [htasks, ForStd.lookup_insert, if_neg (by omega)]
    exact hs m (by omega)
  | resume htask _ htasks hnext =>
    have hn := hlt htask
    rw [htasks]
    split
    · rw [ForStd.lookup_insert, if_neg (by omega)]
      exact hs m (by omega)
    · rw [ForStd.lookup_erase, if_neg (by omega)]
      exact hs m (by omega)

/-- The tasks whose callback does not run go on. -/
theorem lookup_tasks_step {e : Event} (hs : FreshTasks s) (h : s.step cfg e = some s') {m : Nat}
    {task : Task} (htask : s.tasks.lookup m = some task) (he : e ≠ .resume m) :
    ∃ wait, s'.tasks.lookup m = some { task with wait := wait } := by
  cases taskStep h with
  | same _ htasks _ => exact ⟨task.wait, htasks ▸ htask⟩
  | start _ htasks _ _ =>
    have hne : m ≠ s.nextTask := by
      rintro rfl
      rw [hs s.nextTask (Nat.le_refl _)] at htask
      exact nomatch htask
    exact ⟨task.wait, by rw [htasks, ForStd.lookup_insert, if_neg hne]; exact htask⟩
  | @exec n _ _ task' _ reply htask' _ _ htasks _ =>
    by_cases hm : m = n
    · subst hm
      obtain rfl := Option.some.inj (htask.symm.trans htask')
      exact ⟨.reply reply, by rw [htasks, ForStd.lookup_insert, if_pos rfl]⟩
    · exact ⟨task.wait, by rw [htasks, ForStd.lookup_insert, if_neg hm]; exact htask⟩
  | @resume n _ effect _ _ htasks _ =>
    have hne : m ≠ n := fun hm => he (hm ▸ rfl)
    refine ⟨task.wait, ?_⟩
    rw [htasks]
    split
    · rw [ForStd.lookup_insert, if_neg hne]; exact htask
    · rw [ForStd.lookup_erase, if_neg hne]; exact htask

/-- The tasks that a step is not about stay as they are. -/
theorem lookup_tasks_same {e : Event} (hs : FreshTasks s) (h : s.step cfg e = some s') {m : Nat}
    {task : Task} (htask : s.tasks.lookup m = some task)
    (hexec : ∀ choice outcome, e ≠ .exec m choice outcome) (hresume : e ≠ .resume m) :
    s'.tasks.lookup m = some task := by
  cases taskStep h with
  | same _ htasks _ => rw [htasks]; exact htask
  | start _ htasks _ _ =>
    have hne : m ≠ s.nextTask := by
      rintro rfl
      rw [hs s.nextTask (Nat.le_refl _)] at htask
      exact nomatch htask
    rw [htasks, ForStd.lookup_insert, if_neg hne]
    exact htask
  | @exec n choice outcome _ _ _ _ _ _ htasks _ =>
    have hne : m ≠ n := fun hm => hexec choice outcome (hm ▸ rfl)
    rw [htasks, ForStd.lookup_insert, if_neg hne]
    exact htask
  | @resume n _ effect _ _ htasks _ =>
    have hne : m ≠ n := fun hm => hresume (hm ▸ rfl)
    rw [htasks]
    split
    · rw [ForStd.lookup_insert, if_neg hne]; exact htask
    · rw [ForStd.lookup_erase, if_neg hne]; exact htask

/-- A task after a step was there before, or it is new, or its call has taken effect, or its
    callback has run. -/
theorem lookup_tasks_of_step {e : Event} (h : s.step cfg e = some s') {m : Nat} {task : Task}
    (htask : s'.tasks.lookup m = some task) :
    s.tasks.lookup m = some task ∨ Starts task ∨
      (∃ job call reply, task = ⟨job, .reply reply⟩ ∧
        s.tasks.lookup m = some ⟨job, .call call⟩ ∧
          (reply = .error ∨ ∃ choice, reply = (s.db.exec choice call).2)) ∨
      ∃ before, e = .resume m ∧ s.tasks.lookup m = some before ∧ Goes cfg s.now before task := by
  cases taskStep h with
  | same _ htasks _ => exact Or.inl (htasks ▸ htask)
  | start _ htasks _ hstart =>
    rw [htasks, ForStd.lookup_insert] at htask
    split at htask
    · obtain rfl := Option.some.inj htask; exact Or.inr (Or.inl hstart)
    · exact Or.inl htask
  | @exec n choice _ before call reply hbefore hwait hreply htasks _ =>
    rw [htasks, ForStd.lookup_insert] at htask
    split at htask
    · next hm =>
      obtain rfl := Option.some.inj htask
      obtain ⟨job, wait⟩ := before
      obtain rfl : wait = .call call := hwait
      exact Or.inr (Or.inr (Or.inl ⟨job, call, reply, rfl, hm ▸ hbefore,
        hreply.imp_right fun h => ⟨choice, h⟩⟩))
    · exact Or.inl htask
  | @resume n before effect hbefore heffect htasks _ =>
    rw [htasks] at htask
    split at htask
    · next next hnext =>
      rw [ForStd.lookup_insert] at htask
      split at htask
      · next hm =>
        obtain rfl := Option.some.inj htask
        subst hm
        exact Or.inr (Or.inr (Or.inr ⟨before, rfl, hbefore, goes_effect heffect hnext⟩))
      · exact Or.inl htask
    · rw [ForStd.lookup_erase] at htask
      split at htask
      · exact nomatch htask
      · exact Or.inl htask

/-- The connections that are closed after a step were closed before, or the step has released
    the locks of the client. -/
theorem closed_step {e : Event} (h : s.step cfg e = some s') {c : Nat} {client : Client}
    (hclient : s'.clients.lookup c = some client) (hclosed : client.connected = false) :
    s.clients.lookup c = some client ∨ s.lockOps cfg e = closeOps client.id := by
  -- a new entry for another client does not matter
  have hinsert : ∀ {c' : Nat} {client' : Client},
      (s.clients.insert c' client').lookup c = some client →
        (client'.connected = true ∨ s.lockOps cfg e = closeOps client'.id) →
          s.clients.lookup c = some client ∨ s.lockOps cfg e = closeOps client.id := by
    intro c' client' hlookup hnew
    rw [ForStd.lookup_insert] at hlookup
    split at hlookup
    · obtain rfl := Option.some.inj hlookup
      rw [hclosed] at hnew
      exact Or.inr (hnew.resolve_left Bool.false_ne_true)
    · exact Or.inl hlookup
  cases step_cases h with
  | connect => exact hinsert hclient (Or.inl rfl)
  | hello _ hconnected => exact hinsert hclient (Or.inl hconnected)
  | refuse _ _ hzone =>
    refine hinsert hclient (Or.inr ?_)
    rw [lockOps, hzone, if_pos rfl]
  | close hclient' =>
    refine hinsert hclient (Or.inr ?_)
    rw [lockOps, hclient']
    rfl
  | @get c' client' =>
    rcases get_cases cfg s c' client' with ⟨-, hget⟩ | ⟨-, -, get, hget⟩ | ⟨-, -, get, hget⟩
    · rw [hget] at hclient; exact Or.inl hclient
    · rw [hget] at hclient; exact Or.inl hclient
    · rw [hget] at hclient; exact Or.inl hclient
  | @request c' client' id seq _lock ttl =>
    rcases request_cases s c' client' id seq _lock ttl with hreq | ⟨req, -, hreq⟩
    · rw [hreq] at hclient; exact Or.inl hclient
    · rw [hreq] at hclient; exact Or.inl hclient
  | @exec n choice outcome job call =>
    obtain ⟨db, reply, hexec, -⟩ := exec_cases s n job call choice outcome
    rw [hexec] at hclient
    exact Or.inl hclient
  | _ => exact Or.inl hclient

/-! ## Stored messages -/

/-- What a step does to what is stored: nothing, or a call takes effect, or a part of the
    intake of a message. -/
inductive StoreStep (s s' : Master) : Event → Prop where
  | same {e : Event} (hdb : s'.db = s.db) (huploads : s'.uploads = s.uploads) :
      StoreStep s s' e
  | exec {n choice : Nat} {outcome : Outcome} {job : Job} {call : Call}
      (htask : s.tasks.lookup n = some ⟨job, .call call⟩)
      (hdb : s'.db = s.db ∨ s'.db = (s.db.exec choice call).1)
      (huploads : s'.uploads = s.uploads) : StoreStep s s' (.exec n choice outcome)
  | openUpload {id : String} {unique : Nat} (hunique : unique ≠ 0) (hdb : s'.db = s.db)
      (huploads : s'.uploads = s.uploads ++ [⟨id, ⟨s.seconds, unique⟩, false⟩]) :
      StoreStep s s' (.openUpload id unique)
  | writeChunk {fileId chunkId : ObjectId} (hunique : chunkId.unique ≠ 0)
      (hfirst : fileId.time ≤ chunkId.time)
      (hdb : s'.db = { s.db with chunks := s.db.chunks ++ [⟨chunkId, fileId⟩] })
      (huploads : s'.uploads = s.uploads) : StoreStep s s' (.writeChunk fileId chunkId)
  | finishUpload {fileId : ObjectId} {upload : Upload} (hupload : upload ∈ s.uploads)
      (hfile : upload.fileId = fileId)
      (hdb : s'.db = { s.db with
        files := s.db.files ++ [⟨fileId, filename upload.id, none⟩] })
      (huploads : s'.uploads = ForStd.updateOne (·.fileId == fileId)
        (fun upload => { upload with finished := true }) s.uploads) :
      StoreStep s s' (.finishUpload fileId)
  | setMeta {id data : String}
      (hdb : s'.db = { s.db with
        files := ForStd.updateOne (·.filename == filename id)
          (fun file => { file with data := some data }) s.db.files })
      (huploads : s'.uploads = s.uploads) : StoreStep s s' (.setMeta id data)
  | push {id : String} {recipients : List Recipient} (hpush : s.canPush recipients = true)
      (hdb : s'.db = { s.db with queue := s.db.queue ++ recipients.map (·.document id) })
      (huploads : s'.uploads = s.uploads) : StoreStep s s' (.push id recipients)

theorem storeStep {e : Event} (h : s.step cfg e = some s') : StoreStep s s' e := by
  cases step_cases h with
  | @get c client =>
    rcases get_cases cfg s c client with ⟨-, hget⟩ | ⟨-, -, get, hget⟩ | ⟨-, -, get, hget⟩
    · rw [hget]; exact .same rfl rfl
    · rw [hget]; exact .same rfl rfl
    · rw [hget]; exact .same rfl rfl
  | @request c client id seq _lock ttl =>
    rcases request_cases s c client id seq _lock ttl with hreq | ⟨req, -, hreq⟩
    · rw [hreq]; exact .same rfl rfl
    · rw [hreq]; exact .same rfl rfl
  | @exec n choice outcome job call htask =>
    obtain ⟨db, reply, hexec, hdb, -⟩ := exec_cases s n job call choice outcome
    rw [hexec]
    exact .exec htask hdb rfl
  | openUpload hunique => exact .openUpload hunique rfl rfl
  | writeChunk _ _ hunique hfirst _ => exact .writeChunk hunique hfirst rfl rfl
  | finishUpload hupload hfile => exact .finishUpload hupload hfile rfl rfl
  | setMeta hfiles => subst hfiles; exact .setMeta rfl rfl
  | push hpush => exact .push hpush rfl rfl
  | _ => exact .same rfl rfl

/-- The message has a document in the queue. -/
def Queued (s : Master) (id : String) : Prop := ∃ delivery ∈ s.db.queue, delivery.id = id

instance (s : Master) (id : String) : Decidable (s.Queued id) :=
  inferInstanceAs (Decidable (∃ delivery ∈ s.db.queue, _))

/-- The ids that `push` makes are not later than the present, and have a counter. -/
theorem id_of_canPush {recipients : List Recipient} (h : s.canPush recipients = true)
    {recipient : Recipient} (hmem : recipient ∈ recipients) :
    recipient._id.time ≤ s.seconds ∧ recipient._id.unique ≠ 0 := by
  unfold canPush at h
  rw [Bool.and_eq_true] at h
  have hall := List.all_eq_true.mp h.2 recipient hmem
  simp only [Bool.and_eq_true, bne_iff_ne, decide_eq_true_eq] at hall
  exact ⟨hall.1.2, hall.1.1⟩

/-- A document after a step was there before, with the same ids, or `push` has stored it. -/
theorem mem_queue_step {e : Event} (h : s.step cfg e = some s') {d : Delivery}
    (hd : d ∈ s'.db.queue) :
    (∃ before ∈ s.db.queue, before._id = d._id ∧ before.id = d.id ∧ before.seq = d.seq) ∨
      ∃ recipients, e = .push d.id recipients ∧ d._id.time ≤ s.seconds ∧ d._id.unique ≠ 0 := by
  cases storeStep h with
  | same hdb _ => exact Or.inl ⟨d, hdb ▸ hd, rfl, rfl, rfl⟩
  | exec _ hdb _ =>
    rcases hdb with hdb | hdb
    · exact Or.inl ⟨d, hdb ▸ hd, rfl, rfl, rfl⟩
    · rw [hdb] at hd
      exact Or.inl (Database.mem_queue_exec hd)
  | @push id recipients hpush hdb _ =>
    rw [hdb] at hd
    rcases List.mem_append.mp hd with hd | hd
    · exact Or.inl ⟨d, hd, rfl, rfl, rfl⟩
    · obtain ⟨recipient, hmem, rfl⟩ := List.mem_map.mp hd
      exact Or.inr ⟨recipients, rfl, id_of_canPush hpush hmem⟩
  | openUpload _ hdb _ => exact Or.inl ⟨d, hdb ▸ hd, rfl, rfl, rfl⟩
  | writeChunk _ _ hdb _ => rw [hdb] at hd; exact Or.inl ⟨d, hd, rfl, rfl, rfl⟩
  | finishUpload _ _ hdb _ => rw [hdb] at hd; exact Or.inl ⟨d, hd, rfl, rfl, rfl⟩
  | setMeta hdb _ => rw [hdb] at hd; exact Or.inl ⟨d, hd, rfl, rfl, rfl⟩

/-- The ids of the documents stay different. -/
theorem nodup_step {e : Event} (hs : (s.db.queue.map (·._id)).Nodup) (h : s.step cfg e = some s') :
    (s'.db.queue.map (·._id)).Nodup := by
  cases storeStep h with
  | exec _ hdb _ =>
    rcases hdb with hdb | hdb
    · rw [hdb]; exact hs
    · rw [hdb]; exact Database.nodup_exec _ _ hs
  | @push id recipients hpush hdb _ =>
    obtain ⟨hnodup, hall⟩ := Bool.and_eq_true_iff.mp hpush
    have hdocs : (recipients.map (·.document id)).map (·._id) = recipients.map (·._id) := by
      rw [List.map_map]
      rfl
    rw [hdb, List.map_append, hdocs]
    refine List.nodup_append.mpr ⟨hs, of_decide_eq_true hnodup, ?_⟩
    rintro _ hleft _ hright rfl
    obtain ⟨d, hd, h_id⟩ := List.mem_map.mp hleft
    obtain ⟨recipient, hrecipient, hsame⟩ := List.mem_map.mp hright
    have hfresh := (Bool.and_eq_true_iff.mp (List.all_eq_true.mp hall recipient hrecipient)).2
    exact bne_iff_ne.mp (List.all_eq_true.mp hfresh d hd) (h_id.trans hsame.symm)
  | same hdb _ => rw [hdb]; exact hs
  | openUpload _ hdb _ => rw [hdb]; exact hs
  | writeChunk _ _ hdb _ => rw [hdb]; exact hs
  | finishUpload _ _ hdb _ => rw [hdb]; exact hs
  | setMeta hdb _ => rw [hdb]; exact hs

/-- A file after a step was there before, with the same name, or its upload finishes. -/
theorem mem_files_step {e : Event} (h : s.step cfg e = some s') {file : File}
    (hfile : file ∈ s'.db.files) :
    (∃ before ∈ s.db.files, before._id = file._id ∧ before.filename = file.filename) ∨
      ∃ upload ∈ s.uploads, upload.fileId = file._id ∧ filename upload.id = file.filename := by
  cases storeStep h with
  | same hdb _ => exact Or.inl ⟨file, hdb ▸ hfile, rfl, rfl⟩
  | exec _ hdb _ =>
    rcases hdb with hdb | hdb
    · exact Or.inl ⟨file, hdb ▸ hfile, rfl, rfl⟩
    · rw [hdb] at hfile
      exact Or.inl ⟨file, Database.mem_files_exec hfile, rfl, rfl⟩
  | finishUpload hupload hid hdb _ =>
    rw [hdb] at hfile
    rcases List.mem_append.mp hfile with hfile | hfile
    · exact Or.inl ⟨file, hfile, rfl, rfl⟩
    · rw [List.mem_singleton.mp hfile]
      exact Or.inr ⟨_, hupload, hid, rfl⟩
  | setMeta hdb _ =>
    rw [hdb] at hfile
    rcases ForStd.mem_updateOne hfile with hfile | ⟨before, hbefore, -, rfl⟩
    · exact Or.inl ⟨file, hfile, rfl, rfl⟩
    · exact Or.inl ⟨before, hbefore, rfl, rfl⟩
  | openUpload _ hdb _ => exact Or.inl ⟨file, hdb ▸ hfile, rfl, rfl⟩
  | writeChunk _ _ hdb _ => rw [hdb] at hfile; exact Or.inl ⟨file, hfile, rfl, rfl⟩
  | push _ hdb _ => rw [hdb] at hfile; exact Or.inl ⟨file, hfile, rfl, rfl⟩

/-- A chunk after a step was there before, or it is new, and not older than its file. -/
theorem mem_chunks_step {e : Event} (h : s.step cfg e = some s') {chunk : Chunk}
    (hchunk : chunk ∈ s'.db.chunks) :
    chunk ∈ s.db.chunks ∨ chunk._id.unique ≠ 0 ∧ chunk.files_id.time ≤ chunk._id.time := by
  cases storeStep h with
  | same hdb _ => exact Or.inl (hdb ▸ hchunk)
  | exec _ hdb _ =>
    rcases hdb with hdb | hdb
    · exact Or.inl (hdb ▸ hchunk)
    · rw [hdb] at hchunk
      exact Or.inl (Database.mem_chunks_exec hchunk)
  | writeChunk hunique hfirst hdb _ =>
    rw [hdb] at hchunk
    rcases List.mem_append.mp hchunk with hchunk | hchunk
    · exact Or.inl hchunk
    · rw [List.mem_singleton.mp hchunk]
      exact Or.inr ⟨hunique, hfirst⟩
  | openUpload _ hdb _ => exact Or.inl (hdb ▸ hchunk)
  | finishUpload _ _ hdb _ => rw [hdb] at hchunk; exact Or.inl hchunk
  | setMeta hdb _ => rw [hdb] at hchunk; exact Or.inl hchunk
  | push _ hdb _ => rw [hdb] at hchunk; exact Or.inl hchunk

/-- An upload after a step was there before, or it is opened now. -/
theorem mem_uploads_step {e : Event} (h : s.step cfg e = some s') {upload : Upload}
    (hupload : upload ∈ s'.uploads) :
    (∃ before ∈ s.uploads, before.id = upload.id ∧ before.fileId = upload.fileId) ∨
      upload.fileId.time = s.seconds ∧ upload.fileId.unique ≠ 0 := by
  cases storeStep h with
  | same _ huploads => exact Or.inl ⟨upload, huploads ▸ hupload, rfl, rfl⟩
  | exec _ _ huploads => exact Or.inl ⟨upload, huploads ▸ hupload, rfl, rfl⟩
  | openUpload hunique _ huploads =>
    rw [huploads] at hupload
    rcases List.mem_append.mp hupload with hupload | hupload
    · exact Or.inl ⟨upload, hupload, rfl, rfl⟩
    · rw [List.mem_singleton.mp hupload]
      exact Or.inr ⟨rfl, hunique⟩
  | finishUpload _ _ _ huploads =>
    rw [huploads] at hupload
    rcases ForStd.mem_updateOne hupload with hupload | ⟨before, hbefore, -, rfl⟩
    · exact Or.inl ⟨upload, hupload, rfl, rfl⟩
    · exact Or.inl ⟨before, hbefore, rfl, rfl⟩
  | writeChunk _ _ _ huploads => exact Or.inl ⟨upload, huploads ▸ hupload, rfl, rfl⟩
  | setMeta _ huploads => exact Or.inl ⟨upload, huploads ▸ hupload, rfl, rfl⟩
  | push _ _ huploads => exact Or.inl ⟨upload, huploads ▸ hupload, rfl, rfl⟩

/-- The uploads do not go away. -/
theorem exists_upload_step {e : Event} (h : s.step cfg e = some s') {upload : Upload}
    (hupload : upload ∈ s.uploads) :
    ∃ after ∈ s'.uploads, after.id = upload.id ∧ after.fileId = upload.fileId := by
  cases storeStep h with
  | same _ huploads => exact ⟨upload, huploads ▸ hupload, rfl, rfl⟩
  | exec _ _ huploads => exact ⟨upload, huploads ▸ hupload, rfl, rfl⟩
  | openUpload _ _ huploads =>
    exact ⟨upload, huploads ▸ List.mem_append_left _ hupload, rfl, rfl⟩
  | finishUpload _ _ _ huploads =>
    rw [huploads]
    rcases ForStd.mem_updateOne_of_mem hupload with hafter | hafter
    · exact ⟨upload, hafter, rfl, rfl⟩
    · exact ⟨_, hafter, rfl, rfl⟩
  | writeChunk _ _ _ huploads => exact ⟨upload, huploads ▸ hupload, rfl, rfl⟩
  | setMeta _ huploads => exact ⟨upload, huploads ▸ hupload, rfl, rfl⟩
  | push _ _ huploads => exact ⟨upload, huploads ▸ hupload, rfl, rfl⟩

end Master

end ZoneMta
