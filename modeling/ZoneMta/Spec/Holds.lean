import ZoneMta.Spec.Disconnect

/-!
# Held deliveries

Which clients hold which deliveries is not in the state of the master process. Here it is kept
beside it: a GET is granted a delivery when it takes its lock, and its client holds it from
the response on, until its own RELEASE or DEFER has been processed, it disconnects, or the
lock expires. A release takes the key of the lock only: the server does not check who has the
lock, so a late RELEASE or DEFER frees the lock of the next holder.

## Key results

- `backed_step`: what is granted and has not expired has its lock
- `held_by_one`: a delivery has one holder, as long as no release frees the lock of another one
- `held_twice`: a late DEFER, and two holders
-/

namespace ZoneMta

open ForStd (run Along)
open QueueLocker (Op)

/-- A delivery that a GET was granted; `answered` once its client was sent it. -/
structure Hold where
  client : String
  task : Nat
  id : String
  seq : String
  expires : Nat
  answered : Bool
deriving Repr, DecidableEq

/-- The key of the lock of the delivery. -/
def Hold.key (hold : Hold) : String := lockKey hold.id hold.seq

/-- The RELEASE or DEFER that a callback completes. -/
def Job.request? : Job → Option Request
  | .deleted _ _ _ (.request req) | .deferred req => some req
  | _ => none

namespace Master

/-- The step ends the hold: the client disconnects, its RELEASE or DEFER of the delivery is
    processed, or the GET gives the delivery back. -/
def ends (cfg : Config) (s : Master) (e : Event) (hold : Hold) : Bool :=
  (s.lockOps cfg e).any fun op =>
    match op, e with
    | .releaseLockOwner owner, _ => hold.client == owner
    | .release _, .resume n =>
      hold.task == n || ((s.tasks.lookup n).bind (·.job.request?)).any fun req =>
        req.lockOwner == hold.client && req.id == hold.id && req.seq == hold.seq
    | _, _ => false

/-- What the step grants: the delivery whose lock it takes. -/
def granted (s : Master) : Event → List Hold
  | .resume n =>
    match s.tasks.lookup n with
    | some ⟨.fetched get, .reply (.delivery (some delivery))⟩ =>
      if s.locks.lockExists (lockKey delivery.id delivery.seq) then []
      else
        [{ client := get.lockOwner
           task := n
           id := delivery.id
           seq := delivery.seq
           expires := s.now + 60 * 60 * 1000
           answered := false }]
    | _ => []
  | _ => []

/-- The GET that the step answers with its delivery, if its client is there. -/
def answers (s : Master) : Event → Option Nat
  | .resume n =>
    match s.tasks.lookup n with
    | some ⟨.nextMeta get _, .reply (.file _)⟩ =>
      if (s.clients.lookup get.client).any (·.connected) then some n else none
    | _ => none
  | _ => none

end Master

/-- The master process, and what its clients were granted. -/
structure Watched where
  master : Master := {}
  holds : List Hold := []
deriving DecidableEq

namespace Watched

/-- A step of the master process, and what it does to the holds. -/
def step (cfg : Config) (w : Watched) (e : Event) : Option Watched :=
  (w.master.step cfg e).map fun master =>
    { master := master
      holds := ((w.holds.filter fun hold => !w.master.ends cfg e hold).map fun hold =>
          { hold with answered := hold.answered || w.master.answers e == some hold.task }) ++
        w.master.granted e }

/-- The client holds the delivery. -/
def Held (w : Watched) (hold : Hold) : Prop :=
  hold ∈ w.holds ∧ hold.answered = true ∧ w.master.now < hold.expires

/-- What is granted and has not expired has its lock. -/
structure Backed (w : Watched) : Prop where
  wf : w.master.locks.WF
  lock : ∀ hold ∈ w.holds, w.master.now < hold.expires →
    ∃ lock ∈ w.master.locks.locks, lock.key = hold.key ∧ lock.lockOwner = hold.client ∧
      lock.expires = hold.expires

/-- The step releases the lock of no delivery that is granted to someone else: if what it was
    granted for has not expired, the step ends it. -/
def FreesNoHold (cfg : Config) (w : Watched) (e : Event) : Prop :=
  ∀ hold ∈ w.holds, .release hold.key ∈ w.master.lockOps cfg e → w.master.now < hold.expires →
    w.master.ends cfg e hold = true

instance (cfg : Config) (w : Watched) (e : Event) : Decidable (FreesNoHold cfg w e) :=
  inferInstanceAs (Decidable (∀ hold ∈ w.holds, _))

variable {cfg : Config} {w w' : Watched}

/-- A hold after a step was there before and is not ended by the step, or it is granted by it. -/
theorem mem_holds_step {e : Event} (h : w.step cfg e = some w') {hold : Hold}
    (hhold : hold ∈ w'.holds) :
    (∃ before ∈ w.holds, w.master.ends cfg e before = false ∧ hold.client = before.client ∧
      hold.key = before.key ∧ hold.expires = before.expires) ∨
    hold ∈ w.master.granted e := by
  obtain ⟨master, -, rfl⟩ := Option.map_eq_some_iff.mp h
  rcases List.mem_append.mp hhold with hkept | hnew
  · obtain ⟨before, hbefore, rfl⟩ := List.mem_map.mp hkept
    obtain ⟨hbefore, hends⟩ := List.mem_filter.mp hbefore
    rw [Bool.not_eq_true'] at hends
    exact Or.inl ⟨before, hbefore, hends, rfl, rfl, rfl⟩
  · exact Or.inr hnew

/-- The step that grants a delivery takes its lock, and its time does not pass. -/
theorem lock_granted {s s' : Master} {e : Event} (hq : s.locks.WF) (h : s.step cfg e = some s')
    {hold : Hold} (hgrant : hold ∈ s.granted e) :
    ∃ lock ∈ s'.locks.locks, lock.key = hold.key ∧ lock.lockOwner = hold.client ∧
      lock.expires = hold.expires := by
  cases e with
  | resume n =>
    simp only [Master.granted] at hgrant
    split at hgrant
    · next get delivery htask =>
      split at hgrant
      · exact absurd hgrant List.not_mem_nil
      · next hfree =>
        rw [Bool.not_eq_true] at hfree
        obtain rfl := List.mem_singleton.mp hgrant
        have hops : s.lockOps cfg (.resume n) =
            [.lock (lockKey delivery.id delivery.seq) get.zone delivery.domain get.lockOwner
              (cfg.limit delivery.domain) (60 * 60 * 1000)] := by
          rw [Master.lockOps_resume htask rfl]
        refine ⟨QueueLocker.newLock (lockKey delivery.id delivery.seq) get.zone delivery.domain
          get.lockOwner (cfg.limit delivery.domain) (60 * 60 * 1000) s.now, ?_, rfl, rfl, rfl⟩
        refine (Master.mem_locks_step hq h).mpr (Or.inr ⟨_, _, _, _, _, _, ?_, hfree, rfl⟩)
        rw [hops]
        exact List.mem_cons_self
    · exact absurd hgrant List.not_mem_nil
  | _ => exact absurd hgrant List.not_mem_nil

/-- The lock of a hold that a step does not end is still there after it. -/
theorem lock_spared {s s' : Master} {e : Event} (hq : s.locks.WF) (h : s.step cfg e = some s')
    {hold : Hold} {lock : Lock} (hlock : lock ∈ s.locks.locks) (hkey : lock.key = hold.key)
    (howner : lock.lockOwner = hold.client) (hlive : s.now < lock.expires)
    (hends : s.ends cfg e hold = false) (hfree : .release hold.key ∉ s.lockOps cfg e) :
    lock ∈ s'.locks.locks := by
  refine (Master.mem_locks_step hq h).mpr (Or.inl ⟨hlock, fun op hop => ?_⟩)
  cases op with
  | release key =>
    intro heq
    rw [← heq, hkey] at hop
    exact hfree hop
  | releaseLockOwner owner =>
    intro heq
    -- the end of the connection, or of a `remove`, ends the hold
    have hany : s.ends cfg e hold = true :=
      List.any_eq_true.mpr ⟨_, hop, beq_iff_eq.mpr (howner.symm.trans heq)⟩
    rw [hends] at hany
    exact Bool.false_ne_true hany
  | checkExpired => exact hlive
  | _ => exact trivial

/-- A step that releases no lock of someone else leaves every hold with its lock. -/
theorem backed_step {e : Event} (hw : Backed w) (he : FreesNoHold cfg w e)
    (h : w.step cfg e = some w') : Backed w' := by
  obtain ⟨master, hmaster, hw'⟩ := Option.map_eq_some_iff.mp h
  have hmaster' : w.master.step cfg e = some w'.master := by rw [hmaster, ← hw']
  refine ⟨Master.wf_step hw.wf hmaster', fun hold hhold hlive => ?_⟩
  rcases mem_holds_step h hhold with ⟨before, hbefore, hends, hclient, hkey, hexpires⟩ | hgrant
  · have hnow := Master.now_step hmaster'
    have hbeforeLive : w.master.now < before.expires := by omega
    obtain ⟨lock, hlock, hlockKey, hlockOwner, hlockExpires⟩ :=
      hw.lock before hbefore hbeforeLive
    have hfree : .release before.key ∉ w.master.lockOps cfg e := by
      intro hmem
      rw [he before hbefore hmem hbeforeLive] at hends
      exact Bool.false_ne_true hends.symm
    refine ⟨lock, ?_, hlockKey.trans hkey.symm, hlockOwner.trans hclient.symm,
      hlockExpires.trans hexpires.symm⟩
    exact lock_spared hw.wf hmaster' hlock hlockKey hlockOwner (by omega) hends hfree
  · exact lock_granted hw.wf hmaster' hgrant

/-- In every run in which no release frees the lock of a delivery that is granted to someone
    else, each delivery is held by one client at most. -/
theorem held_by_one {db : Database} {es : List Event}
    (hes : Along (step cfg) (FreesNoHold cfg) { master := { db := db } } es)
    (hrun : run (step cfg) { master := { db := db } } es = some w) {hold hold' : Hold}
    (h : Held w hold) (h' : Held w hold') (hid : hold.id = hold'.id)
    (hseq : hold.seq = hold'.seq) : hold.client = hold'.client := by
  have hstart : Backed { master := { db := db } } :=
    ⟨QueueLocker.wf_empty, fun _ hmem => absurd hmem List.not_mem_nil⟩
  have hbacked : Backed w := ForStd.run_invariant_along
    (fun _ _ _ ht he hstep => backed_step ht he hstep) hstart hes hrun
  obtain ⟨lock, hlock, hkey, howner, -⟩ := hbacked.lock hold h.1 h.2.2
  obtain ⟨lock', hlock', hkey', howner', -⟩ := hbacked.lock hold' h'.1 h'.2.2
  have hsame : hold.key = hold'.key := by rw [Hold.key, Hold.key, hid, hseq]
  -- both holds have the lock of the key
  have hlocks : lock = lock' :=
    hbacked.wf.eq_of_key hlock hlock' (hkey.trans (hsame.trans hkey'.symm))
  rw [← howner, ← howner', hlocks]

/-- A client connects and calls GET, and is sent a delivery. -/
def sendTo (client task : Nat) (id : String) : List Event :=
  [.connect client, .hello client id (some "default"), .get client, .resume task,
    .exec task 0 .ok, .resume task, .exec task 0 .ok, .resume task, .exec task 0 .ok,
    .resume task, .exec task 0 .ok, .resume task]

/-- A sender keeps its delivery for 61 minutes, and the delivery is sent to another one. -/
def secondSender : List Event :=
  Master.answeredGet ++ [.tick (1600000000000 + 61 * 60 * 1000), .checkExpired, .clearGarbage,
    .exec 1 0 .ok, .resume 1] ++ sendTo 2 2 "c2"

/-- The hold of the second sender. -/
def secondHold : Hold where
  client := "c2"
  task := 2
  id := "m"
  seq := "001"
  expires := 1600003660000 + 60 * 60 * 1000
  answered := true

theorem held_by_one_example :
    ∃ w, run (step Master.oneZone) { master := { db := {} } } secondSender = some w ∧
      Held w secondHold ∧ ∀ hold, Held w hold → secondHold.id = hold.id →
        secondHold.seq = hold.seq → secondHold.client = hold.client := by
  have hrun : (run (step Master.oneZone) { master := { db := {} } } secondSender).any
      (fun w => secondHold ∈ w.holds ∧ w.master.now < secondHold.expires) = true := by
    decide +kernel
  obtain ⟨w, hw, hheld⟩ := (Option.any_eq_true _ _).mp hrun
  obtain ⟨hmem, hlive⟩ := of_decide_eq_true hheld
  have hsecond : Held w secondHold := ⟨hmem, rfl, hlive⟩
  exact ⟨w, hw, hsecond, fun hold hhold hid hseq =>
    held_by_one (by decide +kernel) hw hsecond hhold hid hseq⟩

/-- The first sender defers the delivery after that: this releases the lock of the second one
    and unlocks the document, and a third sender is sent the delivery. -/
def lateDefer : List Event :=
  secondSender ++ [.request 1 "m" "001" "lock m 001" (some 0), .exec 3 0 .ok, .resume 3,
    .exec 3 0 .ok, .resume 3] ++ sendTo 3 4 "c3"

theorem held_twice :
    ¬∀ (cfg : Config) (es : List Event) (w : Watched), run (step cfg) {} es = some w →
      ∀ hold hold', Held w hold → Held w hold' → hold.id = hold'.id → hold.seq = hold'.seq →
        hold.client = hold'.client := by
  intro h
  have hrun : (run (step Master.oneZone) {} lateDefer).any (fun w =>
      secondHold ∈ w.holds ∧ { secondHold with client := "c3", task := 4 } ∈ w.holds ∧
        w.master.now < secondHold.expires) = true := by
    decide +kernel
  obtain ⟨w, hw, hheld⟩ := (Option.any_eq_true _ _).mp hrun
  obtain ⟨hsecond, hthird, hlive⟩ := of_decide_eq_true hheld
  have hsame := h Master.oneZone lateDefer w hw secondHold
    { secondHold with client := "c3", task := 4 } ⟨hsecond, rfl, hlive⟩ ⟨hthird, rfl, hlive⟩
    rfl rfl
  exact absurd hsame (show ¬"c2" = "c3" by decide)

end Watched

end ZoneMta
