import ZoneMta.Spec.LockTables

/-!
# The timer of the locks

`lock` sets the timer again for a lock that expires before the others, `checkExpired` for the
first of those that are left, and `release` clears it with the last lock. So the timer is always
set for the lock that expires first, or for an earlier time.

## Key results

- `timed_apply`: every operation leaves the timer set for the locks
- `InStep.swept`: the locks that `checkExpired` releases
- `sweeps_run`: the timer and the sweep, after any operations
-/

namespace ZoneMta

open ForStd (run run_invariant)

namespace QueueLocker

/-- The timer is due a millisecond after the lock expires at the latest, and the next sweep is
    expected when the lock expires or before. -/
structure TimedFor (q : QueueLocker) (lock : Lock) : Prop where
  timer : ∃ time, q.lockCheckTimer = some time ∧ time ≤ lock.expires + 1
  check : ∃ time, q.nextExpireCheck = some time ∧ time ≤ lock.expires

/-- The timer is set for every lock that can be released, and a sweep releases those that have
    expired and no others. A lock with an empty key is not released. -/
structure Sweeps (q : QueueLocker) : Prop where
  timed : ∀ lock ∈ q.locks, lock.key ≠ "" → q.TimedFor lock
  swept : ∀ now, (q.checkExpired now).locks =
    q.locks.filter fun lock => now < lock.expires ∨ lock.key = ""

/-- The timer belongs to the next sweep, and the sweep to the locks. -/
structure Timed (q : QueueLocker) : Prop where
  timer : ∀ check, q.nextExpireCheck = some check →
    ∃ time, q.lockCheckTimer = some time ∧ time ≤ check + 1
  check : ∀ lock ∈ q.locks, lock.key ≠ "" →
    ∃ check, q.nextExpireCheck = some check ∧ check ≤ lock.expires

variable {q : QueueLocker}

theorem timed_empty : Timed {} where
  timer _ h := nomatch h
  check _ h := nomatch h

theorem Timed.timedFor (h : q.Timed) {lock : Lock} (hlock : lock ∈ q.locks)
    (hkey : lock.key ≠ "") : q.TimedFor lock := by
  obtain ⟨check, hcheck, hle⟩ := h.check lock hlock hkey
  obtain ⟨time, htime, hbound⟩ := h.timer check hcheck
  exact ⟨⟨time, htime, by omega⟩, check, hcheck, hle⟩

/-- A timer is not later than its delay. -/
theorem setTimeout_le {expires now : Nat} (h : now ≤ expires) :
    setTimeout (some (expires + 1 - now)) now ≤ expires + 1 := by
  unfold setTimeout
  rw [Option.filter_some]
  split
  · show now + (expires + 1 - now) ≤ expires + 1
    omega
  · -- the delay is too long, and the timer is set for the next millisecond
    show now + 1 ≤ expires + 1
    omega

/-! ## The operations -/

/-- The next sweep after `lock` is expected when the first lock expires. -/
theorem nextExpireCheck_lock {key : String} (h : q.lockExists key = false)
    (zone domain lockOwner : String) (maxConnections ttl now : Nat) :
    (q.lock key zone domain lockOwner maxConnections ttl now).2.nextExpireCheck =
      if q.nextExpireCheck.all
          ((newLock key zone domain lockOwner maxConnections ttl now).expires < ·) then
        some (newLock key zone domain lockOwner maxConnections ttl now).expires
      else q.nextExpireCheck := by
  rw [QueueLocker.lock, h, if_neg Bool.false_ne_true]

theorem lockCheckTimer_lock {key : String} (h : q.lockExists key = false)
    (zone domain lockOwner : String) (maxConnections ttl now : Nat) :
    (q.lock key zone domain lockOwner maxConnections ttl now).2.lockCheckTimer =
      if q.nextExpireCheck.all
          ((newLock key zone domain lockOwner maxConnections ttl now).expires < ·) then
        some (setTimeout (some
          ((newLock key zone domain lockOwner maxConnections ttl now).expires + 1 - now)) now)
      else q.lockCheckTimer := by
  rw [QueueLocker.lock, h, if_neg Bool.false_ne_true]

theorem Timed.lock (h : q.Timed) (key zone domain lockOwner : String)
    (maxConnections ttl now : Nat) :
    (q.lock key zone domain lockOwner maxConnections ttl now).2.Timed := by
  cases hexists : q.lockExists key with
  | true =>
    rw [lock_of_exists hexists]
    exact h
  | false =>
    have hlocks := locks_lock q key zone domain lockOwner maxConnections ttl now
    have hcheck := nextExpireCheck_lock hexists zone domain lockOwner maxConnections ttl now
    have htimer := lockCheckTimer_lock hexists zone domain lockOwner maxConnections ttl now
    have hnow : now ≤ (newLock key zone domain lockOwner maxConnections ttl now).expires :=
      Nat.le_add_right now _
    rw [hexists, if_neg Bool.false_ne_true] at hlocks
    generalize newLock key zone domain lockOwner maxConnections ttl now = lock at *
    constructor
    · intro check
      rw [hcheck, htimer]
      split
      · intro heq
        obtain rfl := Option.some.inj heq
        exact ⟨_, rfl, setTimeout_le hnow⟩
      · exact h.timer check
    · intro other hother hkey
      rw [hlocks, List.mem_append, List.mem_singleton] at hother
      rw [hcheck]
      split
      · next hfirst =>
        refine ⟨_, rfl, ?_⟩
        cases hother with
        | inl hold =>
          -- the sweep was expected before the old lock, and the new one is before that
          obtain ⟨check, hold, hle⟩ := h.check other hold hkey
          rw [hold, Option.all_some, decide_eq_true_eq] at hfirst
          omega
        | inr hnew => rw [hnew]
      · next hfirst =>
        cases hother with
        | inl hold => exact h.check other hold hkey
        | inr hnew =>
          -- it does not expire before the next sweep
          cases hnext : q.nextExpireCheck with
          | none => exact absurd (by rw [hnext]; rfl) hfirst
          | some check =>
            rw [hnext, Option.all_some, decide_eq_true_eq] at hfirst
            exact ⟨check, rfl, by rw [hnew]; omega⟩

/-- What `release` does to the timer: it stays, unless the last lock is gone. -/
theorem timer_release (q : QueueLocker) (key : String) :
    (q.release key).locks = [] ∧ (q.release key).nextExpireCheck = none ∨
      (q.release key).nextExpireCheck = q.nextExpireCheck ∧
        (q.release key).lockCheckTimer = q.lockCheckTimer := by
  unfold release
  split
  · exact Or.inr ⟨rfl, rfl⟩
  · split
    · exact Or.inr ⟨rfl, rfl⟩
    · dsimp only
      split
      · next hempty => exact Or.inl ⟨hempty, rfl⟩
      · exact Or.inr ⟨rfl, rfl⟩

theorem Timed.release (h : q.Timed) (key : String) : (q.release key).Timed := by
  have hsub : ∀ lock ∈ (q.release key).locks, lock ∈ q.locks := by
    intro lock hlock
    rw [locks_release] at hlock
    split at hlock
    · exact hlock
    · exact (List.mem_filter.mp hlock).1
  rcases timer_release q key with ⟨hempty, hnone⟩ | ⟨hcheck, htimer⟩
  · constructor
    · intro check heq
      exact nomatch hnone.symm.trans heq
    · intro lock hlock
      rw [hempty] at hlock
      exact nomatch hlock
  · constructor
    · rw [hcheck, htimer]
      exact h.timer
    · intro lock hlock hkey
      rw [hcheck]
      exact h.check lock (hsub lock hlock) hkey

theorem Timed.foldl_release (h : q.Timed) (keys : List String) :
    (keys.foldl QueueLocker.release q).Timed := by
  induction keys generalizing q with
  | nil => exact h
  | cons key keys ih => exact ih (h.release key)

/-- The next sweep, while locks are released: it stays until the last lock is gone. -/
theorem nextExpireCheck_foldl_release (q : QueueLocker) (keys : List String) :
    (keys.foldl QueueLocker.release q).locks = [] ∧
        (keys.foldl QueueLocker.release q).nextExpireCheck = none ∨
      (keys.foldl QueueLocker.release q).nextExpireCheck = q.nextExpireCheck := by
  induction keys generalizing q with
  | nil => exact Or.inr rfl
  | cons key keys ih =>
    rw [List.foldl_cons]
    rcases timer_release q key with ⟨hempty, hnone⟩ | ⟨hcheck, -⟩
    · -- the other keys are released already
      have hlocks : (keys.foldl QueueLocker.release (q.release key)).locks = [] := by
        rw [locks_foldl_release_keyed, hempty]
        rfl
      rcases ih (q.release key) with hleft | hright
      · exact Or.inl hleft
      · exact Or.inl ⟨hlocks, hright.trans hnone⟩
    · rw [← hcheck]
      exact ih (q.release key)

/-! ## The sweep -/

/-- The locks after a sweep: those that have not expired, and those that cannot be released. -/
theorem InStep.swept (hq : InStep q) (now : Nat) : (q.checkExpired now).locks =
    q.locks.filter fun lock => now < lock.expires ∨ lock.key = "" := by
  obtain ⟨next, hlocks, -⟩ := checkExpired_cases q now
  rw [hlocks, locks_foldl_release_keyed]
  apply List.filter_congr
  intro lock hlock
  apply decide_eq_decide.mpr
  rw [or_comm]
  apply or_congr_left
  rw [List.mem_map]
  constructor
  · intro hnot
    by_contra hexpired
    exact hnot ⟨lock, List.mem_filter.mpr ⟨hlock, by simpa using hexpired⟩, rfl⟩
  · rintro hlive ⟨lock', hlock', hkey⟩
    -- keys are unique, so the lock that is released under the key is this one
    obtain ⟨hmem, hexpired⟩ := List.mem_filter.mp hlock'
    rw [hq.eq_of_key hmem hlock hkey, decide_eq_true_eq] at hexpired
    omega

/-- The first time at which a lock expires that a sweep leaves. -/
def nextOf (q : QueueLocker) (now : Nat) : Option Nat :=
  ((q.locks.filter (now < ·.expires)).map (·.expires)).min?

theorem nextOf_le {lock : Lock} {now : Nat} (hlock : lock ∈ q.locks) (hlive : now < lock.expires) :
    ∃ check, q.nextOf now = some check ∧ check ≤ lock.expires := by
  have hmem : lock.expires ∈ (q.locks.filter (now < ·.expires)).map (·.expires) :=
    List.mem_map_of_mem (List.mem_filter.mpr ⟨hlock, decide_eq_true hlive⟩)
  cases hmin : q.nextOf now with
  | none =>
    rw [List.min?_eq_none_iff.mp hmin] at hmem
    exact nomatch hmem
  | some check => exact ⟨check, rfl, (List.min?_eq_some_iff.mp hmin).2 _ hmem⟩

theorem exists_of_nextOf {now check : Nat} (h : q.nextOf now = some check) :
    ∃ lock ∈ q.locks, now < lock.expires ∧ lock.expires = check := by
  obtain ⟨lock, hlock, heq⟩ := List.mem_map.mp (List.min?_eq_some_iff.mp h).1
  obtain ⟨hmem, hlive⟩ := List.mem_filter.mp hlock
  exact ⟨lock, hmem, of_decide_eq_true hlive, heq⟩

/-- What a sweep does to the timer: it is set for the first lock that is left. -/
theorem timer_checkExpired (hq : InStep q) (now : Nat) :
    (q.checkExpired now).nextExpireCheck = none ∧ (q.checkExpired now).locks = [] ∨
      (q.checkExpired now).nextExpireCheck = q.nextOf now ∧
        (q.checkExpired now).lockCheckTimer =
          some (setTimeout ((q.nextOf now).map (· + 1 - now)) now) := by
  have hswept := hq.swept now
  have hnext := nextExpireCheck_foldl_release
    { q with nextExpireCheck := q.nextOf now, lockCheckTimer := none }
    ((q.locks.filter (·.expires ≤ now)).map (·.key))
  unfold checkExpired at hswept ⊢
  dsimp only [nextOf] at hswept hnext ⊢
  split at hswept
  · next hempty =>
    rw [if_pos hempty]
    refine Or.inl ⟨?_, hempty⟩
    rcases hnext with ⟨-, hnone⟩ | hnext
    · exact hnone
    · rw [hnext]
      -- a lock that has not expired would be left
      by_contra hsome
      obtain ⟨check, hcheck⟩ := Option.ne_none_iff_exists'.mp hsome
      obtain ⟨lock, hlock, hlive, -⟩ := exists_of_nextOf hcheck
      have hleft : lock ∈ q.locks.filter fun lock => now < lock.expires ∨ lock.key = "" :=
        List.mem_filter.mpr ⟨hlock, decide_eq_true (Or.inl hlive)⟩
      rw [← hswept, hempty] at hleft
      exact nomatch hleft
  · next hleft =>
    rw [if_neg hleft]
    have hnext := hnext.resolve_left fun h => hleft h.1
    refine Or.inr ⟨hnext, ?_⟩
    dsimp only
    rw [hnext]

/-- A sweep sets the timer for the locks that it leaves. -/
theorem timed_checkExpired (hq : InStep q) (now : Nat) : (q.checkExpired now).Timed := by
  rcases timer_checkExpired hq now with ⟨hnone, hempty⟩ | ⟨hnext, htimer⟩
  · constructor
    · intro check hcheck
      exact nomatch hnone.symm.trans hcheck
    · intro lock hlock
      rw [hempty] at hlock
      exact nomatch hlock
  · constructor
    · intro check hcheck
      rw [hnext] at hcheck
      obtain ⟨lock, -, hlive, rfl⟩ := exists_of_nextOf hcheck
      refine ⟨_, htimer, ?_⟩
      rw [hcheck]
      exact setTimeout_le (by omega)
    · intro lock hlock hkey
      rw [hq.swept, List.mem_filter, decide_eq_true_eq] at hlock
      rw [hnext]
      exact nextOf_le hlock.1 (hlock.2.resolve_right hkey)

theorem Timed.listSkipDomains (h : q.Timed) (zone : String) : (q.listSkipDomains zone).2.Timed := by
  unfold QueueLocker.listSkipDomains
  split
  · exact h
  · exact ⟨h.timer, h.check⟩

theorem timed_apply (hq : InStep q) (h : q.Timed) (now : Nat) (op : Op) :
    (q.apply now op).Timed := by
  cases op with
  | lock key zone domain lockOwner maxConnections ttl =>
    exact h.lock key zone domain lockOwner maxConnections ttl now
  | release key => exact h.release key
  | releaseLockOwner lockOwner =>
    rw [apply, releaseLockOwner_eq]
    exact h.foldl_release _
  | checkExpired => exact timed_checkExpired hq now
  | listSkipDomains zone => exact h.listSkipDomains zone

/-! ## Runs -/

/-- After any operations the timer is set for the locks, and a sweep releases those that have
    expired. -/
theorem sweeps_run {es : List (Nat × Op)} (hrun : run step {} es = some q) : q.Sweeps := by
  have hinv : InStep q ∧ q.Timed := by
    apply run_invariant (I := fun q => InStep q ∧ q.Timed) _ ⟨wf_empty.inStep, timed_empty⟩ hrun
    intro s e s' h hstep
    obtain rfl := Option.some.inj hstep
    exact ⟨inStep_apply h.1 e.1 e.2, timed_apply h.1 h.2 e.1 e.2⟩
  exact ⟨fun _ hlock hkey => hinv.2.timedFor hlock hkey, hinv.1.swept⟩

/-- A lock that expires before one that was taken earlier. -/
def shorterLock : List (Nat × Op) :=
  [(0, .lock "a" "default" "example.com" "c1" 5 1000),
    (10, .lock "b" "default" "example.com" "c2" 5 100)]

theorem sweeps_shorterLock : ∃ q, run step {} shorterLock = some q ∧ q.Sweeps ∧
    q.lockCheckTimer = some 111 ∧ (q.checkExpired 111).locks.map (·.key) = ["a"] := by
  obtain ⟨q, hrun⟩ := run_isSome {} shorterLock
  have h := sweeps_run hrun
  refine ⟨q, hrun, h, ?_, ?_⟩
  · rw [← Option.some.inj hrun]
    decide +kernel
  · rw [h.swept, ← Option.some.inj hrun]
    decide +kernel

/-- The lock under the empty key stays when it has expired, and no sweep is expected for it. -/
theorem not_swept_emptyKey : ∃ q,
    run step {} [(0, .lock "" "default" "example.com" "c1" 5 1000), (1001, .checkExpired)] =
        some q ∧
      q.locks.map (·.expires) = [1000] ∧ q.nextExpireCheck = none := by
  refine ⟨_, rfl, ?_, ?_⟩
  · decide +kernel
  · decide +kernel

end QueueLocker

end ZoneMta
