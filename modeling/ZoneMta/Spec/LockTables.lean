import ZoneMta.Spec.SkipDomains

/-!
# The tables of the queue locker

What `locks`, `lockOwners` and `zones` are after any operations, and when a call of `lock`
succeeds. A lock under the empty key stays: `release` refuses the key. A lock that has expired
blocks its key until the timer has swept it, as `lockExists` looks at a field that the lock
objects do not have.

## Key results

- `tidy_apply`: no operation leaves an empty set behind
- `tables_run`: the tables after any operations, and what `releaseLockOwner` removes
- `lock_iff`: the calls of `lock` that succeed are those for a key without an unexpired lock if
  and only if no call finds an expired one
-/

namespace ZoneMta

open ForStd (run Along run_invariant along_congr lookup_insert lookup_erase)

namespace ZoneData

/-! ## Empty sets -/

/-- No domain has an empty set. -/
def Tidy (zoneData : ZoneData) : Prop :=
  ∀ domain locks, zoneData.domains.lookup domain = some locks → locks ≠ []

theorem tidy_empty : Tidy {} := fun _ _ h => nomatch h

theorem Tidy.congr {zoneData zoneData' : ZoneData} (h : zoneData.Tidy)
    (hdomains : zoneData'.domains = zoneData.domains) : zoneData'.Tidy := by
  intro domain locks hlookup
  rw [hdomains] at hlookup
  exact h domain locks hlookup

theorem Tidy.add {zoneData : ZoneData} (h : zoneData.Tidy) (lock : Lock) :
    (zoneData.add lock).Tidy := by
  unfold ZoneData.add
  split
  · exact h
  · intro domain locks hlookup
    rw [domains_limit, lookup_insert] at hlookup
    split at hlookup
    · rw [← Option.some.inj hlookup]
      exact List.concat_ne_nil _ _
    · exact h domain locks hlookup

theorem Tidy.delete {zoneData : ZoneData} (h : zoneData.Tidy) (lock : Lock)
    (domainData : List Lock) : (zoneData.delete lock domainData).Tidy := by
  unfold ZoneData.delete
  intro domain locks hlookup
  dsimp only at hlookup
  split at hlookup
  · rw [lookup_erase, domains_unlimit] at hlookup
    split at hlookup
    · exact nomatch hlookup
    · exact h domain locks hlookup
  · next hrest =>
    rw [lookup_insert, domains_unlimit] at hlookup
    split at hlookup
    · rw [← Option.some.inj hlookup]
      exact hrest
    · exact h domain locks hlookup

end ZoneData

namespace QueueLocker

/-- No owner and no domain has an empty set. -/
structure Tidy (q : QueueLocker) : Prop where
  owners : ∀ lockOwner owned, q.lockOwners.lookup lockOwner = some owned → owned ≠ []
  zones : ∀ zone, (q.zoneData zone).Tidy

theorem tidy_empty : Tidy {} where
  owners _ _ h := nomatch h
  zones _ := ZoneData.tidy_empty

theorem Tidy.congr {q q' : QueueLocker} (h : q.Tidy) (hzones : q'.zones = q.zones)
    (howners : q'.lockOwners = q.lockOwners) : q'.Tidy where
  owners := by
    rw [howners]
    exact h.owners
  zones := by
    intro zone
    rw [zoneData, hzones]
    exact h.zones zone

theorem Tidy.lock {q : QueueLocker} (h : q.Tidy) (key zone domain lockOwner : String)
    (maxConnections ttl now : Nat) :
    (q.lock key zone domain lockOwner maxConnections ttl now).2.Tidy := by
  cases hex : q.lockExists key with
  | true => rw [lock_of_exists hex]; exact h
  | false =>
    constructor
    · intro o owned hlookup
      rw [QueueLocker.lock, hex, if_neg Bool.false_ne_true, lookup_insert] at hlookup
      split at hlookup
      · rw [← Option.some.inj hlookup]
        exact List.concat_ne_nil _ _
      · exact h.owners o owned hlookup
    · intro z
      rw [zoneData_lock hex]
      split
      · exact (h.zones z).add _
      · exact h.zones z

theorem Tidy.release {q : QueueLocker} (h : q.Tidy) (key : String) : (q.release key).Tidy := by
  cases release_cases q key with
  | inl hsame => rw [hsame]; exact h
  | inr hrelease =>
    obtain ⟨lock, -, -, -, hzones, howners⟩ := hrelease
    constructor
    · intro o owned hlookup
      rw [howners] at hlookup
      unfold deleteOwned at hlookup
      -- the owner had no set, its set became empty and was dropped, or it has locks left
      split at hlookup
      · exact h.owners o owned hlookup
      · dsimp only at hlookup
        split at hlookup
        · rw [lookup_erase] at hlookup
          split at hlookup
          · exact nomatch hlookup
          · exact h.owners o owned hlookup
        · next hrest =>
          rw [lookup_insert] at hlookup
          split at hlookup
          · rw [← Option.some.inj hlookup]
            exact hrest
          · exact h.owners o owned hlookup
    · intro z
      rw [zoneData, hzones, lookup_deleteZoned, ← zoneData]
      -- only the zone of the lock is touched; without data it stays without
      split
      · split
        · exact ZoneData.tidy_empty
        · exact (h.zones z).delete _ _
      · exact h.zones z

theorem Tidy.foldl_release {q : QueueLocker} (h : q.Tidy) (keys : List String) :
    (keys.foldl QueueLocker.release q).Tidy := by
  induction keys generalizing q with
  | nil => exact h
  | cons key keys ih => exact ih (h.release key)

theorem Tidy.listSkipDomains {q : QueueLocker} (h : q.Tidy) (zone : String) :
    (q.listSkipDomains zone).2.Tidy where
  owners := by
    have howners : (q.listSkipDomains zone).2.lockOwners = q.lockOwners := by
      unfold QueueLocker.listSkipDomains
      split <;> rfl
    rw [howners]
    exact h.owners
  zones := by
    intro z
    obtain ⟨skipCache, hzone⟩ := zoneData_listSkipDomains q zone z
    rw [hzone]
    exact (h.zones z).congr rfl

/-- No operation leaves an empty set behind. -/
theorem tidy_apply {q : QueueLocker} (h : q.Tidy) (now : Nat) (op : Op) :
    (q.apply now op).Tidy := by
  cases op with
  | lock key zone domain lockOwner maxConnections ttl =>
    exact h.lock key zone domain lockOwner maxConnections ttl now
  | release key => exact h.release key
  | releaseLockOwner lockOwner =>
    rw [apply, releaseLockOwner_eq]
    -- the owner's locks are released one by one
    exact h.foldl_release _
  | checkExpired =>
    -- the timer is set again behind the releases, and has no part in the tables
    obtain ⟨next, -, hzones, howners⟩ := checkExpired_cases q now
    have hq' : Tidy { q with nextExpireCheck := next, lockCheckTimer := none } := h.congr rfl rfl
    exact (hq'.foldl_release _).congr hzones howners
  | listSkipDomains zone => exact h.listSkipDomains zone

/-! ## The tables -/

/-- The tables hold the same locks and nothing else, and the lists of domains to skip are those
    of the zones. -/
structure Tables (q : QueueLocker) : Prop where
  keys : (q.locks.map (·.key)).Nodup
  owners : ∀ lockOwner lock,
    lock ∈ q.ownerLocks lockOwner ↔ lock ∈ q.locks ∧ lock.lockOwner = lockOwner
  domains : ∀ zone domain lock, domain ≠ "" →
    (lock ∈ q.domainLocks zone domain ↔
      lock ∈ q.locks ∧ lock.zone = zone ∧ lock.domain = domain)
  tidy : q.Tidy
  skipDomains : ∀ zone, (q.listSkipDomains zone).1 = (q.zoneData zone).skip

/-- What `listSkipDomains` answers is the skip list. -/
theorem Fresh.listSkipDomains_eq {q : QueueLocker} (h : q.Fresh) (zone : String) :
    (q.listSkipDomains zone).1 = (q.zoneData zone).skip := by
  have hzone := h zone
  unfold QueueLocker.listSkipDomains
  unfold zoneData at hzone ⊢
  cases hzd : q.zones.lookup zone with
  | none => rfl
  | some zd =>
    rw [hzd, Option.getD_some] at hzone
    show zd.skipCache.getD zd.skip = zd.skip
    cases hcache : zd.skipCache with
    | none => rfl
    | some cached => rw [Option.getD_some, hzone.cache cached hcache]

theorem tables_of {q : QueueLocker} (hq : InStep q) (hfresh : q.Fresh) (htidy : q.Tidy) :
    q.Tables where
  keys := hq.keys
  owners := by
    intro lockOwner lock
    rw [hq.owners, List.mem_filter, decide_eq_true_eq]
  domains := by
    intro zone domain lock hdomain
    rw [hq.domains zone domain hdomain, heldFor, List.mem_filter, decide_eq_true_eq]
  tidy := htidy
  skipDomains := hfresh.listSkipDomains_eq

/-- The releases of several keys; the empty one is refused. -/
theorem locks_foldl_release_keyed (q : QueueLocker) (keys : List String) :
    (keys.foldl release q).locks = q.locks.filter fun lock => lock.key = "" ∨ lock.key ∉ keys := by
  induction keys generalizing q with
  | nil =>
    simp only [List.foldl_nil, List.not_mem_nil, not_false_eq_true, or_true, decide_true]
    exact (List.filter_true q.locks).symm
  | cons key keys ih =>
    rw [List.foldl_cons, ih, locks_release]
    split
    · next hkey =>
      -- `release` returns at once for the empty key
      refine List.filter_congr fun lock _ => decide_eq_decide.mpr ?_
      rw [hkey, List.mem_cons]
      by_cases hlock : lock.key = ""
      · exact iff_of_true (Or.inl hlock) (Or.inl hlock)
      · simp only [hlock, false_or]
    · next hkey =>
      -- the lock of the key is gone, and the rest of the keys follow
      rw [List.filter_filter]
      refine List.filter_congr fun lock _ => ?_
      rw [← Bool.decide_and]
      refine decide_eq_decide.mpr ?_
      rw [List.mem_cons]
      by_cases hlock : lock.key = ""
      · have hne : lock.key ≠ key := fun heq => hkey (heq ▸ hlock)
        exact iff_of_true ⟨Or.inl hlock, hne⟩ (Or.inl hlock)
      · simp only [hlock, false_or, not_or, ne_eq, and_comm]

/-- The locks after `releaseLockOwner`: those of the other owners, and those that cannot be
    released. -/
theorem InStep.locks_releaseLockOwner {q : QueueLocker} (hq : InStep q) (lockOwner : String) :
    (q.releaseLockOwner lockOwner).locks =
      q.locks.filter fun lock => lock.lockOwner ≠ lockOwner ∨ lock.key = "" := by
  rw [releaseLockOwner_eq, hq.owners, locks_foldl_release_keyed]
  refine List.filter_congr fun lock hlock => decide_eq_decide.mpr ?_
  rw [or_comm]
  refine or_congr (not_congr ?_) Iff.rfl
  rw [List.mem_map]
  constructor
  -- keys are unique, so a lock whose key the owner holds is the owner's
  · rintro ⟨lock', hlock', hkey⟩
    rw [List.mem_filter, decide_eq_true_eq] at hlock'
    rw [← hq.eq_of_key hlock'.1 hlock hkey]
    exact hlock'.2
  · exact fun howner => ⟨lock, List.mem_filter.mpr ⟨hlock, decide_eq_true howner⟩, rfl⟩

/-- What holds after any operations. -/
structure Inv (q : QueueLocker) : Prop where
  inStep : InStep q
  fresh : q.Fresh
  tidy : q.Tidy

theorem inv_empty : Inv {} := ⟨wf_empty.inStep, fresh_empty, tidy_empty⟩

theorem inv_apply {q : QueueLocker} (h : Inv q) (now : Nat) (op : Op) : Inv (q.apply now op) where
  inStep := inStep_apply h.inStep now op
  fresh := fresh_apply h.fresh now op
  tidy := tidy_apply h.tidy now op

theorem inv_step {q q' : QueueLocker} (h : Inv q) {e : Nat × Op} (hstep : step q e = some q') :
    Inv q' :=
  Option.some.inj hstep ▸ inv_apply h e.1 e.2

/-- After any operations the tables hold the same locks and no empty sets, the cache of the skip
    list is the list, and `releaseLockOwner` removes the locks of the owner whose key is not
    empty, and no other lock. -/
theorem tables_run {q : QueueLocker} {es : List (Nat × Op)} (hrun : run step {} es = some q) :
    q.Tables ∧ ∀ lockOwner, (q.releaseLockOwner lockOwner).Tables ∧
      (q.releaseLockOwner lockOwner).locks =
        q.locks.filter fun lock => lock.lockOwner ≠ lockOwner ∨ lock.key = "" := by
  have h : Inv q := run_invariant (fun _ _ _ h hstep => inv_step h hstep) inv_empty hrun
  refine ⟨tables_of h.inStep h.fresh h.tidy, fun lockOwner => ?_⟩
  -- the release is one more operation, so that the invariant holds behind it as well
  have hrelease : Inv (q.releaseLockOwner lockOwner) := inv_apply h 0 (.releaseLockOwner lockOwner)
  exact ⟨tables_of hrelease.inStep hrelease.fresh hrelease.tidy,
    h.inStep.locks_releaseLockOwner lockOwner⟩

theorem tables_run_twoLocks : ∃ q, run step {} twoLocks = some q ∧ q.Tables ∧
    (q.releaseLockOwner "c1").locks.map (·.key) = ["b"] := by
  obtain ⟨q, hrun⟩ := run_isSome {} twoLocks
  refine ⟨q, hrun, (tables_run hrun).1, ?_⟩
  rw [((tables_run hrun).2 "c1").2, ← Option.some.inj hrun]
  decide +kernel

/-- The lock under the empty key stays when its owner is released. -/
theorem not_released_emptyKey : ∃ q,
    run step {} [(0, .lock "" "default" "example.com" "c1" 5 1000)] = some q ∧
      (q.releaseLockOwner "c1").locks.map (·.lockOwner) = ["c1"] := by
  refine ⟨_, rfl, ?_⟩
  decide +kernel

/-! ## Expired locks -/

/-- A call of `lock` succeeds if and only if no unexpired lock is recorded for its key. -/
def LocksFree (q : QueueLocker) (e : Nat × Op) : Prop :=
  ∀ key zone domain lockOwner maxConnections ttl,
    e.2 = .lock key zone domain lockOwner maxConnections ttl →
      ((q.lock key zone domain lockOwner maxConnections ttl e.1).1 = true ↔
        ¬∃ lock ∈ q.locks, lock.key = key ∧ e.1 ≤ lock.expires)

/-- A call of `lock` finds no expired lock for its key. -/
def FindsNoExpired (q : QueueLocker) (e : Nat × Op) : Prop :=
  ∀ key zone domain lockOwner maxConnections ttl,
    e.2 = .lock key zone domain lockOwner maxConnections ttl →
      ∀ lock ∈ q.locks, lock.key = key → e.1 ≤ lock.expires

theorem locksFree_iff {q : QueueLocker} (hq : InStep q) (e : Nat × Op) :
    LocksFree q e ↔ FindsNoExpired q e := by
  refine forall_congr' fun key => forall_congr' fun zone => forall_congr' fun domain =>
    forall_congr' fun lockOwner => forall_congr' fun maxConnections => forall_congr' fun ttl =>
    forall_congr' fun _ => ?_
  rw [fst_lock, Bool.not_eq_true', ← Bool.not_eq_true, lockExists_iff, not_iff_not]
  constructor
  · intro hiff lock hlock hkey
    obtain ⟨lock', hlock', hkey', hexpires⟩ := hiff.mp ⟨lock, hlock, hkey⟩
    -- the key has one lock
    rw [← hq.eq_of_key hlock' hlock (hkey'.trans hkey.symm)]
    exact hexpires
  · intro hall
    constructor
    · rintro ⟨lock, hlock, hkey⟩
      exact ⟨lock, hlock, hkey, hall lock hlock hkey⟩
    · rintro ⟨lock, hlock, hkey, -⟩
      exact ⟨lock, hlock, hkey⟩

/-- In a run, the calls of `lock` that succeed are those for a key without an unexpired lock if
    and only if no call finds an expired lock that the timer has not swept yet. -/
theorem lock_iff (es : List (Nat × Op)) :
    Along step LocksFree {} es ↔ Along step FindsNoExpired {} es := by
  obtain ⟨q', hrun⟩ := run_isSome {} es
  exact along_congr (I := Inv) (fun _ _ _ h hstep => inv_step h hstep)
    (fun _ e _ h _ => locksFree_iff h.inStep e) inv_empty hrun

/-- A lock for a second, and a call for its key after that, before the timer fires. -/
theorem lock_expired : ¬Along step LocksFree {}
    [(0, .lock "a" "default" "" "c1" 0 1000), (1001, .lock "a" "default" "" "c2" 0 1000)] := by
  intro h
  -- the first lock has expired a millisecond ago, but is still recorded
  have hsecond := (h.2 _ rfl).1 "a" "default" "" "c2" 0 1000 rfl
  have hrefused : ((QueueLocker.apply 0 {} (.lock "a" "default" "" "c1" 0 1000)).lock "a" "default"
      "" "c2" 0 1000 1001).1 = false := by
    decide +kernel
  have hfree : ¬∃ lock ∈ (QueueLocker.apply 0 {} (.lock "a" "default" "" "c1" 0 1000)).locks,
      lock.key = "a" ∧ 1001 ≤ lock.expires := by
    decide +kernel
  exact Bool.false_ne_true (hrefused.symm.trans (hsecond.mpr hfree))

end QueueLocker

end ZoneMta
