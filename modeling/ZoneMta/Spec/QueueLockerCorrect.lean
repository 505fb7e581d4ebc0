import ZoneMta.Native.QueueLocker

/-!
# The queue locker

`locks`, `lockOwners` and `zones` hold the same locks: the set of an owner and the set of a
domain are what filtering `locks` gives. With this, what an operation does is said by what
it does to `locks`.

## Key results

- `wf_apply`: every operation keeps the three collections in step
- `mem_locks_apply`: the locks after an operation
- `inLimit_apply`: a domain has at most `maxConnections` locks, and is on the skip list
  exactly when it has that many, as long as `lock` is not called for a skipped domain
- `length_lock_of_skipped`: a call of `lock` for a skipped domain takes one lock too many
-/

namespace ZoneMta

open ForStd (lookup_insert lookup_erase lookup_of_entries_eq_nil)

namespace ZoneData

/-! ## Zones -/

/-- A zone without domains has no locks. -/
theorem locksOf_of_entries_eq_nil {zoneData : ZoneData} (h : zoneData.domains.entries = [])
    (domain : String) : zoneData.locksOf domain = [] := by
  rw [locksOf, lookup_of_entries_eq_nil h, Option.getD_none]

theorem mem_skip_unskip {zoneData : ZoneData} {domain domain' : String} :
    domain' ∈ (zoneData.unskip domain).skip ↔ domain' ∈ zoneData.skip ∧ domain' ≠ domain := by
  rw [unskip, List.mem_filter, decide_eq_true_eq]

@[simp] theorem domains_limit (zoneData : ZoneData) (lock : Lock) (size : Nat) :
    (zoneData.limit lock size).domains = zoneData.domains := by
  unfold limit
  split
  · rfl
  · split <;> rfl

/-- The domain of the lock is on the list after `limit` if it is at its limit and was not on
    the list before. -/
theorem mem_skip_limit {zoneData : ZoneData} {lock : Lock} {size : Nat} {domain : String} :
    domain ∈ (zoneData.limit lock size).skip ↔
      if domain = lock.domain then
        domain ∉ zoneData.skip ∧ lock.maxConnections ≠ 0 ∧ lock.maxConnections ≤ size
      else domain ∈ zoneData.skip := by
  unfold limit
  by_cases hadd : lock.maxConnections ≠ 0 ∧ lock.maxConnections ≤ size ∧
      lock.domain ∉ zoneData.skip
  · rw [if_pos hadd, List.mem_append, List.mem_singleton]
    by_cases h : domain = lock.domain
    · subst h
      rw [if_pos rfl]
      exact ⟨fun _ => ⟨hadd.2.2, hadd.1, hadd.2.1⟩, fun _ => Or.inr rfl⟩
    · rw [if_neg h]
      exact ⟨fun hd => hd.resolve_right h, Or.inl⟩
  · rw [if_neg hadd]
    by_cases hskip : lock.domain ∈ zoneData.skip
    · rw [if_pos hskip, mem_skip_unskip]
      by_cases h : domain = lock.domain
      · subst h
        rw [if_pos rfl]
        exact ⟨fun hd => absurd rfl hd.2, fun hd => absurd hskip hd.1⟩
      · rw [if_neg h]
        exact ⟨fun hd => hd.1, fun hd => ⟨hd, h⟩⟩
    · rw [if_neg hskip]
      by_cases h : domain = lock.domain
      · subst h
        rw [if_pos rfl]
        exact ⟨fun hd => absurd hd hskip, fun hd => absurd ⟨hd.2.1, hd.2.2, hd.1⟩ hadd⟩
      · rw [if_neg h]

@[simp] theorem domains_unlimit (zoneData : ZoneData) (lock : Lock) (domainData : List Lock) :
    (zoneData.unlimit lock domainData).domains = zoneData.domains := by
  unfold unlimit
  dsimp only
  split <;> rfl

/-- What leaves the list at `unlimit`. -/
theorem mem_skip_unlimit {zoneData : ZoneData} {lock : Lock} {domainData : List Lock}
    {domain : String} :
    domain ∈ (zoneData.unlimit lock domainData).skip ↔
      domain ∈ zoneData.skip ∧
        ¬(domain = lock.domain ∧ lock ∈ domainData ∧ (lock.maxConnections = 0 ∨
          (domainData.filter (· ≠ lock)).length < lock.maxConnections)) := by
  unfold unlimit
  dsimp only
  split
  · next h =>
    rw [mem_skip_unskip]
    constructor
    · exact fun hd => ⟨hd.1, fun hd' => hd.2 hd'.1⟩
    · exact fun hd => ⟨hd.1, fun hd' => hd.2 ⟨hd', h.1, h.2.1⟩⟩
  · next h =>
    constructor
    · exact fun hd => ⟨hd, fun hd' => h ⟨hd'.2.1, hd'.2.2, hd'.1 ▸ hd⟩⟩
    · exact fun hd => hd.1

/-- The set of a domain after `add`. -/
theorem locksOf_add (zoneData : ZoneData) (lock : Lock) (domain : String) :
    (zoneData.add lock).locksOf domain =
      if lock.domain ≠ "" ∧ lock.domain = domain then zoneData.locksOf domain ++ [lock]
      else zoneData.locksOf domain := by
  unfold add locksOf
  by_cases hd : lock.domain = ""
  · rw [if_pos hd, if_neg fun h => h.1 hd]
  · rw [if_neg hd, domains_limit, lookup_insert]
    by_cases h : domain = lock.domain
    · rw [if_pos h, if_pos ⟨hd, h.symm⟩, Option.getD_some, h]
    · rw [if_neg h, if_neg fun h' => h h'.2.symm]

/-- The skip list after `add`. -/
theorem mem_skip_add {zoneData : ZoneData} {lock : Lock} {domain : String} :
    domain ∈ (zoneData.add lock).skip ↔
      if lock.domain ≠ "" ∧ lock.domain = domain then
        domain ∉ zoneData.skip ∧ lock.maxConnections ≠ 0 ∧
          lock.maxConnections ≤ (zoneData.locksOf domain).length + 1
      else domain ∈ zoneData.skip := by
  unfold add locksOf
  by_cases hd : lock.domain = ""
  · rw [if_pos hd, if_neg fun h => h.1 hd]
  · rw [if_neg hd, mem_skip_limit, List.length_append, List.length_singleton]
    by_cases h : domain = lock.domain
    · rw [if_pos h, if_pos ⟨hd, h.symm⟩, h]
    · rw [if_neg h, if_neg fun h' => h h'.2.symm]

/-- The set of a domain after `delete`. -/
theorem locksOf_delete (zoneData : ZoneData) (lock : Lock) (domainData : List Lock)
    (domain : String) :
    (zoneData.delete lock domainData).locksOf domain =
      if lock.domain = domain then domainData.filter (· ≠ lock)
      else zoneData.locksOf domain := by
  unfold delete locksOf
  dsimp only
  split
  · next hnil =>
    rw [lookup_erase, domains_unlimit]
    by_cases h : lock.domain = domain
    · rw [if_pos h, if_pos h.symm, hnil, Option.getD_none]
    · rw [if_neg h, if_neg (Ne.symm h)]
  · rw [lookup_insert, domains_unlimit]
    by_cases h : lock.domain = domain
    · rw [if_pos h, if_pos h.symm, Option.getD_some]
    · rw [if_neg h, if_neg (Ne.symm h)]

/-- The skip list after `delete`. -/
theorem skip_delete (zoneData : ZoneData) (lock : Lock) (domainData : List Lock) :
    (zoneData.delete lock domainData).skip = (zoneData.unlimit lock domainData).skip := by
  unfold delete
  dsimp only
  split <;> rfl

/-- The list has the domains that have reached `M` locks, also after `delete`. -/
theorem limit_delete {zoneData : ZoneData} (lock : Lock) {domain : String} {M : Nat}
    (h : domain ∈ zoneData.skip ↔ M ≤ (zoneData.locksOf domain).length)
    (hM : M ≠ 0) (hmax : lock.domain = domain → lock.maxConnections = M) :
    domain ∈ (zoneData.delete lock (zoneData.locksOf lock.domain)).skip ↔
      M ≤ ((zoneData.delete lock (zoneData.locksOf lock.domain)).locksOf domain).length := by
  rw [skip_delete, mem_skip_unlimit, locksOf_delete]
  by_cases hd : lock.domain = domain
  · subst hd
    rw [if_pos rfl, hmax rfl, h]
    generalize zoneData.locksOf lock.domain = domainData
    have hle : (domainData.filter (· ≠ lock)).length ≤ domainData.length :=
      List.length_filter_le _ _
    by_cases hlock : lock ∈ domainData
    · constructor
      · intro h'
        have hlt : ¬(domainData.filter (· ≠ lock)).length < M :=
          fun hlt => h'.2 ⟨rfl, hlock, Or.inr hlt⟩
        omega
      · intro h'
        refine ⟨by omega, fun h'' => ?_⟩
        rcases h''.2.2 with h0 | h0
        · exact hM h0
        · omega
    · -- a lock that is not in the set leaves it as it is
      have hself : domainData.filter (· ≠ lock) = domainData :=
        List.filter_eq_self.mpr fun l hl => decide_eq_true fun h' => hlock (h' ▸ hl)
      rw [hself]
      exact ⟨fun h' => h'.1, fun h' => ⟨h', fun h'' => hlock h''.2.1⟩⟩
  · rw [if_neg hd]
    exact ⟨fun h' => h.mp h'.1, fun h' => ⟨h.mpr h', fun h'' => hd h''.1.symm⟩⟩

end ZoneData

namespace QueueLocker

/-! ## Locks -/

section newLock

variable (key zone domain lockOwner : String) (maxConnections ttl now : Nat)

@[simp] theorem key_newLock :
    (newLock key zone domain lockOwner maxConnections ttl now).key = key := rfl

@[simp] theorem zone_newLock :
    (newLock key zone domain lockOwner maxConnections ttl now).zone = zone := rfl

@[simp] theorem domain_newLock :
    (newLock key zone domain lockOwner maxConnections ttl now).domain = domain := rfl

@[simp] theorem lockOwner_newLock :
    (newLock key zone domain lockOwner maxConnections ttl now).lockOwner = lockOwner := rfl

@[simp] theorem maxConnections_newLock :
    (newLock key zone domain lockOwner maxConnections ttl now).maxConnections =
      maxConnections := rfl

end newLock

theorem lockExists_iff {q : QueueLocker} {key : String} :
    q.lockExists key = true ↔ ∃ lock ∈ q.locks, lock.key = key := by
  simp only [lockExists, List.any_eq_true, beq_iff_eq]

/-- A call of `lock` for a key that is locked. -/
theorem lock_of_exists {q : QueueLocker} {key zone domain lockOwner : String}
    {maxConnections ttl now : Nat} (h : q.lockExists key = true) :
    q.lock key zone domain lockOwner maxConnections ttl now = (false, q) := by
  rw [lock, if_pos h]

theorem fst_lock (q : QueueLocker) (key zone domain lockOwner : String)
    (maxConnections ttl now : Nat) :
    (q.lock key zone domain lockOwner maxConnections ttl now).1 = !q.lockExists key := by
  unfold lock
  split
  · next h => rw [h]; rfl
  · next h => rw [Bool.not_eq_true] at h; rw [h]; rfl

theorem locks_lock (q : QueueLocker) (key zone domain lockOwner : String)
    (maxConnections ttl now : Nat) :
    (q.lock key zone domain lockOwner maxConnections ttl now).2.locks =
      if q.lockExists key then q.locks
      else q.locks ++ [newLock key zone domain lockOwner maxConnections ttl now] := by
  unfold lock
  split
  · rfl
  · rfl

theorem locks_release (q : QueueLocker) (key : String) :
    (q.release key).locks = if key = "" then q.locks else q.locks.filter (·.key ≠ key) := by
  unfold release
  split
  · rfl
  · split
    · next hfind =>
      -- nothing to release
      refine (List.filter_eq_self.mpr fun lock hlock => ?_).symm
      have hne := List.find?_eq_none.mp hfind lock hlock
      rw [beq_iff_eq] at hne
      exact decide_eq_true hne
    · rfl

/-- A lock that is released does not get in the way of another one. -/
theorem lockExists_release {q : QueueLocker} {key : String} (key' : String)
    (h : q.lockExists key = false) : (q.release key').lockExists key = false := by
  rw [← Bool.not_eq_true, lockExists_iff] at h ⊢
  rintro ⟨lock, hlock, hkey⟩
  rw [locks_release] at hlock
  refine h ⟨lock, ?_, hkey⟩
  split at hlock
  · exact hlock
  · exact (List.mem_filter.mp hlock).1

theorem lockExists_release_self {q : QueueLocker} {key : String} (hkey : key ≠ "") :
    (q.release key).lockExists key = false := by
  rw [← Bool.not_eq_true, lockExists_iff]
  rintro ⟨lock, hlock, hlockKey⟩
  rw [locks_release, if_neg hkey] at hlock
  exact of_decide_eq_true (List.mem_filter.mp hlock).2 hlockKey

/-- The releases of several keys. -/
theorem locks_foldl_release (q : QueueLocker) {keys : List String} (hkeys : "" ∉ keys) :
    (keys.foldl release q).locks = q.locks.filter (·.key ∉ keys) := by
  induction keys generalizing q with
  | nil =>
    simp only [List.foldl_nil, List.not_mem_nil, not_false_eq_true, decide_true]
    exact (List.filter_true q.locks).symm
  | cons key keys ih =>
    have hkey : key ≠ "" := fun h => hkeys (h ▸ List.mem_cons_self)
    rw [List.foldl_cons, ih _ fun h => hkeys (List.mem_cons_of_mem key h), locks_release,
      if_neg hkey, List.filter_filter]
    refine List.filter_congr fun lock _ => ?_
    simp only [List.mem_cons, not_or, Bool.decide_and, Bool.and_comm, ne_eq]

@[simp] theorem locks_listSkipDomains (q : QueueLocker) (zone : String) :
    (q.listSkipDomains zone).2.locks = q.locks := by
  unfold listSkipDomains
  split <;> rfl

/-! ## The sets of the owners and domains -/

theorem ownerLocks_lock {q : QueueLocker} {key : String} (h : q.lockExists key = false)
    (zone domain lockOwner : String) (maxConnections ttl now : Nat) (o : String) :
    (q.lock key zone domain lockOwner maxConnections ttl now).2.ownerLocks o =
      q.ownerLocks o ++
        if lockOwner = o then [newLock key zone domain lockOwner maxConnections ttl now]
        else [] := by
  rw [lock, h, if_neg Bool.false_ne_true]
  unfold ownerLocks
  dsimp only
  rw [lookup_insert]
  by_cases ho : lockOwner = o
  · rw [if_pos ho.symm, if_pos ho, Option.getD_some, ho]
  · rw [if_neg (Ne.symm ho), if_neg ho, List.append_nil]

theorem zoneData_lock {q : QueueLocker} {key : String} (h : q.lockExists key = false)
    (zone domain lockOwner : String) (maxConnections ttl now : Nat) (z : String) :
    (q.lock key zone domain lockOwner maxConnections ttl now).2.zoneData z =
      if zone = z then
        (q.zoneData z).add (newLock key zone domain lockOwner maxConnections ttl now)
      else q.zoneData z := by
  rw [lock, h, if_neg Bool.false_ne_true]
  unfold zoneData
  dsimp only
  rw [lookup_insert]
  by_cases hz : zone = z
  · rw [if_pos hz, if_pos hz.symm, Option.getD_some, hz]
  · rw [if_neg hz, if_neg (Ne.symm hz)]

theorem lookup_deleteOwned (lockOwners : ForStd.Map String (List Lock)) (lock : Lock)
    (o : String) :
    ((deleteOwned lockOwners lock).lookup o).getD [] =
      if lock.lockOwner = o then ((lockOwners.lookup o).getD []).filter (· ≠ lock)
      else (lockOwners.lookup o).getD [] := by
  unfold deleteOwned
  split
  · next hnone =>
    split
    · next ho => rw [← ho, hnone, Option.getD_none, List.filter_nil]
    · rfl
  · next owned hsome =>
    by_cases ho : lock.lockOwner = o
    · subst ho
      rw [if_pos rfl, hsome, Option.getD_some]
      dsimp only
      split
      · next hnil => rw [lookup_erase, if_pos rfl, hnil, Option.getD_none]
      · rw [lookup_insert, if_pos rfl, Option.getD_some]
    · rw [if_neg ho]
      dsimp only
      split
      · rw [lookup_erase, if_neg (Ne.symm ho)]
      · rw [lookup_insert, if_neg (Ne.symm ho)]

/-- The data of a zone after `deleteZoned`: the lock has left its domain, or the domain had no
    locks; the data of a zone without domains is dropped. -/
theorem lookup_deleteZoned (zones : ForStd.Map String ZoneData) (lock : Lock) (z : String) :
    let zoneData := (zones.lookup z).getD {}
    let after := zoneData.delete lock (zoneData.locksOf lock.domain)
    ((deleteZoned zones lock).lookup z).getD {} =
      if lock.zone = z ∧ lock.domain ≠ "" ∧ lock.domain ∈ zoneData.domains.keys then
        if after.domains.entries = [] then {} else after
      else zoneData := by
  intro zoneData after
  cases hzd : zones.lookup lock.zone with
  | none =>
    have hsame : deleteZoned zones lock = zones := by rw [deleteZoned, hzd]
    rw [hsame, if_neg]
    rintro ⟨rfl, -, h⟩
    simp only [zoneData, hzd, Option.getD_none] at h
    exact absurd h List.not_mem_nil
  | some zd =>
    have hdel : deleteZoned zones lock =
        if lock.domain ≠ "" ∧ lock.domain ∈ zd.domains.keys then
          if (zd.delete lock (zd.locksOf lock.domain)).domains.entries = [] then
            zones.erase lock.zone
          else zones.insert lock.zone (zd.delete lock (zd.locksOf lock.domain))
        else zones := by rw [deleteZoned, hzd]
    rw [hdel]
    by_cases hz : lock.zone = z
    · subst hz
      have hget : zoneData = zd := by simp only [zoneData, hzd, Option.getD_some]
      simp only [after, hget, true_and]
      split
      · split
        · rw [lookup_erase, if_pos rfl, Option.getD_none]
        · rw [lookup_insert, if_pos rfl, Option.getD_some]
      · rw [hzd, Option.getD_some]
    · simp only [hz, false_and, if_false]
      split
      · split
        · rw [lookup_erase, if_neg (Ne.symm hz)]
        · rw [lookup_insert, if_neg (Ne.symm hz)]
      · rfl

/-! ## Well-formed states -/

/-- The three collections hold the same locks, under keys that can be released. -/
structure WF (q : QueueLocker) : Prop where
  keys : (q.locks.map (·.key)).Nodup
  keyed : "" ∉ q.locks.map (·.key)
  owners : ∀ o, q.ownerLocks o = q.locks.filter (·.lockOwner = o)
  domains : ∀ z d, d ≠ "" → q.domainLocks z d = q.heldFor z d

theorem wf_empty : WF {} where
  keys := List.nodup_nil
  keyed := List.not_mem_nil
  owners _ := rfl
  domains _ _ _ := rfl

/-- The same without the keys: a lock under the empty key cannot be released. -/
structure InStep (q : QueueLocker) : Prop where
  keys : (q.locks.map (·.key)).Nodup
  owners : ∀ o, q.ownerLocks o = q.locks.filter (·.lockOwner = o)
  domains : ∀ z d, d ≠ "" → q.domainLocks z d = q.heldFor z d

theorem WF.inStep {q : QueueLocker} (hq : WF q) : InStep q := ⟨hq.keys, hq.owners, hq.domains⟩

theorem InStep.wf {q : QueueLocker} (hq : InStep q) (hkeyed : "" ∉ q.locks.map (·.key)) : WF q :=
  ⟨hq.keys, hkeyed, hq.owners, hq.domains⟩

/-- The key of a lock tells it from the other locks. -/
theorem InStep.eq_of_key {q : QueueLocker} (hq : InStep q) {lock lock' : Lock}
    (h : lock ∈ q.locks) (h' : lock' ∈ q.locks) (hkey : lock.key = lock'.key) : lock = lock' :=
  List.inj_on_of_nodup_map hq.keys h h' hkey

theorem WF.eq_of_key {q : QueueLocker} (hq : WF q) {lock lock' : Lock} (h : lock ∈ q.locks)
    (h' : lock' ∈ q.locks) (hkey : lock.key = lock'.key) : lock = lock' :=
  hq.inStep.eq_of_key h h' hkey

/-- Without one of its locks, the part of `locks` with a property is the part with it of
    `locks` without the key of the lock. -/
theorem InStep.filter_ne {q : QueueLocker} (hq : InStep q) {lock : Lock} (h : lock ∈ q.locks)
    (p : Lock → Prop) [DecidablePred p] :
    (q.locks.filter p).filter (· ≠ lock) =
      (q.locks.filter (·.key ≠ lock.key)).filter p := by
  rw [List.filter_filter, List.filter_filter]
  refine List.filter_congr fun l hl => ?_
  have hiff : l ≠ lock ↔ l.key ≠ lock.key :=
    not_congr ⟨fun hlock => hlock ▸ rfl, hq.eq_of_key hl h⟩
  rw [Bool.and_comm]
  exact congrArg (decide (p l) && ·) (decide_eq_decide.mpr hiff)

/-- The same for a lock that does not have the property. -/
theorem InStep.filter_ne_of_not {q : QueueLocker} (hq : InStep q) {lock : Lock} (h : lock ∈ q.locks)
    {p : Lock → Prop} [DecidablePred p] (hp : ¬p lock) :
    q.locks.filter p = (q.locks.filter (·.key ≠ lock.key)).filter p := by
  rw [← hq.filter_ne h p]
  refine (List.filter_eq_self.mpr fun l hl => ?_).symm
  have hl : p l := of_decide_eq_true (List.mem_filter.mp hl).2
  exact decide_eq_true (p := l ≠ lock) fun hlock => hp (hlock ▸ hl)

/-- `lock` keeps the collections in step. -/
theorem inStep_lock {q : QueueLocker} (hq : InStep q)
    (key zone domain lockOwner : String) (maxConnections ttl now : Nat) :
    InStep (q.lock key zone domain lockOwner maxConnections ttl now).2 := by
  cases hex : q.lockExists key with
  | true => rw [lock_of_exists hex]; exact hq
  | false =>
    have hlocks := locks_lock q key zone domain lockOwner maxConnections ttl now
    rw [hex, if_neg Bool.false_ne_true] at hlocks
    -- no lock has the key
    have hnew : ∀ l ∈ q.locks, l.key ≠ key := by
      intro l hl hlkey
      have := lockExists_iff.mpr ⟨l, hl, hlkey⟩
      rw [hex] at this
      exact Bool.false_ne_true this
    constructor
    · rw [hlocks, List.map_append, List.map_singleton, List.nodup_append]
      refine ⟨hq.keys, List.nodup_singleton _, ?_⟩
      intro k hk k' hk' heq
      obtain ⟨l, hl, rfl⟩ := List.mem_map.mp hk
      rw [List.mem_singleton] at hk'
      exact hnew l hl (heq.trans hk')
    · intro o
      rw [ownerLocks_lock hex, hlocks, List.filter_append, hq.owners o]
      by_cases ho : lockOwner = o
      · simp [ho]
      · simp [ho]
    · intro z d hd
      have hdomains := hq.domains z d hd
      unfold domainLocks heldFor at hdomains ⊢
      rw [zoneData_lock hex, hlocks, List.filter_append]
      by_cases hz : zone = z
      · rw [if_pos hz, ZoneData.locksOf_add, hdomains]
        by_cases hd' : domain = d
        · simp [hz, hd', hd]
        · simp [hd']
      · rw [if_neg hz, hdomains]
        simp [hz]

theorem wf_lock {q : QueueLocker} (hq : WF q) {key : String} (hkey : key ≠ "")
    (zone domain lockOwner : String) (maxConnections ttl now : Nat) :
    WF (q.lock key zone domain lockOwner maxConnections ttl now).2 := by
  refine (inStep_lock hq.inStep key zone domain lockOwner maxConnections ttl now).wf ?_
  rw [locks_lock]
  split
  · exact hq.keyed
  · rw [List.map_append, List.map_singleton, List.mem_append, List.mem_singleton]
    exact fun h => h.elim hq.keyed fun h => hkey h.symm

/-- What `release` finds, and what it does then. -/
theorem release_cases (q : QueueLocker) (key : String) :
    q.release key = q ∨ ∃ lock ∈ q.locks, lock.key = key ∧
      (q.release key).locks = q.locks.filter (·.key ≠ lock.key) ∧
      (q.release key).zones = deleteZoned q.zones lock ∧
      (q.release key).lockOwners = deleteOwned q.lockOwners lock := by
  unfold release
  split
  · exact Or.inl rfl
  · split
    · exact Or.inl rfl
    · next lock hfind =>
      have hkey := List.find?_some hfind
      rw [beq_iff_eq] at hkey
      refine Or.inr ⟨lock, List.mem_of_find?_eq_some hfind, hkey, ?_, rfl, rfl⟩
      rw [hkey]

/-- The set of a domain after `deleteZoned`. -/
theorem locksOf_deleteZoned (zones : ForStd.Map String ZoneData) (lock : Lock) (z : String)
    {d : String} (hd : d ≠ "") :
    (((deleteZoned zones lock).lookup z).getD {}).locksOf d =
      if lock.zone = z ∧ lock.domain = d then
        (((zones.lookup z).getD {}).locksOf d).filter (· ≠ lock)
      else ((zones.lookup z).getD {}).locksOf d := by
  rw [lookup_deleteZoned]
  generalize (zones.lookup z).getD {} = zoneData
  have hdelete := ZoneData.locksOf_delete zoneData lock (zoneData.locksOf lock.domain) d
  by_cases hin : lock.zone = z ∧ lock.domain ≠ "" ∧ lock.domain ∈ zoneData.domains.keys
  · have hdata : (if (zoneData.delete lock (zoneData.locksOf lock.domain)).domains.entries = []
          then {} else zoneData.delete lock (zoneData.locksOf lock.domain)).locksOf d =
        (zoneData.delete lock (zoneData.locksOf lock.domain)).locksOf d := by
      split
      · next hnil =>
        -- a zone without domains has no locks
        rw [ZoneData.locksOf_of_entries_eq_nil hnil]
        rfl
      · rfl
    rw [if_pos hin, hdata, hdelete]
    by_cases hd' : lock.domain = d
    · rw [if_pos hd', if_pos ⟨hin.1, hd'⟩, hd']
    · rw [if_neg hd', if_neg fun h => hd' h.2]
  · rw [if_neg hin]
    by_cases hd' : lock.zone = z ∧ lock.domain = d
    · -- the domain has no locks
      have hnone : zoneData.domains.lookup d = none := by
        rw [AList.lookup_eq_none]
        exact fun h => hin ⟨hd'.1, hd'.2 ▸ hd, hd'.2 ▸ h⟩
      rw [if_pos hd', ZoneData.locksOf, hnone, Option.getD_none, List.filter_nil]
    · rw [if_neg hd']

/-- `release` keeps the collections in step. -/
theorem inStep_release {q : QueueLocker} (hq : InStep q) (key : String) :
    InStep (q.release key) := by
  rcases release_cases q key with h | ⟨lock, hlock, hkey, hlocks, hzones, howners⟩
  · rw [h]; exact hq
  · constructor
    · rw [hlocks]
      exact hq.keys.sublist (List.filter_sublist.map _)
    · intro o
      unfold ownerLocks
      rw [howners, lookup_deleteOwned, hlocks]
      have howner := hq.owners o
      unfold ownerLocks at howner
      rw [howner]
      split
      · exact hq.filter_ne hlock _
      · next ho => exact hq.filter_ne_of_not hlock ho
    · intro z d hd
      have hdomains := hq.domains z d hd
      unfold domainLocks zoneData heldFor at hdomains ⊢
      rw [hzones, locksOf_deleteZoned _ _ _ hd, hlocks, hdomains]
      split
      · exact hq.filter_ne hlock _
      · next hd' => exact hq.filter_ne_of_not hlock hd'

theorem wf_release {q : QueueLocker} (hq : WF q) (key : String) : WF (q.release key) := by
  refine (inStep_release hq.inStep key).wf ?_
  rcases release_cases q key with h | ⟨lock, -, -, hlocks, -⟩
  · rw [h]
    exact hq.keyed
  · rw [hlocks]
    exact fun h => hq.keyed ((List.filter_sublist.map _).subset h)

/-- Releases keep the collections in step. -/
theorem inStep_foldl_release {q : QueueLocker} (hq : InStep q) (keys : List String) :
    InStep (keys.foldl release q) := by
  induction keys generalizing q with
  | nil => exact hq
  | cons key keys ih => exact ih (inStep_release hq key)

theorem wf_foldl_release {q : QueueLocker} (hq : WF q) (keys : List String) :
    WF (keys.foldl release q) := by
  induction keys generalizing q with
  | nil => exact hq
  | cons key keys ih => exact ih (wf_release hq key)

/-- The timer has no part in it. -/
theorem InStep.congr {q q' : QueueLocker} (hq : InStep q) (hlocks : q'.locks = q.locks)
    (hzones : q'.zones = q.zones) (howners : q'.lockOwners = q.lockOwners) : InStep q' where
  keys := by rw [hlocks]; exact hq.keys
  owners o := by
    rw [ownerLocks, howners, hlocks]
    exact hq.owners o
  domains z d hd := by
    rw [domainLocks, zoneData, hzones, heldFor, hlocks]
    exact hq.domains z d hd

theorem WF.congr {q q' : QueueLocker} (hq : WF q) (hlocks : q'.locks = q.locks)
    (hzones : q'.zones = q.zones) (howners : q'.lockOwners = q.lockOwners) : WF q' :=
  (hq.inStep.congr hlocks hzones howners).wf (hlocks ▸ hq.keyed)

/-- `releaseLockOwner` releases the locks of the owner. -/
theorem releaseLockOwner_eq (q : QueueLocker) (lockOwner : String) :
    q.releaseLockOwner lockOwner = ((q.ownerLocks lockOwner).map (·.key)).foldl release q := by
  unfold releaseLockOwner ownerLocks
  cases q.lockOwners.lookup lockOwner with
  | none => rfl
  | some owned => rfl

theorem inStep_releaseLockOwner {q : QueueLocker} (hq : InStep q) (lockOwner : String) :
    InStep (q.releaseLockOwner lockOwner) := by
  rw [releaseLockOwner_eq]
  exact inStep_foldl_release hq _

theorem wf_releaseLockOwner {q : QueueLocker} (hq : WF q) (lockOwner : String) :
    WF (q.releaseLockOwner lockOwner) := by
  rw [releaseLockOwner_eq]
  exact wf_foldl_release hq _

/-- The releases of the locks with a property leave the other locks. -/
theorem WF.locks_foldl_release {q : QueueLocker} (hq : WF q) (p : Lock → Prop)
    [DecidablePred p] :
    (((q.locks.filter p).map (·.key)).foldl release q).locks = q.locks.filter (¬p ·) := by
  have hkeyed : "" ∉ (q.locks.filter p).map (·.key) :=
    fun h => hq.keyed ((List.filter_sublist.map _).subset h)
  rw [QueueLocker.locks_foldl_release q hkeyed]
  refine List.filter_congr fun lock hlock => decide_eq_decide.mpr (not_congr ?_)
  rw [List.mem_map]
  constructor
  · rintro ⟨lock', hlock', hkey⟩
    rw [List.mem_filter, decide_eq_true_eq] at hlock'
    rw [← hq.eq_of_key hlock'.1 hlock hkey]
    exact hlock'.2
  · exact fun hp => ⟨lock, List.mem_filter.mpr ⟨hlock, decide_eq_true hp⟩, rfl⟩

/-- The locks after `releaseLockOwner` are those of the other owners. -/
theorem WF.locks_releaseLockOwner {q : QueueLocker} (hq : WF q) (lockOwner : String) :
    (q.releaseLockOwner lockOwner).locks = q.locks.filter (·.lockOwner ≠ lockOwner) := by
  rw [releaseLockOwner_eq, hq.owners]
  exact hq.locks_foldl_release fun lock => lock.lockOwner = lockOwner

/-- `checkExpired` releases the locks that have expired, and sets its timer again. -/
theorem checkExpired_cases (q : QueueLocker) (now : Nat) : ∃ next,
    let q' := ((q.locks.filter (·.expires ≤ now)).map (·.key)).foldl release
      { q with nextExpireCheck := next, lockCheckTimer := none }
    (q.checkExpired now).locks = q'.locks ∧ (q.checkExpired now).zones = q'.zones ∧
      (q.checkExpired now).lockOwners = q'.lockOwners := by
  refine ⟨((q.locks.filter (now < ·.expires)).map (·.expires)).min?, ?_⟩
  unfold checkExpired
  dsimp only
  split <;> exact ⟨rfl, rfl, rfl⟩

theorem inStep_checkExpired {q : QueueLocker} (hq : InStep q) (now : Nat) :
    InStep (q.checkExpired now) := by
  obtain ⟨next, hlocks, hzones, howners⟩ := checkExpired_cases q now
  have hq' : InStep { q with nextExpireCheck := next, lockCheckTimer := none } :=
    hq.congr rfl rfl rfl
  exact (inStep_foldl_release hq' _).congr hlocks hzones howners

theorem wf_checkExpired {q : QueueLocker} (hq : WF q) (now : Nat) : WF (q.checkExpired now) := by
  obtain ⟨next, hlocks, hzones, howners⟩ := checkExpired_cases q now
  have hq' : WF { q with nextExpireCheck := next, lockCheckTimer := none } :=
    hq.congr rfl rfl rfl
  exact (wf_foldl_release hq' _).congr hlocks hzones howners

/-- The locks after `checkExpired` are those that have not expired. -/
theorem WF.locks_checkExpired {q : QueueLocker} (hq : WF q) (now : Nat) :
    (q.checkExpired now).locks = q.locks.filter (now < ·.expires) := by
  obtain ⟨next, hlocks, -⟩ := checkExpired_cases q now
  have hq' : WF { q with nextExpireCheck := next, lockCheckTimer := none } :=
    hq.congr rfl rfl rfl
  rw [hlocks, hq'.locks_foldl_release fun lock => lock.expires ≤ now]
  exact List.filter_congr fun lock _ => decide_eq_decide.mpr Nat.not_le

/-- `listSkipDomains` changes the cache of the list only. -/
theorem zoneData_listSkipDomains (q : QueueLocker) (zone z : String) :
    ∃ skipCache, (q.listSkipDomains zone).2.zoneData z =
      { q.zoneData z with skipCache := skipCache } := by
  unfold listSkipDomains
  split
  · exact ⟨_, rfl⟩
  · next zd hzd =>
    unfold zoneData
    dsimp only
    rw [lookup_insert]
    by_cases hz : z = zone
    · rw [if_pos hz, hz, hzd]
      exact ⟨_, rfl⟩
    · rw [if_neg hz]
      exact ⟨_, rfl⟩

theorem inStep_listSkipDomains {q : QueueLocker} (hq : InStep q) (zone : String) :
    InStep (q.listSkipDomains zone).2 where
  keys := by rw [locks_listSkipDomains]; exact hq.keys
  owners o := by
    have howners : (q.listSkipDomains zone).2.ownerLocks o = q.ownerLocks o := by
      unfold listSkipDomains
      split <;> rfl
    rw [howners, locks_listSkipDomains]
    exact hq.owners o
  domains z d hd := by
    obtain ⟨skipCache, hzone⟩ := zoneData_listSkipDomains q zone z
    rw [domainLocks, hzone, heldFor, locks_listSkipDomains]
    exact hq.domains z d hd

theorem wf_listSkipDomains {q : QueueLocker} (hq : WF q) (zone : String) :
    WF (q.listSkipDomains zone).2 := by
  refine (inStep_listSkipDomains hq.inStep zone).wf ?_
  rw [locks_listSkipDomains]
  exact hq.keyed

theorem inStep_apply {q : QueueLocker} (hq : InStep q) (now : Nat) (op : Op) :
    InStep (q.apply now op) := by
  cases op with
  | lock key zone domain lockOwner maxConnections ttl =>
    exact inStep_lock hq key zone domain lockOwner maxConnections ttl now
  | release key => exact inStep_release hq key
  | releaseLockOwner lockOwner => exact inStep_releaseLockOwner hq lockOwner
  | checkExpired => exact inStep_checkExpired hq now
  | listSkipDomains zone => exact inStep_listSkipDomains hq zone

/-- The operations that the rest of the program calls: it locks no empty key. -/
def Op.Keyed : Op → Prop
  | .lock key _ _ _ _ _ => key ≠ ""
  | _ => True

/-- Every operation keeps the collections in step. -/
theorem wf_apply {q : QueueLocker} (hq : WF q) (now : Nat) {op : Op} (hop : op.Keyed) :
    WF (q.apply now op) := by
  cases op with
  | lock key zone domain lockOwner maxConnections ttl =>
    exact wf_lock hq hop zone domain lockOwner maxConnections ttl now
  | release key => exact wf_release hq key
  | releaseLockOwner lockOwner => exact wf_releaseLockOwner hq lockOwner
  | checkExpired => exact wf_checkExpired hq now
  | listSkipDomains zone => exact wf_listSkipDomains hq zone

/-- What an operation other than `lock` leaves in place. -/
def Op.Spares (now : Nat) (l : Lock) : Op → Prop
  | .release key => l.key ≠ key
  | .releaseLockOwner lockOwner => l.lockOwner ≠ lockOwner
  | .checkExpired => now < l.expires
  | _ => True

/-- The locks after an operation: those that it spares, and the new one of `lock`. -/
theorem mem_locks_apply {q : QueueLocker} (hq : WF q) {now : Nat} {op : Op} {l : Lock} :
    l ∈ (q.apply now op).locks ↔ l ∈ q.locks ∧ op.Spares now l ∨
      ∃ key zone domain lockOwner maxConnections ttl,
        op = .lock key zone domain lockOwner maxConnections ttl ∧ q.lockExists key = false ∧
          l = newLock key zone domain lockOwner maxConnections ttl now := by
  cases op with
  | lock key zone domain lockOwner maxConnections ttl =>
    rw [apply, locks_lock]
    cases hex : q.lockExists key with
    | true =>
      rw [if_pos rfl]
      constructor
      · exact fun h => Or.inl ⟨h, trivial⟩
      · rintro (h | ⟨_, _, _, _, _, _, hop, hfree, -⟩)
        · exact h.1
        · injection hop with hkey
          rw [← hkey, hex] at hfree
          exact nomatch hfree
    | false =>
      rw [if_neg Bool.false_ne_true, List.mem_append, List.mem_singleton]
      constructor
      · rintro (h | h)
        · exact Or.inl ⟨h, trivial⟩
        · exact Or.inr ⟨key, zone, domain, lockOwner, maxConnections, ttl, rfl, hex, h⟩
      · rintro (h | ⟨_, _, _, _, _, _, hop, -, h⟩)
        · exact Or.inl h.1
        · injection hop with h1 h2 h3 h4 h5 h6
          subst h1 h2 h3 h4 h5 h6
          exact Or.inr h
  | release key =>
    simp only [apply, reduceCtorEq, false_and, exists_const, or_false, Op.Spares]
    rw [locks_release]
    split
    · next hkey =>
      -- no lock has the empty key
      exact ⟨fun h => ⟨h, fun hl => hq.keyed (List.mem_map.mpr ⟨l, h, hl.trans hkey⟩)⟩,
        fun h => h.1⟩
    · rw [List.mem_filter, decide_eq_true_eq]
  | releaseLockOwner lockOwner =>
    simp only [apply, reduceCtorEq, false_and, exists_const, or_false, Op.Spares]
    rw [hq.locks_releaseLockOwner, List.mem_filter, decide_eq_true_eq]
  | checkExpired =>
    simp only [apply, reduceCtorEq, false_and, exists_const, or_false, Op.Spares]
    rw [hq.locks_checkExpired, List.mem_filter, decide_eq_true_eq]
  | listSkipDomains zone =>
    simp only [apply, reduceCtorEq, false_and, exists_const, or_false, Op.Spares, and_true]
    rw [locks_listSkipDomains]

/-- Operations keep the collections in step. -/
theorem wf_foldl_apply {q : QueueLocker} (hq : WF q) (now : Nat) {ops : List Op}
    (hops : ∀ op ∈ ops, op.Keyed) : WF (ops.foldl (apply now) q) := by
  induction ops generalizing q with
  | nil => exact hq
  | cons op ops ih =>
    exact ih (wf_apply hq now (hops op List.mem_cons_self))
      fun op' hop' => hops op' (List.mem_cons_of_mem op hop')

/-- The locks after operations that take none. -/
theorem mem_locks_foldl {q : QueueLocker} (hq : WF q) {now : Nat} {ops : List Op} {l : Lock}
    (hops : ∀ key zone domain lockOwner maxConnections ttl,
      .lock key zone domain lockOwner maxConnections ttl ∉ ops) :
    l ∈ (ops.foldl (apply now) q).locks ↔ l ∈ q.locks ∧ ∀ op ∈ ops, op.Spares now l := by
  induction ops generalizing q with
  | nil => exact ⟨fun h => ⟨h, fun _ h => absurd h List.not_mem_nil⟩, fun h => h.1⟩
  | cons op ops ih =>
    have hop : op.Keyed := by
      cases op with
      | lock key zone domain lockOwner maxConnections ttl =>
        exact absurd List.mem_cons_self (hops key zone domain lockOwner maxConnections ttl)
      | _ => exact trivial
    have hnew : ¬∃ key zone domain lockOwner maxConnections ttl,
        op = .lock key zone domain lockOwner maxConnections ttl ∧ q.lockExists key = false ∧
          l = newLock key zone domain lockOwner maxConnections ttl now := by
      rintro ⟨key, zone, domain, lockOwner, maxConnections, ttl, rfl, -⟩
      exact hops key zone domain lockOwner maxConnections ttl List.mem_cons_self
    rw [List.foldl_cons, ih (wf_apply hq now hop) fun key zone domain o m ttl h =>
      hops key zone domain o m ttl (List.mem_cons_of_mem op h), mem_locks_apply hq,
      or_iff_left hnew, List.forall_mem_cons, and_assoc]

/-! ## Connection limits -/

theorem domainIsSkipped_iff {q : QueueLocker} {z d : String} (hd : d ≠ "") :
    q.domainIsSkipped z d = true ↔ d ∈ (q.zoneData z).skip := by
  have hd' : (d != "") = true := bne_iff_ne.mpr hd
  rw [domainIsSkipped, hd', Bool.true_and, zoneData]
  cases q.zones.lookup z with
  | none => exact ⟨fun h => absurd h Bool.false_ne_true, fun h => absurd h List.not_mem_nil⟩
  | some zd =>
    rw [Option.any_some, Option.getD_some]
    exact List.contains_iff_mem

/-- The domain `d` of the zone `z` has at most `M` locks and is on the skip list exactly when
    it has so many. -/
structure InLimit (q : QueueLocker) (z d : String) (M : Nat) : Prop where
  max : ∀ l ∈ q.heldFor z d, l.maxConnections = M
  le : (q.heldFor z d).length ≤ M
  skip : d ∈ (q.zoneData z).skip ↔ M ≤ (q.heldFor z d).length

variable {q : QueueLocker} {z d : String} {M : Nat}

theorem inLimit_empty (z d : String) (hM : M ≠ 0) : InLimit {} z d M where
  max _ h := absurd h List.not_mem_nil
  le := Nat.zero_le M
  skip := ⟨fun h => absurd h List.not_mem_nil, fun h => absurd (Nat.le_zero.mp h) hM⟩

theorem InLimit.congr {q' : QueueLocker} (h : InLimit q z d M) (hlocks : q'.locks = q.locks)
    (hskip : d ∈ (q'.zoneData z).skip ↔ d ∈ (q.zoneData z).skip) : InLimit q' z d M := by
  have hheld : q'.heldFor z d = q.heldFor z d := by rw [heldFor, heldFor, hlocks]
  exact ⟨hheld ▸ h.max, hheld ▸ h.le, hskip.trans (hheld ▸ h.skip)⟩

/-- The locks of a domain after `lock`. -/
theorem heldFor_lock {key : String} (hex : q.lockExists key = false)
    (zone domain lockOwner : String) (maxConnections ttl now : Nat) (z d : String) :
    (q.lock key zone domain lockOwner maxConnections ttl now).2.heldFor z d =
      q.heldFor z d ++
        if zone = z ∧ domain = d then
          [newLock key zone domain lockOwner maxConnections ttl now]
        else [] := by
  rw [heldFor, locks_lock, hex, if_neg Bool.false_ne_true, List.filter_append, heldFor]
  by_cases h : zone = z ∧ domain = d
  · simp [h.1, h.2]
  · rw [if_neg h, List.filter_singleton]
    simp [h]

/-- A call of `lock` with the limit keeps the limit if the domain is not on the skip list. -/
theorem inLimit_lock (hq : InStep q) (h : InLimit q z d M) (hd : d ≠ "") (hM : M ≠ 0)
    {key zone domain lockOwner : String} {maxConnections ttl now : Nat}
    (hmax : zone = z → domain = d → maxConnections = M)
    (hskip : zone = z → domain = d → q.lockExists key = false → d ∉ (q.zoneData z).skip) :
    InLimit (q.lock key zone domain lockOwner maxConnections ttl now).2 z d M := by
  cases hex : q.lockExists key with
  | true => rw [lock_of_exists hex]; exact h
  | false =>
    have hheld := heldFor_lock hex zone domain lockOwner maxConnections ttl now z d
    by_cases hpair : zone = z ∧ domain = d
    · obtain ⟨rfl, rfl⟩ := hpair
      rw [if_pos ⟨rfl, rfl⟩] at hheld
      have hroom : ¬M ≤ (q.heldFor zone domain).length :=
        fun hle => hskip rfl rfl hex (h.skip.mpr hle)
      constructor
      · rw [hheld]
        intro l hl
        rcases List.mem_append.mp hl with hl | hl
        · exact h.max l hl
        · rw [List.mem_singleton.mp hl, maxConnections_newLock]
          exact hmax rfl rfl
      · rw [hheld, List.length_append, List.length_singleton]
        omega
      · rw [zoneData_lock hex, if_pos rfl, ZoneData.mem_skip_add, if_pos ⟨hd, rfl⟩,
          ← domainLocks, hq.domains _ _ hd, hheld, List.length_append, List.length_singleton,
          maxConnections_newLock, hmax rfl rfl]
        exact ⟨fun h' => h'.2.2, fun h' => ⟨hskip rfl rfl hex, hM, h'⟩⟩
    · rw [if_neg hpair, List.append_nil] at hheld
      constructor
      · rw [hheld]; exact h.max
      · rw [hheld]; exact h.le
      · rw [hheld, ← h.skip, zoneData_lock hex]
        split
        · next hz =>
          rw [ZoneData.mem_skip_add, if_neg fun h' => hpair ⟨hz, h'.2⟩]
        · rfl

/-- A call of `lock` for a domain that is on the skip list takes one lock too many. -/
theorem length_lock_of_skipped (h : InLimit q z d M) (hskip : d ∈ (q.zoneData z).skip)
    {key : String} (hex : q.lockExists key = false) (lockOwner : String)
    (maxConnections ttl now : Nat) :
    ((q.lock key z d lockOwner maxConnections ttl now).2.heldFor z d).length = M + 1 := by
  rw [heldFor_lock hex, if_pos ⟨rfl, rfl⟩, List.length_append, List.length_singleton]
  have hge := h.skip.mp hskip
  have hle := h.le
  omega

/-- `release` keeps the limit. -/
theorem inLimit_release (hq : InStep q) (h : InLimit q z d M) (hd : d ≠ "") (hM : M ≠ 0)
    (key : String) : InLimit (q.release key) z d M := by
  rcases release_cases q key with hsame | ⟨lock, hlock, -, hlocks, hzones, -⟩
  · rw [hsame]; exact h
  · have hsub : ((q.release key).heldFor z d).Sublist (q.heldFor z d) := by
      rw [heldFor, hlocks]
      exact List.filter_sublist.filter _
    have hdom := (inStep_release hq key).domains z d hd
    constructor
    · exact fun l hl => h.max l (hsub.subset hl)
    · exact Nat.le_trans hsub.length_le h.le
    · rw [← hdom, domainLocks, zoneData, hzones, lookup_deleteZoned, ← zoneData]
      have hskip := h.skip
      rw [← hq.domains z d hd, domainLocks] at hskip
      split
      · next hin =>
        have hlimit := ZoneData.limit_delete lock hskip hM fun hdomain =>
          h.max lock (List.mem_filter.mpr ⟨hlock, decide_eq_true ⟨hin.1, hdomain⟩⟩)
        split
        · next hnil =>
          -- the zone has no locks left
          constructor
          · exact fun h' => absurd h' List.not_mem_nil
          · exact fun h' => absurd (Nat.le_zero.mp h') hM
        · exact hlimit
      · exact hskip

theorem inLimit_foldl_release (hq : InStep q) (h : InLimit q z d M) (hd : d ≠ "") (hM : M ≠ 0)
    (keys : List String) : InLimit (keys.foldl release q) z d M := by
  induction keys generalizing q with
  | nil => exact h
  | cons key keys ih => exact ih (inStep_release hq key) (inLimit_release hq h hd hM key)

/-- Every operation keeps the limit, `lock` if it is called with the limit and finds the key
    locked or the domain not on the skip list. -/
theorem inLimit_apply (hq : InStep q) (h : InLimit q z d M) (hd : d ≠ "") (hM : M ≠ 0) {now : Nat}
    {op : Op} (hop : ∀ key lockOwner maxConnections ttl,
      op = .lock key z d lockOwner maxConnections ttl →
        maxConnections = M ∧ (q.lockExists key = false → q.domainIsSkipped z d = false)) :
    InLimit (q.apply now op) z d M := by
  cases op with
  | lock key zone domain lockOwner maxConnections ttl =>
    refine inLimit_lock hq h hd hM ?_ ?_
    · rintro rfl rfl
      exact (hop key lockOwner maxConnections ttl rfl).1
    · rintro rfl rfl hex hskip
      have hfree := (hop key lockOwner maxConnections ttl rfl).2 hex
      rw [(domainIsSkipped_iff hd).mpr hskip] at hfree
      exact Bool.false_ne_true hfree.symm
  | release key => exact inLimit_release hq h hd hM key
  | releaseLockOwner lockOwner =>
    rw [apply, releaseLockOwner_eq]
    exact inLimit_foldl_release hq h hd hM _
  | checkExpired =>
    obtain ⟨next, hlocks, hzones, -⟩ := checkExpired_cases q now
    have hq' : InStep { q with nextExpireCheck := next, lockCheckTimer := none } :=
      hq.congr rfl rfl rfl
    refine (inLimit_foldl_release hq' (h.congr rfl Iff.rfl) hd hM _).congr hlocks ?_
    rw [zoneData, zoneData, apply, hzones]
  | listSkipDomains zone =>
    obtain ⟨skipCache, hzone⟩ := zoneData_listSkipDomains q zone z
    exact h.congr (locks_listSkipDomains q zone) (by rw [apply, hzone])

end QueueLocker

end ZoneMta
