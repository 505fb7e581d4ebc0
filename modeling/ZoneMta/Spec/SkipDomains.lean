import ZoneMta.ForStd.Transition
import ZoneMta.Spec.QueueLockerCorrect

/-!
# The list of domains to skip

`listSkipDomains` answers with a cache of the skip list. The cache is the list whenever it is
there (`Fresh`), so that a domain is answered exactly when it is on the list. When `lock` takes
one lock more for a domain that has reached its limit, it removes the domain from the list.

## Key results

- `fresh_apply`: every operation keeps the caches fresh
- `skipped_iff`: the domains that are skipped are those at their limit if and only if no lock is
  taken for a domain that has no room
- `not_skipped`: a lock too many
-/

namespace ZoneMta

open ForStd (run Along Throughout)

namespace ZoneData

/-! ## The cache -/

/-- The cache is the skip list if it is there, and the list has domains only. -/
structure Fresh (zoneData : ZoneData) : Prop where
  cache : ∀ skipCache, zoneData.skipCache = some skipCache → skipCache = zoneData.skip
  named : "" ∉ zoneData.skip

theorem fresh_empty : Fresh {} where
  cache _ h := nomatch h
  named h := nomatch h

/-- The domains of a zone have no part in it. -/
theorem Fresh.congr {zoneData zoneData' : ZoneData} (h : zoneData.Fresh)
    (hskip : zoneData'.skip = zoneData.skip) (hcache : zoneData'.skipCache = zoneData.skipCache) :
    zoneData'.Fresh := by
  constructor
  · rw [hskip, hcache]
    exact h.cache
  · rw [hskip]
    exact h.named

theorem Fresh.unskip {zoneData : ZoneData} (h : zoneData.Fresh) (domain : String) :
    (zoneData.unskip domain).Fresh where
  cache _ hc := nomatch hc
  named hmem := h.named (mem_skip_unskip.mp hmem).1

theorem Fresh.limit {zoneData : ZoneData} (h : zoneData.Fresh) {lock : Lock}
    (hd : lock.domain ≠ "") (size : Nat) : (zoneData.limit lock size).Fresh := by
  unfold ZoneData.limit
  split
  · constructor
    · exact fun _ hc => nomatch hc
    · intro hmem
      have hor := List.mem_append.mp hmem
      rw [List.mem_singleton] at hor
      exact hor.elim h.named fun heq => hd heq.symm
  · split
    · exact h.unskip lock.domain
    · exact h

theorem Fresh.add {zoneData : ZoneData} (h : zoneData.Fresh) (lock : Lock) :
    (zoneData.add lock).Fresh := by
  unfold ZoneData.add
  split
  · exact h
  · next hd =>
    refine Fresh.limit ?_ hd _
    exact h.congr rfl rfl

theorem Fresh.delete {zoneData : ZoneData} (h : zoneData.Fresh) (lock : Lock)
    (domainData : List Lock) : (zoneData.delete lock domainData).Fresh := by
  have hunlimit : (zoneData.unlimit lock domainData).Fresh := by
    unfold ZoneData.unlimit
    dsimp only
    split
    · exact h.unskip lock.domain
    · exact h
  unfold ZoneData.delete
  dsimp only
  split <;> exact hunlimit.congr rfl rfl

end ZoneData

namespace QueueLocker

/-- The caches of all zones. -/
def Fresh (q : QueueLocker) : Prop := ∀ zone, (q.zoneData zone).Fresh

theorem fresh_empty : Fresh {} := fun _ => ZoneData.fresh_empty

theorem Fresh.congr {q q' : QueueLocker} (h : q.Fresh) (hzones : q'.zones = q.zones) :
    q'.Fresh := by
  intro zone
  rw [zoneData, hzones]
  exact h zone

theorem Fresh.lock {q : QueueLocker} (h : q.Fresh) (key zone domain lockOwner : String)
    (maxConnections ttl now : Nat) :
    (q.lock key zone domain lockOwner maxConnections ttl now).2.Fresh := by
  cases hex : q.lockExists key with
  | true => rw [lock_of_exists hex]; exact h
  | false =>
    intro z
    rw [zoneData_lock hex]
    split
    · exact (h z).add _
    · exact h z

theorem Fresh.release {q : QueueLocker} (h : q.Fresh) (key : String) : (q.release key).Fresh := by
  cases release_cases q key with
  | inl hsame => rw [hsame]; exact h
  | inr hrelease =>
    obtain ⟨lock, -, -, -, hzones, -⟩ := hrelease
    intro z
    rw [zoneData, hzones, lookup_deleteZoned, ← zoneData]
    split
    · split
      · exact ZoneData.fresh_empty
      · exact (h z).delete _ _
    · exact h z

theorem Fresh.foldl_release {q : QueueLocker} (h : q.Fresh) (keys : List String) :
    (keys.foldl QueueLocker.release q).Fresh := by
  induction keys generalizing q with
  | nil => exact h
  | cons key keys ih => exact ih (h.release key)

theorem Fresh.listSkipDomains {q : QueueLocker} (h : q.Fresh) (zone : String) :
    (q.listSkipDomains zone).2.Fresh := by
  unfold QueueLocker.listSkipDomains
  split
  · exact h
  · next zd hzd =>
    intro z
    rw [zoneData, ForStd.lookup_insert]
    by_cases hz : z = zone
    · rw [if_pos hz, Option.getD_some]
      have hzone := h zone
      rw [zoneData, hzd, Option.getD_some] at hzone
      constructor
      · intro skipCache hc
        rw [← Option.some.inj hc]
        cases hcache : zd.skipCache with
        | none => rfl
        | some cached => exact hzone.cache cached hcache
      · exact hzone.named
    · rw [if_neg hz]
      exact h z

/-- Every operation keeps the caches fresh. -/
theorem fresh_apply {q : QueueLocker} (h : q.Fresh) (now : Nat) (op : Op) :
    (q.apply now op).Fresh := by
  cases op with
  | lock key zone domain lockOwner maxConnections ttl =>
    exact h.lock key zone domain lockOwner maxConnections ttl now
  | release key => exact h.release key
  | releaseLockOwner lockOwner =>
    rw [apply, releaseLockOwner_eq]
    exact h.foldl_release _
  | checkExpired =>
    obtain ⟨next, -, hzones, -⟩ := checkExpired_cases q now
    have hq' : Fresh { q with nextExpireCheck := next, lockCheckTimer := none } := h.congr rfl
    exact (hq'.foldl_release _).congr hzones
  | listSkipDomains zone => exact h.listSkipDomains zone

/-- What `listSkipDomains` answers is the skip list. -/
theorem Fresh.mem_listSkipDomains {q : QueueLocker} (h : q.Fresh) {z d : String} :
    d ∈ (q.listSkipDomains z).1 ↔ d ∈ (q.zoneData z).skip := by
  have hz := h z
  unfold QueueLocker.listSkipDomains
  unfold zoneData at hz ⊢
  cases hzd : q.zones.lookup z with
  | none => exact Iff.rfl
  | some zd =>
    rw [hzd, Option.getD_some] at hz
    rw [Option.getD_some]
    show d ∈ zd.skipCache.getD zd.skip ↔ d ∈ zd.skip
    cases hcache : zd.skipCache with
    | none => rw [Option.getD_none]
    | some cached => rw [Option.getD_some, hz.cache cached hcache]

/-! ## Runs -/

/-- An operation at a time. -/
def step (q : QueueLocker) (e : Nat × Op) : Option QueueLocker := some (q.apply e.1 e.2)

/-- All locks of the pair use `M`. -/
def Uses (z d : String) (M : Nat) (e : Nat × Op) : Prop :=
  ∀ key lockOwner maxConnections ttl,
    e.2 = .lock key z d lockOwner maxConnections ttl → maxConnections = M

/-- A lock is taken only while the pair has less than `M` locks. The empty domain is never
    skipped, so there is no room for its last lock either. -/
def HasRoom (z d : String) (M : Nat) (q : QueueLocker) (e : Nat × Op) : Prop :=
  ∀ key lockOwner maxConnections ttl, e.2 = .lock key z d lockOwner maxConnections ttl →
    q.lockExists key = false → (q.heldFor z d).length < if d = "" then M - 1 else M

/-- The domain is answered by `listSkipDomains` if and only if it is at its limit. -/
def SkipsFull (z d : String) (M : Nat) (q : QueueLocker) : Prop :=
  d ∈ (q.listSkipDomains z).1 ↔ M ≤ (q.heldFor z d).length

theorem run_isSome (q : QueueLocker) (es : List (Nat × Op)) : ∃ q', run step q es = some q' := by
  induction es generalizing q with
  | nil => exact ⟨q, rfl⟩
  | cons e es ih => exact ih (q.apply e.1 e.2)

variable {q : QueueLocker} {z d : String} {M : Nat}

/-- Releases leave no more locks to a domain. -/
theorem length_heldFor_foldl_release (q : QueueLocker) (keys : List String) (z d : String) :
    ((keys.foldl release q).heldFor z d).length ≤ (q.heldFor z d).length := by
  induction keys generalizing q with
  | nil => exact Nat.le_refl _
  | cons key keys ih =>
    refine Nat.le_trans (ih (q.release key)) ?_
    rw [heldFor, locks_release]
    split
    · exact Nat.le_refl _
    · exact (List.filter_sublist.filter _).length_le

/-- Only `lock` adds locks to a domain. -/
theorem length_heldFor_apply (q : QueueLocker) (now : Nat) (op : Op) (z d : String) :
    ((q.apply now op).heldFor z d).length ≤ (q.heldFor z d).length ∨
      ∃ key lockOwner maxConnections ttl, op = .lock key z d lockOwner maxConnections ttl ∧
        q.lockExists key = false ∧
        ((q.apply now op).heldFor z d).length = (q.heldFor z d).length + 1 := by
  cases op with
  | lock key zone domain lockOwner maxConnections ttl =>
    rw [apply]
    cases hex : q.lockExists key with
    | true => rw [lock_of_exists hex]; exact Or.inl (Nat.le_refl _)
    | false =>
      rw [heldFor_lock hex]
      by_cases hpair : zone = z ∧ domain = d
      · obtain ⟨rfl, rfl⟩ := hpair
        rw [if_pos ⟨rfl, rfl⟩]
        exact Or.inr ⟨key, lockOwner, maxConnections, ttl, rfl, hex, List.length_append⟩
      · rw [if_neg hpair, List.append_nil]
        exact Or.inl (Nat.le_refl _)
  | release key => exact Or.inl (length_heldFor_foldl_release q [key] z d)
  | releaseLockOwner lockOwner =>
    rw [apply, releaseLockOwner_eq]
    exact Or.inl (length_heldFor_foldl_release q _ z d)
  | checkExpired =>
    obtain ⟨next, hlocks, -⟩ := checkExpired_cases q now
    rw [apply, heldFor, hlocks]
    exact Or.inl (length_heldFor_foldl_release _ _ z d)
  | listSkipDomains zone =>
    rw [apply, heldFor, locks_listSkipDomains]
    exact Or.inl (Nat.le_refl _)

/-- The invariant of a pair. -/
structure Skips (z d : String) (M : Nat) (q : QueueLocker) : Prop where
  inStep : InStep q
  fresh : q.Fresh
  limit : d ≠ "" → InLimit q z d M
  room : d = "" → (q.heldFor z d).length < M

theorem Skips.skipsFull (h : Skips z d M q) : SkipsFull z d M q := by
  rw [SkipsFull, h.fresh.mem_listSkipDomains]
  by_cases hd : d = ""
  · have hroom := h.room hd
    subst hd
    exact ⟨fun hmem => absurd hmem (h.fresh z).named, fun hle => by omega⟩
  · exact (h.limit hd).skip

theorem skips_empty (z d : String) (hM : 1 ≤ M) : Skips z d M {} where
  inStep := wf_empty.inStep
  fresh := fresh_empty
  limit _ := inLimit_empty z d (by omega)
  room _ := hM

/-- An operation that finds room keeps the invariant. -/
theorem skips_step (hM : 1 ≤ M) {e : Nat × Op} (he : Uses z d M e) (h : Skips z d M q)
    (hroom : HasRoom z d M q e) : Skips z d M (q.apply e.1 e.2) where
  inStep := inStep_apply h.inStep e.1 e.2
  fresh := fresh_apply h.fresh e.1 e.2
  limit hd := by
    refine inLimit_apply h.inStep (h.limit hd) hd (by omega) ?_
    intro key lockOwner maxConnections ttl hop
    refine ⟨he key lockOwner maxConnections ttl hop, fun hex => ?_⟩
    have hlt := hroom key lockOwner maxConnections ttl hop hex
    rw [if_neg hd] at hlt
    -- a skipped domain is at its limit
    by_contra hskip
    have hge := (h.limit hd).skip.mp ((domainIsSkipped_iff hd).mp (by simpa using hskip))
    omega
  room hd := by
    have hlt := h.room hd
    cases length_heldFor_apply q e.1 e.2 z d with
    | inl hle => omega
    | inr hlock =>
      obtain ⟨key, lockOwner, maxConnections, ttl, hop, hex, hlength⟩ := hlock
      have hlast := hroom key lockOwner maxConnections ttl hop hex
      rw [if_pos hd] at hlast
      omega

/-- An operation that finds no room makes the answer wrong. -/
theorem not_skipsFull_step {e : Nat × Op} (he : Uses z d M e)
    (h : Skips z d M q) (hroom : ¬HasRoom z d M q e) :
    ¬SkipsFull z d M (q.apply e.1 e.2) := by
  simp only [HasRoom, not_forall, Nat.not_lt] at hroom
  obtain ⟨key, lockOwner, maxConnections, ttl, hop, hex, hfull⟩ := hroom
  have hfresh := fresh_apply h.fresh e.1 e.2
  rw [SkipsFull, hfresh.mem_listSkipDomains]
  have hheld : ((q.apply e.1 e.2).heldFor z d).length = (q.heldFor z d).length + 1 := by
    rw [hop, apply, heldFor_lock hex, if_pos ⟨rfl, rfl⟩, List.length_append,
      List.length_singleton]
  by_cases hd : d = ""
  · subst hd
    rw [if_pos rfl] at hfull
    exact fun hiff => (hfresh z).named (hiff.mpr (by omega))
  · rw [if_neg hd] at hfull
    have hskip := (h.limit hd).skip.mpr hfull
    intro hiff
    have hmem := hiff.mpr (by omega)
    rw [hop, apply, zoneData_lock hex, if_pos rfl, ZoneData.mem_skip_add, if_pos ⟨hd, rfl⟩]
      at hmem
    exact hmem.1 hskip

/-- After every operation, the domains that `listSkipDomains` answers are those with `M` locks if
    and only if no lock is taken for a domain that has no room for it. -/
theorem skipped_iff (z d : String) {M : Nat} (hM : 1 ≤ M) {es : List (Nat × Op)}
    (hes : ∀ e ∈ es, Uses z d M e) :
    Throughout step (SkipsFull z d M) {} es ↔ Along step (HasRoom z d M) {} es := by
  obtain ⟨q', hrun⟩ := run_isSome {} es
  refine ForStd.throughout_iff_along_of_forall (E := Uses z d M) (I := Skips z d M)
    ?_ ?_ (fun _ => Skips.skipsFull) hes (skips_empty z d hM) hrun
  · intro q e q' he h hroom hstep
    rw [← Option.some.inj hstep]
    exact skips_step hM he h hroom
  · intro q e q' he h hroom hstep
    rw [← Option.some.inj hstep]
    exact not_skipsFull_step he h hroom

/-- Two locks for a domain with one connection. -/
def twoLocks : List (Nat × Op) :=
  [(0, .lock "a" "default" "example.com" "c1" 1 1000),
    (0, .lock "b" "default" "example.com" "c2" 1 1000)]

theorem uses_twoLocks : ∀ e ∈ twoLocks, Uses "default" "example.com" 1 e := by
  intro e he key lockOwner maxConnections ttl hop
  have hmem : e = twoLocks[0] ∨ e = twoLocks[1] := by simpa [twoLocks] using he
  cases hmem with
  | inl h => subst h; cases hop; rfl
  | inr h => subst h; cases hop; rfl

theorem skipped_iff_example :
    Throughout step (SkipsFull "default" "example.com" 1) {} twoLocks ↔
      Along step (HasRoom "default" "example.com" 1) {} twoLocks :=
  skipped_iff "default" "example.com" (by decide) uses_twoLocks

/-- The locker after both locks. -/
def lockedTwice : QueueLocker :=
  (QueueLocker.apply 0 {} (.lock "a" "default" "example.com" "c1" 1 1000)).apply 0
    (.lock "b" "default" "example.com" "c2" 1 1000)

theorem not_skipped :
    ¬∀ (z d : String) (M : Nat) (es : List (Nat × Op)), 1 ≤ M → (∀ e ∈ es, Uses z d M e) →
      Throughout step (SkipsFull z d M) {} es := by
  intro h
  have hall := h "default" "example.com" 1 twoLocks (by decide) uses_twoLocks
  have hlast : SkipsFull "default" "example.com" 1 lockedTwice := (hall.2 _ rfl).2 _ rfl
  have hheld : 1 ≤ (lockedTwice.heldFor "default" "example.com").length := by decide +kernel
  have hmem : "example.com" ∉ (lockedTwice.listSkipDomains "default").1 := by decide +kernel
  exact hmem (hlast.mpr hheld)

end QueueLocker

end ZoneMta
