import ZoneMta.Spec.MasterCorrect
import ZoneMta.Spec.SkipDomains

/-!
# The connection limit of a domain

The query of `shift` leaves out the domains that are on the skip list when `shift` is called,
but the lock is taken after the call of the database. By then other callbacks may have taken
the last lock of the domain, and `lock` does not look at the list: it takes the lock and even
removes the domain from the list. The locks of the empty domain are not counted at all.

## Key results

- `heldFor_le_iff`: a run keeps the limit of a domain if and only if no lock is taken for it
  while it is on the skip list
- `heldFor_overlapping`: two GETs at the same time break the limit
-/

namespace ZoneMta

open ForStd (run Along Throughout)
open QueueLocker (Op InLimit)

namespace Master

variable {cfg : Config} {z d : String} {s s' : Master}

/-- A lock is taken for the domain only while it is not on the skip list of the zone. The empty
    domain is never on that list: there the lock is taken while less locks are held than the limit
    says. -/
def LocksInTurn (cfg : Config) (z d : String) (s : Master) (e : Event) : Prop :=
  ∀ key lockOwner maxConnections ttl,
    .lock key z d lockOwner maxConnections ttl ∈ s.lockOps cfg e →
      s.locks.lockExists key = false →
        if d = "" then (s.locks.heldFor z d).length < cfg.limit d
        else s.locks.domainIsSkipped z d = false

theorem limit_ne_zero (cfg : Config) (d : String) : cfg.limit d ≠ 0 := by
  unfold Config.limit
  split
  · omega
  · assumption

/-- What a step does to a domain: it takes no lock for it, or taking one is all that it does to the
    locker. -/
theorem lockOps_cases (cfg : Config) (z d : String) (s : Master) (e : Event) :
    (∀ key lockOwner maxConnections ttl,
      .lock key z d lockOwner maxConnections ttl ∉ s.lockOps cfg e) ∨
    ∃ key lockOwner maxConnections ttl,
      s.lockOps cfg e = [.lock key z d lockOwner maxConnections ttl] ∧
        (d ≠ "" → maxConnections = cfg.limit d) := by
  by_cases h : ∀ key lockOwner maxConnections ttl,
      .lock key z d lockOwner maxConnections ttl ∉ s.lockOps cfg e
  · exact Or.inl h
  · simp only [not_forall, not_not] at h
    obtain ⟨key, o, m, ttl, hmem⟩ := h
    obtain ⟨hops, hop⟩ := lockOps_lock hmem
    refine Or.inr ⟨key, o, m, ttl, hops, fun hd => ?_⟩
    rcases hop with ⟨get, delivery, -, hop⟩ | ⟨owner, delivery, -, hop⟩
    · injection hop with _ _ hdomain _ hmax _
      rw [hdomain, hmax]
    · injection hop with _ _ hdomain _ _ _
      -- the lock of a `remove` is for no domain
      exact absurd hdomain hd

/-! ## A domain -/

/-- Operations that take no lock for the domain keep its limit. -/
theorem inLimit_foldl {q : QueueLocker} {M : Nat} (hq : q.WF) (h : InLimit q z d M)
    (hd : d ≠ "") (hM : M ≠ 0) (now : Nat) {ops : List Op} (hops : ∀ op ∈ ops, op.Keyed)
    (hlock : ∀ key lockOwner maxConnections ttl,
      .lock key z d lockOwner maxConnections ttl ∉ ops) :
    InLimit (ops.foldl (QueueLocker.apply now) q) z d M := by
  induction ops generalizing q with
  | nil => exact h
  | cons op ops ih =>
    refine ih (QueueLocker.wf_apply hq now (hops op List.mem_cons_self)) ?_
      (fun op' hop' => hops op' (List.mem_cons_of_mem op hop'))
      fun key o m ttl hmem => hlock key o m ttl (List.mem_cons_of_mem op hmem)
    refine QueueLocker.inLimit_apply hq.inStep h hd hM fun key o m ttl hop => ?_
    exact absurd (hop ▸ List.mem_cons_self) (hlock key o m ttl)

/-- A step that takes no lock out of turn keeps the limit. -/
theorem inLimit_step (hd : d ≠ "") {e : Event} (hq : s.locks.WF)
    (h : InLimit s.locks z d (cfg.limit d)) (he : LocksInTurn cfg z d s e)
    (hs : s.step cfg e = some s') : InLimit s'.locks z d (cfg.limit d) := by
  rw [locks_step hs]
  rcases lockOps_cases cfg z d s e with hno | ⟨key, o, m, ttl, hops, hmax⟩
  · exact inLimit_foldl hq h hd (limit_ne_zero cfg d) s.now (fun _ => keyed_lockOps) hno
  · have hturn := he key o m ttl (hops ▸ List.mem_cons_self)
    rw [if_neg hd] at hturn
    rw [hops, List.foldl_cons, List.foldl_nil]
    refine QueueLocker.inLimit_apply hq.inStep h hd (limit_ne_zero cfg d)
      fun key' o' m' ttl' hop => ?_
    injection hop with hkey _ _ _ hm _
    exact ⟨hm ▸ hmax hd, fun hex => hturn (hkey ▸ hex)⟩

/-! ## The empty domain -/

/-- Operations that take no lock for a domain leave it no more locks. -/
theorem length_heldFor_foldl (q : QueueLocker) (now : Nat) {ops : List Op}
    (hlock : ∀ key lockOwner maxConnections ttl,
      .lock key z d lockOwner maxConnections ttl ∉ ops) :
    ((ops.foldl (QueueLocker.apply now) q).heldFor z d).length ≤ (q.heldFor z d).length := by
  induction ops generalizing q with
  | nil => exact Nat.le_refl _
  | cons op ops ih =>
    refine Nat.le_trans (ih (q.apply now op) fun key o m ttl hmem =>
      hlock key o m ttl (List.mem_cons_of_mem op hmem)) ?_
    rcases QueueLocker.length_heldFor_apply q now op z d with hle | ⟨key, o, m, ttl, hop, -⟩
    · exact hle
    · exact absurd (hop ▸ List.mem_cons_self) (hlock key o m ttl)

/-- Where less locks are held than the limit says when one is taken, the limit is kept. -/
theorem length_heldFor_step {e : Event} (h : (s.locks.heldFor z "").length ≤ cfg.limit "")
    (he : LocksInTurn cfg z "" s e) (hs : s.step cfg e = some s') :
    (s'.locks.heldFor z "").length ≤ cfg.limit "" := by
  rw [locks_step hs]
  rcases lockOps_cases cfg z "" s e with hno | ⟨key, o, m, ttl, hops, -⟩
  · exact Nat.le_trans (length_heldFor_foldl s.locks s.now hno) h
  · have hturn := he key o m ttl (hops ▸ List.mem_cons_self)
    rw [if_pos rfl] at hturn
    rw [hops, List.foldl_cons, List.foldl_nil]
    rcases QueueLocker.length_heldFor_apply s.locks s.now (.lock key z "" o m ttl) z "" with
      hle | ⟨key', o', m', ttl', hop, hex, hlength⟩
    · omega
    · injection hop with hkey _ _ _ _ _
      have hroom := hturn (hkey ▸ hex)
      omega

/-! ## Runs -/

/-- What holds of the locks of a domain in a run without a lock out of turn. -/
structure Limited (cfg : Config) (z d : String) (s : Master) : Prop where
  wf : s.locks.WF
  limit : d ≠ "" → InLimit s.locks z d (cfg.limit d)
  le : (s.locks.heldFor z d).length ≤ cfg.limit d

theorem limited_step {e : Event} (h : Limited cfg z d s) (he : LocksInTurn cfg z d s e)
    (hs : s.step cfg e = some s') : Limited cfg z d s' := by
  have hlimit : d ≠ "" → InLimit s'.locks z d (cfg.limit d) := fun hd =>
    inLimit_step hd h.wf (h.limit hd) he hs
  refine ⟨wf_step h.wf hs, hlimit, ?_⟩
  by_cases hd : d = ""
  · subst hd
    exact length_heldFor_step h.le he hs
  · exact (hlimit hd).le

/-- A step that takes a lock out of turn breaks the limit. -/
theorem limit_lt_step {e : Event} (h : Limited cfg z d s) (he : ¬LocksInTurn cfg z d s e)
    (hs : s.step cfg e = some s') : cfg.limit d < (s'.locks.heldFor z d).length := by
  simp only [LocksInTurn, not_forall] at he
  obtain ⟨key, o, m, ttl, hop, hex, hturn⟩ := he
  rw [locks_step hs, (lockOps_lock hop).1, List.foldl_cons, List.foldl_nil, QueueLocker.apply,
    QueueLocker.heldFor_lock hex, if_pos ⟨rfl, rfl⟩, List.length_append, List.length_singleton]
  -- as many locks as the limit are there already
  by_cases hd : d = ""
  · rw [if_pos hd] at hturn
    omega
  · rw [if_neg hd, Bool.not_eq_false] at hturn
    have hfull := (h.limit hd).skip.mp ((QueueLocker.domainIsSkipped_iff hd).mp hturn)
    omega

/-- In a run that starts without locks, a domain never has more locks than its limit if and
    only if no lock is taken for it out of turn. -/
theorem heldFor_le_iff (hlocks : s.locks = {}) {es : List Event}
    (hrun : run (step cfg) s es = some s') (z d : String) :
    Throughout (step cfg) (fun t => (t.locks.heldFor z d).length ≤ cfg.limit d) s es ↔
      Along (step cfg) (LocksInTurn cfg z d) s es := by
  have hstart : Limited cfg z d s := by
    constructor <;> rw [hlocks]
    · exact QueueLocker.wf_empty
    · exact fun _ => QueueLocker.inLimit_empty z d (limit_ne_zero cfg d)
    · exact Nat.zero_le _
  refine ForStd.throughout_iff_along (I := Limited cfg z d) ?_ ?_ ?_ hstart hrun
  · exact fun t e t' ht he hstep => limited_step ht he hstep
  · intro t e t' ht he hstep
    have hlt := limit_lt_step ht he hstep
    omega
  · exact fun t ht => ht.le

/-- A configuration with one connection for each domain. -/
def oneConnection : Config where
  instanceId := "default"
  sendingZone := some
  maxConnections _ := 1
  disableGC := true
  maxQueueTime := 0
  text := .ascii

/-- A recipient of a message. -/
def exampleRecipient (recipient domain : String) (index : Nat) : Recipient where
  _id := ⟨1600000000, index⟩
  index := index
  recipient := recipient
  domain := domain
  sendingZone := "default"
  queued := 1600000000000
  created := 1600000000000

/-- A message with two recipients, and two senders. -/
def twoSenders (recipient domain : String) : List Event :=
  [.tick 1600000000000,
    .push "m" [exampleRecipient recipient domain 1, exampleRecipient recipient domain 2],
    .connect 1, .hello 1 "c1" (some "default"), .connect 2, .hello 2 "c2" (some "default")]

/-- The senders call GET, and both calls of the database are made before one of them has taken
    its lock. -/
def overlapping : List Event :=
  twoSenders "user@example.com" "example.com" ++ [.get 1, .get 2, .resume 0, .resume 1,
    .exec 0 0 .ok, .exec 1 0 .ok, .resume 0, .resume 1]

theorem heldFor_overlapping :
    ¬∀ (cfg : Config) (es : List Event) (s : Master), run (step cfg) {} es = some s →
      ∀ z d, (s.locks.heldFor z d).length ≤ cfg.limit d := by
  intro h
  have hrun : ((run (step oneConnection) {} overlapping).map fun s =>
      (s.locks.heldFor "default" "example.com").length) = some 2 := by decide +kernel
  obtain ⟨s, hs, hlength⟩ := Option.map_eq_some_iff.mp hrun
  have hle := h oneConnection overlapping s hs "default" "example.com"
  have hlimit : oneConnection.limit "example.com" = 1 := rfl
  omega

/-- The second sender calls GET when the first one has its lock. -/
def oneByOne (recipient domain : String) : List Event :=
  twoSenders recipient domain ++ [.get 1, .resume 0, .exec 0 0 .ok, .resume 0, .get 2, .resume 1,
    .exec 1 0 .ok, .resume 1]

/-- The empty domain of `user@[]` has no limit at all. -/
example :
    ((run (step oneConnection) {} (oneByOne "user@[]" "")).map fun s =>
      (s.locks.heldFor "default" "").length) = some 2 := by
  decide +kernel

theorem heldFor_le_iff_example :
    Throughout (step oneConnection)
        (fun t => (t.locks.heldFor "default" "example.com").length ≤
          oneConnection.limit "example.com") {} (oneByOne "user@example.com" "example.com") ↔
      Along (step oneConnection) (LocksInTurn oneConnection "default" "example.com") {}
        (oneByOne "user@example.com" "example.com") := by
  have hrun : (run (step oneConnection) {}
      (oneByOne "user@example.com" "example.com")).isSome = true := by decide +kernel
  exact heldFor_le_iff rfl (Option.some_get hrun).symm "default" "example.com"

end Master

end ZoneMta
