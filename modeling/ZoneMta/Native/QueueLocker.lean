import ZoneMta.ForStd.AList

/-!
# Queue locker

The in-memory locks of `lib/queue-locker.js`. A `Map` is an association list, a `Set` a
list without repetitions, times are milliseconds and the empty string stands for the
falsy values of a string argument. What `Date.now()` returns is an argument, a timer is the
time for which it is set.
-/

namespace ZoneMta

open ForStd (Map)

/-- The lock objects that `lock` creates. -/
structure Lock where
  key : String
  zone : String
  domain : String
  lockOwner : String
  maxConnections : Nat
  ttl : Nat
  expires : Nat
  created : Nat
deriving Repr, DecidableEq

/-- The values of `zones`: the locks of each domain, the domains to skip and the list that
    `listSkipDomains` has made of them. -/
structure ZoneData where
  domains : Map String (List Lock) := ∅
  skip : List String := []
  skipCache : Option (List String) := none
deriving DecidableEq

/-- `QueueLocker`; `nextExpireCheck` is `none` for `Infinity`. -/
structure QueueLocker where
  locks : List Lock := []
  zones : Map String ZoneData := ∅
  lockOwners : Map String (List Lock) := ∅
  nextExpireCheck : Option Nat := none
  lockCheckTimer : Option Nat := none
deriving DecidableEq

namespace QueueLocker

/-- `this.defaultTtl` -/
def defaultTtl : Nat := 10 * 60 * 1000

/-- `lockExists`. The lock objects have no `nextExpire`, and `undefined < Date.now()` is
    false: the branch that releases an expired lock is never taken. -/
def lockExists (q : QueueLocker) (key : String) : Bool :=
  q.locks.any (·.key == key)

/-- `domainIsSkipped` -/
def domainIsSkipped (q : QueueLocker) (zone domain : String) : Bool :=
  domain != "" && (q.zones.lookup zone).any fun zoneData => zoneData.skip.contains domain

end QueueLocker

namespace ZoneData

/-- `skip.delete(domain)` -/
def unskip (zoneData : ZoneData) (domain : String) : ZoneData :=
  { zoneData with skip := zoneData.skip.filter (· ≠ domain), skipCache := none }

/-- What `lock` does to the skip list when the domain has `size` locks. -/
def limit (zoneData : ZoneData) (lock : Lock) (size : Nat) : ZoneData :=
  if lock.maxConnections ≠ 0 ∧ lock.maxConnections ≤ size ∧ lock.domain ∉ zoneData.skip then
    { zoneData with skip := zoneData.skip ++ [lock.domain], skipCache := none }
  -- this branch is also for a domain at its limit that is on the list already
  else if lock.domain ∈ zoneData.skip then zoneData.unskip lock.domain
  else zoneData

/-- What `lock` does to the data of the zone. -/
def add (zoneData : ZoneData) (lock : Lock) : ZoneData :=
  if lock.domain = "" then zoneData
  else
    let domainData := (zoneData.domains.lookup lock.domain).getD [] ++ [lock]
    { zoneData with domains := zoneData.domains.insert lock.domain domainData }.limit lock
      domainData.length

/-- What `release` does to the skip list when the set of the domain was `domainData`. -/
def unlimit (zoneData : ZoneData) (lock : Lock) (domainData : List Lock) : ZoneData :=
  let size := (domainData.filter (· ≠ lock)).length
  if lock ∈ domainData ∧ (lock.maxConnections = 0 ∨ size < lock.maxConnections) ∧
      lock.domain ∈ zoneData.skip then
    zoneData.unskip lock.domain
  else zoneData

/-- What `release` does to the data of the zone when the set of the domain was `domainData`. -/
def delete (zoneData : ZoneData) (lock : Lock) (domainData : List Lock) : ZoneData :=
  let rest := domainData.filter (· ≠ lock)
  let zoneData := zoneData.unlimit lock domainData
  if rest = [] then { zoneData with domains := zoneData.domains.erase lock.domain }
  else { zoneData with domains := zoneData.domains.insert lock.domain rest }

/-- The set of a domain. -/
def locksOf (zoneData : ZoneData) (domain : String) : List Lock :=
  (zoneData.domains.lookup domain).getD []

end ZoneData

namespace QueueLocker

/-- The lock object that `lock` creates. -/
def newLock (key zone domain lockOwner : String) (maxConnections ttl now : Nat) : Lock :=
  let ttl := if ttl = 0 then defaultTtl else ttl
  { key := key
    zone := zone
    domain := domain
    lockOwner := lockOwner
    maxConnections := maxConnections
    ttl := ttl
    expires := now + ttl
    created := now }

/-- `setTimeout`: the time for which the timer is set. A delay, `none` for `Infinity`, that is not
    between 1 and the largest one is taken as 1. -/
def setTimeout (delay : Option Nat) (now : Nat) : Nat :=
  now + (delay.filter fun delay => 1 ≤ delay ∧ delay ≤ 2147483647).getD 1

/-- `lock`: whether the lock was free, and the state after. -/
def lock (q : QueueLocker) (key zone domain lockOwner : String) (maxConnections ttl now : Nat) :
    Bool × QueueLocker :=
  if q.lockExists key then (false, q)
  else
    let lock := newLock key zone domain lockOwner maxConnections ttl now
    let first := q.nextExpireCheck.all (lock.expires < ·)
    let zoneData := (q.zones.lookup zone).getD {}
    (true,
      { locks := q.locks ++ [lock]
        zones := q.zones.insert zone (zoneData.add lock)
        lockOwners := q.lockOwners.insert lockOwner
          ((q.lockOwners.lookup lockOwner).getD [] ++ [lock])
        nextExpireCheck := if first then some lock.expires else q.nextExpireCheck
        lockCheckTimer :=
          if first then some (setTimeout (some (lock.expires + 1 - now)) now)
          else q.lockCheckTimer })

/-- The part of `release` about `lockOwners`. -/
def deleteOwned (lockOwners : Map String (List Lock)) (lock : Lock) :
    Map String (List Lock) :=
  match lockOwners.lookup lock.lockOwner with
  | none => lockOwners
  | some owned =>
    let rest := owned.filter (· ≠ lock)
    if rest = [] then lockOwners.erase lock.lockOwner
    else lockOwners.insert lock.lockOwner rest

/-- The part of `release` about `zones`. -/
def deleteZoned (zones : Map String ZoneData) (lock : Lock) : Map String ZoneData :=
  match zones.lookup lock.zone with
  | none => zones
  | some zoneData =>
    if lock.domain ≠ "" ∧ lock.domain ∈ zoneData.domains.keys then
      let zoneData := zoneData.delete lock (zoneData.locksOf lock.domain)
      if zoneData.domains.entries = [] then zones.erase lock.zone
      else zones.insert lock.zone zoneData
    else zones

/-- `release`; no caller looks at its result. -/
def release (q : QueueLocker) (key : String) : QueueLocker :=
  if key = "" then q
  else
    match q.locks.find? (·.key == key) with
    | none => q
    | some lock =>
      let locks := q.locks.filter (·.key ≠ key)
      { locks := locks
        zones := deleteZoned q.zones lock
        lockOwners := deleteOwned q.lockOwners lock
        nextExpireCheck := if locks = [] then none else q.nextExpireCheck
        lockCheckTimer := if locks = [] then none else q.lockCheckTimer }

/-- `releaseLockOwner` -/
def releaseLockOwner (q : QueueLocker) (lockOwner : String) : QueueLocker :=
  match q.lockOwners.lookup lockOwner with
  | none => q
  | some owned => (owned.map (·.key)).foldl release q

/-- `checkExpired` -/
def checkExpired (q : QueueLocker) (now : Nat) : QueueLocker :=
  let expired := q.locks.filter (·.expires ≤ now)
  let left := q.locks.filter (now < ·.expires)
  let q := { q with nextExpireCheck := (left.map (·.expires)).min?, lockCheckTimer := none }
  let q := (expired.map (·.key)).foldl release q
  if q.locks = [] then q
  else
    { q with
      lockCheckTimer := some (setTimeout (q.nextExpireCheck.map (· + 1 - now)) now) }

/-- `listSkipDomains`: the domains, none of them for `false`, and the state after. -/
def listSkipDomains (q : QueueLocker) (zone : String) : List String × QueueLocker :=
  match q.zones.lookup zone with
  | none => ([], q)
  | some zoneData =>
    let skipCache := zoneData.skipCache.getD zoneData.skip
    (skipCache, { q with
      zones := q.zones.insert zone { zoneData with skipCache := some skipCache } })

/-! ## Operations -/

/-- What the rest of the program can do to the locker. -/
inductive Op where
  | lock (key zone domain lockOwner : String) (maxConnections ttl : Nat)
  | release (key : String)
  | releaseLockOwner (lockOwner : String)
  | checkExpired
  | listSkipDomains (zone : String)
deriving Repr, DecidableEq

/-- The state after an operation. -/
def apply (now : Nat) (q : QueueLocker) : Op → QueueLocker
  | .lock key zone domain lockOwner maxConnections ttl =>
    (q.lock key zone domain lockOwner maxConnections ttl now).2
  | .release key => q.release key
  | .releaseLockOwner lockOwner => q.releaseLockOwner lockOwner
  | .checkExpired => q.checkExpired now
  | .listSkipDomains zone => (q.listSkipDomains zone).2

/-! ## Views -/

/-- The locks under an owner in `lockOwners`. -/
def ownerLocks (q : QueueLocker) (lockOwner : String) : List Lock :=
  (q.lockOwners.lookup lockOwner).getD []

/-- The data of a zone in `zones`, that of a new zone where it has none. -/
def zoneData (q : QueueLocker) (zone : String) : ZoneData := (q.zones.lookup zone).getD {}

/-- The locks under a zone and a domain in `zones`. -/
def domainLocks (q : QueueLocker) (zone domain : String) : List Lock :=
  (q.zoneData zone).locksOf domain

/-- The locks in `locks` of a zone and a domain. -/
def heldFor (q : QueueLocker) (zone domain : String) : List Lock :=
  q.locks.filter fun lock => lock.zone = zone ∧ lock.domain = domain

end QueueLocker

end ZoneMta
