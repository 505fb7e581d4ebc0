import Mathlib
import ZoneMta.Native.TtlCache

/-!
# Blacklist

The addresses that are not used for a domain: `DomainConfig` and the part of
`SendingZone.deferDelivery` and `removeFromBlacklist` (`lib/sending-zone.js`) about them, with
the cache of `MailQueue` that all zones share and the reload handler of `app.js`.

The lists of addresses are mutable arrays that may be shared; an array is its place on a heap.
Of a domain's configuration only the key `disabledAddresses` is kept. The zones share one
`DomainConfig`, so the callback of a cache entry is the same for all of them.
-/

namespace ZoneMta

open ForStd (Map)

/-! ## DomainConfig -/

/-- `DomainConfig`: the arrays of the domains that have one of their own, and that of the
    defaults. -/
structure DomainConfig where
  arrays : Nat → List String
  nextArray : Nat
  domains : Map String Nat
  defaults : Nat

namespace DomainConfig

/-- An array literal. -/
def newArray (c : DomainConfig) (addresses : List String) : Nat × DomainConfig :=
  (c.nextArray, { c with
    arrays := Function.update c.arrays c.nextArray addresses
    nextArray := c.nextArray + 1 })

/-- `set` of the array of a domain. -/
def set (c : DomainConfig) (domain : String) (array : Nat) : DomainConfig :=
  { c with domains := c.domains.insert domain array }

/-- `get` of the array of a domain: its own one, or a clone of the one of the defaults. -/
def get (c : DomainConfig) (domain : String) : Nat × DomainConfig :=
  match c.domains.lookup domain with
  | some array => (array, c)
  | none => c.newArray (c.arrays c.defaults)

/-- `remove` -/
def remove (c : DomainConfig) (domain : String) : DomainConfig :=
  { c with domains := c.domains.erase domain }

/-- Changes an array. -/
def update (c : DomainConfig) (array : Nat) (addresses : List String) : DomainConfig :=
  { c with arrays := Function.update c.arrays array addresses }

/-- The addresses that `get` returns. -/
def disabledAddresses (c : DomainConfig) (domain : String) : List String :=
  (c.get domain).2.arrays (c.get domain).1

/-- The constructor. `options` has the keys of the configuration with their `disabledAddresses`,
    if they have any. The defaults are those under the key `defaults`, which is the
    configuration of a domain as well; the key `default` is skipped. -/
def new (options : List (String × Option (List String))) : DomainConfig :=
  let defaults := (options.find? (·.1 == "defaults")).map fun option => option.2.getD []
  let c : DomainConfig :=
    { arrays := Function.update (fun _ => []) 0 (defaults.getD [])
      nextArray := 1
      domains := ∅
      defaults := 0 }
  options.foldl (fun c option =>
    if option.1 = "default" then c
    else if option.1 = "defaults" then c.set "defaults" 0
    else
      match option.2 with
      | none => c
      | some addresses =>
        let (array, c) := c.newArray addresses
        c.set option.1 array) c

end DomainConfig

/-! ## The two stores -/

/-- The values of cache entries for blacklisted addresses. -/
structure BlacklistData where
  id : String
  seq : String
  address : String
  domain : String
  response : String
  created : Int
deriving Repr, DecidableEq

/-- The values of the cache: `true` under the keys `'empty:' + zone`. -/
inductive Cached where
  | empty
  | blacklisted (data : BlacklistData)
deriving Repr, DecidableEq

/-- The configuration of the domains and the cache. `handled` counts what was passed to
    `setImmediate` and has run. -/
structure Blacklist where
  now : Int
  domainConfig : DomainConfig
  cache : TtlCache String Cached Unit Int
  handled : Nat

namespace Blacklist

/-- The cache key of an address of a domain. -/
def cacheKey (domain address : String) : String := "blacklist:" ++ domain ++ ":" ++ address

/-- `removeFromBlacklist` -/
def removeFromBlacklist (s : Blacklist) (data : BlacklistData) : Blacklist :=
  let (array, domainConfig) := s.domainConfig.get data.domain
  let addresses := domainConfig.arrays array
  if data.address ∈ addresses then
    let addresses := addresses.erase data.address
    let domainConfig := domainConfig.update array addresses
    { s with domainConfig :=
        if addresses ≠ [] then domainConfig.set data.domain array
        else domainConfig.remove data.domain }
  else { s with domainConfig := domainConfig }

/-- The part of `deferDelivery` about an address that is blacklisted; `ttl` is
    `config.blacklist.ttl`. -/
def deferDelivery (ttl : Option Int) (s : Blacklist) (id seq domain address response : String) :
    Blacklist :=
  if address ≠ "" ∧ domain ≠ "" then
    let (array, domainConfig) := s.domainConfig.get domain
    let addresses := domainConfig.arrays array
    if address ∈ addresses then { s with domainConfig := domainConfig }
    else
      let data : BlacklistData :=
        { id := id
          seq := seq
          address := address
          domain := domain
          response := response
          created := s.now }
      { s with
        domainConfig := (domainConfig.update array (addresses ++ [address])).set domain array
        cache := s.cache.set (cacheKey domain address) (some (.blacklisted data)) ttl (some ())
          s.now }
  else s

/-- What was passed to `setImmediate` runs. -/
def runImmediate (s : Blacklist) : TtlCache.Immediate Cached Unit → Blacklist
  | .updateTimer => { s with cache := s.cache.updateTimer s.now }
  | .checkExpired => { s with cache := s.cache.checkExpired s.now }
  | .expireCb _ (.blacklisted data) => s.removeFromBlacklist data
  | .expireCb _ .empty => s

/-- What can happen next. -/
inductive Event where
  /-- time passes -/
  | tick (now : Int)
  /-- `deferDelivery` with the category 'blacklist' -/
  | defer (id seq domain address response : String)
  /-- the next one of what was passed to `setImmediate` runs -/
  | immediate
  /-- the timer of the cache fires -/
  | timer
  /-- `cache.get` -/
  | get (key : String)
  /-- `cache.remove` -/
  | remove (key : String)
  /-- the `cache.set` of `shift`, for a zone without deliveries -/
  | setEmpty (zone : String)
  /-- the reload handler -/
  | reload
deriving Repr, DecidableEq

/-- The state after an event, `none` where it cannot happen. -/
def step (ttl : Option Int) (s : Blacklist) : Event → Option Blacklist
  | .tick now => if s.now ≤ now then some { s with now := now } else none
  | .defer id seq domain address response =>
    some (s.deferDelivery ttl id seq domain address response)
  | .immediate =>
    s.cache.immediates[s.handled]?.map fun immediate =>
      { s with handled := s.handled + 1 }.runImmediate immediate
  | .timer =>
    if s.cache.checkTimer.any (· ≤ s.now) then
      some { s with cache := { s.cache with checkTimer := none }.checkExpired s.now }
    else none
  | .get key => some { s with cache := (s.cache.get key s.now).2 }
  | .remove key => some { s with cache := s.cache.remove key }
  | .setEmpty zone =>
    let cache := s.cache.set ("empty:" ++ zone) (some .empty) (some (5 * 1000)) none s.now
    some { s with cache := cache }
  | .reload => some { s with cache := s.cache.flush }

/-- The stores at the start: the default time to live of the cache is five seconds. -/
def start (options : List (String × Option (List String))) (now : Int) : Blacklist where
  now := now
  domainConfig := .new options
  cache := { defaultTtl := 5 * 1000 }
  handled := 0

end Blacklist

end ZoneMta
