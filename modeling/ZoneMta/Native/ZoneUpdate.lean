import ZoneMta.Native.AddressPool
import ZoneMta.Native.Speedometer

/-!
# Configuration of a zone

`update` of `lib/sending-zone.js`: what a zone takes from its configuration, when it is built and
again at every reload. The values of the options that are only copied can be of any type `ν`.
-/

namespace ZoneMta

open AddressPool (Item Address ZonePool)

/-- The properties that `update` copies from the configuration. -/
inductive ZoneOption where
  | logger
  | logLevel
  | resolveIp
  | ignoreIPv6
  | preferIPv6
  | port
  | host
  | auth
  | ignoreTLS
  | requireTLS
  | secure
  | authMethod
  | poolHash
  | disabled
  | connectionCache
deriving Repr, DecidableEq

/-- The configuration of a zone. A number that is missing counts as 0, and `options` is `none` at
    the keys that are not there. -/
structure ZoneSettings (ν : Type) where
  processes : Int := 0
  connections : Int := 0
  pool : ZonePool
  throttling : String := ""
  options : ZoneOption → Option ν := fun _ => none

/-- What a zone has from its configuration. -/
structure ZoneState (ν : Type) where
  processes : Int := 0
  connections : Int := 0
  pool : List (Item Address) := []
  ipv4Pool : List (Item Address) := []
  ipv6Pool : List (Item Address) := []
  throttling : Option Throttling := none
  options : ZoneOption → Option ν := fun _ => none

namespace ZoneState

/-- `n || 1` -/
def orOne {α : Type} [OfNat α 0] [OfNat α 1] [DecidableEq α] (n : α) : α := if n = 0 then 1 else n

variable {ν : Type} (text : ForStd.Text)

/-- `update`, `none` where it throws. -/
def update (s : ZoneState ν) (zone : ZoneSettings ν) : Option (ZoneState ν) :=
  (Throttling.update text zone.throttling).map fun throttling =>
    { s with
      processes := orOne zone.processes
      connections := orOne zone.connections
      pool := zone.pool.items
      -- a key that is not in the configuration keeps its value
      options := fun key => (zone.options key).or (s.options key)
      throttling := throttling
      ipv4Pool := zone.pool.ipv4Pool
      ipv6Pool := zone.pool.ipv6Pool }

/-- The constructor. -/
def new (zone : ZoneSettings ν) : Option (ZoneState ν) := update text {} zone

end ZoneState

end ZoneMta
