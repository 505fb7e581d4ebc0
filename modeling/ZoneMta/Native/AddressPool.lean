import Mathlib
import ZoneMta.ForStd.AList
import ZoneMta.Native.Net

/-!
# Address pools

`divideLoad` of `lib/address-tools.js`, and the pools of a `SendingZone` in
`lib/sending-zone.js`: how `update` makes them and `getAddress` chooses from them. A ratio is an
exact rational number. `crc32.str` and the name of the host are arguments; the names that
`dns.reverse` finds are set in objects that `divideLoad` has copied before, and left out.
-/

namespace ZoneMta

open ForStd (Map)

namespace AddressPool

/-! ## divideLoad -/

/-- An entry of a pool: its `ratio`, and its other properties. -/
structure Item (α : Type) where
  props : α
  ratio : Option ℚ := none
deriving DecidableEq

namespace Item

variable {α : Type}

/-- The share of the item, `undefined` counts as 0. -/
def share (item : Item α) : ℚ := item.ratio.getD 0

/-- Whether `item.ratio` is truthy. -/
def hasRatio (item : Item α) : Bool := item.share != 0

/-- `copy`, with the ratio between 0 and 1. -/
def clamp (item : Item α) : Item α :=
  if item.hasRatio then { item with ratio := some (min (max item.share 0) 1) } else item

/-- The item with the default share, unless it has another one. -/
def fill (defaultShare : ℚ) (item : Item α) : Item α :=
  if item.hasRatio then item else { item with ratio := some defaultShare }

end Item

section divideLoad

variable {α : Type} (pool : List (Item α))

/-- `customShares` -/
def customShares : Nat := pool.countP (·.hasRatio)

/-- `customShareRatio` -/
def customShareRatio : ℚ := ((pool.filter (·.hasRatio)).map (·.clamp.share)).sum

/-- `defaultShare` -/
def defaultShare : ℚ :=
  (1 - min (customShareRatio pool) 1) / ((pool.length - customShares pool : Nat) : ℚ)

/-- The pool after the shares are set. -/
def sharedPool : List (Item α) :=
  if customShares pool < pool.length then
    pool.map fun item => item.clamp.fill (defaultShare pool)
  else pool.map (·.clamp)

/-- The shares that are counted; none are when every item has a ratio. -/
def countedShares : List ℚ :=
  if customShares pool < pool.length then
    ((sharedPool pool).filter (·.hasRatio)).map (·.share)
  else []

/-- `totalItems`; `smallestShare` is `Infinity` when no shares are counted. -/
def totalItems : Int :=
  match (countedShares pool).min? with
  | some smallestShare => ⌈(countedShares pool).sum / smallestShare⌉
  | none => 0

/-- How often an item is in the result. -/
def copies (item : Item α) : Nat :=
  if item.hasRatio then ⌈totalItems pool * item.share⌉.toNat else 0

/-- `divideLoad` -/
def divideLoad : List (Item α) :=
  (sharedPool pool).flatMap fun item => List.replicate (copies pool item) item

end divideLoad

/-! ## SendingZone -/

/-- The properties of an entry, but for `ratio`. -/
structure Address where
  address : String
  name : String := ""
  resolveName : Bool := false
deriving Repr, DecidableEq

/-- An entry of the configuration. -/
inductive PoolEntry where
  | address (text : String)
  | item (entry : Item Address)
deriving DecidableEq

/-- `zone.pool`: the name of a pool, or a list. -/
inductive PoolSetting where
  | name (name : String)
  | list (entries : List PoolEntry)
deriving DecidableEq

/-- What `update` reads of the configuration of a zone, of `config.pools` and of the network
    interface, whose addresses are `interfaces`. -/
structure ZonePool where
  pool : PoolSetting
  pools : Map String (List PoolEntry) := ∅
  interfaces : List String := []
  hostname : String
  poolHash : String := ""

/-- An item of `this.pool`. -/
def PoolEntry.toItem : PoolEntry → Item Address
  | .address text => { props := { address := text } }
  | .item entry => entry

/-- `net.isIP`, as far as it is tested. -/
def isIP (address : String) : Bool := Net.isIPv4 address || Net.isIPv6 address

namespace ZonePool

variable (zone : ZonePool)

/-- The entries that the zone is configured with. -/
def entries : List PoolEntry :=
  match zone.pool with
  | .list entries => entries
  | .name name =>
    match zone.pools.lookup name with
    | some entries => entries
    | none => if name = "" then [] else [.address name]

/-- The item with a host name. -/
def setName (item : Item Address) : Item Address :=
  if (item.props.name = "" ∨ item.props.resolveName) ∧ isIP item.props.address then
    let name := if item.props.name = "" then zone.hostname else item.props.name
    { item with props := { item.props with name := name, resolveName := false } }
  else item

/-- `this.pool` -/
def items : List (Item Address) :=
  let interfaces : List (Item Address) := zone.interfaces.map fun address =>
    { props := { address := address, name := zone.hostname, resolveName := true } }
  (zone.entries.map (·.toItem) ++ interfaces).map zone.setName

/-- The addresses of a family, with one for any address if there are none. -/
def family (isFamily : String → Bool) (any : String) : List (Item Address) :=
  let items := zone.items.filter fun item => isFamily item.props.address
  if items = [] then [{ props := { address := any, name := zone.hostname } }] else items

/-- `this.ipv4Pool` -/
def ipv4Pool : List (Item Address) := divideLoad (zone.family Net.isIPv4 "0.0.0.0")

/-- `this.ipv6Pool` -/
def ipv6Pool : List (Item Address) := divideLoad (zone.family Net.isIPv6 "::")

end ZonePool

/-- What `getAddress` reads of a delivery. `parsedEnvelope` is its `from`, and `origin` is `none`
    when it is not a string. -/
structure Delivery where
  id : String
  seq : String
  «from» : String := ""
  parsedEnvelope : Option String := none
  origin : Option String := none
  poolHash : String := ""
  poolDisabled : Bool := false
deriving Repr, DecidableEq

section getAddress

variable (zone : ZonePool) (delivery : Delivery)

/-- `key`, or `none` where the lookup throws. -/
def key : Option String :=
  if (if delivery.poolHash ≠ "" then delivery.poolHash else zone.poolHash) = "from" then
    if delivery.from ≠ "" then some delivery.from
    else
      -- `delivery.parsedEnvelope.from`, and `crc32.str` of the origin
      delivery.parsedEnvelope.bind fun header =>
        if header ≠ "" then some header else delivery.origin
  else some (delivery.id ++ "." ++ delivery.seq)

/-- The pool that `useIPv6` selects. -/
def selectedPool (useIPv6 : Bool) : List (Item Address) :=
  if useIPv6 then zone.ipv6Pool else zone.ipv4Pool

/-- The entries of the pool that are not disabled, or the whole pool, and the delivery after. -/
def enabledPool (pool : List (Item Address)) (disabledAddresses : List String) :
    List (Item Address) × Delivery :=
  let enabled := pool.filter fun entry => !disabledAddresses.contains entry.props.address
  if disabledAddresses ≠ [] ∧ enabled = [] then (pool, { delivery with poolDisabled := true })
  else (enabled, delivery)

/-- `getAddress`: the entry, none for `undefined`, and the delivery after; `none` where it
    throws. -/
def getAddress (crc32 : String → Int) (useIPv6 : Bool) (disabledAddresses : List String) :
    Option (Option (Item Address) × Delivery) :=
  (key zone delivery).map fun key =>
    let (pool, delivery) := enabledPool delivery (selectedPool zone useIPv6) disabledAddresses
    -- `pool[NaN]` where the pool is empty
    (pool[((crc32 key).tmod pool.length).natAbs]?, delivery)

end getAddress

end AddressPool

end ZoneMta
