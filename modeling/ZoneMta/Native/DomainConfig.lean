import Mathlib
import ZoneMta.ForStd.AList

/-!
# DomainConfig

`DomainConfig` of `lib/sending-zone.js` with all its keys. A value that is an object or an array is
a place on a heap, which holds its content; the parts of a value belong to it. The values are those
of JSON, or missing.
-/

namespace ZoneMta

open ForStd (Map)

namespace SendingZones

/-- The values that are not shared. -/
inductive Scalar where
  | null
  | bool (b : Bool)
  | number (n : ℚ)
  | string (s : String)
deriving DecidableEq

inductive Json where
  | scalar (value : Scalar)
  | array (items : List Json)
  | object (fields : List (String × Json))

inductive Value where
  | undefined
  | scalar (value : Scalar)
  /-- an object or an array -/
  | object (place : Nat)
deriving DecidableEq

namespace Value

/-- The content of a value, `none` for `undefined`. -/
def read (heap : Nat → Json) : Value → Option Json
  | undefined => none
  | scalar value => some (.scalar value)
  | object place => some (heap place)

/-- `!value` -/
def falsy : Value → Bool
  | undefined | scalar .null | scalar (.bool false) => true
  | scalar (.number n) => n == 0
  | scalar (.string s) => s == ""
  | _ => false

/-- `Array.isArray` -/
def isArray (heap : Nat → Json) : Value → Bool
  | object place =>
    match heap place with
    | .array _ => true
    | _ => false
  | _ => false

end Value

/-- `DomainConfig`. The places from `next` on are free; `clones` are those of the clones that `get`
    has returned. -/
structure DomainConfig where
  heap : Nat → Json
  next : Nat
  domains : Map String (Map String Value) := ∅
  defaults : Map String Value
  clones : List Nat := []

namespace DomainConfig

/-- The value of a domain for a key, if it has one. -/
def own (c : DomainConfig) (domain key : String) : Option Value :=
  (c.domains.lookup domain).bind (·.lookup key)

def set (c : DomainConfig) (domain key : String) (value : Value) : DomainConfig :=
  let map := (c.domains.lookup domain).getD ∅
  { c with domains := c.domains.insert domain (map.insert key value) }

def get (c : DomainConfig) (domain key : String) : Value × DomainConfig :=
  match c.own domain key with
  | some value => (value, c)
  | none =>
    match (c.defaults.lookup key).getD .undefined with
    -- return clone
    | .object place =>
      (.object c.next, { c with
        heap := Function.update c.heap c.next (c.heap place)
        next := c.next + 1
        clones := c.next :: c.clones })
    -- return default value
    | value => (value, c)

def remove (c : DomainConfig) (domain key : String) : DomainConfig :=
  match c.domains.lookup domain with
  | none => c
  | some map =>
    if (map.lookup key).isNone then c
    else
      let map := map.erase key
      if map.entries.isEmpty then { c with domains := c.domains.erase domain }
      else { c with domains := c.domains.insert domain map }

/-- Changes the content of an object. -/
def mutate (c : DomainConfig) (place : Nat) (content : Json) : DomainConfig :=
  { c with heap := Function.update c.heap place content }

/-- The content of what `get` returns. -/
def content (c : DomainConfig) (domain key : String) : Option Json :=
  (c.get domain key).1.read (c.get domain key).2.heap

/-! ## The constructor -/

/-- The default for `maxConnections`. -/
def ensureMaxConnections (defaults : Map String Value) : Map String Value :=
  if ((defaults.lookup "maxConnections").getD .undefined).falsy then
    defaults.insert "maxConnections" (.scalar (.number 5))
  else defaults

/-- The array for `disabledAddresses`, unless there is one. -/
def newDisabledAddresses (heap : Nat → Json) (defaults : Map String Value) : Option Json :=
  let addresses := (defaults.lookup "disabledAddresses").getD .undefined
  if addresses.falsy then some (.array [])
  else if addresses.isArray heap then none
  else some (.array (addresses.read heap).toList)

/-- The keys of a block of `options`. -/
def setBlock (c : DomainConfig) (domain : String) (block : Map String Value) : DomainConfig :=
  block.entries.foldl (fun c x => c.set domain x.1 x.2) c

/-- The defaults of the constructor, and the heap behind them. -/
def ensureDefaults (heap : Nat → Json) (next : Nat) (defaults : Map String Value) :
    Map String Value × (Nat → Json) :=
  let defaults := ensureMaxConnections defaults
  match newDisabledAddresses heap defaults with
  | some array =>
    (defaults.insert "disabledAddresses" (Value.object next), Function.update heap next array)
  | none => (defaults, heap)

/-- The constructor. The places of the `options` are those up to `next`; a block that is falsy is
    `none`. -/
def new (heap : Nat → Json) (next : Nat) (options : Map String (Option (Map String Value))) :
    DomainConfig :=
  let block := (options.lookup "defaults").join
  let (defaults, heap) := ensureDefaults heap next (block.getD ∅)
  -- the defaults are the block of `options` itself
  let options := if block.isSome then options.insert "defaults" (some defaults) else options
  options.entries.foldl
    (fun c x => if x.1 = "default" then c else c.setBlock x.1 (x.2.getD ∅))
    { heap := heap, next := next + 1, defaults := defaults }

end DomainConfig

end SendingZones

end ZoneMta
