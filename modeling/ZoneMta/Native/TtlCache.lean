import Mathlib
import ZoneMta.ForStd.AList

/-!
# Cache with times to live

`TtlCache` (`lib/ttl-cache.js`): a map with the entries of the keys, and an array of the same
entries in the order in which they expire. What `Date.now()` returns is an argument, `null` is
`none`, and so are the arguments that are not given. What is passed to `setImmediate` is kept
in its order; a timer is the time for which it is set.
-/

namespace ZoneMta

open ForStd (Map)

/-- The objects that `set` creates. `ref` tells them apart: two of them are the same object if
    it is the same. -/
structure TtlCache.Entry (κ ν φ τ : Type) where
  ref : Nat
  key : κ
  value : ν
  ttl : τ
  created : τ
  expires : τ
  expireCb : Option φ
deriving Repr, DecidableEq

/-- What is passed to `setImmediate`. -/
inductive TtlCache.Immediate (ν φ : Type) where
  | updateTimer
  | checkExpired
  /-- `func(value)` -/
  | expireCb (func : φ) (value : ν)
deriving Repr, DecidableEq

/-- `TtlCache`; `nextRef` counts the objects that it has made. -/
structure TtlCache (κ ν φ τ : Type) [DecidableEq κ] where
  defaultTtl : τ
  data : Map κ (TtlCache.Entry κ ν φ τ) := ∅
  sorted : List (TtlCache.Entry κ ν φ τ) := []
  checkTimer : Option τ := none
  immediates : List (TtlCache.Immediate ν φ) := []
  nextRef : Nat := 0

namespace TtlCache

variable {κ ν φ τ : Type} [DecidableEq κ]

/-- `setImmediate` -/
def setImmediate (c : TtlCache κ ν φ τ) (immediate : Immediate ν φ) : TtlCache κ ν φ τ :=
  { c with immediates := c.immediates ++ [immediate] }

/-- `setImmediate` with the callback of an entry, if it has one. -/
def expire (c : TtlCache κ ν φ τ) (entry : Entry κ ν φ τ) : TtlCache κ ν φ τ :=
  match entry.expireCb with
  | some func => c.setImmediate (.expireCb func entry.value)
  | none => c

/-- `remove` -/
def remove (c : TtlCache κ ν φ τ) (key : κ) : TtlCache κ ν φ τ :=
  match c.data.lookup key with
  | none => c
  | some data =>
    let c := c.expire data
    { c with
      data := c.data.erase key
      sorted := c.sorted.eraseP (·.ref == data.ref) }.setImmediate .updateTimer

/-- `flush` -/
def flush (c : TtlCache κ ν φ τ) : TtlCache κ ν φ τ :=
  { c with data := ∅, sorted := [], checkTimer := none }

variable [LinearOrder τ]

/-- `get` -/
def get (c : TtlCache κ ν φ τ) (key : κ) (now : τ) : Option ν × TtlCache κ ν φ τ :=
  match c.data.lookup key with
  | none => (none, c)
  | some data => if data.expires < now then (none, c.remove key) else (some data.value, c)

/-- The loop of `set` over `sorted`, from index `i - 1` down: removes the entry with the key of
    `data`, and puts `data` behind the last entry that does not expire after it. -/
def insertSorted (data : Entry κ ν φ τ) :
    Nat → List (Entry κ ν φ τ) → Bool → List (Entry κ ν φ τ) × Bool
  | 0, sorted, added => (sorted, added)
  | i + 1, sorted, added =>
    match sorted[i]? with
    | none => insertSorted data i sorted added
    | some entry =>
      if entry.key = data.key then insertSorted data i (sorted.eraseIdx i) added
      else if !added && entry.expires ≤ data.expires then
        insertSorted data i (sorted.insertIdx (i + 1) data) true
      else insertSorted data i sorted added

/-- `set` -/
def set [Zero τ] [Add τ] (c : TtlCache κ ν φ τ) (key : κ) (value : Option ν) (ttl : Option τ)
    (expireCb : Option φ) (now : τ) : TtlCache κ ν φ τ :=
  let ttl := ttl.getD c.defaultTtl
  match value with
  | none => c.remove key
  | some value =>
    if ttl ≤ 0 then c.remove key
    else
      let data : Entry κ ν φ τ :=
        { ref := c.nextRef
          key := key
          value := value
          ttl := ttl
          created := now
          expires := now + ttl
          expireCb := expireCb }
      let (sorted, added) := insertSorted data c.sorted.length c.sorted false
      { c with
        data := c.data.insert key data
        sorted := if added then sorted else data :: sorted
        nextRef := c.nextRef + 1 }.setImmediate .updateTimer

/-- `updateTimer` -/
def updateTimer [Add τ] [Sub τ] [One τ] (c : TtlCache κ ν φ τ) (now : τ) : TtlCache κ ν φ τ :=
  let c := { c with checkTimer := none }
  match c.sorted with
  | [] => c
  | first :: _ =>
    if first.expires ≤ now then c.setImmediate .checkExpired
    else { c with checkTimer := some (now + (first.expires - now + 1)) }

/-- `checkExpired`: the loop ends at the first entry that has not expired. -/
def checkExpired (c : TtlCache κ ν φ τ) (now : τ) : TtlCache κ ν φ τ :=
  let expired := c.sorted.takeWhile fun entry => entry.expires ≤ now
  let c := expired.foldl
    (fun c entry => { c.expire entry with data := c.data.erase entry.key }) c
  { c with
    sorted :=
      if expired.length = c.sorted.length ∨ c.data.entries = [] then []
      else c.sorted.drop expired.length }.setImmediate .updateTimer

/-- The operations. -/
inductive Op (κ ν φ τ : Type) where
  | get (key : κ)
  | set (key : κ) (value : Option ν) (ttl : Option τ) (expireCb : Option φ)
  | remove (key : κ)
  | flush
  | updateTimer
  | checkExpired
deriving Repr, DecidableEq

/-- The cache after an operation. -/
def apply [Zero τ] [Add τ] [Sub τ] [One τ] (c : TtlCache κ ν φ τ) (now : τ) :
    Op κ ν φ τ → TtlCache κ ν φ τ
  | .get key => (c.get key now).2
  | .set key value ttl expireCb => c.set key value ttl expireCb now
  | .remove key => c.remove key
  | .flush => c.flush
  | .updateTimer => c.updateTimer now
  | .checkExpired => c.checkExpired now

end TtlCache

end ZoneMta
