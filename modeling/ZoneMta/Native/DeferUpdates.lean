import ZoneMta.ForStd.AList
import ZoneMta.ForStd.UpdateOperators

/-!
# The update of a deferral

The update document of `deferDelivery` in `lib/mail-queue.js`: the bookkeeping of the queue, and the
`updates` that the sender has sent with the DEFER. What the database does with it is an argument.
A key `__proto__` is left out.
-/

namespace ZoneMta

open ForStd (Map Bson UpdateOp insertAll)

/-- What `deferDelivery` reads of a DEFER, `null` where it is missing. -/
structure ResponseData where
  response : Bson := .null
  log : Bson := .null
  updates : Bson := .null

/-- The update document: what each operator does at which key. -/
structure DeferUpdates where
  set : Map String Bson
  inc : Map String Bson
  mul : Map String Bson := ∅

namespace DeferUpdates

/-- Whether a value is truthy. -/
def truthy : Bson → Bool
  | .null => false
  | .bool b => b
  | .number n => n != 0
  | .string s => s != ""
  | _ => true

/-- The properties of an object or an array. -/
def properties : Bson → List (String × Bson)
  | .object fields => fields
  | .array items => items.zipIdx.map fun (v, i) => (toString i, v)
  | _ => []

/-- What `Object.assign` copies. -/
def assigned : Bson → List (String × Bson)
  | .string s => s.toList.zipIdx.map fun (c, i) => (toString i, .string c.toString)
  | v => properties v

/-- The fields as a map, in their order. -/
def toMap (fields : List (String × Bson)) : Map String Bson :=
  fields.foldr (fun x map => map.insert x.1 x.2) ∅

/-- The updates before those of the sender; `first` is `!delivery._deferred`. -/
def bookkeeping (now ttl : Int) (first : Bool) (responseData : ResponseData) : DeferUpdates where
  set := toMap (
    [("_deferred.last", .number now),
      ("_deferred.next", .number (now + ttl)),
      ("queued", .date (now + ttl)),
      ("locked", .bool false)] ++
    ((if first then [("_deferred.first", .number now)] else []) ++
    ((if truthy responseData.response then
      [("_deferred.response", responseData.response)] else []) ++
    (if truthy responseData.log then [("_deferred.log", responseData.log)] else []))))
  inc := toMap [("_deferred.count", .number 1)]

/-- `key.charAt(0) === '$'` -/
def isOperator (key : String) : Bool := key.toList.head? == some '$'

/-- One key of the sender's updates, `none` where the function throws. -/
def addKey (updates : DeferUpdates) (key : String) (value : Bson) : Option DeferUpdates :=
  if isOperator key then
    if key = "$inc" then
      some { updates with inc := insertAll updates.inc (toMap (assigned value)) }
    else if key = "$mul" then
      some { updates with mul := insertAll updates.mul (toMap (assigned value)) }
    -- not allowed
    else some updates
  -- `hasOwnProperty` is not a function any more
  else if (updates.set.lookup "hasOwnProperty").isSome then none
  else if (updates.set.lookup key).isSome then some updates
  else some { updates with set := updates.set.insert key value }

/-- The keys of the sender's updates. -/
def senderUpdates (responseData : ResponseData) : Map String Bson :=
  toMap (properties responseData.updates)

/-- The update document. -/
def deferUpdates (now ttl : Int) (first : Bool) (responseData : ResponseData) :
    Option DeferUpdates :=
  (senderUpdates responseData).entries.foldlM (fun updates x => updates.addKey x.1 x.2)
    (bookkeeping now ttl first responseData)

/-- The keys of all operators. -/
def writes (updates : DeferUpdates) : List (String × UpdateOp) :=
  (updates.set.entries.map fun x => (x.1, .set x.2)) ++
    (updates.inc.entries.map fun x => (x.1, .inc x.2)) ++
    updates.mul.entries.map fun x => (x.1, .mul x.2)

/-- `deferDelivery`: the document after a `findOneAndUpdate` that succeeds. -/
def deferDelivery (update : Bson → List (String × UpdateOp) → Option Bson) (document : Bson)
    (now ttl : Int) (first : Bool) (responseData : ResponseData) : Option Bson :=
  (deferUpdates now ttl first responseData).bind fun updates => update document updates.writes

end DeferUpdates

end ZoneMta
