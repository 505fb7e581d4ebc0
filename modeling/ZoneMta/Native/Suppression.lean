import ZoneMta.Native.AddressTools
import ZoneMta.Native.Push
import ZoneMta.Native.Shift

/-!
# Suppression

The entries of the suppression list that `POST /suppressionlist` of `lib/api-server.js` makes, and
`shift` of `lib/mail-queue.js` as it looks up a delivery in the list. Other than in `Shift`, every
call may fail and the others may change the database between two calls: what the calls of a try
reply is an argument. `normal` is `toLowerCase().trim()`.
-/

namespace ZoneMta

open AddressTools (normalizeAddress normalizeDomain)

namespace Suppression

variable (str : Strings)

/-- `POST /suppressionlist`: the entry for the parameters, which are empty where they are missing;
    `none` for an error. -/
def newEntry (address domain : String) : Option Suppressed :=
  let address := str.toLowerCase (str.trim address)
  let domain := str.toLowerCase (str.trim domain)
  if address = "" ∧ domain = "" then none
  else
    some {
      address := if address ≠ "" then some (normalizeAddress str address) else none
      domain := if domain ≠ "" then some (normalizeDomain str domain) else none }

/-- `envelope.to` of a message that comes in through the SMTP interface. -/
def envelopeTo (rcptTo : List String) : List String := rcptTo.map (normalizeAddress str)

end Suppression

/-- Whether the query of `shift` finds the entry. -/
def Suppressed.matches (normal : String → String) (entry : Suppressed) (delivery : Shifted) :
    Bool :=
  entry.address == some (normal delivery.recipient) || entry.domain == some (normal delivery.domain)

namespace Suppression

/-- What the calls of a try reply. An error is `none`. -/
structure Replies where
  /-- `findOneAndUpdate` -/
  fetched : Option (Option Delivery)
  /-- `locks.lock` -/
  locked : Bool
  /-- `getMeta` -/
  getMeta : Option (Option Metadata)
  /-- `findOne` on the suppression list, as it is then -/
  suppressionlist : Option (List Suppressed)
  /-- `releaseDelivery` -/
  released : Bool

/-- What `shift` returns. -/
inductive Answer where
  | error
  | none
  | delivery (delivery : Shifted)
deriving Repr, DecidableEq

variable (normal : String → String)

/-- `tryNext`: what it returns, `none` where it tries the next one. -/
def tryNext (replies : Replies) : Option Answer :=
  match replies.fetched with
  | none => some .error
  | some none => some .none
  | some (some delivery) =>
    if !replies.locked then none
    else
      match replies.getMeta with
      | none => some .error
      -- this message has been already deleted
      | some none => none
      | some (some data) =>
        let delivery := delivery.withMetadata data
        match replies.suppressionlist with
        -- just ignore, not important, even though should not happen
        | none => some (.delivery delivery)
        | some list =>
          if list.any (·.matches normal delivery) then
            if replies.released then none else some .error
          else some (.delivery delivery)

/-- `shift` behind its checks for a shutdown and an empty zone, with the replies of each try; `none`
    where they are too few. -/
def shift (replies : List Replies) : Option Answer := replies.findSome? (tryNext normal)

end Suppression

end ZoneMta
