import ZoneMta.Native.Master
import ZoneMta.Native.SendingZone

/-!
# Push

`push` of `MailQueue` (`lib/mail-queue.js`): one delivery for each recipient of an envelope, with
the zone it is routed to, and the name under which a zone polls for its deliveries in `shift`.
There is no `queue:route` hook. The headers of an envelope are an array here, which has no
`from`.
-/

namespace ZoneMta

open ForStd (afterLast)

/-- What `push` reads of an envelope; `deferDelivery` is 0 if it is not set. -/
structure Envelope where
  sendingZone : String
  «from» : String
  «to» : List String
  origin : String
  deferDelivery : Nat
deriving Repr, DecidableEq

namespace MailQueue

variable (str : Strings) (zones : SendingZones)

/-- The domain of a recipient, an address literal without its brackets. -/
def recipientDomain (recipient : String) : String :=
  String.ofList ((afterLast '@' recipient).toList.filter fun c => c != '[' && c != ']')

/-- The domain of the sender. -/
def senderDomain (envelope : Envelope) : String := afterLast '@' envelope.from

/-- Tries the next way to route a delivery. -/
def orFind (deliveryZone key : String) (find : String → String) : String :=
  if deliveryZone = "" ∧ key ≠ "" then find key else deliveryZone

/-- `options.defaultZone || 'default'` -/
def defaultZone (optionsDefaultZone : String) : String :=
  if optionsDefaultZone = "" then "default" else optionsDefaultZone

/-- The zone of the envelope, if it exists. -/
def zone (envelope : Envelope) : String :=
  if envelope.sendingZone ≠ "" ∧ (zones.get str envelope.sendingZone).isNone then ""
  else envelope.sendingZone

/-- `deliveryZone` -/
def deliveryZone (optionsDefaultZone : String) (envelope : Envelope) (recipient : String) :
    String :=
  let deliveryZone := zone str zones envelope
  let deliveryZone := orFind deliveryZone (senderDomain envelope) zones.findBySender
  let deliveryZone := orFind deliveryZone (recipientDomain recipient) zones.findByRecipient
  let deliveryZone := orFind deliveryZone envelope.origin zones.findByOrigin
  if deliveryZone = "" then defaultZone optionsDefaultZone else deliveryZone

/-- `push`, up to its `insertMany`. `date` is the time at which a recipient is processed, `_id`
    the id that its document gets. -/
def push (optionsDefaultZone : String) (date : Nat → Nat) (_id : Nat → ObjectId)
    (envelope : Envelope) : Except String (List Recipient) :=
  if envelope.to = [] then .error "Empty recipients list"
  else
    .ok (envelope.to.mapIdx fun i recipient =>
      { _id := _id (i + 1)
        index := i + 1
        recipient := recipient
        domain := recipientDomain recipient
        sendingZone := deliveryZone str zones optionsDefaultZone envelope recipient
        queued :=
          if envelope.deferDelivery > date (i + 1) then envelope.deferDelivery else date (i + 1)
        created := date (i + 1) })

/-- The zone that `shift` looks for when `getNextDelivery` of a zone calls it. -/
def polledZone (optionsDefaultZone : String) (zone : SendingZone) : String :=
  if zone.name = "" then defaultZone optionsDefaultZone else zone.name

end MailQueue

end ZoneMta
