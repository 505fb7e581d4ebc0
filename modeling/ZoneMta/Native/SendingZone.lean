import ZoneMta.ForStd.AList
import ZoneMta.ForStd.Text

/-!
# Sending zones

The registry of the zones and the lookups in it (`init`, `get`, `findByRecipient`,
`findBySender`, `findByHeaders` and `findByOrigin` of `lib/sending-zone.js`), and what the
`message:headers` hook of `core/default-headers` does about the zone of a message, with the
registry of the process that runs it.

A value that is falsy is the empty string, and so is a zone that is not set. The functions of
the header object, and `toASCII` of punycode, are arguments.
-/

namespace ZoneMta

open ForStd (Map Text afterFirst)

/-- The keys of the configuration of a zone that `init` reads. The entries of `routingHeaders`
    are in their order. -/
structure ZoneConfig where
  disabled : Bool := false
  senderDomains : List String := []
  recipientDomains : List String := []
  routingHeaders : List (String × String) := []
  originAddresses : List String := []

/-- `SendingZone` -/
structure SendingZone where
  name : String
deriving Repr, DecidableEq

/-- The functions on strings. -/
structure Strings extends Text where
  toASCII : String → String

/-- A header of a message. -/
structure HeaderLine where
  key : String
  line : String
deriving Repr, DecidableEq

/-- The registry. -/
structure SendingZones where
  sendingZonelist : Map String SendingZone := ∅
  recipientDomainMap : Map String SendingZone := ∅
  senderDomainMap : Map String SendingZone := ∅
  routingHeaders : Map String (Map String SendingZone) := ∅
  originMap : Map String SendingZone := ∅

/-- `set`, unless the map has the key. -/
def setMissing {ν : Type} (map : Map String ν) (key : String) (value : ν) : Map String ν :=
  match map.lookup key with
  | some _ => map
  | none => map.insert key value

namespace Strings

variable (str : Strings)

/-- The form of a domain in the maps. -/
def domain (s : String) : String := str.toASCII (str.trim (str.toLowerCase s))

/-- The value of a header, in the form of the maps. -/
def value (line : String) : String := str.toLowerCase (str.trim (afterFirst ':' line))

end Strings

namespace SendingZones

variable (str : Strings)

/-- The constructor of `SendingZone`. -/
def newZone (name : String) : SendingZone := ⟨str.normal name⟩

/-- The loop over the `routingHeaders` of a zone. -/
def setRoutingHeaders (zone : SendingZone) (map : Map String (Map String SendingZone))
    (headers : List (String × String)) : Map String (Map String SendingZone) :=
  headers.foldl (fun map header =>
    let value := str.normal header.2
    let key := str.normal header.1
    if key = "" ∨ value = "" then map
    else map.insert key (setMissing ((map.lookup key).getD ∅) value zone)) map

/-- `startNextZone` -/
def startNextZone (zones : SendingZones) (zoneName : String) (zoneData : ZoneConfig) :
    SendingZones :=
  if zoneData.disabled then zones
  else
    let zone := newZone str zoneName
    { sendingZonelist := zones.sendingZonelist.insert zoneName zone
      senderDomainMap := zoneData.senderDomains.foldl
        (fun map domain => setMissing map (str.domain domain) zone) zones.senderDomainMap
      recipientDomainMap := zoneData.recipientDomains.foldl
        (fun map domain => setMissing map (str.domain domain) zone) zones.recipientDomainMap
      routingHeaders := setRoutingHeaders str zone zones.routingHeaders zoneData.routingHeaders
      originMap := zoneData.originAddresses.foldl
        (fun map origin => setMissing map origin zone) zones.originMap }

/-- `init`, with the zones in the order of their keys. -/
def init (config : List (String × ZoneConfig)) : SendingZones :=
  config.foldl (fun zones zone => startNextZone str zones zone.1 zone.2) {}

/-- `get` -/
def get (zones : SendingZones) (name : String) : Option SendingZone :=
  zones.sendingZonelist.lookup (str.normal name)

/-- `findByRecipient` -/
def findByRecipient (zones : SendingZones) (domain : String) : String :=
  ((zones.recipientDomainMap.lookup domain).map (·.name)).getD ""

/-- `findBySender` -/
def findBySender (zones : SendingZones) (domain : String) : String :=
  ((zones.senderDomainMap.lookup domain).map (·.name)).getD ""

/-- `findByOrigin` -/
def findByOrigin (zones : SendingZones) (origin : String) : String :=
  ((zones.originMap.lookup origin).map (·.name)).getD ""

/-- The loop of `findByHeaders`, over the lines from the last one up. -/
def findByHeaders (zones : SendingZones) (lines : List HeaderLine) : String :=
  (lines.reverse.findSome? fun line =>
    (zones.routingHeaders.lookup line.key).bind fun map =>
      (map.lookup (str.value line.line)).map (·.name)).getD ""

end SendingZones

/-! ## core/default-headers -/

/-- The processes in which the `message:headers` hook runs: the master, for messages of the API and
    for bounces, and a receiver, for messages of an SMTP interface. -/
inductive HookProcess where
  | master
  | receiver
deriving Repr, DecidableEq

/-- The registry of a process: only `app.js` calls `init`. -/
def HookProcess.zones (str : Strings) (config : List (String × ZoneConfig)) :
    HookProcess → SendingZones
  | .master => SendingZones.init str config
  | .receiver => {}

/-- What the hook does with the header object: `getFirst`, and the changes of the headers before
    the part about the zone and after it. -/
structure MessageHeaders where
  getFirst : List HeaderLine → String → String
  addMessageId : List HeaderLine → List HeaderLine
  addDate : List HeaderLine → List HeaderLine

/-- The `message:headers` hook: the zone of the message and its headers. -/
def messageHeaders (str : Strings) (hdr : MessageHeaders) (zones : SendingZones)
    (allowRoutingHeaders : List String) (interface sendingZone : String)
    (headers : List HeaderLine) : String × List HeaderLine :=
  let headers := hdr.addMessageId headers
  let sendingZone :=
    if sendingZone = "" ∧ interface ∈ allowRoutingHeaders then
      str.toLowerCase (hdr.getFirst headers "x-sending-zone")
    else sendingZone
  let headers := hdr.addDate headers
  -- the routing key and BCC are removed
  let headers := headers.filter fun line => line.key != "x-sending-zone"
  let headers := headers.filter fun line => line.key != "bcc"
  if sendingZone = "" then (zones.findByHeaders str headers, headers)
  else (sendingZone, headers)

end ZoneMta
