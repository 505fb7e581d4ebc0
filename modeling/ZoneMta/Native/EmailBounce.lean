import ZoneMta.Native.SendingZone

/-!
# Notifications

How a message leads to a notification about it: `canSendBounce` (`lib/bounces.js`), the hooks of
`core/email-bounce`, and the way of a message through `MailDrop.add`, the metadata, `shift` and
`findNext`, a sender, and RELEASE, BOUNCE and DEFER. Ids, envelope senders and what the two
decisions read are kept; locks, zones, retry times and the body are left out. Hooks of other
plugins may change everything of a message except its id, its envelope sender and whether that
one is taken from the headers. The header object of mailsplit is a list of lines, and its
`getFirst` an argument.
-/

namespace ZoneMta

namespace EmailBounce

open ForStd (Map)

/-- What is read of the configuration, and `getFirst` of the headers. -/
structure Config where
  disableInterfaces : List String
  delayEnabled : Bool
  delayAfter : Nat
  mailerDaemon : String
  sendingZone : String
  getFirst : List HeaderLine → String → String

/-- An envelope, as `add` gets it and as it is stored in the metadata of the message. -/
structure Envelope where
  interface : String
  «from» : String
  «to» : List String
  envelopeFromHeader : Bool := false
  skipBounce : Bool := false
  /-- `parsedEnvelope.from` -/
  parsedFrom : Option String := none
  headers : List HeaderLine := []
deriving Repr, DecidableEq

/-- `_deferred` -/
structure Deferred where
  first : Nat
  last : Nat
deriving Repr, DecidableEq

/-- A document of the queue. -/
structure Document where
  id : Nat
  seq : Nat
  recipient : String
  locked : Bool := false
  _deferred : Option Deferred := none
deriving Repr, DecidableEq

/-- A document with the metadata of its message. -/
structure Delivery where
  id : Nat
  seq : Nat
  recipient : String
  «from» : Option String := none
  «to» : List String := []
  interface : String := ""
  skipBounce : Bool := false
  parsedFrom : Option String := none
  headers : List HeaderLine := []
deriving Repr, DecidableEq

/-- What the hooks queue:bounce and queue:delayed get. -/
structure Bounce where
  id : Nat
  seq : Nat
  interface : String
  «from» : Option String
  «to» : String
  headers : List HeaderLine
  response : String
deriving Repr, DecidableEq

/-- The options of queue:delayed. -/
structure Checks where
  first : Nat
  prev : Nat
  last : Nat
deriving Repr, DecidableEq

/-- A DEFER. -/
structure Request where
  id : Nat
  seq : Nat
  response : String
deriving Repr, DecidableEq

/-! ## canSendBounce -/

/-- `\w` -/
def isWordChar (c : Char) : Bool := c.isAlphanum || c == '_'

/-- The word stands at the start, and a word ends behind it. -/
def atWord (word text : List Char) : Bool :=
  word.isPrefixOf text && !(text.drop word.length).head?.any isWordChar

/-- The word stands somewhere, between word boundaries; `inside` says that the text continues a
    word. -/
def hasWord (word : List Char) (inside : Bool) : List Char → Bool
  | [] => false
  | c :: text => (!inside && atWord word (c :: text)) || hasWord word (isWordChar c) text

/-- The characters of a text for a test that ignores case. -/
def chars (s : String) : List Char := s.toList.map Char.toLower

/-- `/^mailer-daemon@/i` -/
def isMailerDaemon (address : String) : Bool := "mailer-daemon@".toList.isPrefixOf (chars address)

/-- `canSendBounce` -/
def canSendBounce (cfg : Config) (delivery : Delivery) : Bool :=
  let sender := delivery.from.getD ""
  let xAutoResponseSuppress := cfg.getFirst delivery.headers "X-Auto-Response-Suppress"
  let autoSubmitted := cfg.getFirst delivery.headers "Auto-Submitted"
  let contentType := cfg.getFirst delivery.headers "Content-Type"
  -- the reasons for no bounce, one after the other
  if delivery.skipBounce then false
  else if isMailerDaemon sender || sender == "" then false
  else if hasWord "all".toList false (chars xAutoResponseSuppress) then false
  else if hasWord "auto-generated".toList false (chars autoSubmitted) ||
      hasWord "auto-replied".toList false (chars autoSubmitted) then false
  else if atWord "multipart/report".toList (chars contentType) then false
  else if delivery.parsedFrom.any isMailerDaemon then false
  else true

/-! ## core/email-bounce -/

/-- A header line. -/
def headerLine (key value : String) : HeaderLine := ⟨key.toLower, key ++ ": " ++ value⟩

/-- The headers that `generateBounceMessage` sets. -/
def generateBounceMessage (cfg : Config) (bounce : Bounce) (isDelayed : Bool) : List HeaderLine :=
  let messageId := cfg.getFirst bounce.headers "Message-ID"
  [headerLine "Content-Type" "multipart/report; report-type=delivery-status",
    headerLine "From" cfg.mailerDaemon,
    headerLine "To" (bounce.from.getD ""),
    headerLine "X-Sending-Zone" cfg.sendingZone,
    headerLine "X-Failed-Recipients" bounce.to,
    headerLine "Auto-Submitted" "auto-replied",
    headerLine "Subject"
      ("Delivery Status Notification (" ++ (if isDelayed then "Delay" else "Failure") ++ ")")] ++
  if messageId = "" then []
  else [headerLine "In-Reply-To" messageId, headerLine "References" messageId]

/-- The envelope of a notification. -/
def noticeEnvelope (bounce : Bounce) : Envelope where
  interface := "bounce"
  «from» := ""
  «to» := [bounce.from.getD ""]

/-- `headers.get('Received').length` -/
def hops (headers : List HeaderLine) : Nat := headers.countP (·.key == "received")

/-- The hook queue:bounce: the envelope and the headers of a failure notification. -/
def queueBounce (cfg : Config) (bounce : Bounce) : Option (Envelope × List HeaderLine) :=
  if bounce.interface ∈ cfg.disableInterfaces then none
  else if bounce.from.getD "" = "" then none
  else if hops bounce.headers > 25 then none
  else some (noticeEnvelope bounce, generateBounceMessage cfg bounce false)

/-- The hook queue:delayed: the envelope and the headers of a delay notification. -/
def queueDelayed (cfg : Config) (bounce : Bounce) (options : Checks) :
    Option (Envelope × List HeaderLine) :=
  if !cfg.delayEnabled then none
  else if bounce.interface ∈ cfg.disableInterfaces then none
  else if bounce.from.getD "" = "" then none
  else if (options.prev : Int) - options.first > cfg.delayAfter ∨
      (options.last : Int) - options.first < cfg.delayAfter then none
  else if hops bounce.headers > 25 then none
  else some (noticeEnvelope bounce, generateBounceMessage cfg bounce true)

/-! ## The way of a message -/

/-- The hook message:headers of `core/default-headers`, as to the addresses. -/
def messageHeaders (envelope : Envelope) (headers : List HeaderLine)
    («from» sender : Option String) («to» : List String) : Envelope :=
  let envelope := { envelope with headers := headers, parsedFrom := «from» }
  if envelope.envelopeFromHeader then
    { envelope with «from» := («from».or sender).getD "", «to» := «to» }
  else envelope

/-- The metadata of the message are copied into the delivery. -/
def Delivery.assign (delivery : Delivery) : Option Envelope → Delivery
  | none => delivery
  | some envelope =>
    { delivery with
      «from» := some envelope.from
      «to» := envelope.to
      interface := envelope.interface
      skipBounce := envelope.skipBounce || delivery.skipBounce
      parsedFrom := envelope.parsedFrom.or delivery.parsedFrom
      headers := envelope.headers }

/-- A document without metadata. -/
def Document.delivery (document : Document) : Delivery where
  id := document.id
  seq := document.seq
  recipient := document.recipient

/-- What `sendBounceMessage` sends. -/
def Delivery.bounce (delivery : Delivery) (response : String) : Bounce where
  id := delivery.id
  seq := delivery.seq
  interface := delivery.interface
  «from» := delivery.from
  «to» := delivery.recipient
  headers := delivery.headers
  response := response

/-- `Object.assign({}, deliveryEntry, responseData)` -/
def Delivery.delayed (entry : Delivery) (request : Request) : Bounce where
  id := request.id
  seq := request.seq
  interface := entry.interface
  «from» := entry.from
  «to» := ",".intercalate entry.to
  headers := entry.headers
  response := request.response

/-- What goes on with a message. -/
inductive Item where
  /-- `add`, at message:headers; the headers of the source -/
  | headers (id : Nat) (envelope : Envelope) (source : List HeaderLine)
  /-- `add`, at message:store and `store` -/
  | storing (id : Nat) (envelope : Envelope)
  /-- `add`, at message:queue and `setMeta` -/
  | settingMeta (id : Nat) (envelope : Envelope)
  /-- `add`, at `push` -/
  | pushing (id : Nat) (envelope : Envelope)
  /-- the `getMeta` of `shift` -/
  | shifted (document : Document)
  /-- the lookup on the suppression list -/
  | suppression (delivery : Delivery)
  /-- the `getMeta` of `findNext` -/
  | nextMeta (delivery : Delivery)
  /-- at a sender -/
  | sending (delivery : Delivery)
  /-- `releaseDelivery`; it may be for a delivery that was rejected -/
  | releasing (delivery : Delivery) (rejected : Bool)
  /-- `sendBounceMessage` -/
  | rejected (delivery : Delivery)
  /-- BOUNCE -/
  | bounce (bounce : Bounce)
  /-- DEFER -/
  | deferring (request : Request)
  /-- the `getMeta` of `deferDelivery` -/
  | deferred (document : Document) (request : Request) (options : Checks)
  /-- the hooks of queue:delayed -/
  | delayed (bounce : Bounce) (options : Checks)
deriving Repr, DecidableEq

/-- What hooks of other plugins may change. -/
structure Changes where
  interface : String
  «to» : List String
  skipBounce : Bool
  parsedFrom : Option String
  headers : List HeaderLine
deriving Repr, DecidableEq

namespace Changes

def envelope (c : Changes) (envelope : Envelope) : Envelope :=
  { envelope with
    interface := c.interface
    «to» := c.to
    skipBounce := c.skipBounce
    parsedFrom := c.parsedFrom
    headers := c.headers }

def delivery (c : Changes) (delivery : Delivery) : Delivery :=
  { delivery with
    interface := c.interface
    «to» := c.to
    skipBounce := c.skipBounce
    parsedFrom := c.parsedFrom
    headers := c.headers }

def bounce (c : Changes) (bounce : Bounce) : Bounce :=
  { bounce with interface := c.interface, «to» := ",".intercalate c.to, headers := c.headers }

/-- A message whose hooks have run. -/
def item (c : Changes) : Item → Item
  | .headers id envelope source => .headers id (c.envelope envelope) source
  | .storing id envelope => .storing id (c.envelope envelope)
  | .settingMeta id envelope => .settingMeta id (c.envelope envelope)
  | .pushing id envelope => .pushing id (c.envelope envelope)
  | .sending delivery => .sending (c.delivery delivery)
  | .rejected delivery => .rejected (c.delivery delivery)
  | .bounce bounce => .bounce (c.bounce bounce)
  | .delayed bounce options => .delayed (c.bounce bounce) options
  | item => item

end Changes

/-- The messages in the database and on their way. `files` has the metadata, once they are set;
    `notices` are the notifications: the message they are about, and their own id. -/
structure System where
  nextId : Nat := 0
  files : Map Nat (Option Envelope) := ∅
  queue : List Document := []
  items : Map Nat Item := ∅
  nextItem : Nat := 0
  notices : List (Nat × Nat) := []
deriving DecidableEq

/-- What can happen next. -/
inductive Event where
  /-- an interface calls `add` -/
  | submit (envelope : Envelope) (source : List HeaderLine)
  /-- hooks of other plugins -/
  | hooks (item : Nat) (changes : Changes)
  /-- message:headers, with the addresses in the headers -/
  | headers (item : Nat) («from» sender : Option String) («to» : List String)
  /-- the file is stored -/
  | store (item : Nat)
  | setMeta (item : Nat)
  /-- the documents that are inserted, with their recipients; they may be deferred at once -/
  | push (item : Nat) (recipients : List (String × Option Deferred))
  /-- an error ends it -/
  | fail (item : Nat)
  /-- the `findOneAndUpdate` of `shift` -/
  | fetch (id seq : Nat)
  | shiftMeta (item : Nat)
  | suppression (item : Nat) (suppressed : Bool)
  | nextMeta (item : Nat)
  /-- the delivery is accepted -/
  | deliver (item : Nat)
  /-- the delivery is rejected -/
  | reject (item : Nat)
  /-- the delivery is deferred -/
  | defer (item : Nat) (response : String)
  /-- `releaseDelivery` of the queue -/
  | release (item : Nat)
  | sendBounceMessage (item : Nat) (response : String)
  /-- the hook queue:bounce -/
  | queueBounce (item : Nat)
  /-- the `findOneAndUpdate` of `deferDelivery` -/
  | deferDelivery (item now : Nat)
  | deferMeta (item : Nat)
  /-- the hook queue:delayed -/
  | queueDelayed (item : Nat)
  /-- `removeMessage`, or the garbage collection -/
  | removeMessage (id : Nat)
  | removeDelivery (id seq : Nat)
  /-- documents are unlocked -/
  | unlock
deriving Repr, DecidableEq

namespace System

/-- It goes on. -/
def set (s : System) (n : Nat) (item : Item) : System := { s with items := s.items.insert n item }

/-- It is over. -/
def drop (s : System) (n : Nat) : System := { s with items := s.items.erase n }

/-- Something new. -/
def new (s : System) (item : Item) : System :=
  { s with items := s.items.insert s.nextItem item, nextItem := s.nextItem + 1 }

/-- `add` with an id of `generateId`. -/
def add (s : System) (envelope : Envelope) (source : List HeaderLine) : System :=
  { s with nextId := s.nextId + 1 }.new (.headers s.nextId envelope source)

/-- What the hook of email-bounce does for a message. -/
def notify (s : System) (n : Nat) (bounce : Bounce) :
    Option (Envelope × List HeaderLine) → System
  | none => s.drop n
  | some (envelope, source) =>
    { (s.drop n).add envelope source with notices := s.notices ++ [(bounce.id, s.nextId)] }

/-- The documents of `push`. -/
def documents (id : Nat) (recipients : List (String × Option Deferred)) : List Document :=
  recipients.mapIdx fun i recipient =>
    { id := id, seq := i + 1, recipient := recipient.1, _deferred := recipient.2 }

/-- A document of the queue. -/
def find (s : System) (id seq : Nat) : Option Document :=
  s.queue.find? fun document => document.id == id && document.seq == seq

/-- A document is removed, and with the last one the message. -/
def remove (s : System) (id seq : Nat) : System :=
  let queue := s.queue.filter fun document => !(document.id == id && document.seq == seq)
  { s with
    queue := queue
    files := if queue.any (·.id == id) then s.files else s.files.erase id }

/-- A document is changed. -/
def update (s : System) (id seq : Nat) (f : Document → Document) : System :=
  { s with
    queue := s.queue.map fun document =>
      if document.id == id && document.seq == seq then f document else document }

/-- The `findOneAndUpdate` of `deferDelivery`. -/
def deferDocument (now : Nat) (document : Document) : Document :=
  { document with
    locked := false
    _deferred := some ⟨(document._deferred.map (·.first)).getD now, now⟩ }

/-- The state after an event, `none` where it cannot happen. -/
def step (cfg : Config) (s : System) : Event → Option System
  | .submit envelope source => some (s.add envelope source)
  | .hooks n changes => (s.items.lookup n).map fun item => s.set n (changes.item item)
  | .headers n «from» sender «to» =>
    match s.items.lookup n with
    | some (.headers id envelope source) =>
      some (s.set n (.storing id (messageHeaders envelope source «from» sender «to»)))
    | _ => none
  | .store n =>
    match s.items.lookup n with
    | some (.storing id envelope) =>
      some ({ s with files := s.files.insert id none }.set n (.settingMeta id envelope))
    | _ => none
  | .setMeta n =>
    match s.items.lookup n with
    | some (.settingMeta id envelope) =>
      let files :=
        -- the `updateOne` finds nothing where the file is gone
        match s.files.lookup id with
        | none => s.files
        | some _ => s.files.insert id (some envelope)
      some ({ s with files := files }.set n (.pushing id envelope))
    | _ => none
  | .push n recipients =>
    match s.items.lookup n with
    | some (.pushing id _) =>
      some ({ s with queue := s.queue ++ documents id recipients }.drop n)
    | _ => none
  | .fail n => (s.items.lookup n).map fun _ => s.drop n
  | .fetch id seq =>
    match s.find id seq with
    | some document =>
      -- `shift` asks for documents that are not locked
      if document.locked then none
      else
        some ((s.update id seq fun document => { document with locked := true }).new
          (.shifted document))
    | none => none
  | .shiftMeta n =>
    match s.items.lookup n with
    | some (.shifted document) =>
      match s.files.lookup document.id with
      -- without its message all documents are deleted
      | none => some ({ s with queue := s.queue.filter (·.id != document.id) }.drop n)
      | some data => some (s.set n (.suppression (document.delivery.assign data)))
    | _ => none
  | .suppression n suppressed =>
    match s.items.lookup n with
    | some (.suppression delivery) =>
      some (s.set n (if suppressed then .releasing delivery false else .nextMeta delivery))
    | _ => none
  | .nextMeta n =>
    match s.items.lookup n with
    | some (.nextMeta delivery) =>
      -- a message without metadata is handed out as well
      some (s.set n (.sending (delivery.assign (s.files.lookup delivery.id).join)))
    | _ => none
  | .deliver n =>
    match s.items.lookup n with
    | some (.sending delivery) => some (s.set n (.releasing delivery false))
    | _ => none
  | .reject n =>
    match s.items.lookup n with
    | some (.sending delivery) => some (s.set n (.releasing delivery true))
    | _ => none
  | .defer n response =>
    match s.items.lookup n with
    | some (.sending delivery) =>
      some (s.set n (.deferring ⟨delivery.id, delivery.seq, response⟩))
    | _ => none
  | .release n =>
    match s.items.lookup n with
    | some (.releasing delivery rejected) =>
      match s.find delivery.id delivery.seq with
      | none => some (s.drop n)
      | some _ =>
        -- a bounce is sent only behind the release
        let s := s.remove delivery.id delivery.seq
        some (if rejected then s.set n (.rejected delivery) else s.drop n)
    | _ => none
  | .sendBounceMessage n response =>
    match s.items.lookup n with
    | some (.rejected delivery) =>
      some (if canSendBounce cfg delivery then s.set n (.bounce (delivery.bounce response))
        else s.drop n)
    | _ => none
  | .queueBounce n =>
    match s.items.lookup n with
    | some (.bounce bounce) => some (s.notify n bounce (queueBounce cfg bounce))
    | _ => none
  | .deferDelivery n now =>
    match s.items.lookup n with
    | some (.deferring request) =>
      match s.find request.id request.seq with
      | none => some (s.drop n)
      | some document =>
        let s := s.update request.id request.seq (deferDocument now)
        match document._deferred with
        -- the times before this DEFER; the first one has none
        | none => some (s.drop n)
        | some deferred =>
          if deferred.first = 0 ∨ deferred.last = 0 then some (s.drop n)
          else
            some (s.set n
              (.deferred document request ⟨deferred.first, deferred.last, now⟩))
    | _ => none
  | .deferMeta n =>
    match s.items.lookup n with
    | some (.deferred document request options) =>
      let entry := document.delivery.assign (s.files.lookup document.id).join
      some (if canSendBounce cfg entry then s.set n (.delayed (entry.delayed request) options)
        else s.drop n)
    | _ => none
  | .queueDelayed n =>
    match s.items.lookup n with
    | some (.delayed bounce options) => some (s.notify n bounce (queueDelayed cfg bounce options))
    | _ => none
  | .removeMessage id => some { s with files := s.files.erase id }
  | .removeDelivery id seq =>
    some { s with
      queue := s.queue.filter fun document => !(document.id == id && document.seq == seq) }
  | .unlock =>
    some { s with queue := s.queue.map fun document => { document with locked := false } }

end System

end EmailBounce

end ZoneMta
