import ZoneMta.ForStd.MsgPack
import ZoneMta.Native.FrameParser
import ZoneMta.Native.SendingZone

/-!
# Connection

The data channel between two processes: `send` of `lib/transport/connection.js` with `encode` of
`lib/transport/frames.js` on the one side, and the frame parser on the other. `msgpack` is
`msgpack.encode`. The bytes arrive in their order, in any pieces and after any time.
`RemoteQueue.push` sends the envelope of a message with the list of its header lines.
-/

namespace ZoneMta

open ForStd.MsgPack (Value)

/-- The connection of the side that sends, with the state of its socket. The fields `closing` and
    `closed` that `send` asks for are never set. -/
structure Connection where
  _closed : Bool := false
  _closing : Bool := false
  destroyed : Bool := false
  ended : Bool := false
deriving Repr, DecidableEq

/-- `close` -/
def Connection.close (c : Connection) : Connection :=
  if c._closed || c._closing then c
  else { c with _closing := true, ended := c.ended || !c.destroyed }

/-- `frames.encode`; `writeUInt32LE` throws if the length needs more than four bytes. -/
def encodeFrame {Data : Type} (msgpack : Data → List UInt8) (data : Data) : Option (List UInt8) :=
  let encoded := msgpack data
  if encoded.length < 2 ^ 32 then some (uint32LE encoded.length ++ encoded) else none

/-- A connection, the values that were sent with their bytes, and the parser of the peer. -/
structure Channel (Data : Type) where
  sender : Connection := {}
  sent : List Data := []
  written : List UInt8 := []
  receiver : FrameParser.World := .init

namespace Channel

variable {Data : Type}

/-- What can happen next. -/
inductive Event (Data : Type) where
  /-- `send`; `socket.write` can throw -/
  | send (data : Data) (throws : Bool)
  /-- `close` -/
  | close
  /-- 'close' or 'end' of the socket -/
  | closed (destroyed : Bool)
  /-- up to `n` bytes arrive -/
  | arrive (n : Nat)
  /-- a turn of the event loop of the peer -/
  | receive (event : FrameParser.Event)

/-- `send`: nothing is written to a socket that has ended. -/
def send (msgpack : Data → List UInt8) (s : Channel Data) (data : Data) (throws : Bool) :
    Channel Data :=
  if s.sender.destroyed then { s with sender := s.sender.close }
  else
    match encodeFrame msgpack data with
    | none => s
    | some chunk =>
      if throws then { s with sender := s.sender.close }
      else if s.sender.ended then s
      else { s with sent := s.sent ++ [data], written := s.written ++ chunk }

/-- The state after an event, `none` where it cannot happen. -/
def step (msgpack : Data → List UInt8) (s : Channel Data) : Event Data → Option (Channel Data)
  | .send data throws => some (s.send msgpack data throws)
  | .close => some { s with sender := s.sender.close }
  | .closed destroyed =>
    some { s with sender := { s.sender with
      _closed := true
      _closing := false
      destroyed := s.sender.destroyed || destroyed
      ended := true } }
  | .arrive n =>
    let bytes := (s.written.drop s.receiver.arrived.length).take n
    (FrameParser.step s.receiver (.data bytes)).map fun w => { s with receiver := w }
  | .receive (.data _) => none
  | .receive event => (FrameParser.step s.receiver event).map fun w => { s with receiver := w }

end Channel

/-! ## `RemoteQueue.push` -/

/-- `MAX_HEAD_SIZE` of `lib/mail-drop.js`, the `maxHeadSize` of the splitter -/
def MAX_HEAD_SIZE : Nat := 2 * 1024 * 1024

/-- The size of the header block that the splitter has seen. -/
def headSize (headers : List HeaderLine) : Nat :=
  (headers.map fun header => header.line.toUTF8.size + 2).sum + 2

def HeaderLine.toValue (header : HeaderLine) : Value :=
  .map ["key", "line"] [.str header.key, .str header.line]

/-- The envelope behind `MailDrop.add`: `fields` are all but the headers. -/
def envelopeValue (fields : List (String × Value)) (headers : List HeaderLine) : Value :=
  .map ("headers" :: fields.map Prod.fst)
    (.array (headers.map HeaderLine.toValue) :: fields.map Prod.snd)

/-- What `sendCommand` sends for `RemoteQueue.push`. -/
def pushCommand (req : Nat) (id : String) (envelope : Value) : Value :=
  .map ["req", "cmd", "id", "envelope"] [.nat req, .str "PUSH", .str id, envelope]

end ZoneMta
