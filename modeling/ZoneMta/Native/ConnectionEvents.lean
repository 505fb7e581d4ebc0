import ZoneMta.Native.Connection

/-!
# The events of a connection

`Connection` of `lib/transport/connection.js` with the handlers of its socket and of its frame
parser: how the connection is closed from either side, and what it emits and writes meanwhile.
-/

namespace ZoneMta

namespace ConnectionEvents

/-- `code` of an error -/
inductive Code where
  | ECONNRESET
  | EPIPE
  | other
deriving Repr, DecidableEq

/-- What a connection does, and the calls of `close`. -/
inductive Action where
  | closeCalled
  | emitClose
  | emitError
  | write (chunk : List UInt8)
  /-- `socket.end()` -/
  | socketEnd
deriving Repr, DecidableEq

/-- A connection with its handlers. -/
structure State where
  conn : Connection := {}
  /-- the handler of the first 'error' of the socket is still there -/
  onSocketError : Bool := true
  /-- and the one of the first 'error' of the parser -/
  onParserError : Bool := true
  /-- handlers of an error that call `close` when the error has been emitted -/
  closing : Nat := 0
  log : List Action := []
deriving Repr

/-- What can happen next. -/
inductive Event (Data : Type) where
  /-- `send`; `socket.write` can throw -/
  | send (data : Data) (throws : Bool)
  | close
  | socketEnd
  | socketClose
  | socketError (code : Code) (destroyed : Bool)
  | parserError (code : Code)
  /-- a frame is invalid, or `onData` fails -/
  | dataError (code : Code)
  /-- the listeners of 'error' are done, one of them can have thrown -/
  | emitted (throws : Bool)
  /-- the socket is destroyed -/
  | destroyed

namespace State

/-- `close` -/
def close (s : State) : State :=
  let actions : List Action :=
    if s.conn._closed || s.conn._closing then []
    else (if s.conn.destroyed then [] else [.socketEnd]) ++ [.emitClose]
  { s with conn := s.conn.close, log := s.log ++ .closeCalled :: actions }

/-- The handler of 'close' and 'end' of the socket. -/
def onClose (s : State) : State :=
  if s.conn._closed then s
  else
    { s with
      conn := { s.conn with _closed := true, _closing := false }
      log := s.log ++ [.emitClose] }

def onError (s : State) : Code → State
  | .ECONNRESET | .EPIPE => s.close
  | .other => { s with log := s.log ++ [.emitError] }

/-- `send`. It asks for `closing` and `closed`, which are never set. -/
def send {Data : Type} (msgpack : Data → List UInt8) (s : State) (data : Data) (throws : Bool) :
    State :=
  if s.conn.destroyed then s.close
  else
    match encodeFrame msgpack data with
    | none => s
    | some chunk => if throws then s.close else { s with log := s.log ++ [.write chunk] }

end State

/-- The state after an event, `none` where it cannot happen. -/
def step {Data : Type} (msgpack : Data → List UInt8) (s : State) : Event Data → Option State
  | .send data throws => some (s.send msgpack data throws)
  | .close => some s.close
  | .socketEnd => some { s with conn := { s.conn with ended := true } }.onClose
  | .socketClose =>
    some { s with conn := { s.conn with destroyed := true, ended := true } }.onClose
  | .socketError code destroyed =>
    let s := { s with conn := { s.conn with destroyed := s.conn.destroyed || destroyed } }
    some (if s.onSocketError then { s with onSocketError := false }.onError code else s)
  | .parserError code =>
    some (if s.onParserError then
      { s with onParserError := false, closing := s.closing + 1 }.onError code else s)
  | .dataError code => some ({ s with closing := s.closing + 1 }.onError code)
  | .emitted throws =>
    if s.closing = 0 then none
    else
      let s := { s with closing := s.closing - 1 }
      some (if throws then s else s.close)
  | .destroyed => some { s with conn := { s.conn with destroyed := true } }

end ConnectionEvents

end ZoneMta
