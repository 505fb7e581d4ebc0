import ZoneMta.ForStd.Framing
import ZoneMta.Native.Buffer

/-!
# FrameParser

`lib/transport/frame-parser.js`: cuts the bytes of a socket into frames and gives them
to a handler, together with the socket it reads from and the callbacks it leaves to the
event loop. `step` is one turn of the event loop: data arrives, the socket emits
`readable`, the oldest `setImmediate` callback runs, or a handler calls `next`.
-/

namespace ZoneMta

/-- `MAX_ALLOWED_FRAME_SIZE` -/
def MAX_ALLOWED_FRAME_SIZE : Nat := 3 * 1024 * 1024 -- 3MB

/-- The bytes of `frames.encode`, once the payload is encoded. -/
def encodeFrames (ps : List (List UInt8)) : List UInt8 := ForStd.frames uint32LE ps

/-- The fields of the parser; `frame` is `0` for `false`. -/
structure FrameParser where
  chunks : List (List UInt8)
  chunklen : Nat
  frame : Nat
  processing : Bool
  hasData : Bool
  id : Nat
deriving Repr, DecidableEq

namespace FrameParser

/-- The constructor. -/
def init : FrameParser where
  chunks := []
  chunklen := 0
  frame := 0
  processing := false
  hasData := false
  id := 0

/-- What the handler sees and does. -/
inductive Entry where
  | handler (frame : List UInt8)
  | next
deriving Repr, DecidableEq

/-- The arguments of `setImmediate`. -/
inductive Immediate where
  | read
  | processFrame (frame : List UInt8)
deriving Repr, DecidableEq

/-- The parser with its socket: bytes that arrived, bytes not read yet, callbacks left to
    the event loop, handlers that have not called `next`, and the frame sizes reported
    in `error` events. -/
structure World where
  parser : FrameParser
  arrived : List UInt8
  unread : List UInt8
  immediates : List Immediate
  handlers : Nat
  log : List Entry
  errors : List Nat
deriving Repr, DecidableEq

/-- The parser on a fresh socket. -/
def World.init : World where
  parser := FrameParser.init
  arrived := []
  unread := []
  immediates := []
  handlers := 0
  log := []
  errors := []

/-- `setImmediate` -/
def setImmediate (w : World) (callback : Immediate) : World :=
  { w with immediates := w.immediates ++ [callback] }

/-- `this.chunks.push(chunk)` and `this.chunklen += chunk.length` -/
def pushChunk (p : FrameParser) (chunk : List UInt8) : FrameParser :=
  { p with chunks := p.chunks ++ [chunk], chunklen := p.chunklen + chunk.length }

/-- Take all chunks out of the parser. -/
def takeChunks (p : FrameParser) : List UInt8 × FrameParser :=
  (bufferConcat p.chunks p.chunklen, { p with chunks := [], chunklen := 0 })

/-- `this.socket.read()`: nothing is returned when nothing is left, otherwise up to `k + 1`
    bytes. -/
def socketRead (w : World) (k : Nat) : Option (List UInt8) × World :=
  if w.unread = [] then (none, w)
  else (some (w.unread.take (k + 1)), { w with unread := w.unread.drop (k + 1) })

/-- `getFrame` -/
def getFrame (w : World) (chunk : List UInt8) : World :=
  if chunk.length = w.parser.frame then
    setImmediate { w with parser := { w.parser with frame := 0 } } (.processFrame chunk)
  else
    let p := pushChunk w.parser (chunk.drop w.parser.frame)
    setImmediate { w with parser := { p with frame := 0 } }
      (.processFrame (chunk.take w.parser.frame))

/-- The part of `read` behind the header. -/
def readBody (w : World) (chunk : List UInt8) : World :=
  if w.parser.chunklen + chunk.length < w.parser.frame then
    setImmediate { w with parser := pushChunk w.parser chunk } .read
  else if w.parser.chunklen ≠ 0 then -- we have a full dataframe!
    let (chunk, p) := takeChunks (pushChunk w.parser chunk)
    getFrame { w with parser := p } chunk
  else getFrame w chunk

/-- The part of `read` at the header, once it is complete. -/
def readHeader (w : World) (chunk : List UInt8) : World :=
  let frame := readUInt32LE chunk
  let w := { w with parser := { w.parser with frame := frame } }
  if frame > MAX_ALLOWED_FRAME_SIZE then
    { w with errors := w.errors ++ [frame] }
  else if chunk.length > 4 then readBody w (chunk.drop 4)
  else setImmediate w .read

/-- The part of `read` that looks at a chunk. -/
def readChunk (w : World) (chunk : List UInt8) : World :=
  if w.parser.frame = 0 then
    if w.parser.chunklen + chunk.length < 4 then
      setImmediate { w with parser := pushChunk w.parser chunk } .read
    else if w.parser.chunklen ≠ 0 then
      let (chunk, p) := takeChunks (pushChunk w.parser chunk)
      readHeader { w with parser := p } chunk
    else readHeader w chunk
  else readBody w chunk

/-- `read`; `k` is for `socketRead`. -/
def read (w : World) (k : Nat) : World :=
  let w := { w with parser := { w.parser with processing := true } }
  if w.parser.frame = 0 ∧ w.parser.chunklen ≥ 4 then -- enough data already piled up
    let (chunk, p) := takeChunks w.parser
    readChunk { w with parser := p } chunk
  else
    match socketRead w k with
    | (none, w) => { w with parser := { w.parser with hasData := false, processing := false } }
    | (some chunk, w) => readChunk w chunk

/-- `processFrame` -/
def processFrame (w : World) (frame : List UInt8) : World :=
  { w with
    parser := { w.parser with id := w.parser.id + 1 }
    handlers := w.handlers + 1
    log := w.log ++ [.handler frame] }

/-- What can happen next; `k` is for `socketRead`. -/
inductive Event where
  | data (bytes : List UInt8)
  | readable (k : Nat)
  | immediate (k : Nat)
  | next (k : Nat)
deriving Repr, DecidableEq

/-- One turn of the event loop. -/
def step (w : World) : Event → Option World
  | .data bytes => some { w with arrived := w.arrived ++ bytes, unread := w.unread ++ bytes }
  | .readable k =>
    let w := { w with parser := { w.parser with hasData := true } }
    if w.parser.processing then some w else some (read w k)
  | .immediate k =>
    match w.immediates with
    | [] => none
    | .read :: rest => some (read { w with immediates := rest } k)
    | .processFrame frame :: rest => some (processFrame { w with immediates := rest } frame)
  | .next k =>
    match w.handlers with
    | 0 => none
    | n + 1 => some (read { w with handlers := n, log := w.log ++ [.next] } k)

end FrameParser

end ZoneMta
