/-!
# ClamAV

The analyzer hook of `plugins/core/clamav/index.js`: what is read from the message goes to the
stream that ClamAV reads and to the destination. The source holds the chunks that were not read yet,
one for each `read`, and emits 'end' when all of them are read.
-/

namespace ZoneMta

namespace Clamav

/-- A stream that is written to. -/
structure Writable (Chunk : Type) where
  written : List Chunk := []
  ended : Bool := false
deriving Repr

namespace Writable

variable {Chunk : Type}

def write (stream : Writable Chunk) (chunk : Chunk) : Writable Chunk :=
  { stream with written := stream.written ++ [chunk] }

/-- `end()` -/
def close (stream : Writable Chunk) : Writable Chunk := { stream with ended := true }

end Writable

/-- A message on its way through the hook. `drainClam` and `drainDestination` are the 'drain' events
that are awaited. -/
structure State (Chunk : Type) where
  /-- all chunks that the source had so far -/
  produced : List Chunk := []
  /-- those that were not read yet -/
  source : List Chunk := []
  clamStream : Writable Chunk := {}
  destination : Writable Chunk := {}
  finished : Bool := false
  reading : Bool := false
  drainClam : Bool := false
  drainDestination : Bool := false
deriving Repr

/-- What can happen next. -/
inductive Event (Chunk : Type) where
  /-- the source gets a chunk -/
  | data (chunk : Chunk)
  | readable
  | sourceEnd
  | clamDrain
  | destinationDrain

section Hook

variable {Chunk : Type} (pressure : Nat → Bool × Bool)

/-- `readNext`, with the chunks that can be read. What the two streams answer to the `n`-th chunk is
`pressure n`: whether a 'drain' has to be awaited. -/
def readNext (s : State Chunk) : List Chunk → State Chunk
  | [] =>
    { s with
      clamStream := if s.finished then s.clamStream.close else s.clamStream
      reading := false }
  | chunk :: chunks =>
    let (drainClam, drainDestination) := pressure s.clamStream.written.length
    let s := { s with
      source := chunks, clamStream := s.clamStream.write chunk,
      destination := s.destination.write chunk, drainClam, drainDestination }
    -- canContinue
    if !drainClam && !drainDestination then readNext s chunks else s

/-- `canContinue` -/
def canContinue (s : State Chunk) : State Chunk :=
  if !s.drainClam && !s.drainDestination then readNext pressure s s.source else s

/-- The state after an event, `none` where it cannot happen. -/
def step (s : State Chunk) : Event Chunk → Option (State Chunk)
  | .data chunk =>
    if s.finished then none
    else some { s with produced := s.produced ++ [chunk], source := s.source ++ [chunk] }
  | .readable =>
    some (if s.reading then s else readNext pressure { s with reading := true } s.source)
  | .sourceEnd =>
    if s.finished || !s.source.isEmpty then none
    else
      let s := { s with finished := true }
      some (if s.reading then s
        else { s with clamStream := s.clamStream.close, destination := s.destination.close })
  | .clamDrain =>
    if s.drainClam then some (canContinue pressure { s with drainClam := false }) else none
  | .destinationDrain =>
    if s.drainDestination then
      some (canContinue pressure { s with drainDestination := false })
    else none

end Hook

end Clamav

end ZoneMta
