import Mathlib

/-!
# RspamdClient

The stream of `plugins/core/rspamd/rspamd-client.js`: a message passes through it, and is sent to
Rspamd on the way. The request, its response and the body that is written to it emit their events at
any time. The listeners of 'fail' and 'response' do not throw.
-/

namespace ZoneMta

namespace RspamdClient

/-- The handler of an 'error' of the request. -/
inductive ErrorHandler where
  /-- from the constructor -/
  | constructor
  /-- from `_flush` -/
  | flush
  /-- the error has been emitted -/
  | removed
deriving Repr, DecidableEq

inductive Emitted where
  | fail
  | response
deriving Repr, DecidableEq

structure State where
  /-- the chunks that were passed in -/
  input : List (List UInt8) := []
  pushed : List (List UInt8) := []
  /-- what was written to the request, whether it was ended -/
  body : List (List UInt8) := []
  bodyEnded : Bool := false
  bytesWritten : Nat := 0
  /-- `req.finished` -/
  finished : Bool := false
  /-- the callback of `_transform` is called at the next 'drain' of the body -/
  waiting : Bool := false
  onError : ErrorHandler := .constructor
  /-- the handler of 'end' is there -/
  onEnd : Bool := false
  /-- the response so far -/
  chunks : List (List UInt8) := []
  responseEnded : Bool := false
  responseFailed : Bool := false
  emitted : List Emitted := []
  flushed : Bool := false
  /-- how often the callback of `_flush` was called -/
  callbacks : Nat := 0
deriving Repr

/-- What can happen next. -/
inductive Event where
  /-- `_transform`; the body may be full with the chunk -/
  | transform (chunk : List UInt8) (full : Bool)
  /-- `_flush` -/
  | flush
  /-- 'drain' of the body -/
  | drain
  | responseData (chunk : List UInt8)
  | responseEnd
  | responseError
deriving Repr

section Client

variable (maxSize : Option ℚ) (parse : List UInt8 → Bool)

/-- `_transform` -/
def transform (s : State) (chunk : List UInt8) (full : Bool) : State :=
  let s := { s with input := s.input ++ [chunk] }
  if chunk.isEmpty then s
  else
    let s := { s with pushed := s.pushed ++ [chunk] }
    if s.finished then s
    else if maxSize.any fun size => size < ((s.bytesWritten + chunk.length : ℕ) : ℚ) then
      { s with finished := true, bodyEnded := true, emitted := s.emitted ++ [.fail] }
    else
      { s with
        bytesWritten := s.bytesWritten + chunk.length
        body := s.body ++ [chunk]
        waiting := full }

/-- `_flush` -/
def flush (s : State) : State :=
  let s := { s with flushed := true }
  if s.finished then { s with callbacks := s.callbacks + 1 }
  else { s with onError := .flush, onEnd := true, bodyEnded := true }

/-- The handlers of 'error'. The one of the constructor emits a 'drain' of the body. -/
def onError (s : State) : State :=
  match s.onError with
  | .constructor =>
    let s := { s with onError := .removed }
    if s.finished then s
    else { s with finished := true, emitted := s.emitted ++ [.fail], waiting := false }
  | .flush =>
    let s := { s with onError := .removed }
    if s.finished then s
    else
      { s with
        finished := true, emitted := s.emitted ++ [.fail], callbacks := s.callbacks + 1 }
  | .removed => s

/-- The handler of 'end'; `parse` says whether the response is taken for one. -/
def onEnd (s : State) : State :=
  if !s.onEnd || s.finished then s
  else
    { s with
      finished := true
      emitted := s.emitted ++ [if parse s.chunks.flatten then .response else .fail]
      callbacks := s.callbacks + 1 }

/-- The state after an event, `none` where it cannot happen: the chunks come one by one, and
`_flush` behind them. -/
def step (s : State) : Event → Option State
  | .transform chunk full =>
    if s.waiting || s.flushed then none else some (transform maxSize s chunk full)
  | .flush => if s.waiting || s.flushed then none else some (flush s)
  | .drain => some { s with waiting := false }
  | .responseData chunk =>
    if s.responseEnded then none else some { s with chunks := s.chunks ++ [chunk] }
  | .responseEnd =>
    if s.responseEnded then none else some (onEnd parse { s with responseEnded := true })
  | .responseError => some (onError { s with responseFailed := true })

end Client

end RspamdClient

end ZoneMta
