import ZoneMta.Native.ConnectionPool

/-!
# Pool

The class of `lib/connection-pool.js` with its timers and the commands that it sends to the master
process. A connection is open until it closes by itself or is closed from outside, which is an
event; `quit` and `close` of `killConnection` lead to such an event. The time until a timer fires
is not fixed.
-/

namespace ZoneMta

open ForStd (Map)

namespace ConnectionPool

/-- An entry of a list, `conn`. -/
structure Conn where
  timer : Nat
  connection : Nat
deriving Repr, DecidableEq

/-- A `killTimer`, with what its callback refers to. -/
structure Timer where
  id : Nat
  connectionKey : String
  connection : Nat
deriving Repr, DecidableEq

inductive Metric where
  | connPoolSizeGauge
  | connReuseCounter
deriving Repr, DecidableEq

inductive Func where
  | inc
  | dec
deriving Repr, DecidableEq

/-- A `COUNTMETRICS` command. -/
structure Command where
  metric : Metric
  func : Func
deriving Repr, DecidableEq

/-- What became of an entry. -/
inductive Fate where
  | handedOut
  | discarded
  | killed
deriving Repr, DecidableEq

/-- A pool; `closed` are the connections that are not open. The history has the `commands` that
    were sent and the `fates` of entries, which are known by their timers. -/
structure Pool where
  connectionPool : Map String (List Conn) := ∅
  timers : List Timer := []
  nextTimer : Nat := 0
  closed : List Nat := []
  commands : List Command := []
  fates : List (Nat × Fate) := []
deriving DecidableEq

namespace Pool

/-- `has` -/
def has (s : Pool) (connectionKey : String) : Bool :=
  (s.connectionPool.lookup connectionKey).isSome

/-- The test in `getConnection`: connected, and neither closing nor destroyed. -/
def isOpen (s : Pool) (conn : Conn) : Bool := !s.closed.contains conn.connection

/-- `sendCommand` -/
def sendCommand (s : Pool) (metric : Metric) (func : Func) : Pool :=
  { s with commands := s.commands ++ [⟨metric, func⟩] }

/-- `clearTimeout`; a timer that fires is gone as well. -/
def clearTimeout (s : Pool) (timer : Nat) : Pool :=
  { s with timers := s.timers.filter (·.id != timer) }

/-- Something becomes of an entry. -/
def settle (s : Pool) (timer : Nat) (fate : Fate) : Pool :=
  { s with fates := s.fates ++ [(timer, fate)] }

/-- `delete` -/
def delete (s : Pool) (connectionKey : String) : Pool :=
  { s with connectionPool := s.connectionPool.erase connectionKey }

/-- `set` of the map. -/
def set (s : Pool) (connectionKey : String) (connList : List Conn) : Pool :=
  { s with connectionPool := s.connectionPool.insert connectionKey connList }

/-- `getConnection`: what it returns, and the pool behind it; `none` where it throws. -/
def getConnection (s : Pool) (connectionKey : String) : Option (Option Conn × Pool) :=
  match s.connectionPool.lookup connectionKey with
  | none => none -- there is no `connList.length`
  | some [] => some (none, s)
  | some (conn :: _) =>
    -- an array has no `size`, so the list counts as empty
    let s := (s.delete connectionKey).clearTimeout conn.timer
    if s.isOpen conn then
      some (some conn, ((s.sendCommand .connPoolSizeGauge .dec).sendCommand .connReuseCounter
        .inc).settle conn.timer .handedOut)
    else some (none, s.settle conn.timer .discarded)

/-- The callback of a `killTimer`. -/
def timeout (s : Pool) (timer : Timer) : Pool :=
  let s := s.clearTimeout timer.id
  let s :=
    match s.connectionPool.lookup timer.connectionKey with
    | none => s
    | some connList =>
      let connList := connList.eraseP fun conn : Conn => conn.connection = timer.connection
      if connList = [] then s.delete timer.connectionKey else s.set timer.connectionKey connList
  (s.sendCommand .connPoolSizeGauge .dec).settle timer.id .killed

/-- `add` -/
def add (s : Pool) (connectionKey : String) (connection : Nat) : Pool :=
  let conn : Conn := ⟨s.nextTimer, connection⟩
  let s : Pool :=
    { s with
      timers := s.timers ++ [⟨s.nextTimer, connectionKey, connection⟩]
      nextTimer := s.nextTimer + 1 }
  let s := s.sendCommand .connPoolSizeGauge .inc
  match s.connectionPool.lookup connectionKey with
  | some connList => s.set connectionKey (connList ++ [conn])
  | none => s.set connectionKey [conn]

/-- What can happen next. -/
inductive Event where
  | add (connectionKey : String) (connection : Nat)
  | getConnection (connectionKey : String)
  /-- a connection closes -/
  | close (connection : Nat)
  /-- a timer fires -/
  | timeout (timer : Nat)
deriving Repr, DecidableEq

/-- The state after an event, `none` where it cannot happen. -/
def step (s : Pool) : Event → Option Pool
  | .add connectionKey connection => some (s.add connectionKey connection)
  | .getConnection connectionKey =>
    match s.getConnection connectionKey with
    | some (_, s) => some s
    | none => some s
  | .close connection => some { s with closed := connection :: s.closed }
  | .timeout timer => (s.timers.find? (·.id == timer)).map s.timeout

/-- The guarded call of the sender: `has`, then `getConnection`. -/
def take (s : Pool) (connectionKey : String) : Option Conn × Pool :=
  if s.has connectionKey then (s.getConnection connectionKey).getD (none, s) else (none, s)

end Pool

end ConnectionPool

end ZoneMta
