/-!
# Child processes of a zone

`spawnSenders` and `spawnSender` of `lib/sending-zone.js`: the loops that start the sender processes
of a zone, and what the messages and the exit of a process do. A process is told by its number. A
loop is at one place: before `spawnNext` or before `spawnSender`, each behind a `setImmediate`, or
with the process whose startup it waits for, as long as that has not `returned`.
-/

namespace ZoneMta

/-- A zone of the master process: `live` has the processes that were forked and have not exited,
    and of the variables of `spawnSender` `returned`, `timers` and `messages` have the processes
    with `returned` set, with a `timer`, and without their 'message' listener. `nexts` and `forks`
    count the loops before `spawnNext` and `spawnSender`, `respawns` the timers that start a loop. -/
structure Spawner where
  processes : Nat
  disabled : Bool := false
  closing : Bool := false
  nextPid : Nat := 0
  children : List Nat := []
  live : List Nat := []
  returned : List Nat := []
  timers : List Nat := []
  messages : List Nat := []
  nexts : Nat := 0
  forks : Nat := 0
  respawns : Nat := 0
deriving Repr, DecidableEq

namespace Spawner

/-- Nothing is started any more. -/
def stopped (s : Spawner) : Bool := s.closing || s.disabled

/-- `spawnSenders` -/
def spawnSenders (s : Spawner) : Spawner :=
  if s.stopped then s else { s with nexts := s.nexts + 1 }

/-- `spawnNext` -/
def spawnNext (s : Spawner) : Spawner :=
  if s.processes ≤ s.children.length then s
  else if s.stopped then s
  else { s with forks := s.forks + 1 }

/-- `spawnSender` -/
def spawnSender (s : Spawner) : Spawner :=
  { s with
    nextPid := s.nextPid + 1
    live := s.live ++ [s.nextPid]
    timers := s.timers ++ [s.nextPid] }

/-- `clearTimeout`; a timer that fires is gone as well. -/
def clearTimeout (s : Spawner) (pid : Nat) : Spawner := { s with timers := s.timers.erase pid }

/-- `returned = true` -/
def setReturned (s : Spawner) (pid : Nat) : Spawner := { s with returned := s.returned ++ [pid] }

/-- The part of 'close' about `this.children`, and the timer that starts a loop again. -/
def exited (s : Spawner) (pid : Nat) : Spawner :=
  { s.clearTimeout pid with
    live := s.live.erase pid
    children := s.children.erase pid
    respawns := if s.closing then s.respawns else s.respawns + 1 }

/-- What can happen next. -/
inductive Event where
  /-- the `setImmediate` before `spawnNext` -/
  | next
  /-- the `setImmediate` before `spawnSender` -/
  | fork
  /-- the first message of a process, and whether it is the one about its startup -/
  | message (pid : Nat) (startup : Bool)
  /-- the timer of a startup -/
  | timeout (pid : Nat)
  /-- 'close': a process has exited -/
  | close (pid : Nat)
  /-- a loop starts again, five seconds after an exit -/
  | respawn
  /-- the queue is closing -/
  | stop
deriving Repr, DecidableEq

/-- The state after an event, and whether `spawnNext` is called then; `none` where the event cannot
    happen. -/
def handle (s : Spawner) : Event → Option (Spawner × Bool)
  | .next => if s.nexts = 0 then none else some ({ s with nexts := s.nexts - 1 }, true)
  | .fork => if s.forks = 0 then none else some ({ s with forks := s.forks - 1 }.spawnSender, false)
  | .message pid startup =>
    if s.nextPid ≤ pid ∨ pid ∈ s.messages then none
    else
      let s := { s with messages := s.messages ++ [pid] }
      if startup then
        let s := s.clearTimeout pid
        if pid ∈ s.returned then some (s, false)
        else some ({ s with children := s.children ++ [pid] }.setReturned pid, true)
      else some (s, false)
  | .timeout pid =>
    if pid ∈ s.timers then
      let s := s.clearTimeout pid
      -- the process is told to end, and nobody waits for it any more
      if pid ∈ s.returned then some (s, false) else some (s.setReturned pid, false)
    else none
  | .close pid =>
    if pid ∈ s.live then
      let s := s.exited pid
      if pid ∈ s.returned then some (s, false) else some (s.setReturned pid, true)
    else none
  | .respawn =>
    if s.respawns = 0 then none else some ({ s with respawns := s.respawns - 1 }.spawnSenders, false)
  | .stop => some ({ s with closing := true }, false)

/-- The state after an event, `none` where it cannot happen. -/
def step (s : Spawner) (e : Event) : Option Spawner :=
  (s.handle e).map fun (s, next) => if next then s.spawnNext else s

/-- The zone at its start. -/
def start (processes : Nat) (disabled : Bool) : Spawner :=
  { processes := processes, disabled := disabled : Spawner }.spawnSenders

end Spawner

end ZoneMta
