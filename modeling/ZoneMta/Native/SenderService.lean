import ZoneMta.Native.ZoneUpdate

/-!
# Sender process

The instances of `Sender` in a sender process, and what a reload of the configuration does to them
(`services/sender.js`). A `Set` is a list in the order in which its elements were added. The
connection to the queue server, and when a timer fires, are left out.
-/

namespace ZoneMta

/-- A sender process. `pending` counts the timers of `spawnConnections` that have not fired yet,
    `connections` is `zone.connections`, and `closed` has the senders that were told to close. -/
structure SenderService where
  connections : Nat
  zoneConnections : Nat
  zoneCounter : Nat := 0
  pending : Nat := 0
  senders : List Nat := []
  closed : List Nat := []
  closing : Bool := false
deriving Repr, DecidableEq

namespace SenderService

/-- `this.connections`, in `update` of the zone. -/
def zoneUpdate (connections : Nat) : Nat := ZoneState.orOne connections

/-- `spawnConnections` -/
def spawnConnections (s : SenderService) (count : Nat) : SenderService :=
  { s with pending := s.pending + count }

/-- The start of the process. -/
def start (connections : Nat) : SenderService :=
  let connections := zoneUpdate connections
  { connections := connections, zoneConnections := connections : SenderService }.spawnConnections
    connections

/-- The timer of `spawnConnections`. -/
def spawn (s : SenderService) : SenderService :=
  { s with
    pending := s.pending - 1
    zoneCounter := s.zoneCounter + 1
    senders := s.senders ++ [s.zoneCounter + 1] }

/-- `deletedSenders`: the loop over the set, where `i` counts up from 0. -/
def deletedSenders (s : SenderService) (connections : Nat) : List Nat :=
  (s.senders.zipIdx.filter fun (_, i) => connections < i).map (·.1)

/-- The handler of 'reload', with the new `connections` of the zone. -/
def reload (s : SenderService) (connections : Nat) : SenderService :=
  let s := { s with connections := zoneUpdate connections }
  if s.zoneConnections = s.connections then s
  else
    let s :=
      if s.zoneConnections < s.connections then
        s.spawnConnections (s.connections - s.zoneConnections)
      else
        let deletedSenders := s.deletedSenders s.connections
        { s with
          closed := s.closed ++ deletedSenders
          senders := s.senders.filter fun sender => !deletedSenders.contains sender }
    { s with zoneConnections := s.connections }

/-- The 'error' of a sender ends all of them. -/
def error (s : SenderService) : SenderService :=
  { s with closing := true, closed := s.closed ++ s.senders, senders := [] }

/-- What can happen next. -/
inductive Event where
  /-- a timer of `spawnConnections` fires -/
  | spawn
  | reload (connections : Nat)
  /-- a sender fails -/
  | error (sender : Nat)
deriving Repr, DecidableEq

/-- The state after an event, `none` where it cannot happen. -/
def step (s : SenderService) : Event → Option SenderService
  | .spawn => if s.pending = 0 then none else some s.spawn
  | .reload connections => some (s.reload connections)
  | .error sender => if sender ∈ s.senders then some s.error else none

end SenderService

end ZoneMta
