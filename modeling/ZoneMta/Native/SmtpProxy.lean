import ZoneMta.ForStd.LiveSet

/-!
# Receiver processes of an interface

`spawnReceiver` and `connection` of `lib/receiver/smtp-proxy.js`: the master process listens on the
port of an interface and hands every socket to one of its child processes. A child is told by its
number. Logs are left out, and so is how `socketEnd` writes the message to the socket.
-/

namespace ZoneMta

/-- `SMTPProxy`. `selector` is the iterator of the children, if there is one. `spawns` and
    `respawns` count the calls of `spawnReceiver` behind a `setImmediate` and behind a timer. -/
structure SMTPProxy where
  processes : Nat
  closing : Bool := false
  nextChild : Nat := 0
  children : ForStd.LiveSet Nat := {}
  selector : Option Nat := none
  spawns : Nat := 0
  respawns : Nat := 0
deriving Repr, DecidableEq

namespace SMTPProxy

/-- What the master process does with children and sockets. -/
inductive Output where
  /-- a child process is started -/
  | fork (child : Nat)
  /-- `child.send` of the socket, which may throw -/
  | send (child : Nat) (sent : Bool)
  /-- `socketEnd` -/
  | socketEnd (message : String)
deriving Repr, DecidableEq

/-- `spawnReceiver` -/
def spawnReceiver (s : SMTPProxy) : SMTPProxy × List Output :=
  if s.processes ≤ s.children.size then (s, [])
  else
    let children := s.children.add s.nextChild
    ({ s with
        nextChild := s.nextChild + 1
        children := children
        spawns := if children.size < s.processes then s.spawns + 1 else s.spawns },
      [.fork s.nextChild])

/-- The next child of the selector, and the selector behind it: a selector at its end is replaced
    by a new one. -/
def select (s : SMTPProxy) : Option (Nat × Nat) :=
  match s.children.next (s.selector.getD 0) with
  | some value => some value
  | none => s.children.next 0

/-- `connection`, where `sent` says that `child.send` does not throw. -/
def connection (s : SMTPProxy) (sent : Bool) : SMTPProxy × List Output :=
  if s.children.size = 0 then (s, [.socketEnd "421 No free process to handle connection"])
  else
    match s.select with
    | none =>
      ({ s with selector := some 0 }, [.socketEnd "421 No free process to handle connection"])
    | some (child, selector) =>
      ({ s with selector := some selector },
        .send child sent ::
          if sent then [] else [.socketEnd "421 Failed to assign connection to child process"])

/-- The 'close' listener of a child. -/
def childClosed (s : SMTPProxy) (child : Nat) : SMTPProxy :=
  { s with
    children := s.children.delete child
    respawns := if s.closing then s.respawns else s.respawns + 1 }

/-- What can happen next. -/
inductive Event where
  /-- a `setImmediate` of `spawnReceiver` -/
  | spawn
  /-- a timer of `spawnReceiver`, five seconds after the end of a child -/
  | respawn
  /-- 'close': a child has ended -/
  | childClosed (child : Nat)
  /-- a client connects -/
  | connection (sent : Bool)
  /-- `close` -/
  | close
deriving Repr, DecidableEq

/-- The state after an event and what is done, `none` where the event cannot happen. -/
def step (s : SMTPProxy) : Event → Option (SMTPProxy × List Output)
  | .spawn => if s.spawns = 0 then none else some { s with spawns := s.spawns - 1 }.spawnReceiver
  | .respawn =>
    if s.respawns = 0 then none else some { s with respawns := s.respawns - 1 }.spawnReceiver
  | .childClosed child =>
    if child ∈ s.children.elems then some (s.childClosed child, []) else none
  | .connection sent => some (s.connection sent)
  | .close => some ({ s with closing := true }, [])

/-- The proxy of an interface with the option `processes`, behind the first `spawnReceiver`. -/
def start (processes : Nat) : SMTPProxy :=
  ({ processes := if processes = 0 then 1 else processes : SMTPProxy }).spawnReceiver.1

end SMTPProxy

end ZoneMta
