import ZoneMta.ForStd.AList

/-!
# Commands to the queue server

`sendCommand` and `queueClient.onData` of `services/sender.js` and `services/receiver.js`, which have
the same code: a sender or receiver process numbers its commands, and finds the callback of an answer
by the number in it. The connection delivers the messages of each side in their order. The server
answers what it has read, in any order, more than once, or never. A callback is told by the number
of the call of `sendCommand` it was given to. That the process sends HELLO first is left out, as it
has no number.
-/

namespace ZoneMta

/-- A message of the server, where no `error` is the empty string. -/
structure ServerAnswer (ρ : Type) where
  req : Nat
  error : String
  response : ρ
deriving Repr, DecidableEq

/-- The arguments of the callback: an error, or what the server has answered. -/
inductive CallbackResult (ρ : Type) where
  | error (message : String)
  | response (response : ρ)
deriving Repr, DecidableEq

def ServerAnswer.result {ρ : Type} (data : ServerAnswer ρ) : CallbackResult ρ :=
  if data.error = "" then .response data.response else .error data.error

/-- A process and its connection to the server: `toServer` and `toClient` have the messages that
    are under way, `received` the commands that the server has read, `scheduled` the callbacks behind
    a `setImmediate`, and `called` those that were called, with their arguments. -/
structure QueueClient (γ ρ : Type) where
  cmdId : Nat := 0
  calls : Nat := 0
  responseHandlers : ForStd.Map Nat Nat := ∅
  toServer : List (Nat × γ) := []
  received : List (Nat × γ) := []
  toClient : List (ServerAnswer ρ) := []
  scheduled : List (Nat × CallbackResult ρ) := []
  called : List (Nat × CallbackResult ρ) := []
  exited : Bool := false
deriving DecidableEq

namespace QueueClient

variable {γ ρ : Type}

/-- `++cmdId` of a number, which counts up to `2^53`. -/
def nextId (cmdId : Nat) : Nat := if cmdId < 2 ^ 53 then cmdId + 1 else cmdId

/-- `sendCommand` -/
def sendCommand (s : QueueClient γ ρ) (cmd : γ) : QueueClient γ ρ :=
  let id := nextId s.cmdId
  { s with
    cmdId := id
    calls := s.calls + 1
    responseHandlers := s.responseHandlers.insert id s.calls
    toServer := s.toServer ++ [(id, cmd)] }

/-- `queueClient.onData` -/
def onData (s : QueueClient γ ρ) (data : ServerAnswer ρ) : QueueClient γ ρ :=
  match s.responseHandlers.lookup data.req with
  | some callback =>
    { s with
      responseHandlers := s.responseHandlers.erase data.req
      scheduled := s.scheduled ++ [(callback, data.result)] }
  | none => s

/-- What can happen next. -/
inductive Event (γ ρ : Type) where
  /-- the process calls `sendCommand` -/
  | sendCommand (cmd : γ)
  /-- the server reads a command -/
  | receive
  /-- the server answers a command that it has read -/
  | answer (data : ServerAnswer ρ)
  /-- an answer arrives -/
  | onData
  /-- a `setImmediate` -/
  | callback
  /-- the connection closes, and the process exits -/
  | close
deriving Repr, DecidableEq

/-- The state after an event, `none` where it cannot happen. -/
def step (s : QueueClient γ ρ) : Event γ ρ → Option (QueueClient γ ρ)
  | .sendCommand cmd => if s.exited then none else some (s.sendCommand cmd)
  | .receive =>
    match s.toServer with
    | [] => none
    | request :: rest => some { s with toServer := rest, received := s.received ++ [request] }
  | .answer data =>
    if data.req ∈ s.received.map Prod.fst then some { s with toClient := s.toClient ++ [data] }
    else none
  | .onData =>
    match s.toClient with
    | [] => none
    | data :: rest => if s.exited then none else some ({ s with toClient := rest }.onData data)
  | .callback =>
    match s.scheduled with
    | [] => none
    | call :: rest =>
      if s.exited then none else some { s with scheduled := rest, called := s.called ++ [call] }
  | .close => some { s with exited := true }

end QueueClient

end ZoneMta
