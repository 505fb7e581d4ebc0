import ZoneMta.Native.Master
import ZoneMta.Native.Sender

/-!
# Attempts

The master process together with its senders: what GET returns is a delivery for one call of
`sendNext` (`lib/sender.js`), and its RELEASE or DEFER goes back to the queue server. The
process of a sender ends when its connection does (`services/sender.js`), and the attempts that
it is at with it; the master process may end at any time and start again. The metadata of the
messages has no `_deferred`, and no hook changes `_deferred` or the list of defer times of a
delivery, which is the constant `times`.
-/

namespace ZoneMta

/-- The `deferTimes` of `handleResponseError`. -/
def Sender.deferTimes (config : SenderConfig) (delivery : SenderDelivery) : List Nat :=
  if delivery.deferTimes = [] then defaultDeferTimes config else delivery.deferTimes

/-- `delivery._deferred && delivery._deferred.count`, 0 if there is none -/
def Delivery.deferredCount (delivery : Delivery) : Nat :=
  (delivery._deferred.map (·.count)).getD 0

/-- A delivery that a sender was sent, and its call of `sendNext`. -/
structure Attempt where
  client : Nat
  delivery : Delivery
  _lock : String
  state : Sender.State
deriving Repr, DecidableEq

/-- An update of `deferDelivery`. -/
structure Deferral where
  id : String
  seq : String
  ttl : Nat
deriving Repr, DecidableEq

/-- The processes, the messages that were pushed, and the updates of `deferDelivery` that have
    taken effect. -/
structure Attempts where
  master : Master := {}
  attempts : List Attempt := []
  pushed : List String := []
  deferrals : List Deferral := []
deriving DecidableEq

namespace Attempts

/-- What can happen next. -/
inductive Event where
  | master (e : ZoneMta.Event)
  /-- a callback or event of a call of `sendNext` -/
  | sender (i : Nat) (e : Sender.Event)
  /-- the master process ends and starts again -/
  | restart
deriving Repr, DecidableEq

section

variable (cfg : Config) (config : SenderConfig) (times : List Nat)

/-- The delivery as the sender has it, after a hook. -/
def keeps (attempt : Attempt) (delivery : SenderDelivery) : Bool :=
  delivery.deferredCount == attempt.delivery.deferredCount &&
    Sender.deferTimes config delivery == times

/-- GET was answered with the delivery, and hooks keep it. -/
def allows (attempt : Attempt) : Sender.Event → Bool
  | .get (.delivery delivery) | .fetchHook _ delivery | .headersHook _ delivery
  | .responseErrorHook _ delivery => keeps config times attempt delivery
  | .get _ => false
  | _ => true

/-- A command of a sender at the queue server; BOUNCE is not about the queue. -/
def command (master : Master) (attempt : Attempt) : Sender.Command → Master
  | .release _ =>
    (master.step cfg (.request attempt.client attempt.delivery.id attempt.delivery.seq
      attempt._lock none)).getD master
  | .defer ttl _ =>
    (master.step cfg (.request attempt.client attempt.delivery.id attempt.delivery.seq
      attempt._lock (some ttl))).getD master
  | .bounce _ => master

/-- The attempts that start with what was sent. -/
def handed (before after : Master) : List Attempt :=
  (after.sent.drop before.sent.length).filterMap fun (client, response) =>
    match response with
    | .delivery delivery _lock _ => some ⟨client, delivery, _lock, Sender.sendNext⟩
    | _ => none

/-- The sender of the attempt is connected. -/
def connected (master : Master) (attempt : Attempt) : Bool :=
  (master.clients.lookup attempt.client).any (·.connected)

/-- A message is pushed once, and `push` counts its deliveries. -/
def pushes (s : Attempts) : ZoneMta.Event → Bool
  | .push id recipients =>
    !s.pushed.contains id && decide (recipients.map fun r => deliverySeq r.index).Nodup
  | _ => true

/-- The messages that were pushed after a step. -/
def pushedBy : ZoneMta.Event → List String
  | .push id _ => [id]
  | _ => []

/-- The update of `deferDelivery` that a call is. -/
def defers (db : Database) (choice : Nat) : Call → List Deferral
  | .defer id seq _ ttl _ =>
    ((pick (db.queue.filter (·.isFor id seq)) choice).map fun _ => ⟨id, seq, ttl⟩).toList
  | _ => []

/-- The update of `deferDelivery` that takes effect. -/
def deferredBy (master : Master) : ZoneMta.Event → List Deferral
  | .exec n choice outcome =>
    match master.tasks.lookup n with
    | some ⟨_, .call call⟩ => if outcome = .failed then [] else defers master.db choice call
    | _ => []
  | _ => []

/-- The master process after a new start: the connections, the locks and the requests are gone,
    and `init` of the queue has released the old locks in the database. -/
def restarted (master : Master) : Master :=
  { master with
    db := { master.db with queue := master.db.queue.map fun delivery =>
      if delivery.locked && delivery.assigned == cfg.instanceId then delivery.unlocked
      else delivery }
    locks := {}
    cache := ∅
    clients := ∅
    tasks := ∅
    uploads := master.uploads.filter (·.finished) }

/-- The state after an event, `none` where it cannot happen; RELEASE and DEFER come from the
    senders. -/
def step (s : Attempts) : Event → Option Attempts
  | .master (.request ..) => none
  | .master e =>
    if s.pushes e then
      (s.master.step cfg e).map fun master =>
        { master := master
          attempts := (s.attempts ++ handed s.master master).filter (connected master)
          pushed := s.pushed ++ pushedBy e
          deferrals := s.deferrals ++ deferredBy s.master e }
    else none
  | .sender i e =>
    s.attempts[i]?.bind fun attempt =>
      if allows config times attempt e then
        (Sender.step config attempt.state e).map fun state =>
          let commands := state.commands.drop attempt.state.commands.length
          { s with
            master := commands.foldl (fun master cmd => command cfg master attempt cmd) s.master
            attempts := s.attempts.set i { attempt with state := state } }
      else none
  | .restart => some { s with master := restarted cfg s.master, attempts := [] }

end

end Attempts

end ZoneMta
