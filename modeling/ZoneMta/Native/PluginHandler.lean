import ZoneMta.ForStd.AList
import ZoneMta.ForStd.Text

/-!
# Plugin handler

The hooks of plugins, in `lib/plugin-handler.js`: `addHook`, `runHooksAsync` and `runHooks`. The
handlers and the callback `done` belong to others, and what they do are the events. A handler
completes once: its callback is called, its promise is settled, or it throws.
-/

namespace ZoneMta

namespace PluginHandler

open ForStd (Map Text)

/-- What is registered to be run: a function, or something else. -/
inductive Action where
  | function (id : Nat)
  | other
deriving Repr, DecidableEq

/-- A registered hook. -/
structure Hook where
  title : String
  name : String
  action : Action
deriving Repr, DecidableEq

/-- An object that is thrown or rejected with. -/
structure ErrorObject where
  id : Nat
  /-- `none` where the property cannot be read as text -/
  name : Option String := some "Error"
  stack : String := ""
  category : String := ""
  source : String := ""
  sourceName : String := ""
  /-- properties cannot be set -/
  frozen : Bool := false
deriving Repr, DecidableEq

/-- A value that is thrown, rejected with, or passed to a callback. -/
inductive Value where
  /-- `undefined` or `null` -/
  | nullish
  | primitive (truthy : Bool)
  | object (err : ErrorObject)
  /-- the error of a statement that handles an error -/
  | typeError
deriving Repr, DecidableEq

namespace Value

def truthy : Value → Bool
  | nullish => false
  | primitive truthy => truthy
  | object _ | typeError => true

/-- The two are one value, or one object at two times. -/
def Same : Value → Value → Prop
  | object err, object err' => err.id = err'.id
  | v, w => v = w

instance (v w : Value) : Decidable (Same v w) := by
  cases v <;> cases w <;> exact inferInstanceAs (Decidable (_ = _))

end Value

/-- A line of the log: a hook failed. -/
structure LogEntry where
  title : String
  name : String
  stack : String
deriving Repr, DecidableEq

/-- `addHook` -/
def addHook (text : Text) (hooks : Map String (List Hook)) (title name : String)
    (action : Action) : Map String (List Hook) :=
  let name := text.normal name
  let hook := ⟨title, name, action⟩
  match hooks.lookup name with
  | none => hooks.insert name [hook]
  | some registered => hooks.insert name (registered ++ [hook])

/-- The test `/Error$/` on the name of what was thrown; `none` where the test throws. -/
def isError : Value → Option Bool
  | .nullish => none
  | .primitive _ => some false
  | .object err => err.name.map (·.endsWith "Error")
  | .typeError => some true

/-- The stack of what was thrown, for the log. -/
def stack : Value → String
  | .object err => err.stack
  | .typeError => "TypeError"
  | _ => "undefined"

/-- `err.category`, `err._source` and `err._sourceName` are set; `none` where that throws. -/
def decorate (hook : Hook) : Value → Option Value
  | .object err =>
    if err.frozen then none
    else some (.object { err with
      category := if err.category = "" then "plugin" else err.category,
      source := "PLUGIN", sourceName := hook.title })
  | .typeError => some .typeError
  | .nullish | .primitive _ => none

/-- What a handler returns. -/
inductive Returned where
  /-- a `Promise` -/
  | promise
  /-- a promise of another library -/
  | thenable
  | other
deriving Repr, DecidableEq

/-- Where a handler is, with the error that it failed with, if it has completed. -/
inductive Progress where
  /-- it runs -/
  | running
  /-- it runs and has called its callback -/
  | called (result : Option Value)
  /-- it has returned and will complete -/
  | returned (f : Returned)
  /-- it has completed, and so has the promise for it -/
  | settled (result : Option Value)
  /-- it has completed, and the promise for it is pending -/
  | unnoticed
deriving Repr, DecidableEq

/-- Where `runHooks` is. -/
inductive Phase where
  /-- the loop is at a hook, with the hooks that follow -/
  | handler (hook : Hook) (rest : List Hook) (progress : Progress)
  /-- the promise of `runHooksAsync` is fulfilled -/
  | fulfilled
  /-- `catch` will be called with a value -/
  | rejected (err : Value)
  | over
deriving Repr, DecidableEq

/-- What can be observed. -/
inductive Observation where
  | started (hook : Hook)
  | completed (hook : Hook) (result : Option Value)
  /-- `done` is called, with an error or without an argument -/
  | done (err : Option Value)
deriving Repr, DecidableEq

/-- A call of `runHooks`. -/
structure Call where
  phase : Phase := .fulfilled
  trace : List Observation := []
  log : List LogEntry := []
deriving Repr, DecidableEq

/-- How a call of `done` ends. -/
inductive Outcome where
  | returns
  | throws (err : Value)
  /-- it returns a promise that is rejected -/
  | rejects (err : Value)
deriving Repr, DecidableEq

/-- What can happen next. -/
inductive Event where
  /-- the handler calls its callback -/
  | callback (err : Value)
  /-- the handler throws -/
  | throws (err : Value)
  /-- the handler returns -/
  | returns (f : Returned)
  /-- the promise that the handler returned is fulfilled, or rejected with a value -/
  | settles (result : Option Value)
  /-- `await` continues -/
  | continues
  /-- `done` is called, and ends -/
  | done (outcome : Outcome)
deriving Repr, DecidableEq

namespace Call

/-- The handler completes, and is now somewhere else. -/
def complete (s : Call) (hook : Hook) (rest : List Hook) (result : Option Value)
    (progress : Progress) : Call :=
  { s with
    phase := .handler hook rest progress,
    trace := s.trace ++ [.completed hook result] }

/-- The loop goes on with the next hook that is a function. -/
def loop (s : Call) : List Hook → Call
  | [] => { s with phase := .fulfilled }
  | hook :: rest =>
    match hook.action with
    | .function _ =>
      { s with phase := .handler hook rest .running, trace := s.trace ++ [.started hook] }
    | .other => s.loop rest

/-- The block after an error of a handler. -/
def fail (s : Call) (hook : Hook) (err : Value) : Call :=
  match isError err with
  | none => { s with phase := .rejected .typeError }
  | some logged =>
    { s with
      phase := .rejected ((decorate hook err).getD .typeError),
      log := if logged then s.log ++ [⟨hook.title, hook.name, stack err⟩] else s.log }

/-- `done` is called. -/
def callDone (s : Call) (err : Option Value) (phase : Phase) : Call :=
  { s with phase := phase, trace := s.trace ++ [.done err] }

end Call

/-- The callback of a handler: an error, or success. -/
def result (err : Value) : Option Value := if err.truthy then some err else none

def step (s : Call) : Event → Option Call
  | .callback err =>
    match s.phase with
    | .handler hook rest .running => s.complete hook rest (result err) (.called (result err))
    | .handler hook rest (.returned f) =>
      if f = .promise then none
      else s.complete hook rest (result err) (.settled (result err))
    | _ => none
  | .throws err =>
    match s.phase with
    | .handler hook rest .running => s.complete hook rest (some err) (.settled (some err))
    | _ => none
  | .returns f =>
    match s.phase with
    | .handler hook rest .running => some { s with phase := .handler hook rest (.returned f) }
    -- `resolve(f)` has no effect any more
    | .handler hook rest (.called result) =>
      some { s with phase := .handler hook rest (.settled result) }
    | _ => none
  | .settles result =>
    match s.phase with
    | .handler hook rest (.returned .promise) => s.complete hook rest result (.settled result)
    -- not an `instanceof Promise`, nobody waits for it
    | .handler hook rest (.returned .thenable) => s.complete hook rest result .unnoticed
    | _ => none
  | .continues =>
    match s.phase with
    | .handler _ rest (.settled none) => s.loop rest
    | .handler hook _ (.settled (some err)) => s.fail hook err
    | _ => none
  | .done outcome =>
    match s.phase with
    | .fulfilled =>
      match outcome with
      | .returns => s.callDone none .over
      | .throws err | .rejects err => s.callDone none (.rejected err)
    -- an error of this call is an unhandled rejection
    | .rejected err => s.callDone (some err) .over
    | _ => none

/-- `runHooks`, up to the first handler. -/
def runHooks (text : Text) (hooks : Map String (List Hook)) (name : String) : Call :=
  Call.loop {} ((hooks.lookup (text.normal name)).getD [])

end PluginHandler

end ZoneMta
