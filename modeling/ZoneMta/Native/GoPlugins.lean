import Mathlib

/-!
# Go plugin manager

`RegisterPlugin`, `RegisterHook` and `LoadBuiltinPlugins` of
`zone-mta-go/internal/plugin/manager.go`, with the plugins that are in the repository. A plugin is
given by what its methods return and by the calls of `RegisterHook` that they make. The mutex is
not re-entrant: a goroutine that locks it while it holds it waits for ever, which is `none`.
-/

namespace ZoneMta

namespace GoPlugins

/-- `HookType` -/
inductive HookType where
  | receive
  | queue
  | preSend
  | postSend
  | bounce
  | delivered
  | connection
  | other (name : String)
deriving Repr, DecidableEq

/-- A value in the configuration of a plugin; an item of a list that is no string is `none`. -/
inductive Setting where
  | bool (b : Bool)
  | list (items : List (Option String))
  | other
deriving Repr, DecidableEq

/-- The configuration of a plugin. -/
abbrev PluginConfig := List (String × Setting)

/-- `Plugin`: the errors of `Initialize` and of `RegisterHooks`, and the hooks that the latter
    registers, in order. -/
structure Plugin (η : Type) where
  name : String
  init : PluginConfig → Option String
  registerHooks : PluginConfig → List (HookType × η) × Option String

/-- `Manager`, with the plugins in the order of their registration. A configuration that is no map
    is missing. -/
structure Manager (η : Type) where
  plugins : List (Plugin η)
  hooks : HookType → List η
  config : String → Option PluginConfig
  mu : Bool

variable {η : Type}

namespace Manager

/-- `NewManager` -/
def new (config : String → Option PluginConfig) : Manager η where
  plugins := []
  hooks := fun _ => []
  config := config
  mu := false

/-- `mu.Lock` -/
def lock (m : Manager η) : Option (Manager η) := if m.mu then none else some { m with mu := true }

/-- `mu.Unlock` -/
def unlock (m : Manager η) : Manager η := { m with mu := false }

/-- The configuration of a plugin, empty by default. -/
def pluginConfig (m : Manager η) (name : String) : PluginConfig := (m.config name).getD []

/-- `RegisterHook` -/
def registerHook (m : Manager η) (hook : HookType × η) : Option (Manager η) :=
  m.lock.map fun m =>
    unlock { m with hooks := Function.update m.hooks hook.1 (m.hooks hook.1 ++ [hook.2]) }

/-- `RegisterPlugin`, with its error. -/
def registerPlugin (m : Manager η) (plugin : Plugin η) : Option (Manager η × Option String) :=
  m.lock.bind fun m =>
    if m.plugins.any (·.name == plugin.name) then
      some (m.unlock, some ("plugin " ++ plugin.name ++ " already registered"))
    else
      match plugin.init (m.pluginConfig plugin.name) with
      | some err =>
        some (m.unlock, some ("failed to initialize plugin " ++ plugin.name ++ ": " ++ err))
      | none =>
        let (hooks, registerErr) := plugin.registerHooks (m.pluginConfig plugin.name)
        (hooks.foldlM registerHook m).map fun m =>
          match registerErr with
          | some err =>
            (m.unlock, some ("failed to register hooks for plugin " ++ plugin.name ++ ": " ++ err))
          | none => (unlock { m with plugins := m.plugins ++ [plugin] }, none)

/-- Calls of `RegisterPlugin`, one after the other, with their errors. -/
def registerPlugins (m : Manager η) :
    List (Plugin η) → Option (Manager η × List (Option String))
  | [] => some (m, [])
  | plugin :: plugins =>
    (m.registerPlugin plugin).bind fun (m, err) =>
      (m.registerPlugins plugins).map fun (m, errs) => (m, err :: errs)

/-- `LoadBuiltinPlugins` for a list of plugins: it ends with the first error. -/
def loadPlugins (m : Manager η) : List (Plugin η) → Option (Manager η × Option String)
  | [] => some (m, none)
  | plugin :: plugins =>
    if (m.pluginConfig plugin.name).lookup "enabled" = some (.bool false) then m.loadPlugins plugins
    else
      (m.registerPlugin plugin).bind fun (m, err) =>
        if err.isSome then some (m, err) else m.loadPlugins plugins

end Manager

/-! ## Plugins -/

/-- `DefaultHeadersPlugin`; a hook is the name of its method. -/
def defaultHeaders : Plugin String where
  name := "default-headers"
  init := fun _ => none
  registerHooks := fun _ => ([(.queue, "addDefaultHeaders")], none)

/-- `BuiltinPlugins` -/
def builtinPlugins : List (Plugin String) := [defaultHeaders]

/-- The cases of `MessageLoggerPlugin.RegisterHooks`. -/
def messageLoggerHook (event : String) : Option (HookType × String) :=
  if event = "receive" then some (.receive, "logReceive")
  else if event = "queue" then some (.queue, "logQueue")
  else if event = "pre_send" then some (.preSend, "logPreSend")
  else if event = "post_send" then some (.postSend, "logPostSend")
  else if event = "delivered" then some (.delivered, "logDelivered")
  else if event = "bounced" then some (.bounce, "logBounced")
  else none

/-- `MessageLoggerPlugin`. -/
def messageLogger : Plugin String where
  name := "message-logger"
  init := fun _ => none
  registerHooks := fun config =>
    let enabled :=
      match config.lookup "enabled" with
      | some (.bool enabled) => enabled
      | _ => true
    let logEvents : List String :=
      match config.lookup "logEvents" with
      | some (.list events) => events.map (·.getD "")
      | _ => ["receive", "queue", "delivered", "bounced"]
    (if enabled then logEvents.filterMap messageLoggerHook else [], none)

end GoPlugins

end ZoneMta
