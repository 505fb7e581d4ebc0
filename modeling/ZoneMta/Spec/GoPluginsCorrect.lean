import ZoneMta.Native.GoPlugins

/-!
# Registration of plugins

`RegisterPlugin` holds the mutex of the manager while the plugin registers its hooks, and
`RegisterHook` locks it again. So the calls return, and with them the hooks of the plugins are
there, as long as no plugin registers any.

## Key results

- `goes_registerPlugin`: how a call goes in an unlocked manager
- `registers_iff`: when all calls return with the hooks of the plugins
- `loadPlugins_builtin`: the built-in plugins
-/

namespace ZoneMta

namespace GoPlugins

variable {η : Type}

/-- The configuration of a plugin, empty by default. -/
def configOf (config : String → Option PluginConfig) (plugin : Plugin η) : PluginConfig :=
  (config plugin.name).getD []

/-- The hooks of a plugin for a type. -/
def Plugin.hooksOf (plugin : Plugin η) (config : PluginConfig) (t : HookType) : List η :=
  ((plugin.registerHooks config).1.filter (·.1 = t)).map (·.2)

/-- The plugins that are registered without an error. -/
def registered (plugins : List (Plugin η)) (errs : List (Option String)) : List (Plugin η) :=
  ((plugins.zip errs).filter (·.2 = none)).map (·.1)

/-- Every call returns, and then there are the hooks of the plugins that are registered, in
    order. -/
def Registers (config : String → Option PluginConfig) (plugins : List (Plugin η)) : Prop :=
  ∃ m errs, (Manager.new config).registerPlugins plugins = some (m, errs) ∧
    ∀ t, m.hooks t = (registered plugins errs).flatMap fun plugin =>
      plugin.hooksOf (configOf config plugin) t

/-- A plugin whose name is not taken, and whose initialization succeeds, registers no hooks. -/
def Quiet (config : String → Option PluginConfig) (names : List String) :
    List (Plugin η) → Prop
  | [] => True
  | plugin :: plugins =>
    if plugin.name ∈ names ∨ plugin.init (configOf config plugin) ≠ none then
      Quiet config names plugins
    else
      (plugin.registerHooks (configOf config plugin)).1 = [] ∧
        Quiet config
          (if (plugin.registerHooks (configOf config plugin)).2 = none then names ++ [plugin.name]
            else names) plugins

/-! ## A call -/

namespace Manager

/-- A hook cannot be registered while the mutex is locked. -/
theorem registerHook_of_locked {m : Manager η} (h : m.mu = true) (hook : HookType × η) :
    m.registerHook hook = none := by
  rw [registerHook, lock, h]
  rfl

/-- `RegisterHooks` returns in a locked manager only if it registers no hooks. -/
theorem foldlM_registerHook {m : Manager η} (h : m.mu = true) (hooks : List (HookType × η)) :
    hooks.foldlM registerHook m = if hooks = [] then some m else none := by
  cases hooks with
  | nil => rfl
  | cons hook hooks =>
    rw [List.foldlM_cons, registerHook_of_locked h]
    rfl

/-- A plugin that does not come to `RegisterHooks`. -/
def Skips (m : Manager η) (plugin : Plugin η) : Prop :=
  plugin.name ∈ m.plugins.map (·.name) ∨ plugin.init (m.pluginConfig plugin.name) ≠ none

/-- How a call goes in an unlocked manager. -/
inductive Goes (m : Manager η) (plugin : Plugin η) :
    Option (Manager η × Option String) → Prop
  | skips {err : String} (h : m.Skips plugin) : Goes m plugin (some (m, some err))
  | blocks (h : ¬m.Skips plugin)
    (hhooks : (plugin.registerHooks (m.pluginConfig plugin.name)).1 ≠ []) : Goes m plugin none
  | fails {err : String} (h : ¬m.Skips plugin)
    (hhooks : (plugin.registerHooks (m.pluginConfig plugin.name)).1 = [])
    (herr : (plugin.registerHooks (m.pluginConfig plugin.name)).2 ≠ none) :
    Goes m plugin (some (m, some err))
  | registers (h : ¬m.Skips plugin)
    (hhooks : (plugin.registerHooks (m.pluginConfig plugin.name)).1 = [])
    (herr : (plugin.registerHooks (m.pluginConfig plugin.name)).2 = none) :
    Goes m plugin (some ({ m with plugins := m.plugins ++ [plugin] }, none))

theorem unlock_lock {m : Manager η} (hmu : m.mu = false) :
    ({ m with mu := true } : Manager η).unlock = m := by
  cases m
  cases hmu
  rfl

theorem goes_registerPlugin {m : Manager η} (hmu : m.mu = false) (plugin : Plugin η) :
    Goes m plugin (m.registerPlugin plugin) := by
  have hlock : m.lock = some { m with mu := true } := by rw [lock, hmu]; rfl
  have hmem : m.plugins.any (·.name == plugin.name) = true ↔
      plugin.name ∈ m.plugins.map (·.name) := by
    simp [List.any_eq_true, List.mem_map]
  have hconfig : pluginConfig { m with mu := true } plugin.name = m.pluginConfig plugin.name := rfl
  rw [registerPlugin, hlock, Option.bind_some]
  split
  next hname =>
    rw [unlock_lock hmu]
    exact .skips (Or.inl (hmem.mp hname))
  next hname =>
    rw [hconfig]
    split
    next err herr =>
      rw [unlock_lock hmu]
      exact .skips (Or.inr (by simp [herr]))
    next hinit =>
      have hskips : ¬m.Skips plugin := by
        rintro (hmem' | hinit')
        · exact hname (hmem.mpr hmem')
        · exact hinit' hinit
      generalize hregister : plugin.registerHooks (m.pluginConfig plugin.name) = r
      obtain ⟨hooks, registerErr⟩ := r
      dsimp only
      rw [foldlM_registerHook rfl]
      by_cases hhooks : hooks = []
      · rw [if_pos hhooks, Option.map_some]
        cases registerErr with
        | some err =>
          rw [unlock_lock hmu]
          exact .fails hskips (by rw [hregister, hhooks]) (by simp [hregister])
        | none =>
          have hregistered : unlock { m with plugins := m.plugins ++ [plugin], mu := true } =
              { m with plugins := m.plugins ++ [plugin] } :=
            unlock_lock (m := { m with plugins := m.plugins ++ [plugin] }) hmu
          dsimp only
          rw [hregistered]
          exact .registers hskips (by rw [hregister, hhooks]) (by rw [hregister])
      · rw [if_neg hhooks]
        exact .blocks hskips (by rwa [hregister])

end Manager

/-! ## Calls one after the other -/

open Manager (Goes)

theorem registered_cons (plugin : Plugin η) (plugins : List (Plugin η)) (err : Option String)
    (errs : List (Option String)) :
    registered (plugin :: plugins) (err :: errs) =
      if err = none then plugin :: registered plugins errs else registered plugins errs := by
  rw [registered, List.zip_cons_cons, List.filter_cons]
  by_cases herr : err = none
  · rw [if_pos herr, if_pos (decide_eq_true herr), List.map_cons]
    rfl
  · rw [if_neg herr, if_neg (by simpa using herr)]
    rfl

/-- What `Quiet` says of the first plugin. -/
theorem quiet_cons (m : Manager η) (plugin : Plugin η) (plugins : List (Plugin η)) :
    Quiet m.config (m.plugins.map (·.name)) (plugin :: plugins) ↔
      (m.Skips plugin ∧ Quiet m.config (m.plugins.map (·.name)) plugins) ∨
      (¬m.Skips plugin ∧ (plugin.registerHooks (m.pluginConfig plugin.name)).1 = [] ∧
        Quiet m.config (if (plugin.registerHooks (m.pluginConfig plugin.name)).2 = none then
          (m.plugins ++ [plugin]).map (·.name) else m.plugins.map (·.name)) plugins) := by
  have hiff : (plugin.name ∈ m.plugins.map (·.name) ∨
      plugin.init (configOf m.config plugin) ≠ none) ↔ m.Skips plugin := Iff.rfl
  have hconfig : m.pluginConfig plugin.name = configOf m.config plugin := rfl
  rw [Quiet, hconfig, List.map_append, List.map_singleton]
  by_cases hskips : m.Skips plugin
  · rw [if_pos (hiff.mpr hskips)]
    simp [hskips]
  · rw [if_neg fun h => hskips (hiff.mp h)]
    simp [hskips]

/-- The calls return if no hooks are registered; then there are the hooks of before. -/
theorem registerPlugins_quiet {m : Manager η} (hmu : m.mu = false) {plugins : List (Plugin η)}
    (h : Quiet m.config (m.plugins.map (·.name)) plugins) :
    ∃ m' errs, m.registerPlugins plugins = some (m', errs) ∧ m'.hooks = m.hooks ∧
      ∀ plugin ∈ registered plugins errs,
        (plugin.registerHooks (configOf m.config plugin)).1 = [] := by
  induction plugins generalizing m with
  | nil => exact ⟨m, [], rfl, rfl, by simp [registered]⟩
  | cons plugin plugins ih =>
    have hgoes := Manager.goes_registerPlugin hmu plugin
    rw [Manager.registerPlugins]
    generalize m.registerPlugin plugin = r at hgoes ⊢
    rw [quiet_cons] at h
    cases hgoes with
    | @skips err hskips =>
      obtain ⟨-, hquiet⟩ := h.resolve_right fun hnot => hnot.1 hskips
      obtain ⟨m', errs, hrun, hhooks, hregistered⟩ := ih hmu hquiet
      refine ⟨m', some err :: errs, by simp [hrun], hhooks, ?_⟩
      rw [registered_cons]
      exact hregistered
    | blocks hskips hsome =>
      obtain ⟨-, hnone, -⟩ := h.resolve_left fun hskips' => hskips hskips'.1
      exact absurd hnone hsome
    | @fails err hskips hnone herr =>
      obtain ⟨-, -, hquiet⟩ := h.resolve_left fun hskips' => hskips hskips'.1
      rw [if_neg herr] at hquiet
      obtain ⟨m', errs, hrun, hhooks, hregistered⟩ := ih hmu hquiet
      refine ⟨m', some err :: errs, by simp [hrun], hhooks, ?_⟩
      rw [registered_cons]
      exact hregistered
    | registers hskips hnone herr =>
      obtain ⟨-, -, hquiet⟩ := h.resolve_left fun hskips' => hskips hskips'.1
      rw [if_pos herr] at hquiet
      obtain ⟨m', errs, hrun, hhooks, hregistered⟩ :=
        ih (m := { m with plugins := m.plugins ++ [plugin] }) hmu hquiet
      refine ⟨m', none :: errs, by simp [hrun], hhooks, ?_⟩
      rw [registered_cons, if_pos rfl]
      exact List.forall_mem_cons.mpr ⟨hnone, hregistered⟩

/-- A hook that is registered blocks the call. -/
theorem quiet_of_registerPlugins {m : Manager η} (hmu : m.mu = false) {plugins : List (Plugin η)}
    {r : Manager η × List (Option String)} (h : m.registerPlugins plugins = some r) :
    Quiet m.config (m.plugins.map (·.name)) plugins := by
  induction plugins generalizing m r with
  | nil => trivial
  | cons plugin plugins ih =>
    have hgoes := Manager.goes_registerPlugin hmu plugin
    rw [Manager.registerPlugins] at h
    generalize m.registerPlugin plugin = first at hgoes h
    obtain ⟨⟨m', err⟩, rfl, h⟩ := Option.bind_eq_some_iff.mp h
    obtain ⟨rest, hrest, -⟩ := Option.map_eq_some_iff.mp h
    rw [quiet_cons]
    cases hgoes with
    | skips hskips => exact Or.inl ⟨hskips, ih hmu hrest⟩
    | fails hskips hnone herr =>
      refine Or.inr ⟨hskips, hnone, ?_⟩
      rw [if_neg herr]
      exact ih hmu hrest
    | registers hskips hnone herr =>
      refine Or.inr ⟨hskips, hnone, ?_⟩
      rw [if_pos herr]
      exact ih (m := { m with plugins := m.plugins ++ [plugin] }) hmu hrest

/-- All calls return with the hooks of the plugins if and only if no hooks are registered. -/
theorem registers_iff (config : String → Option PluginConfig) (plugins : List (Plugin η)) :
    Registers config plugins ↔ Quiet config [] plugins := by
  constructor
  · rintro ⟨m, errs, hrun, -⟩
    exact quiet_of_registerPlugins rfl hrun
  · intro h
    obtain ⟨m, errs, hrun, hhooks, hregistered⟩ :=
      registerPlugins_quiet (m := Manager.new config) rfl h
    refine ⟨m, errs, hrun, fun t => ?_⟩
    rw [hhooks, eq_comm, Manager.new, List.flatMap_eq_nil_iff]
    intro plugin hplugin
    have hnone : (plugin.registerHooks (configOf config plugin)).1 = [] :=
      hregistered plugin hplugin
    rw [Plugin.hooksOf, hnone]
    rfl

/-- The plugin for default headers blocks the server. -/
theorem not_registers :
    ¬∀ (config : String → Option PluginConfig) (plugins : List (Plugin String)),
      Registers config plugins := by
  intro h
  obtain ⟨m, errs, hrun, -⟩ := h (fun _ => none) [defaultHeaders]
  exact nomatch hrun

/-! ## Plugins of the repository -/

/-- A plugin that registers a hook cannot be the first one. -/
theorem registerPlugin_new (config : String → Option PluginConfig) {plugin : Plugin η}
    (hinit : plugin.init (configOf config plugin) = none)
    (hhooks : (plugin.registerHooks (configOf config plugin)).1 ≠ []) :
    (Manager.new config).registerPlugin plugin = none := by
  have hgoes := Manager.goes_registerPlugin (m := Manager.new config) rfl plugin
  generalize (Manager.new config).registerPlugin plugin = r at hgoes ⊢
  cases hgoes with
  | skips hskips =>
    cases hskips with
    | inl hmem => exact nomatch hmem
    | inr hfails => exact absurd hinit hfails
  | blocks => rfl
  | fails _ hnone | registers _ hnone => exact absurd hnone hhooks

/-- The built-in plugins are loaded only if the one there is is disabled. -/
theorem loadPlugins_builtin (config : String → Option PluginConfig) :
    ((Manager.new config).loadPlugins builtinPlugins).isSome ↔
      (configOf config defaultHeaders).lookup "enabled" = some (.bool false) := by
  rw [builtinPlugins, Manager.loadPlugins,
    registerPlugin_new config rfl (List.cons_ne_nil _ _)]
  split
  next hdisabled => exact iff_of_true rfl hdisabled
  next henabled => exact iff_of_false Bool.false_ne_true henabled

/-- By default the message logger cannot be registered first. -/
theorem registerPlugin_messageLogger {config : String → Option PluginConfig}
    (h : configOf config messageLogger = []) :
    (Manager.new config).registerPlugin messageLogger = none := by
  apply registerPlugin_new config rfl
  rw [h]
  decide

end GoPlugins

end ZoneMta
