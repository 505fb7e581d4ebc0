import ZoneMta.Native.GoConfig

/-!
# Merging Go configurations

The documented rules: simple values and lists are replaced by the override, objects are merged
recursively, and what the override does not mention stays (`Overlaid`). `mergeConfigFile` sees
zero values only, so it follows the rules if and only if the document empties no string or number
that is set, mentions the four boolean settings that are on, and repeats every setting of the
interfaces, plugins and zones that it names (`Mergeable`).

## Key results

- `overlaid_mergeConfigFile_iff`: when the documented rules are followed
- `mergeConfigFile_empty_iff`: a document that sets nothing
- `loadMultipleFiles_enabled`: the API after a chain of files
-/

namespace ZoneMta

namespace GoConfig

open ForStd (Map insertAll lookup_insertAll mapValues lookup_mapValues)

/-! ## The documented rules -/

/-- A setting under the override. -/
def overlayField {α : Type} (base : α) (d : Option α) : α := d.getD base

def AppConfig.overlay (base : AppConfig Always) (d : AppConfig Option) : AppConfig Always where
  name := overlayField base.name d.name
  ident := overlayField base.ident d.ident
  user := overlayField base.user d.user
  group := overlayField base.group d.group

def MongoDBConfig.overlay (base : MongoDBConfig Always) (d : MongoDBConfig Option) :
    MongoDBConfig Always where
  uri := overlayField base.uri d.uri
  database := overlayField base.database d.database
  timeout := overlayField base.timeout d.timeout

def RedisConfig.overlay (base : RedisConfig Always) (d : RedisConfig Option) :
    RedisConfig Always where
  host := overlayField base.host d.host
  port := overlayField base.port d.port
  db := overlayField base.db d.db
  timeout := overlayField base.timeout d.timeout

def DatabasesConfig.overlay (base : DatabasesConfig Always) (d : DatabasesConfig Option) :
    DatabasesConfig Always where
  mongodb := base.mongodb.overlay d.mongodb
  redis := base.redis.overlay d.redis

def QueueConfig.overlay (base : QueueConfig Always) (d : QueueConfig Option) :
    QueueConfig Always where
  instanceId := overlayField base.instanceId d.instanceId
  collection := overlayField base.collection d.collection
  gridfsCollection := overlayField base.gridfsCollection d.gridfsCollection
  disableGC := overlayField base.disableGC d.disableGC
  defaultZone := overlayField base.defaultZone d.defaultZone
  maxQueueTime := overlayField base.maxQueueTime d.maxQueueTime
  logQueuePolling := overlayField base.logQueuePolling d.logQueuePolling

def SMTPInterfaceConfig.overlay (base : SMTPInterfaceConfig Always)
    (d : SMTPInterfaceConfig Option) : SMTPInterfaceConfig Always where
  enabled := overlayField base.enabled d.enabled
  port := overlayField base.port d.port
  host := overlayField base.host d.host
  secure := overlayField base.secure d.secure
  authentication := overlayField base.authentication d.authentication
  maxConnections := overlayField base.maxConnections d.maxConnections
  maxRecipients := overlayField base.maxRecipients d.maxRecipients
  disableSTARTTLS := overlayField base.disableSTARTTLS d.disableSTARTTLS

def APIConfig.overlay (base : APIConfig Always) (d : APIConfig Option) : APIConfig Always where
  enabled := overlayField base.enabled d.enabled
  port := overlayField base.port d.port
  host := overlayField base.host d.host
  maxRecipients := overlayField base.maxRecipients d.maxRecipients

def LoggingConfig.overlay (base : LoggingConfig Always) (d : LoggingConfig Option) :
    LoggingConfig Always where
  level := overlayField base.level d.level
  format := overlayField base.format d.format

def MetricsConfig.overlay (base : MetricsConfig Always) (d : MetricsConfig Option) :
    MetricsConfig Always where
  enabled := overlayField base.enabled d.enabled
  port := overlayField base.port d.port
  path := overlayField base.path d.path

def SendingZoneConfig.overlay (base : SendingZoneConfig Always) (d : SendingZoneConfig Option) :
    SendingZoneConfig Always where
  name := overlayField base.name d.name
  connections := overlayField base.connections d.connections
  connectionTime := overlayField base.connectionTime d.connectionTime
  throttling := overlayField base.throttling d.throttling
  poolConnections := overlayField base.poolConnections d.poolConnections

def PerformanceConfig.overlay (base : PerformanceConfig Always) (d : PerformanceConfig Option) :
    PerformanceConfig Always where
  maxConnections := overlayField base.maxConnections d.maxConnections
  workerCount := overlayField base.workerCount d.workerCount
  bufferSize := overlayField base.bufferSize d.bufferSize

/-- An entry of a map under the override; a new entry has zero values where nothing is said. -/
def overlayEntry {α β : Type} (unmarshal : α → β) (overlay : β → α → β) :
    Option β → Option α → Option β
  | base, none => base
  | none, some d => some (unmarshal d)
  | some base, some d => some (overlay base d)

/-! ### Plugins -/

/-- The value at a path of keys. -/
def Yaml.get? : Yaml → List String → Option Yaml
  | v, [] => some v
  | .mapping entries, key :: path => (entries.lookup key).bind (·.get? path)
  | _, _ :: _ => none

/-- The value is an object. -/
def Yaml.isMapping : Yaml → Bool
  | .mapping _ => true
  | _ => false

/-- The same value, or both are objects. -/
def Yaml.Agrees (v w : Yaml) : Prop :=
  w.isMapping = v.isMapping ∧ (v.isMapping = false → w = v)

/-- The value of a plugin at a path of keys. -/
def pluginSetting (plugins : Map String Yaml) (name : String) (path : List String) :
    Option Yaml :=
  (plugins.lookup name).bind (·.get? path)

/-- The path has a value, or lies below one that is no object. -/
def Mentions (plugins : Map String Yaml) (name : String) (path : List String) : Prop :=
  ∃ above v, above <+: path ∧ pluginSetting plugins name above = some v ∧
    (above = path ∨ v.isMapping = false)

/-- The settings of the plugins follow the override where it mentions them, and stay where it does
    not. -/
structure PluginsOverlaid (base d merged : Map String Yaml) : Prop where
  present : ∀ name path v, pluginSetting d name path = some v →
    ∃ w, pluginSetting merged name path = some w ∧ v.Agrees w
  absent : ∀ name path v, ¬Mentions d name path → pluginSetting base name path = some v →
    ∃ w, pluginSetting merged name path = some w ∧ v.Agrees w

/-- The documented rules. -/
structure Overlaid (base : Config Always) (d : Config Option) (merged : Config Always) : Prop where
  app : merged.app = base.app.overlay d.app
  databases : merged.databases = base.databases.overlay d.databases
  queue : merged.queue = base.queue.overlay d.queue
  interfaces : ∀ name, merged.interfaces.lookup name =
    overlayEntry SMTPInterfaceConfig.unmarshal SMTPInterfaceConfig.overlay
      (base.interfaces.lookup name) (d.interfaces.lookup name)
  api : merged.api = base.api.overlay d.api
  logging : merged.logging = base.logging.overlay d.logging
  metrics : merged.metrics = base.metrics.overlay d.metrics
  plugins : PluginsOverlaid base.plugins d.plugins merged.plugins
  sendingZones : ∀ name, merged.sendingZones.lookup name =
    overlayEntry SendingZoneConfig.unmarshal SendingZoneConfig.overlay
      (base.sendingZones.lookup name) (d.sendingZones.lookup name)
  performance : merged.performance = base.performance.overlay d.performance

/-! ## When they are followed -/

/-- The document does not give the zero value to a setting that has another one. -/
def NotEmptied {α : Type} [Inhabited α] (base : α) (d : Option α) : Prop :=
  d = some default → base = default

/-- The document gives every setting that does not have its zero value. -/
def NotForgotten {α : Type} [Inhabited α] (base : α) (d : Option α) : Prop :=
  d = none → base = default

theorem mergeField_eq_iff {α : Type} [Inhabited α] [DecidableEq α] (base : α) (d : Option α) :
    mergeField base (unmarshalField d) = overlayField base d ↔ NotEmptied base d := by
  cases d with
  | none => simp [mergeField, unmarshalField, overlayField, NotEmptied]
  | some v =>
    by_cases hv : v = default
    · subst hv
      simp [mergeField, unmarshalField, overlayField, NotEmptied]
    · simp [mergeField, unmarshalField, overlayField, NotEmptied, hv]

theorem unmarshalField_eq_iff {α : Type} [Inhabited α] (base : α) (d : Option α) :
    unmarshalField d = overlayField base d ↔ NotForgotten base d := by
  cases d with
  | none => exact ⟨fun h _ => h.symm, fun h => (h rfl).symm⟩
  | some v => exact ⟨fun _ h => (nomatch h), fun _ => rfl⟩

def AppConfig.Mergeable (base : AppConfig Always) (d : AppConfig Option) : Prop :=
  NotEmptied base.name d.name ∧ NotEmptied base.ident d.ident ∧ NotEmptied base.user d.user ∧
    NotEmptied base.group d.group

def MongoDBConfig.Mergeable (base : MongoDBConfig Always) (d : MongoDBConfig Option) : Prop :=
  NotEmptied base.uri d.uri ∧ NotEmptied base.database d.database ∧
    NotEmptied base.timeout d.timeout

def RedisConfig.Mergeable (base : RedisConfig Always) (d : RedisConfig Option) : Prop :=
  NotEmptied base.host d.host ∧ NotEmptied base.port d.port ∧ NotEmptied base.db d.db ∧
    NotEmptied base.timeout d.timeout

def DatabasesConfig.Mergeable (base : DatabasesConfig Always) (d : DatabasesConfig Option) :
    Prop :=
  base.mongodb.Mergeable d.mongodb ∧ base.redis.Mergeable d.redis

def QueueConfig.Mergeable (base : QueueConfig Always) (d : QueueConfig Option) : Prop :=
  NotEmptied base.instanceId d.instanceId ∧ NotEmptied base.collection d.collection ∧
    NotEmptied base.gridfsCollection d.gridfsCollection ∧
    NotForgotten base.disableGC d.disableGC ∧ NotEmptied base.defaultZone d.defaultZone ∧
    NotEmptied base.maxQueueTime d.maxQueueTime ∧
    NotForgotten base.logQueuePolling d.logQueuePolling

def SMTPInterfaceConfig.Mergeable (base : SMTPInterfaceConfig Always)
    (d : SMTPInterfaceConfig Option) : Prop :=
  NotForgotten base.enabled d.enabled ∧ NotForgotten base.port d.port ∧
    NotForgotten base.host d.host ∧ NotForgotten base.secure d.secure ∧
    NotForgotten base.authentication d.authentication ∧
    NotForgotten base.maxConnections d.maxConnections ∧
    NotForgotten base.maxRecipients d.maxRecipients ∧
    NotForgotten base.disableSTARTTLS d.disableSTARTTLS

def APIConfig.Mergeable (base : APIConfig Always) (d : APIConfig Option) : Prop :=
  NotForgotten base.enabled d.enabled ∧ NotEmptied base.port d.port ∧
    NotEmptied base.host d.host ∧ NotEmptied base.maxRecipients d.maxRecipients

def LoggingConfig.Mergeable (base : LoggingConfig Always) (d : LoggingConfig Option) : Prop :=
  NotEmptied base.level d.level ∧ NotEmptied base.format d.format

def MetricsConfig.Mergeable (base : MetricsConfig Always) (d : MetricsConfig Option) : Prop :=
  NotForgotten base.enabled d.enabled ∧ NotEmptied base.port d.port ∧
    NotEmptied base.path d.path

def SendingZoneConfig.Mergeable (base : SendingZoneConfig Always) (d : SendingZoneConfig Option) :
    Prop :=
  NotForgotten base.name d.name ∧ NotForgotten base.connections d.connections ∧
    NotForgotten base.connectionTime d.connectionTime ∧
    NotForgotten base.throttling d.throttling ∧
    NotForgotten base.poolConnections d.poolConnections

def PerformanceConfig.Mergeable (base : PerformanceConfig Always) (d : PerformanceConfig Option) :
    Prop :=
  NotEmptied base.maxConnections d.maxConnections ∧ NotEmptied base.workerCount d.workerCount ∧
    NotEmptied base.bufferSize d.bufferSize

/-- The entries that the document names are mergeable. -/
def EntriesMergeable {α β : Type} (mergeable : β → α → Prop) (base : Map String β)
    (d : Map String α) : Prop :=
  ∀ name b o, base.lookup name = some b → d.lookup name = some o → mergeable b o

/-- The document mentions every setting of the plugins that it names. -/
def PluginsMergeable (base d : Map String Yaml) : Prop :=
  ∀ name path, (d.lookup name).isSome = true → (pluginSetting base name path).isSome = true →
    Mentions d name path

/-- The documents that are merged by the documented rules. -/
structure Mergeable (base : Config Always) (d : Config Option) : Prop where
  app : base.app.Mergeable d.app
  databases : base.databases.Mergeable d.databases
  queue : base.queue.Mergeable d.queue
  interfaces : EntriesMergeable SMTPInterfaceConfig.Mergeable base.interfaces d.interfaces
  api : base.api.Mergeable d.api
  logging : base.logging.Mergeable d.logging
  metrics : base.metrics.Mergeable d.metrics
  plugins : PluginsMergeable base.plugins d.plugins
  sendingZones : EntriesMergeable SendingZoneConfig.Mergeable base.sendingZones d.sendingZones
  performance : base.performance.Mergeable d.performance

/-! ## Sections -/

theorem AppConfig.merge_eq_iff (base : AppConfig Always) (d : AppConfig Option) :
    base.merge d.unmarshal = base.overlay d ↔ base.Mergeable d := by
  simp only [merge, unmarshal, overlay, Mergeable, AppConfig.mk.injEq, mergeField_eq_iff]

theorem MongoDBConfig.merge_eq_iff (base : MongoDBConfig Always) (d : MongoDBConfig Option) :
    base.merge d.unmarshal = base.overlay d ↔ base.Mergeable d := by
  simp only [merge, unmarshal, overlay, Mergeable, MongoDBConfig.mk.injEq, mergeField_eq_iff]

theorem RedisConfig.merge_eq_iff (base : RedisConfig Always) (d : RedisConfig Option) :
    base.merge d.unmarshal = base.overlay d ↔ base.Mergeable d := by
  simp only [merge, unmarshal, overlay, Mergeable, RedisConfig.mk.injEq, mergeField_eq_iff]

theorem DatabasesConfig.merge_eq_iff (base : DatabasesConfig Always) (d : DatabasesConfig Option) :
    base.merge d.unmarshal = base.overlay d ↔ base.Mergeable d := by
  simp only [merge, unmarshal, overlay, Mergeable, DatabasesConfig.mk.injEq,
    MongoDBConfig.merge_eq_iff, RedisConfig.merge_eq_iff]

theorem QueueConfig.merge_eq_iff (base : QueueConfig Always) (d : QueueConfig Option) :
    base.merge d.unmarshal = base.overlay d ↔ base.Mergeable d := by
  simp only [merge, unmarshal, overlay, Mergeable, QueueConfig.mk.injEq, mergeField_eq_iff,
    unmarshalField_eq_iff]

theorem SMTPInterfaceConfig.unmarshal_eq_iff (base : SMTPInterfaceConfig Always)
    (d : SMTPInterfaceConfig Option) : d.unmarshal = base.overlay d ↔ base.Mergeable d := by
  simp only [unmarshal, overlay, Mergeable, SMTPInterfaceConfig.mk.injEq, unmarshalField_eq_iff]

theorem APIConfig.merge_eq_iff (base : APIConfig Always) (d : APIConfig Option) :
    base.merge d.unmarshal = base.overlay d ↔ base.Mergeable d := by
  simp only [merge, unmarshal, overlay, Mergeable, APIConfig.mk.injEq, mergeField_eq_iff,
    unmarshalField_eq_iff]

theorem LoggingConfig.merge_eq_iff (base : LoggingConfig Always) (d : LoggingConfig Option) :
    base.merge d.unmarshal = base.overlay d ↔ base.Mergeable d := by
  simp only [merge, unmarshal, overlay, Mergeable, LoggingConfig.mk.injEq, mergeField_eq_iff]

theorem MetricsConfig.merge_eq_iff (base : MetricsConfig Always) (d : MetricsConfig Option) :
    base.merge d.unmarshal = base.overlay d ↔ base.Mergeable d := by
  simp only [merge, unmarshal, overlay, Mergeable, MetricsConfig.mk.injEq, mergeField_eq_iff,
    unmarshalField_eq_iff]

theorem SendingZoneConfig.unmarshal_eq_iff (base : SendingZoneConfig Always)
    (d : SendingZoneConfig Option) : d.unmarshal = base.overlay d ↔ base.Mergeable d := by
  simp only [unmarshal, overlay, Mergeable, SendingZoneConfig.mk.injEq, unmarshalField_eq_iff]

theorem PerformanceConfig.merge_eq_iff (base : PerformanceConfig Always)
    (d : PerformanceConfig Option) :
    base.merge d.unmarshal = base.overlay d ↔ base.Mergeable d := by
  simp only [merge, unmarshal, overlay, Mergeable, PerformanceConfig.mk.injEq, mergeField_eq_iff]

/-! ## Maps -/

/-- An entry of the document replaces that of the base, so the two have to agree. -/
theorem insertAll_eq_overlayEntry_iff {α β : Type} {unmarshal : α → β} {overlay : β → α → β}
    {mergeable : β → α → Prop} (h : ∀ b o, unmarshal o = overlay b o ↔ mergeable b o)
    (base : Map String β) (d : Map String α) :
    (∀ name, (insertAll base (mapValues unmarshal d)).lookup name =
        overlayEntry unmarshal overlay (base.lookup name) (d.lookup name)) ↔
      EntriesMergeable mergeable base d := by
  simp only [lookup_insertAll, lookup_mapValues]
  constructor
  · intro hall name b o hb ho
    have hname := hall name
    rw [hb, ho] at hname
    exact (h b o).mp (Option.some.inj hname)
  · intro hall name
    cases ho : d.lookup name with
    | none =>
      cases base.lookup name <;> rfl
    | some o =>
      cases hb : base.lookup name with
      | none => rfl
      | some b =>
        show some (unmarshal o) = some (overlay b o)
        rw [(h b o).mpr (hall name b o hb ho)]

theorem Yaml.Agrees.refl (v : Yaml) : v.Agrees v := ⟨rfl, fun _ => rfl⟩

/-- A plugin of the document replaces that of the base. -/
theorem pluginsOverlaid_iff (base d : Map String Yaml) :
    PluginsOverlaid base d (insertAll base d) ↔ PluginsMergeable base d := by
  have hnew : ∀ name path, (d.lookup name).isSome = true →
      pluginSetting (insertAll base d) name path = pluginSetting d name path := by
    intro name path hd
    obtain ⟨v, hv⟩ := Option.isSome_iff_exists.mp hd
    rw [pluginSetting, pluginSetting, lookup_insertAll, hv, Option.some_or]
  constructor
  · intro h name path hd hbase
    by_contra hmentions
    obtain ⟨v, hv⟩ := Option.isSome_iff_exists.mp hbase
    obtain ⟨w, hw, _⟩ := h.absent name path v hmentions hv
    -- the setting can only come from the document
    rw [hnew name path hd] at hw
    exact hmentions ⟨path, w, List.prefix_rfl, hw, Or.inl rfl⟩
  · intro h
    refine ⟨fun name path v hv => ?_, fun name path v hmentions hv => ?_⟩
    · have hd : (d.lookup name).isSome = true := by
        obtain ⟨w, hw, _⟩ := Option.bind_eq_some_iff.mp hv
        rw [hw]
        rfl
      exact ⟨v, (hnew name path hd).trans hv, Yaml.Agrees.refl v⟩
    · have hd : d.lookup name = none := by
        by_contra hd
        refine hmentions (h name path (Option.isSome_iff_ne_none.mpr hd) ?_)
        rw [hv]
        rfl
      refine ⟨v, ?_, Yaml.Agrees.refl v⟩
      rw [pluginSetting, lookup_insertAll, hd, Option.none_or]
      exact hv

/-! ## Files -/

/-- The documented rules are followed if and only if the document is mergeable. -/
theorem overlaid_mergeConfigFile_iff (base : Config Always) (d : Config Option) :
    Overlaid base d (mergeConfigFile base d) ↔ Mergeable base d := by
  have hinterfaces := insertAll_eq_overlayEntry_iff SMTPInterfaceConfig.unmarshal_eq_iff
    base.interfaces d.interfaces
  have hzones := insertAll_eq_overlayEntry_iff SendingZoneConfig.unmarshal_eq_iff
    base.sendingZones d.sendingZones
  constructor
  · intro h
    exact {
      app := (AppConfig.merge_eq_iff base.app d.app).mp h.app
      databases := (DatabasesConfig.merge_eq_iff base.databases d.databases).mp h.databases
      queue := (QueueConfig.merge_eq_iff base.queue d.queue).mp h.queue
      interfaces := hinterfaces.mp h.interfaces
      api := (APIConfig.merge_eq_iff base.api d.api).mp h.api
      logging := (LoggingConfig.merge_eq_iff base.logging d.logging).mp h.logging
      metrics := (MetricsConfig.merge_eq_iff base.metrics d.metrics).mp h.metrics
      plugins := (pluginsOverlaid_iff base.plugins d.plugins).mp h.plugins
      sendingZones := hzones.mp h.sendingZones
      performance :=
        (PerformanceConfig.merge_eq_iff base.performance d.performance).mp h.performance }
  · intro h
    exact {
      app := (AppConfig.merge_eq_iff base.app d.app).mpr h.app
      databases := (DatabasesConfig.merge_eq_iff base.databases d.databases).mpr h.databases
      queue := (QueueConfig.merge_eq_iff base.queue d.queue).mpr h.queue
      interfaces := hinterfaces.mpr h.interfaces
      api := (APIConfig.merge_eq_iff base.api d.api).mpr h.api
      logging := (LoggingConfig.merge_eq_iff base.logging d.logging).mpr h.logging
      metrics := (MetricsConfig.merge_eq_iff base.metrics d.metrics).mpr h.metrics
      plugins := (pluginsOverlaid_iff base.plugins d.plugins).mpr h.plugins
      sendingZones := hzones.mpr h.sendingZones
      performance :=
        (PerformanceConfig.merge_eq_iff base.performance d.performance).mpr h.performance }

/-- A document that sets nothing. -/
def emptyDocument : Config Option where
  app := ⟨none, none, none, none⟩
  databases := ⟨⟨none, none, none⟩, ⟨none, none, none, none⟩⟩
  queue := ⟨none, none, none, none, none, none, none⟩
  interfaces := ∅
  api := ⟨none, none, none, none⟩
  logging := ⟨none, none⟩
  metrics := ⟨none, none, none⟩
  plugins := ∅
  sendingZones := ∅
  performance := ⟨none, none, none⟩

/-- The document switches the API off. -/
theorem not_overlaid_emptyDocument :
    ¬∀ (base : Config Always) (d : Config Option), Overlaid base d (mergeConfigFile base d) := by
  intro h
  have hrules := h { load emptyDocument with api := ⟨true, 8080, "127.0.0.1", 100⟩ } emptyDocument
  have henabled : false = true := congrArg APIConfig.enabled hrules.api
  exact absurd henabled (by decide)

/-- A document that sets nothing leaves the configuration as it is if and only if none of the four
    settings is on. -/
theorem mergeConfigFile_empty_iff (base : Config Always) :
    mergeConfigFile base emptyDocument = base ↔
      base.queue.disableGC = false ∧ base.queue.logQueuePolling = false ∧
        base.api.enabled = false ∧ base.metrics.enabled = false := by
  constructor
  · intro h
    exact ⟨(congrArg (·.queue.disableGC) h).symm, (congrArg (·.queue.logQueuePolling) h).symm,
      (congrArg (·.api.enabled) h).symm, (congrArg (·.metrics.enabled) h).symm⟩
  · intro h
    obtain ⟨hgc, hlog, hapi, hmetrics⟩ := h
    have hnone : ∀ {α : Type} [Inhabited α] (base : α), NotEmptied base none :=
      fun base h => nomatch h
    have happ : base.app.merge emptyDocument.app.unmarshal = base.app :=
      (AppConfig.merge_eq_iff base.app _).mpr ⟨hnone _, hnone _, hnone _, hnone _⟩
    have hdatabases : base.databases.merge emptyDocument.databases.unmarshal = base.databases :=
      (DatabasesConfig.merge_eq_iff base.databases _).mpr
        ⟨⟨hnone _, hnone _, hnone _⟩, ⟨hnone _, hnone _, hnone _, hnone _⟩⟩
    have hqueue : base.queue.merge emptyDocument.queue.unmarshal = base.queue :=
      (QueueConfig.merge_eq_iff base.queue _).mpr
        ⟨hnone _, hnone _, hnone _, fun _ => hgc, hnone _, hnone _, fun _ => hlog⟩
    have hapi : base.api.merge emptyDocument.api.unmarshal = base.api :=
      (APIConfig.merge_eq_iff base.api _).mpr ⟨fun _ => hapi, hnone _, hnone _, hnone _⟩
    have hlogging : base.logging.merge emptyDocument.logging.unmarshal = base.logging :=
      (LoggingConfig.merge_eq_iff base.logging _).mpr ⟨hnone _, hnone _⟩
    have hmetrics : base.metrics.merge emptyDocument.metrics.unmarshal = base.metrics :=
      (MetricsConfig.merge_eq_iff base.metrics _).mpr ⟨fun _ => hmetrics, hnone _, hnone _⟩
    have hperformance :
        base.performance.merge emptyDocument.performance.unmarshal = base.performance :=
      (PerformanceConfig.merge_eq_iff base.performance _).mpr ⟨hnone _, hnone _, hnone _⟩
    -- nothing is inserted into the maps
    show Config.mk (base.app.merge emptyDocument.app.unmarshal)
      (base.databases.merge emptyDocument.databases.unmarshal)
      (base.queue.merge emptyDocument.queue.unmarshal) base.interfaces
      (base.api.merge emptyDocument.api.unmarshal)
      (base.logging.merge emptyDocument.logging.unmarshal)
      (base.metrics.merge emptyDocument.metrics.unmarshal) base.plugins base.sendingZones
      (base.performance.merge emptyDocument.performance.unmarshal) = base
    rw [happ, hdatabases, hqueue, hapi, hlogging, hmetrics, hperformance]

/-- After a chain of files the API is off unless the last one switches it on. -/
theorem loadMultipleFiles_enabled (first : Config Option) (others : List (Config Option))
    (d : Config Option) :
    (loadMultipleFiles first (others ++ [d])).api.enabled = d.api.enabled.getD false := by
  rw [loadMultipleFiles, List.foldl_append]
  rfl

end GoConfig

end ZoneMta
