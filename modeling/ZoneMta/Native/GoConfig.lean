import ZoneMta.ForStd.AList

/-!
# Go configuration

The configuration of `zone-mta-go/internal/config/config.go`: loading a file and merging further
ones into it. The structures are indexed by how a setting is there: `Always` in a configuration,
perhaps (`Option`) in a document. A document is what the parser finds in a file that it can
decode; a key whose value is null counts as absent. Durations are nanoseconds.
-/

namespace ZoneMta

namespace GoConfig

open ForStd (Map insertAll mapValues)

/-- A setting of a configuration has a value. -/
abbrev Always (α : Type) : Type := α

/-- What a plugin is given: any YAML value. -/
inductive Yaml where
  | null
  | bool (value : Bool)
  | number (text : String)
  | string (value : String)
  | sequence (items : List Yaml)
  | mapping (entries : List (String × Yaml))

/-- `AppConfig` -/
structure AppConfig (F : Type → Type) where
  name : F String
  ident : F String
  user : F String
  group : F String

/-- `MongoDBConfig` -/
structure MongoDBConfig (F : Type → Type) where
  uri : F String
  database : F String
  timeout : F Int

/-- `RedisConfig` -/
structure RedisConfig (F : Type → Type) where
  host : F String
  port : F Int
  db : F Int
  timeout : F Int

/-- `DatabasesConfig` -/
structure DatabasesConfig (F : Type → Type) where
  mongodb : MongoDBConfig F
  redis : RedisConfig F

/-- `QueueConfig` -/
structure QueueConfig (F : Type → Type) where
  instanceId : F String
  collection : F String
  gridfsCollection : F String
  disableGC : F Bool
  defaultZone : F String
  maxQueueTime : F Int
  logQueuePolling : F Bool

/-- `SMTPInterfaceConfig` -/
structure SMTPInterfaceConfig (F : Type → Type) where
  enabled : F Bool
  port : F Int
  host : F String
  secure : F Bool
  authentication : F Bool
  maxConnections : F Int
  maxRecipients : F Int
  disableSTARTTLS : F Bool

/-- `APIConfig` -/
structure APIConfig (F : Type → Type) where
  enabled : F Bool
  port : F Int
  host : F String
  maxRecipients : F Int

/-- `LoggingConfig` -/
structure LoggingConfig (F : Type → Type) where
  level : F String
  format : F String

/-- `MetricsConfig` -/
structure MetricsConfig (F : Type → Type) where
  enabled : F Bool
  port : F Int
  path : F String

/-- `SendingZoneConfig` -/
structure SendingZoneConfig (F : Type → Type) where
  name : F String
  connections : F Int
  connectionTime : F Int
  throttling : F String
  poolConnections : F Bool

/-- `PerformanceConfig` -/
structure PerformanceConfig (F : Type → Type) where
  maxConnections : F Int
  workerCount : F Int
  bufferSize : F Int

/-- `Config`, with the interfaces of `SMTPConfig`. -/
structure Config (F : Type → Type) where
  app : AppConfig F
  databases : DatabasesConfig F
  queue : QueueConfig F
  interfaces : Map String (SMTPInterfaceConfig F)
  api : APIConfig F
  logging : LoggingConfig F
  metrics : MetricsConfig F
  plugins : Map String Yaml
  sendingZones : Map String (SendingZoneConfig F)
  performance : PerformanceConfig F

/-! ## Decoding

`yaml.Unmarshal` into a new structure: a key that is absent leaves the zero value. -/

/-- A field after `Unmarshal`. -/
def unmarshalField {α : Type} [Inhabited α] (d : Option α) : α := d.getD default

def AppConfig.unmarshal (d : AppConfig Option) : AppConfig Always where
  name := unmarshalField d.name
  ident := unmarshalField d.ident
  user := unmarshalField d.user
  group := unmarshalField d.group

def MongoDBConfig.unmarshal (d : MongoDBConfig Option) : MongoDBConfig Always where
  uri := unmarshalField d.uri
  database := unmarshalField d.database
  timeout := unmarshalField d.timeout

def RedisConfig.unmarshal (d : RedisConfig Option) : RedisConfig Always where
  host := unmarshalField d.host
  port := unmarshalField d.port
  db := unmarshalField d.db
  timeout := unmarshalField d.timeout

def DatabasesConfig.unmarshal (d : DatabasesConfig Option) : DatabasesConfig Always where
  mongodb := d.mongodb.unmarshal
  redis := d.redis.unmarshal

def QueueConfig.unmarshal (d : QueueConfig Option) : QueueConfig Always where
  instanceId := unmarshalField d.instanceId
  collection := unmarshalField d.collection
  gridfsCollection := unmarshalField d.gridfsCollection
  disableGC := unmarshalField d.disableGC
  defaultZone := unmarshalField d.defaultZone
  maxQueueTime := unmarshalField d.maxQueueTime
  logQueuePolling := unmarshalField d.logQueuePolling

def SMTPInterfaceConfig.unmarshal (d : SMTPInterfaceConfig Option) :
    SMTPInterfaceConfig Always where
  enabled := unmarshalField d.enabled
  port := unmarshalField d.port
  host := unmarshalField d.host
  secure := unmarshalField d.secure
  authentication := unmarshalField d.authentication
  maxConnections := unmarshalField d.maxConnections
  maxRecipients := unmarshalField d.maxRecipients
  disableSTARTTLS := unmarshalField d.disableSTARTTLS

def APIConfig.unmarshal (d : APIConfig Option) : APIConfig Always where
  enabled := unmarshalField d.enabled
  port := unmarshalField d.port
  host := unmarshalField d.host
  maxRecipients := unmarshalField d.maxRecipients

def LoggingConfig.unmarshal (d : LoggingConfig Option) : LoggingConfig Always where
  level := unmarshalField d.level
  format := unmarshalField d.format

def MetricsConfig.unmarshal (d : MetricsConfig Option) : MetricsConfig Always where
  enabled := unmarshalField d.enabled
  port := unmarshalField d.port
  path := unmarshalField d.path

def SendingZoneConfig.unmarshal (d : SendingZoneConfig Option) : SendingZoneConfig Always where
  name := unmarshalField d.name
  connections := unmarshalField d.connections
  connectionTime := unmarshalField d.connectionTime
  throttling := unmarshalField d.throttling
  poolConnections := unmarshalField d.poolConnections

def PerformanceConfig.unmarshal (d : PerformanceConfig Option) : PerformanceConfig Always where
  maxConnections := unmarshalField d.maxConnections
  workerCount := unmarshalField d.workerCount
  bufferSize := unmarshalField d.bufferSize

/-- `yaml.Unmarshal` into a new `Config`. -/
def Config.unmarshal (d : Config Option) : Config Always where
  app := d.app.unmarshal
  databases := d.databases.unmarshal
  queue := d.queue.unmarshal
  interfaces := mapValues SMTPInterfaceConfig.unmarshal d.interfaces
  api := d.api.unmarshal
  logging := d.logging.unmarshal
  metrics := d.metrics.unmarshal
  plugins := d.plugins
  sendingZones := mapValues SendingZoneConfig.unmarshal d.sendingZones
  performance := d.performance.unmarshal

/-! ## Merging -/

/-- `if override.F != zero { base.F = override.F }` -/
def mergeField {α : Type} [Inhabited α] [DecidableEq α] (base override : α) : α :=
  if override ≠ default then override else base

def AppConfig.merge (base override : AppConfig Always) : AppConfig Always where
  name := mergeField base.name override.name
  ident := mergeField base.ident override.ident
  user := mergeField base.user override.user
  group := mergeField base.group override.group

def MongoDBConfig.merge (base override : MongoDBConfig Always) : MongoDBConfig Always where
  uri := mergeField base.uri override.uri
  database := mergeField base.database override.database
  timeout := mergeField base.timeout override.timeout

def RedisConfig.merge (base override : RedisConfig Always) : RedisConfig Always where
  host := mergeField base.host override.host
  port := mergeField base.port override.port
  db := mergeField base.db override.db
  timeout := mergeField base.timeout override.timeout

def DatabasesConfig.merge (base override : DatabasesConfig Always) : DatabasesConfig Always where
  mongodb := base.mongodb.merge override.mongodb
  redis := base.redis.merge override.redis

def QueueConfig.merge (base override : QueueConfig Always) : QueueConfig Always where
  instanceId := mergeField base.instanceId override.instanceId
  collection := mergeField base.collection override.collection
  gridfsCollection := mergeField base.gridfsCollection override.gridfsCollection
  defaultZone := mergeField base.defaultZone override.defaultZone
  maxQueueTime := mergeField base.maxQueueTime override.maxQueueTime
  -- Override boolean values directly
  disableGC := override.disableGC
  logQueuePolling := override.logQueuePolling

def APIConfig.merge (base override : APIConfig Always) : APIConfig Always where
  port := mergeField base.port override.port
  host := mergeField base.host override.host
  maxRecipients := mergeField base.maxRecipients override.maxRecipients
  -- Override boolean values directly
  enabled := override.enabled

def LoggingConfig.merge (base override : LoggingConfig Always) : LoggingConfig Always where
  level := mergeField base.level override.level
  format := mergeField base.format override.format

def MetricsConfig.merge (base override : MetricsConfig Always) : MetricsConfig Always where
  port := mergeField base.port override.port
  path := mergeField base.path override.path
  -- Override boolean values directly
  enabled := override.enabled

def PerformanceConfig.merge (base override : PerformanceConfig Always) :
    PerformanceConfig Always where
  maxConnections := mergeField base.maxConnections override.maxConnections
  workerCount := mergeField base.workerCount override.workerCount
  bufferSize := mergeField base.bufferSize override.bufferSize

/-- `mergeConfigs` -/
def mergeConfigs (base override : Config Always) : Config Always where
  app := base.app.merge override.app
  databases := base.databases.merge override.databases
  queue := base.queue.merge override.queue
  interfaces := insertAll base.interfaces override.interfaces
  api := base.api.merge override.api
  logging := base.logging.merge override.logging
  metrics := base.metrics.merge override.metrics
  plugins := insertAll base.plugins override.plugins
  sendingZones := insertAll base.sendingZones override.sendingZones
  performance := base.performance.merge override.performance

/-- `mergeConfigFile`, once the file is decoded. -/
def mergeConfigFile (base : Config Always) (d : Config Option) : Config Always :=
  mergeConfigs base d.unmarshal

/-! ## Loading -/

/-- `if config.F == zero { config.F = value }` -/
def defaultField {α : Type} [Inhabited α] [DecidableEq α] (field value : α) : α :=
  if field = default then value else field

/-- `time.Second` -/
def second : Int := 1000000000

/-- `setDefaults` -/
def setDefaults (config : Config Always) : Config Always :=
  { config with
    app := { config.app with
      name := defaultField config.app.name "ZoneMTA-Go"
      ident := defaultField config.app.ident "zone-mta-go" }
    databases := {
      mongodb := {
        uri := defaultField config.databases.mongodb.uri "mongodb://127.0.0.1:27017/zone-mta-go"
        database := defaultField config.databases.mongodb.database "zone-mta-go"
        timeout := defaultField config.databases.mongodb.timeout (10 * second) }
      redis := { config.databases.redis with
        host := defaultField config.databases.redis.host "127.0.0.1"
        port := defaultField config.databases.redis.port 6379
        timeout := defaultField config.databases.redis.timeout (10 * second) } }
    queue := { config.queue with
      instanceId := defaultField config.queue.instanceId "default"
      collection := defaultField config.queue.collection "zone-queue"
      gridfsCollection := defaultField config.queue.gridfsCollection "mail"
      defaultZone := defaultField config.queue.defaultZone "default"
      maxQueueTime := defaultField config.queue.maxQueueTime (30 * 24 * 3600 * second) }
    logging := {
      level := defaultField config.logging.level "info"
      format := defaultField config.logging.format "text" }
    performance := {
      maxConnections := defaultField config.performance.maxConnections 1000
      workerCount := defaultField config.performance.workerCount 4
      bufferSize := defaultField config.performance.bufferSize 4096 } }

/-- `Load`, once the file is decoded. -/
def load (d : Config Option) : Config Always := setDefaults d.unmarshal

/-- `LoadMultipleFiles`, once the files are decoded. -/
def loadMultipleFiles (first : Config Option) (others : List (Config Option)) : Config Always :=
  others.foldl mergeConfigFile (load first)

end GoConfig

end ZoneMta
