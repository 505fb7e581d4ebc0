import Mathlib
import ZoneMta.ForStd.OrderedMap
import ZoneMta.ForStd.Text

/-!
# preparePlugins

Which plugins are loaded and in which order: `preparePlugins` in `lib/plugin-handler.js`. The
configuration is an object with one setting for each plugin.
-/

namespace ZoneMta

open ForStd (OrderedMap Text)

namespace PluginHandler

/-! ## Numbers -/

/-- A number other than `NaN`. -/
inductive Ordinal where
  | negInfinity
  | finite (x : ℚ)
  | infinity
deriving Repr, DecidableEq

inductive Number where
  | nan
  | ordinal (x : Ordinal)
deriving Repr, DecidableEq

/-- The value of a property `ordering`. -/
inductive Property where
  | undefined
  | null
  | boolean (b : Bool)
  | number (n : Number)
  | string (s : String)
  /-- an object or an array, with the number that it is converted to -/
  | object (n : Number)
deriving Repr, DecidableEq

/-- `Number(value)`; `parse` is the conversion of strings. -/
def toNumber (parse : String → Number) : Property → Number
  | .undefined => .nan
  | .null => .ordinal (.finite 0)
  | .boolean b => .ordinal (.finite (if b then 1 else 0))
  | .number n => n
  | .string s => parse s
  | .object n => n

/-- `n || Infinity` -/
def orInfinity : Number → Ordinal
  | .nan => .infinity
  | .ordinal x => if x = .finite 0 then .infinity else x

/-- `a - b`; of a difference only the sign is used, and rounding keeps that. -/
def sub : Ordinal → Ordinal → Number
  | .finite x, .finite y => .ordinal (.finite (x - y))
  | .infinity, .infinity | .negInfinity, .negInfinity => .nan
  | .infinity, _ | _, .negInfinity => .ordinal .infinity
  | .negInfinity, _ | _, .infinity => .ordinal .negInfinity

/-- `n > 0` -/
def isPositive : Number → Bool
  | .ordinal (.finite x) => 0 < x
  | .ordinal .infinity => true
  | .ordinal .negInfinity | .nan => false

/-! ## Settings -/

/-- A value that may stand in `enabled`, or in an array there. -/
inductive Item where
  | true
  | string (s : String)
  /-- neither `true` nor a string -/
  | other (truthy : Bool)
deriving Repr, DecidableEq

inductive Enabled where
  | one (item : Item)
  | array (items : List Item)
deriving Repr, DecidableEq

namespace Enabled

def truthy : Enabled → Bool
  | one .true => Bool.true
  | one (.string s) => s != ""
  | one (.other truthy) => truthy
  | array _ => Bool.true

/-- `enabled || 'receiver'` -/
def orReceiver (enabled : Enabled) : Enabled :=
  if enabled.truthy then enabled else one (.string "receiver")

/-- `[].concat(enabled)` -/
def items : Enabled → List Item
  | one item => [item]
  | array items => items

end Enabled

/-- The setting of a plugin. -/
inductive Setting where
  | true
  /-- any other value without properties, or a missing one -/
  | primitive
  | object (enabled : Enabled) (ordering : Property)
deriving Repr, DecidableEq

namespace Setting

/-- `!setting || (setting !== true && !setting.enabled)` -/
def disabled : Setting → Bool
  | true => false
  | primitive => Bool.true
  | object enabled _ => !enabled.truthy

/-- `pluginConfig.enabled`, with the defaults for the setting `true` -/
def enabled : Setting → Enabled
  | true => .one .true
  | primitive => .one (.other false)
  | object enabled _ => enabled

/-- `pluginConfig.ordering`, with the defaults for the setting `true` -/
def ordering : Setting → Property
  | true => .number (.ordinal .infinity)
  | primitive => .undefined
  | object _ ordering => ordering

end Setting

/-! ## Plugins -/

/-- What the handler knows. -/
structure Handler where
  context : String
  corePluginsPath : String
  pluginsPath : String

structure Plugin where
  key : String
  path : String
  ordering : Ordinal
  config : Setting
deriving Repr, DecidableEq

/-- The key behind its dots and slashes, in front of the name of a directory. -/
def undotted (key : String) : List Char := key.toList.dropWhile fun c => c == '.' || c == '/'

def isModule (key : String) : Bool := "modules/".toList.isPrefixOf (undotted key)

def isCore (key : String) : Bool := "core/".toList.isPrefixOf (undotted key)

/-- Where a plugin is loaded from; `resolve` is `path.resolve`. -/
def pluginPath (resolve : String → String → String) (handler : Handler) (key : String) : String :=
  if isModule key then String.ofList ((undotted key).drop "modules/".length)
  else resolve (if isCore key then handler.corePluginsPath else handler.pluginsPath) key

def allowed (text : Text) : Item → String
  | .true => "*"
  | .other _ => "receiver"
  | .string context => text.normal context

def allowedContext (text : Text) (setting : Setting) : List String :=
  setting.enabled.orReceiver.items.map (allowed text)

section Prepare

variable (text : Text) (parse : String → Number) (resolve : String → String → String)
  (handler : Handler)

/-- The function that the keys are mapped with. -/
def plugin (key : String) (setting : Setting) : Option Plugin :=
  if key = "" then none
  else if setting.disabled then none
  else if handler.context ∉ allowedContext text setting ∧ "*" ∉ allowedContext text setting then
    none
  else
    some {
      key, path := pluginPath resolve handler key,
      ordering := orInfinity (toNumber parse setting.ordering), config := setting }

/-- `preparePlugins`. The sort is stable, and keeps two elements in place unless what it is given
for them is more than zero. -/
def preparePlugins (pluginData : Option (OrderedMap String Setting)) : List Plugin :=
  let entries := (pluginData.map (·.entries)).getD []
  let plugins := entries.filterMap fun e => plugin text parse resolve handler e.1 e.2
  plugins.insertionSort fun a b => !isPositive (sub a.ordering b.ordering)

end Prepare

end PluginHandler

end ZoneMta
