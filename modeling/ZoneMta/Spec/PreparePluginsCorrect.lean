import Mathlib
import ZoneMta.ForStd.StableSort
import ZoneMta.Native.PreparePlugins

/-!
# preparePlugins: correctness

The plugins are to be those that the configuration enables in the context of the handler, in the
order of their configured numbers, and those without a number last. The numeric default of
`preparePlugins` takes a configured 0 for no number at all.

## Key results

- `map_entry_preparePlugins`: the plugins, by the ordering that they are given
- `prepared_iff`: they are in the configured order exactly if no two of them clash
-/

namespace ZoneMta

open ForStd (OrderedMap Text StableOrder sortBy)

namespace PluginHandler

/-! ## The order of numbers -/

namespace Ordinal

def toWithBot : Ordinal → WithBot (WithTop ℚ)
  | negInfinity => ⊥
  | finite x => ((x : WithTop ℚ) : WithBot (WithTop ℚ))
  | infinity => ((⊤ : WithTop ℚ) : WithBot (WithTop ℚ))

theorem toWithBot_injective : Function.Injective toWithBot := by
  intro x y h
  cases x <;> cases y <;> simp_all [toWithBot]

instance : LinearOrder Ordinal := LinearOrder.lift' toWithBot toWithBot_injective

theorem lt_iff (x y : Ordinal) : x < y ↔ toWithBot x < toWithBot y := Iff.rfl

@[simp] theorem finite_lt_finite (x y : ℚ) : finite x < finite y ↔ x < y := by
  simp [lt_iff, toWithBot]

@[simp] theorem negInfinity_lt_finite (x : ℚ) : negInfinity < finite x := by
  simp [lt_iff, toWithBot]

@[simp] theorem negInfinity_lt_infinity : negInfinity < infinity := by
  simp [lt_iff, toWithBot]

@[simp] theorem finite_lt_infinity (x : ℚ) : finite x < infinity :=
  WithBot.coe_lt_coe.mpr (WithTop.coe_lt_top x)

@[simp] theorem not_lt_negInfinity (x : Ordinal) : ¬ x < negInfinity := by
  simp [lt_iff, toWithBot]

@[simp] theorem not_infinity_lt (x : Ordinal) : ¬ infinity < x := by
  cases x <;> simp [lt_iff, toWithBot]

end Ordinal

/-- The comparator of the sort is positive exactly where two plugins have to change places. -/
theorem isPositive_sub (x y : Ordinal) : isPositive (sub x y) = true ↔ y < x := by
  cases x <;> cases y <;> simp [sub, isPositive]

/-! ## What the configuration says -/

section Configuration

variable (text : Text) (parse : String → Number) (context : String)

/-- The item names the context. What is neither `true` nor a string stands for the receiver. -/
def Item.Names : Item → Prop
  | .true => True
  | .string s => text.normal s = context ∨ text.normal s = "*"
  | .other _ => context = "receiver"

instance (item : Item) : Decidable (item.Names text context) := by
  cases item <;> unfold Item.Names <;> infer_instance

/-- The plugin is enabled, and its setting admits the context. -/
def Setting.Admits : Setting → Prop
  | .true => True
  | .primitive => False
  | .object enabled _ => enabled.truthy ∧ ∃ item ∈ enabled.items, item.Names text context

instance (setting : Setting) : Decidable (setting.Admits text context) := by
  cases setting <;> unfold Setting.Admits <;> infer_instance

def Number.rank : Number → WithTop Ordinal
  | .nan => ⊤
  | .ordinal x => x

/-- The configured number; a plugin without one comes last. -/
def Setting.configured : Setting → WithTop Ordinal
  | .true | .primitive | .object _ .undefined | .object _ .null => ⊤
  | .object _ ordering => (toNumber parse ordering).rank

/-- The plugins to be loaded, in the order of the configuration. -/
def chosen (pluginData : Option (OrderedMap String Setting)) : List (String × Setting) :=
  ((pluginData.map (·.entries)).getD []).filter fun e => e.1 ≠ "" ∧ e.2.Admits text context

def Plugin.entry (plugin : Plugin) : String × Setting := (plugin.key, plugin.config)

/-- The list holds the plugins to be loaded, by their configured numbers, and those of one number
in the order of the configuration. -/
def Prepared (pluginData : Option (OrderedMap String Setting)) (plugins : List Plugin) : Prop :=
  (plugins.map Plugin.entry).Perm (chosen text context pluginData) ∧
    (plugins.map Plugin.entry).Pairwise
      (StableOrder (fun e => e.2.configured parse) (chosen text context pluginData))

end Configuration

/-- Two configured numbers, the first of a plugin in front of the second, that the default for the
number 0 brings into the wrong order. -/
def Clash : WithTop Ordinal → WithTop Ordinal → Prop
  | some (.finite x), some (.finite y) => x = 0 ∧ 0 < y ∨ 0 < x ∧ y = 0
  | some .infinity, some (.finite y) | none, some (.finite y) => y = 0
  | none, some .infinity => True
  | _, _ => False

/-! ## What is prepared -/

section Prepare

variable (text : Text) (parse : String → Number) (resolve : String → String → String)
  (handler : Handler)

theorem names_iff (context : String) (item : Item) :
    item.Names text context ↔ allowed text item = context ∨ allowed text item = "*" := by
  cases item with
  | true => simp [Item.Names, allowed]
  | string s => rfl
  | other truthy =>
    show context = "receiver" ↔ "receiver" = context ∨ "receiver" = "*"
    have hstar : "receiver" ≠ "*" := by decide
    simp [hstar, eq_comm]

theorem admits_iff (context : String) (setting : Setting) :
    setting.Admits text context ↔ setting.disabled = false ∧
      (context ∈ allowedContext text setting ∨ "*" ∈ allowedContext text setting) := by
  cases setting with
  | true =>
    simp [Setting.Admits, Setting.disabled, allowedContext, Setting.enabled, Enabled.orReceiver,
      Enabled.truthy, Enabled.items, allowed]
  | primitive => simp [Setting.Admits, Setting.disabled]
  | object enabled ordering =>
    have hitems (htruthy : enabled.truthy = true) :
        allowedContext text (.object enabled ordering) = enabled.items.map (allowed text) := by
      simp [allowedContext, Setting.enabled, Enabled.orReceiver, htruthy]
    simp only [Setting.Admits, Setting.disabled, Bool.not_eq_false']
    apply and_congr_right
    intro htruthy
    -- one item allows the context, or everything
    rw [hitems htruthy, List.mem_map, List.mem_map, ← exists_or]
    apply exists_congr
    intro item
    rw [names_iff, and_or_left]

/-- The ordering that a plugin is given. -/
def Setting.given (setting : Setting) : Ordinal := orInfinity (toNumber parse setting.ordering)

theorem map_entry_plugin (key : String) (setting : Setting) :
    (plugin text parse resolve handler key setting).map Plugin.entry =
      if key ≠ "" ∧ setting.Admits text handler.context then some (key, setting) else none := by
  have hadmits := admits_iff text handler.context setting
  unfold plugin
  by_cases hkey : key = ""
  · simp [hkey]
  · cases hdisabled : setting.disabled with
    | true => simp [hkey, hadmits, hdisabled]
    | false =>
      rw [if_neg hkey, if_neg Bool.false_ne_true]
      by_cases hallowed : handler.context ∈ allowedContext text setting ∨
          "*" ∈ allowedContext text setting
      · rw [if_neg (by tauto), if_pos ⟨hkey, hadmits.mpr ⟨hdisabled, hallowed⟩⟩]
        rfl
      · rw [if_pos (not_or.mp hallowed), if_neg fun h => hallowed (hadmits.mp h.2).2]
        rfl

theorem ordering_of_plugin {key : String} {setting : Setting} {p : Plugin}
    (h : plugin text parse resolve handler key setting = some p) :
    p.ordering = p.config.given parse := by
  unfold plugin at h
  split at h
  · cases h
  · split at h
    · cases h
    · split at h
      · cases h
      · cases h
        rfl

/-- The plugins that are loaded are the chosen ones, sorted by the ordering that they are given. -/
theorem map_entry_preparePlugins (pluginData : Option (OrderedMap String Setting)) :
    (preparePlugins text parse resolve handler pluginData).map Plugin.entry =
      sortBy (fun e => e.2.given parse) (chosen text handler.context pluginData) := by
  unfold preparePlugins sortBy
  simp only
  -- the comparator sees the ordering only, which the entry determines
  rw [List.map_insertionSort (fun a b => !isPositive (sub a.ordering b.ordering))
    (fun e e' : String × Setting => e.2.given parse ≤ e'.2.given parse) Plugin.entry]
  · congr 1
    -- what is dropped by the map is what is not chosen
    rw [List.map_filterMap, chosen, ← List.filterMap_eq_filter]
    apply List.filterMap_congr
    intro e he
    rw [map_entry_plugin]
    simp [Option.guard]
  · intro a ha b hb
    obtain ⟨e, he, ha⟩ := List.mem_filterMap.mp ha
    obtain ⟨e', he', hb⟩ := List.mem_filterMap.mp hb
    show (!isPositive (sub a.ordering b.ordering)) = true ↔
      a.config.given parse ≤ b.config.given parse
    rw [ordering_of_plugin text parse resolve handler ha,
      ordering_of_plugin text parse resolve handler hb, ← not_lt, ← isPositive_sub]
    simp

end Prepare

/-! ## The number 0 -/

/-- What becomes of a configured number. -/
def seen : WithTop Ordinal → Ordinal
  | none => .infinity
  | some x => if x = .finite 0 then .infinity else x

theorem orInfinity_eq (n : Number) : orInfinity n = seen n.rank := by
  cases n with
  | nan => rfl
  | ordinal x => rfl

theorem given_eq (parse : String → Number) (setting : Setting) :
    setting.given parse = seen (setting.configured parse) := by
  cases setting with
  | true => rfl
  | primitive => rfl
  | object enabled ordering =>
    cases ordering with
    | undefined => rfl
    | null => rfl
    | boolean b => exact orInfinity_eq _
    | number n => exact orInfinity_eq _
    | string s => exact orInfinity_eq _
    | object n => exact orInfinity_eq _

/-- Two plugins clash exactly if the one may have to change places and the other does not. -/
theorem clash_iff (x y : WithTop Ordinal) : ¬ Clash x y ↔ (seen y < seen x ↔ y < x) := by
  -- where no number is 0 the two orders are one
  rcases x with _ | _ | x | _ <;> rcases y with _ | _ | y | _ <;>
    simp only [Clash, seen] <;> simp [WithTop.none_eq_top, WithTop.some_eq_coe]
  case none.some.finite => by_cases hy : y = 0 <;> simp [hy]
  case some.finite.some.negInfinity => by_cases hx : x = 0 <;> simp [hx]
  case some.infinity.some.finite => by_cases hy : y = 0 <;> simp [hy]
  case some.finite.some.finite =>
    by_cases hx : x = 0
    · subst hx
      by_cases hy : y = 0
      · simp [hy]
      · simp [hy, le_iff_lt_or_eq]
    · by_cases hy : y = 0
      · simp [hx, hy]
      · simp [hx, hy]

section Prepared

variable (text : Text) (parse : String → Number) (resolve : String → String → String)
  (handler : Handler) (pluginData : Option (OrderedMap String Setting))

theorem nodup_chosen (context : String) : (chosen text context pluginData).Nodup := by
  apply List.Nodup.filter
  cases pluginData with
  | none => exact List.nodup_nil
  | some pluginData => exact pluginData.nodup.of_map

/-- The plugins are prepared in the configured order exactly if no plugin clashes with one behind
it. -/
theorem prepared_iff :
    Prepared text parse handler.context pluginData
        (preparePlugins text parse resolve handler pluginData) ↔
      (chosen text handler.context pluginData).Pairwise fun e e' =>
        ¬ Clash (e.2.configured parse) (e'.2.configured parse) := by
  have hnodup := nodup_chosen text pluginData handler.context
  unfold Prepared
  rw [map_entry_preparePlugins, ForStd.pairwise_sortBy_iff _ _ hnodup]
  have hpair (e e' : String × Setting) :
      (e'.2.given parse < e.2.given parse ↔ e'.2.configured parse < e.2.configured parse) ↔
        ¬ Clash (e.2.configured parse) (e'.2.configured parse) := by
    rw [given_eq, given_eq, clash_iff]
  simp only [hpair, ForStd.perm_sortBy, true_and]

end Prepared

/-! ## A plugin with the number 0 -/

/-- Two plugins, of which the second is to be loaded first. -/
def zeroOrdered : OrderedMap String Setting where
  entries := [("order-1", .object (.one .true) (.number (.ordinal (.finite 1)))),
    ("order-2", .object (.one .true) (.number (.ordinal (.finite 0))))]
  nodup := by decide

def receiver : Handler := ⟨"receiver", "/plugins", "/plugins"⟩

/-- The plugin with the number 0 is loaded last. -/
theorem not_prepared :
    ¬ Prepared Text.ascii (fun _ => .nan) receiver.context (some zeroOrdered)
      (preparePlugins Text.ascii (fun _ => .nan) (fun base key => base ++ "/" ++ key) receiver
        (some zeroOrdered)) := by
  have hrun : preparePlugins Text.ascii (fun _ => .nan) (fun base key => base ++ "/" ++ key)
      receiver (some zeroOrdered) =
        [⟨"order-1", "/plugins/order-1", .finite 1,
            .object (.one .true) (.number (.ordinal (.finite 1)))⟩,
          ⟨"order-2", "/plugins/order-2", .infinity,
            .object (.one .true) (.number (.ordinal (.finite 0)))⟩] := by
    decide +kernel
  rw [hrun]
  intro h
  have hpair := h.2
  -- the pair is in order only if 1 is less than 0
  simp [Plugin.entry, StableOrder, Setting.configured, toNumber, Number.rank] at hpair
  exact absurd hpair (by decide)

end PluginHandler

end ZoneMta
