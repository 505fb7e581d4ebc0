import ZoneMta.Native.ZoneUpdate

/-!
# Reloads of a zone

A zone after a reload, next to one that is built from the new configuration. All but the copied
options is set anew; an option that is no longer in the configuration stays as it was.

## Key results

- `update_eq_iff`: when a reload gives the state of a zone that is built anew
- `reloaded_iff`: the same for a zone that was built from another configuration
- `not_reloaded_host`: a relay host that was removed and is still used
-/

namespace ZoneMta

namespace ZoneState

open ForStd (Text)

variable {ν : Type} {text : Text}

/-- The options of the configuration, and behind them those that the zone had. -/
theorem options_update {s s' : ZoneState ν} {zone : ZoneSettings ν}
    (h : s.update text zone = some s') (key : ZoneOption) :
    s'.options key = (zone.options key).or (s.options key) := by
  obtain ⟨throttling, -, rfl⟩ := Option.map_eq_some_iff.mp h
  rfl

theorem options_new {s : ZoneState ν} {zone : ZoneSettings ν} (h : new text zone = some s)
    (key : ZoneOption) : s.options key = zone.options key := by
  rw [options_update h, Option.or_none]

/-- Only the options depend on what the zone was before. -/
theorem update_eq_of_new {s s' : ZoneState ν} {zone : ZoneSettings ν}
    (h : new text zone = some s') :
    s.update text zone =
      some { s' with options := fun key => (zone.options key).or (s.options key) } := by
  obtain ⟨throttling, hthrottling, rfl⟩ := Option.map_eq_some_iff.mp h
  rw [update, hthrottling]
  rfl

/-- A zone has the state of one that is built from the configuration, if and only if it had no
    option that the configuration does not have. -/
theorem update_eq_iff {s s' : ZoneState ν} {zone : ZoneSettings ν} (h : new text zone = some s') :
    s.update text zone = some s' ↔
      ∀ key, (s.options key).isSome → (zone.options key).isSome := by
  rw [update_eq_of_new h]
  constructor
  · intro heq key hkey
    have hoptions : s'.options = fun key => (zone.options key).or (s.options key) :=
      (congrArg ZoneState.options (Option.some.inj heq)).symm
    have hvalue := congrFun hoptions key
    -- a zone that is built anew has nothing but the configuration
    rw [options_new h] at hvalue
    cases hzone : zone.options key with
    | some value => rfl
    | none =>
      rw [hzone, Option.none_or] at hvalue
      rw [← hvalue] at hkey
      exact absurd hkey Bool.false_ne_true
  · intro hkeys
    have hoptions : (fun key => (zone.options key).or (s.options key)) = s'.options := by
      funext key
      rw [options_new h]
      cases hs : s.options key with
      | none => exact Option.or_none
      -- the configuration has the option, and its value wins
      | some value =>
        obtain ⟨value', hvalue'⟩ := Option.isSome_iff_exists.mp (hkeys key (by rw [hs]; rfl))
        rw [hvalue', Option.some_or]
    rw [hoptions]

/-- A zone that was built from one configuration and reloaded with another one has the state of a
    zone that is built from the second, if and only if that has every copied option of the first. -/
theorem reloaded_iff {zone zone' : ZoneSettings ν} {s s' : ZoneState ν}
    (h : new text zone = some s) (h' : new text zone' = some s') :
    s.update text zone' = some s' ↔
      ∀ key, (zone.options key).isSome → (zone'.options key).isSome := by
  rw [update_eq_iff h']
  exact forall_congr' fun key => by rw [options_new h]

/-- A configuration with a relay host, or without one. -/
def relayed (host : Option String) : ZoneSettings String :=
  { pool := { pool := .list [], hostname := "mta" }
    options := fun key => if key = .host then host else none }

/-- Another relay host takes the place of the first one. -/
theorem reloaded_iff_relayed : ∃ s s', new .ascii (relayed (some "a.example")) = some s ∧
    new .ascii (relayed (some "b.example")) = some s' ∧
    s.update .ascii (relayed (some "b.example")) = some s' := by
  have h : ∀ host, ∃ s, new .ascii (relayed host) = some s := fun host => ⟨_, rfl⟩
  obtain ⟨s, hs⟩ := h (some "a.example")
  obtain ⟨s', hs'⟩ := h (some "b.example")
  refine ⟨s, s', hs, hs', (reloaded_iff hs hs').mpr fun key hkey => ?_⟩
  cases key <;> first | rfl | exact hkey

/-- A relay host that was removed is still there after the reload. -/
theorem not_reloaded_host : ∃ s s' reloaded, new .ascii (relayed (some "a.example")) = some s ∧
    new .ascii (relayed none) = some s' ∧ s.update .ascii (relayed none) = some reloaded ∧
    reloaded ≠ s' ∧ s'.options .host = none ∧ reloaded.options .host = some "a.example" := by
  -- the host tells the two zones apart
  refine ⟨_, _, _, rfl, rfl, rfl, fun heq => ?_, rfl, rfl⟩
  have hhost := congrFun (congrArg ZoneState.options heq) .host
  exact nomatch hhost

end ZoneState

end ZoneMta
