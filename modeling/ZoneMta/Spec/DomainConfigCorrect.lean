import ZoneMta.ForStd.Transition
import ZoneMta.Native.DomainConfig

/-!
# DomainConfig correctness

The layers of a `DomainConfig`: what was set for a domain, what the configuration has under the
domain and in the block `default`, and the built-in defaults. The constructor reads the key
`defaults` in place of `default`, and `remove` removes what was configured.

## Key results

- `own_set`, `own_remove`, `content_eq`: the operations, as `get` sees them
- `own_new`: the values that the constructor sets
- `content_mutate`: a clone is shared with nobody
- `resolves_iff`: when the layers are resolved as they should
-/

namespace ZoneMta

open ForStd (Map run Along Throughout lookup_insert lookup_erase)

namespace SendingZones

namespace DomainConfig

variable {c : DomainConfig} {domain domain' key key' : String} {value : Value}

/-! ## Operations -/

theorem own_set (c : DomainConfig) (domain key domain' key' : String) (value : Value) :
    (c.set domain key value).own domain' key' =
      if domain' = domain ∧ key' = key then some value else c.own domain' key' := by
  rw [own, set, lookup_insert]
  by_cases hdomain : domain' = domain
  · subst hdomain
    simp only [if_true, Option.bind_some, lookup_insert, true_and]
    split
    · rfl
    · rw [own]
      cases c.domains.lookup domain' with
      | none => simp
      | some map => rfl
  · rw [if_neg hdomain, if_neg fun h => hdomain h.1, own]

theorem own_remove (c : DomainConfig) (domain key domain' key' : String) :
    (c.remove domain key).own domain' key' =
      if domain' = domain ∧ key' = key then none else c.own domain' key' := by
  rw [remove]
  split
  · next hmap =>
    split
    · next h => rw [h.1, own, hmap, Option.bind_none]
    · rfl
  · next map hmap =>
    split
    · next hkey =>
      split
      · next h => rw [h.1, h.2, own, hmap, Option.bind_some, Option.isNone_iff_eq_none.mp hkey]
      · rfl
    · have hother : domain' = domain → c.own domain' key' = map.lookup key' := by
        rintro rfl
        rw [own, hmap, Option.bind_some]
      dsimp only
      by_cases hempty : (map.erase key).entries.isEmpty = true
      · rw [if_pos hempty, own, lookup_erase]
        by_cases hdomain : domain' = domain
        · -- the last key of the domain
          have hnone := ForStd.lookup_of_entries_eq_nil (List.isEmpty_iff.mp hempty) key'
          rw [lookup_erase] at hnone
          rw [if_pos hdomain, Option.bind_none, hother hdomain]
          by_cases hkey' : key' = key
          · rw [if_pos ⟨hdomain, hkey'⟩]
          · rw [if_neg fun h => hkey' h.2]
            rw [if_neg hkey'] at hnone
            exact hnone.symm
        · rw [if_neg hdomain, if_neg fun h => hdomain h.1, own]
      · rw [if_neg hempty, own, lookup_insert]
        by_cases hdomain : domain' = domain
        · rw [if_pos hdomain, Option.bind_some, lookup_erase, hother hdomain]
          simp only [hdomain, true_and]
        · rw [if_neg hdomain, if_neg fun h => hdomain h.1, own]

/-- `get` changes nothing but the heap. -/
theorem get_cases (c : DomainConfig) (domain key : String) :
    (c.get domain key).2 = c ∨
      ∃ place, c.defaults.lookup key = some (.object place) ∧
        (c.get domain key).2 =
          { c with
            heap := Function.update c.heap c.next (c.heap place)
            next := c.next + 1
            clones := c.next :: c.clones } := by
  rw [get]
  split
  · exact Or.inl rfl
  · split
    · next place hplace =>
      cases hlookup : c.defaults.lookup key with
      | none => rw [hlookup] at hplace; exact nomatch hplace
      | some value =>
        rw [hlookup, Option.getD_some] at hplace
        exact Or.inr ⟨place, congrArg some hplace, rfl⟩
    · exact Or.inl rfl

/-- `get` returns what the domain has, or the default. -/
theorem content_eq (c : DomainConfig) (domain key : String) :
    c.content domain key =
      ((c.own domain key).getD ((c.defaults.lookup key).getD .undefined)).read c.heap := by
  rw [content, get]
  cases c.own domain key with
  | some value => rfl
  | none =>
    dsimp only [Option.getD_none]
    split
    · next place hplace =>
      rw [hplace]
      exact congrArg some (Function.update_self ..)
    · rfl

/-! ## The constructor -/

theorem own_setBlock (c : DomainConfig) (domain domain' key : String) (block : Map String Value) :
    (c.setBlock domain block).own domain' key =
      if domain' = domain then (block.lookup key).or (c.own domain' key)
      else c.own domain' key := by
  have hfold : ∀ (l : List (Σ _ : String, Value)) (c : DomainConfig), l.NodupKeys →
      (l.foldl (fun c x => c.set domain x.1 x.2) c).own domain' key =
        if domain' = domain then (l.dlookup key).or (c.own domain' key)
        else c.own domain' key := by
    intro l
    induction l with
    | nil => intro c _; simp
    | cons x l ih =>
      intro c hl
      obtain ⟨hx, hl⟩ := List.nodupKeys_cons.mp hl
      rw [List.foldl_cons, ih _ hl, own_set, ForStd.dlookup_cons]
      by_cases hdomain : domain' = domain
      · simp only [hdomain, if_true, true_and]
        by_cases hkey : key = x.1
        · -- the key is not found again
          rw [hkey, List.dlookup_eq_none.mpr hx]
          simp
        · rw [if_neg hkey, if_neg hkey]
      · simp only [if_neg hdomain, if_neg fun h : domain' = domain ∧ key = x.1 => hdomain h.1]
  exact hfold block.entries c block.nodupKeys

theorem own_foldl_setBlock (options : Map String (Option (Map String Value))) (c : DomainConfig)
    (domain key : String) :
    (options.entries.foldl
        (fun c x => if x.1 = "default" then c else c.setBlock x.1 (x.2.getD ∅)) c).own domain key =
      if domain = "default" then c.own domain key
      else ((options.lookup domain).join.bind (·.lookup key)).or (c.own domain key) := by
  have hfold : ∀ (l : List (Σ _ : String, Option (Map String Value))) (c : DomainConfig),
      l.NodupKeys →
      (l.foldl (fun c x => if x.1 = "default" then c else c.setBlock x.1 (x.2.getD ∅)) c).own
          domain key =
        if domain = "default" then c.own domain key
        else ((l.dlookup domain).join.bind (·.lookup key)).or (c.own domain key) := by
    intro l
    induction l with
    | nil => intro c _; simp
    | cons x l ih =>
      intro c hl
      obtain ⟨hx, hl⟩ := List.nodupKeys_cons.mp hl
      rw [List.foldl_cons, ih _ hl, ForStd.dlookup_cons]
      by_cases hdefault : domain = "default"
      · rw [if_pos hdefault, if_pos hdefault]
        split
        · rfl
        · next hne =>
          rw [own_setBlock, if_neg fun h : domain = x.1 => hne (h ▸ hdefault)]
      · rw [if_neg hdefault, if_neg hdefault]
        by_cases hdomain : domain = x.1
        · -- the domain is not found again
          rw [if_pos hdomain, hdomain, List.dlookup_eq_none.mpr hx,
            if_neg fun h => hdefault (hdomain.trans h), own_setBlock, if_pos rfl]
          cases x.2 with
          | none => simp
          | some block => rfl
        · rw [if_neg hdomain]
          split
          · rfl
          · rw [own_setBlock, if_neg hdomain]
  exact hfold options.entries c options.nodupKeys

/-! ## The layers -/

section layers

variable (heap : Nat → Json) (options : Map String (Option (Map String Value)))

/-- The value that the configuration has under a name. -/
def configured (domain key : String) : Option Value :=
  (options.lookup domain).join.bind (·.lookup key)

/-- The built-in default. -/
def builtIn : String → Option Json
  | "maxConnections" => some (.scalar (.number 5))
  | "disabledAddresses" => some (.array [])
  | _ => none

/-- The default if the defaults are configured under the name `block`. -/
def fallback (block key : String) : Option Json :=
  match configured options block key with
  | some value => value.read heap
  | none => builtIn key

/-- What `get` should return where no value is set. -/
def resolved (domain key : String) : Option Json :=
  match configured options domain key with
  | some value => value.read heap
  | none => fallback heap options "default" key

/-- The block `default` says nothing else than the block `defaults`, which has values that the
    constructor keeps. -/
structure Agrees : Prop where
  same : ∀ key, fallback heap options "default" key = fallback heap options "defaults" key
  maxConnections : ∀ value, configured options "defaults" "maxConnections" = some value →
    value.falsy = false
  disabledAddresses : ∀ value, configured options "defaults" "disabledAddresses" = some value →
    value.isArray heap = true

end layers

/-! ## What the constructor makes of the layers -/

variable {heap : Nat → Json} {next : Nat} {options : Map String (Option (Map String Value))}

theorem set_frame (c : DomainConfig) (domain key : String) (value : Value) :
    (c.set domain key value).heap = c.heap ∧ (c.set domain key value).next = c.next ∧
      (c.set domain key value).defaults = c.defaults ∧
        (c.set domain key value).clones = c.clones :=
  ⟨rfl, rfl, rfl, rfl⟩

/-- `set` changes the domains only, and so do the loops of the constructor. -/
theorem foldl_frame {α : Type*} {f : DomainConfig → α → DomainConfig}
    (hf : ∀ c a, (f c a).heap = c.heap ∧ (f c a).next = c.next ∧ (f c a).defaults = c.defaults ∧
      (f c a).clones = c.clones) (l : List α) (c : DomainConfig) :
    (l.foldl f c).heap = c.heap ∧ (l.foldl f c).next = c.next ∧
      (l.foldl f c).defaults = c.defaults ∧ (l.foldl f c).clones = c.clones := by
  induction l generalizing c with
  | nil => exact ⟨rfl, rfl, rfl, rfl⟩
  | cons a l ih =>
    obtain ⟨hheap, hnext, hdefaults, hclones⟩ := ih (f c a)
    obtain ⟨hheap', hnext', hdefaults', hclones'⟩ := hf c a
    exact ⟨hheap.trans hheap', hnext.trans hnext', hdefaults.trans hdefaults',
      hclones.trans hclones'⟩

theorem new_frame (heap : Nat → Json) (next : Nat)
    (options : Map String (Option (Map String Value))) :
    (new heap next options).heap =
        (ensureDefaults heap next ((options.lookup "defaults").join.getD ∅)).2 ∧
      (new heap next options).next = next + 1 ∧
      (new heap next options).defaults =
        (ensureDefaults heap next ((options.lookup "defaults").join.getD ∅)).1 ∧
      (new heap next options).clones = [] := by
  refine foldl_frame (fun c x => ?_) _ _
  split
  · exact ⟨rfl, rfl, rfl, rfl⟩
  · exact foldl_frame (fun c x => set_frame c _ _ _) _ c

theorem own_new (heap : Nat → Json) (next : Nat)
    (options : Map String (Option (Map String Value))) (domain key : String) :
    (new heap next options).own domain key =
      if domain = "default" then none
      else if domain = "defaults" ∧ (options.lookup "defaults").join.isSome = true then
        (new heap next options).defaults.lookup key
      else configured options domain key := by
  rw [(new_frame heap next options).2.2.1]
  simp only [new]
  rw [own_foldl_setBlock]
  split
  · rfl
  · have hnone : DomainConfig.own
        { heap := (ensureDefaults heap next ((options.lookup "defaults").join.getD ∅)).2
          next := next + 1
          defaults := (ensureDefaults heap next ((options.lookup "defaults").join.getD ∅)).1 }
        domain key = none := rfl
    rw [hnone, Option.or_none]
    by_cases hblock : (options.lookup "defaults").join.isSome = true
    · rw [if_pos hblock, lookup_insert]
      by_cases hdomain : domain = "defaults"
      · rw [if_pos hdomain, if_pos ⟨hdomain, hblock⟩]
        rfl
      · rw [if_neg hdomain, if_neg fun h => hdomain h.1, configured]
    · rw [if_neg hblock, if_neg fun h => hblock h.2, configured]

/-- The objects of the configuration. -/
def Placed (next : Nat) (options : Map String (Option (Map String Value))) : Prop :=
  ∀ domain key place, configured options domain key = some (.object place) → place < next

theorem read_congr {heap heap' : Nat → Json} {value : Value}
    (h : ∀ place, value = .object place → heap' place = heap place) :
    value.read heap' = value.read heap := by
  cases value with
  | undefined => rfl
  | scalar value => rfl
  | object place => exact congrArg some (h place rfl)

section ensure

variable (defaults : Map String Value)

theorem lookup_ensureMaxConnections (key : String) :
    (ensureMaxConnections defaults).lookup key =
      if key = "maxConnections" ∧
          ((defaults.lookup "maxConnections").getD .undefined).falsy = true then
        some (.scalar (.number 5))
      else defaults.lookup key := by
  rw [ensureMaxConnections]
  split
  · next hfalsy => simp only [lookup_insert, hfalsy, and_true]
  · next hfalsy => rw [if_neg fun h => hfalsy h.2]

theorem newDisabledAddresses_ensureMaxConnections (heap : Nat → Json) :
    newDisabledAddresses heap (ensureMaxConnections defaults) =
      newDisabledAddresses heap defaults := by
  have hlookup : (ensureMaxConnections defaults).lookup "disabledAddresses" =
      defaults.lookup "disabledAddresses" := by
    rw [lookup_ensureMaxConnections, if_neg fun h => absurd h.1 (by decide)]
  simp only [newDisabledAddresses, hlookup]

/-- The defaults, where there is no array to be made. -/
theorem ensureDefaults_of_none (heap : Nat → Json) (next : Nat)
    (h : newDisabledAddresses heap defaults = none) :
    ensureDefaults heap next defaults = (ensureMaxConnections defaults, heap) := by
  rw [ensureDefaults, newDisabledAddresses_ensureMaxConnections, h]

/-- The defaults, where an array is made. -/
theorem ensureDefaults_of_some {array : Json} (heap : Nat → Json) (next : Nat)
    (h : newDisabledAddresses heap defaults = some array) :
    ensureDefaults heap next defaults =
      ((ensureMaxConnections defaults).insert "disabledAddresses" (.object next),
        Function.update heap next array) := by
  rw [ensureDefaults, newDisabledAddresses_ensureMaxConnections, h]

/-- The constructor changes no object of the configuration. -/
theorem heap_ensureDefaults (heap : Nat → Json) {next place : Nat} (h : place < next) :
    (ensureDefaults heap next defaults).2 place = heap place := by
  cases harray : newDisabledAddresses heap defaults with
  | none => rw [ensureDefaults_of_none defaults heap next harray]
  | some array =>
    rw [ensureDefaults_of_some defaults heap next harray]
    exact Function.update_of_ne (Nat.ne_of_lt h) _ _

end ensure

theorem configured_defaults (options : Map String (Option (Map String Value))) (key : String) :
    configured options "defaults" key =
      ((options.lookup "defaults").join.getD ∅).lookup key := by
  rw [configured]
  cases (options.lookup "defaults").join with
  | none => rfl
  | some block => rfl

theorem builtIn_of_ne {key : String} (hmax : key ≠ "maxConnections")
    (haddresses : key ≠ "disabledAddresses") : builtIn key = none := by
  unfold builtIn
  split
  · exact absurd rfl hmax
  · exact absurd rfl haddresses
  · rfl

/-- The default for another key than `disabledAddresses`. -/
theorem lookup_ensureDefaults_of_ne (defaults : Map String Value) (heap : Nat → Json) (next : Nat)
    {key : String} (hkey : key ≠ "disabledAddresses") :
    (ensureDefaults heap next defaults).1.lookup key =
      (ensureMaxConnections defaults).lookup key := by
  cases harray : newDisabledAddresses heap defaults with
  | none => rw [ensureDefaults_of_none defaults heap next harray]
  | some array =>
    rw [ensureDefaults_of_some defaults heap next harray]
    exact AList.lookup_insert_ne hkey

/-- A default of a block with values that the constructor keeps. -/
theorem read_ensureDefaults {block : Map String Value} {key : String}
    (hplaced : ∀ place, block.lookup key = some (.object place) → place < next)
    (hmax : ∀ value, block.lookup "maxConnections" = some value → value.falsy = false)
    (haddresses : ∀ value, block.lookup "disabledAddresses" = some value →
      value.isArray heap = true) :
    (((ensureDefaults heap next block).1.lookup key).getD .undefined).read
        (ensureDefaults heap next block).2 =
      match block.lookup key with
      | some value => value.read heap
      | none => builtIn key := by
  -- a configured value has the same content in both heaps
  have hread : ∀ value, block.lookup key = some value →
      value.read (ensureDefaults heap next block).2 = value.read heap := by
    intro value hvalue
    exact read_congr fun place hplace =>
      heap_ensureDefaults block heap (hplaced place (hplace ▸ hvalue))
  by_cases hkey : key = "disabledAddresses"
  · subst hkey
    cases hlookup : block.lookup "disabledAddresses" with
    | none =>
      have harray : newDisabledAddresses heap block = some (.array []) := by
        simp [newDisabledAddresses, hlookup, Value.falsy]
      rw [ensureDefaults_of_some block heap next harray]
      simp [AList.lookup_insert, Value.read, builtIn]
    | some value =>
      have harray : newDisabledAddresses heap block = none := by
        have hisArray := haddresses value hlookup
        have htruthy : value.falsy = false := by
          cases value with
          | object place => rfl
          | undefined => exact nomatch hisArray
          | scalar value => exact nomatch hisArray
        simp [newDisabledAddresses, hlookup, htruthy, hisArray]
      rw [ensureDefaults_of_none block heap next harray, lookup_ensureMaxConnections,
        if_neg fun h => absurd h.1 (by decide), hlookup]
      rfl
  · rw [lookup_ensureDefaults_of_ne block heap next hkey, lookup_ensureMaxConnections]
    cases hlookup : block.lookup key with
    | some value =>
      rw [if_neg, Option.getD_some]
      · exact hread value hlookup
      · rintro ⟨rfl, hfalsy⟩
        rw [hlookup, Option.getD_some, hmax value hlookup] at hfalsy
        exact nomatch hfalsy
    | none =>
      by_cases hkey' : key = "maxConnections"
      · subst hkey'
        simp [hlookup, Value.falsy, Value.read, builtIn]
      · rw [if_neg fun h => hkey' h.1, builtIn_of_ne hkey' hkey]
        rfl

/-- A default, where the constructor keeps the values under `defaults`. -/
theorem read_default_of_kept (hplaced : Placed next options)
    (hmax : ∀ value, configured options "defaults" "maxConnections" = some value →
      value.falsy = false)
    (haddresses : ∀ value, configured options "defaults" "disabledAddresses" = some value →
      value.isArray heap = true) (key : String) :
    (((new heap next options).defaults.lookup key).getD .undefined).read
      (new heap next options).heap = fallback heap options "defaults" key := by
  rw [fallback, (new_frame heap next options).1, (new_frame heap next options).2.2.1]
  simp only [configured_defaults] at hmax haddresses ⊢
  refine read_ensureDefaults (fun place hplace => ?_) hmax haddresses
  exact hplaced "defaults" key place (by rw [configured_defaults, hplace])

/-- A default, where the configuration has the same under `defaults`. -/
theorem read_default (hplaced : Placed next options) (hagrees : Agrees heap options)
    (key : String) :
    (((new heap next options).defaults.lookup key).getD .undefined).read
      (new heap next options).heap = fallback heap options "default" key := by
  rw [hagrees.same]
  exact read_default_of_kept hplaced hagrees.maxConnections hagrees.disabledAddresses key

theorem resolved_default (heap : Nat → Json) (options : Map String (Option (Map String Value)))
    (key : String) : resolved heap options "default" key = fallback heap options "default" key := by
  rw [resolved]
  cases hconf : configured options "default" key with
  | none => rfl
  | some value => rw [fallback, hconf]

/-- The domains with a value of their own in the beginning. -/
theorem own_new_cases (heap : Nat → Json) (next : Nat)
    (options : Map String (Option (Map String Value))) (domain key : String) :
    (new heap next options).own domain key = configured options domain key ∨
      ((new heap next options).own domain key = none ∨
        (new heap next options).own domain key = (new heap next options).defaults.lookup key) ∧
      (domain = "default" ∨ domain = "defaults") := by
  rw [own_new]
  split
  · next h => exact Or.inr ⟨Or.inl rfl, Or.inl h⟩
  · split
    · next h => exact Or.inr ⟨Or.inr rfl, Or.inr h.1⟩
    · exact Or.inl rfl

/-- Where a domain has no other value than the default. -/
theorem content_of_own {c : DomainConfig} {domain key : String}
    (h : c.own domain key = none ∨ c.own domain key = c.defaults.lookup key) :
    c.content domain key = ((c.defaults.lookup key).getD .undefined).read c.heap := by
  rw [content_eq]
  rcases h with h | h
  · rw [h, Option.getD_none]
  · rw [h]
    cases c.defaults.lookup key with
    | none => rfl
    | some value => rfl

/-- The layers are resolved in the beginning, where the configuration agrees. -/
theorem content_new (hplaced : Placed next options) (hagrees : Agrees heap options)
    (domain key : String) :
    (new heap next options).content domain key = resolved heap options domain key := by
  rcases own_new_cases heap next options domain key with h | ⟨h, hdomain⟩
  · rw [content_eq, h, resolved]
    cases hconf : configured options domain key with
    | none => exact read_default hplaced hagrees key
    | some value =>
      refine read_congr fun place hplace => ?_
      rw [(new_frame heap next options).1]
      exact heap_ensureDefaults _ heap (hplaced domain key place (hplace ▸ hconf))
  · rw [content_of_own h, read_default hplaced hagrees, resolved]
    cases hconf : configured options domain key with
    | none => rfl
    | some value =>
      rcases hdomain with rfl | rfl
      · rw [fallback, hconf]
      · rw [hagrees.same, fallback, hconf]

theorem agrees_of_content_new (hplaced : Placed next options)
    (h : ∀ domain key, (new heap next options).content domain key =
      resolved heap options domain key) : Agrees heap options := by
  have hown : ∀ key value, configured options "defaults" key = some value →
      (new heap next options).own "defaults" key =
        (new heap next options).defaults.lookup key := by
    intro key value hconf
    have hblock : (options.lookup "defaults").join.isSome = true := by
      rw [configured] at hconf
      cases hjoin : (options.lookup "defaults").join with
      | none => rw [hjoin] at hconf; exact nomatch hconf
      | some block => rfl
    rw [own_new, if_neg (by decide), if_pos ⟨rfl, hblock⟩]
  -- the domain `defaults` shows what the constructor has made of its block
  have hshown : ∀ key value, configured options "defaults" key = some value →
      (((new heap next options).defaults.lookup key).getD .undefined).read
        (new heap next options).heap = value.read heap := by
    intro key value hconf
    rw [← content_of_own (Or.inr (hown key value hconf)), h, resolved, hconf]
  have hmax : ∀ value, configured options "defaults" "maxConnections" = some value →
      value.falsy = false := by
    intro value hconf
    by_contra hfalsy
    rw [Bool.not_eq_false] at hfalsy
    have hcontent := hshown _ value hconf
    rw [(new_frame heap next options).2.2.1, lookup_ensureDefaults_of_ne _ _ _ (by decide),
      lookup_ensureMaxConnections, ← configured_defaults, hconf,
      if_pos ⟨rfl, by rw [Option.getD_some, hfalsy]⟩] at hcontent
    have hfive : value.read heap = some (.scalar (.number 5)) := hcontent.symm
    cases value with
    | undefined => exact nomatch hfive
    | object place => exact nomatch hfalsy
    | scalar value =>
      obtain rfl := Json.scalar.inj (Option.some.inj hfive)
      exact absurd hfalsy (by decide)
  have haddresses : ∀ value, configured options "defaults" "disabledAddresses" = some value →
      value.isArray heap = true := by
    intro value hconf
    by_contra hisArray
    have hcontent := hshown _ value hconf
    have hnew : ∃ items, newDisabledAddresses heap
        ((options.lookup "defaults").join.getD ∅) = some (.array items) := by
      rw [newDisabledAddresses, ← configured_defaults, hconf]
      by_cases hfalsy : value.falsy = true
      · exact ⟨[], by simp [hfalsy]⟩
      · exact ⟨_, by simp only [Option.getD_some, if_neg hfalsy, if_neg hisArray]; rfl⟩
    obtain ⟨items, harray⟩ := hnew
    rw [(new_frame heap next options).1, (new_frame heap next options).2.2.1,
      ensureDefaults_of_some _ heap next harray, AList.lookup_insert] at hcontent
    have hitems : value.read heap = some (.array items) := by
      rw [← hcontent]
      exact congrArg some (Function.update_self ..)
    cases value with
    | undefined => exact nomatch hitems
    | scalar value => exact nomatch hitems
    | object place =>
      have hplace : heap place = .array items := Option.some.inj hitems
      exact hisArray (by simp [Value.isArray, hplace])
  refine ⟨fun key => ?_, hmax, haddresses⟩
  -- the domain `default` has the defaults only
  have hdefault : (new heap next options).own "default" key = none := by
    rw [own_new, if_pos rfl]
  rw [← resolved_default, ← h, content_of_own (Or.inl hdefault)]
  exact read_default_of_kept hplaced hmax haddresses key

/-! ## Runs -/

/-- What can be done with a `DomainConfig`. -/
inductive Op where
  | set (domain key : String) (value : Value)
  | remove (domain key : String)
  | get (domain key : String)
  /-- the content of a clone that `get` has returned is changed -/
  | mutate (place : Nat) (content : Json)

/-- A `DomainConfig`, and what was set last and not removed since. -/
structure Tracked where
  config : DomainConfig
  assigned : String → String → Option Value

namespace Tracked

/-- What was set last, behind one more operation. -/
def assign (w : Tracked) (domain key : String) (value : Option Value) :
    String → String → Option Value :=
  fun domain' key' => if domain' = domain ∧ key' = key then value else w.assigned domain' key'

def step (w : Tracked) : Op → Option Tracked
  | .set domain key value =>
    some ⟨w.config.set domain key value, w.assign domain key (some value)⟩
  | .remove domain key => some ⟨w.config.remove domain key, w.assign domain key none⟩
  | .get domain key => some ⟨(w.config.get domain key).2, w.assigned⟩
  | .mutate place content =>
    if place ∈ w.config.clones then some ⟨w.config.mutate place content, w.assigned⟩ else none

/-- A `DomainConfig` after its constructor. -/
def start (heap : Nat → Json) (next : Nat) (options : Map String (Option (Map String Value))) :
    Tracked :=
  ⟨new heap next options, fun _ _ => none⟩

section

variable (heap : Nat → Json) (next : Nat) (options : Map String (Option (Map String Value)))

/-- What `get` should return. -/
def expected (w : Tracked) (domain key : String) : Option Json :=
  match w.assigned domain key with
  | some value => value.read w.config.heap
  | none => resolved heap options domain key

/-- `get` returns what it should. -/
def Resolves (w : Tracked) : Prop :=
  ∀ domain key, w.config.content domain key = w.expected heap options domain key

/-- The operation removes no value that the configuration has for a domain, unless it is the one of
    the block `default`. -/
def Keeps : Op → Prop
  | .remove domain key => ∀ value, configured options domain key = some value →
      value.read heap = fallback heap options "default" key
  | _ => True

/-- What holds in every run. -/
structure Inv (w : Tracked) : Prop where
  heap_eq : ∀ place, place < next + 1 → w.config.heap place = (new heap next options).heap place
  next_le : next + 1 ≤ w.config.next
  clones_ge : ∀ place ∈ w.config.clones, next + 1 ≤ place
  defaults_eq : w.config.defaults = (new heap next options).defaults
  assigned : ∀ domain key value, w.assigned domain key = some value →
    w.config.own domain key = some value
  unassigned : ∀ domain key, w.assigned domain key = none →
    w.config.own domain key = none ∨
      w.config.own domain key = (new heap next options).own domain key

end

theorem inv_start : Inv heap next options (start heap next options) where
  heap_eq _ _ := rfl
  next_le := Nat.le_of_eq (new_frame heap next options).2.1.symm
  clones_ge := by
    rw [start, (new_frame heap next options).2.2.2]
    exact fun _ h => absurd h List.not_mem_nil
  defaults_eq := rfl
  assigned _ _ _ h := nomatch h
  unassigned _ _ _ := Or.inr rfl

theorem remove_frame (c : DomainConfig) (domain key : String) :
    (c.remove domain key).heap = c.heap ∧ (c.remove domain key).next = c.next ∧
      (c.remove domain key).defaults = c.defaults ∧ (c.remove domain key).clones = c.clones := by
  rw [remove]
  split
  · exact ⟨rfl, rfl, rfl, rfl⟩
  · split
    · exact ⟨rfl, rfl, rfl, rfl⟩
    · dsimp only
      split
      · exact ⟨rfl, rfl, rfl, rfl⟩
      · exact ⟨rfl, rfl, rfl, rfl⟩

theorem own_get (c : DomainConfig) (domain key domain' key' : String) :
    (c.get domain key).2.own domain' key' = c.own domain' key' := by
  rcases get_cases c domain key with h | ⟨place, -, h⟩
  · rw [h]
  · rw [h]
    rfl

theorem inv_step {w w' : Tracked} {op : Op} (h : Inv heap next options w)
    (hstep : step w op = some w') : Inv heap next options w' := by
  cases op with
  | set domain key value =>
    obtain rfl := Option.some.inj hstep
    refine ⟨h.heap_eq, h.next_le, h.clones_ge, h.defaults_eq, ?_, ?_⟩
    · intro domain' key' value' hassigned
      simp only [assign] at hassigned
      rw [own_set]
      split at hassigned
      · next hsame => rw [if_pos hsame, hassigned]
      · next hother => rw [if_neg hother, h.assigned domain' key' value' hassigned]
    · intro domain' key' hassigned
      simp only [assign] at hassigned
      rw [own_set]
      split at hassigned
      · exact nomatch hassigned
      · next hother => rw [if_neg hother]; exact h.unassigned domain' key' hassigned
  | remove domain key =>
    obtain rfl := Option.some.inj hstep
    obtain ⟨hheap, hnext, hdefaults, hclones⟩ := remove_frame w.config domain key
    refine ⟨fun place hplace => ?_, hnext ▸ h.next_le, hclones ▸ h.clones_ge,
      hdefaults.trans h.defaults_eq, ?_, ?_⟩
    · rw [hheap]
      exact h.heap_eq place hplace
    · intro domain' key' value' hassigned
      simp only [assign] at hassigned
      rw [own_remove]
      split at hassigned
      · exact nomatch hassigned
      · next hother => rw [if_neg hother, h.assigned domain' key' value' hassigned]
    · intro domain' key' hassigned
      simp only [assign] at hassigned
      rw [own_remove]
      split at hassigned
      · next hsame => exact Or.inl (if_pos hsame)
      · next hother => rw [if_neg hother]; exact h.unassigned domain' key' hassigned
  | get domain key =>
    obtain rfl := Option.some.inj hstep
    have hown := own_get w.config domain key
    refine ⟨?_, ?_, ?_, ?_, fun domain' key' value' hassigned => ?_,
      fun domain' key' hassigned => ?_⟩
    · intro place hplace
      rcases get_cases w.config domain key with hget | ⟨place', -, hget⟩
      · rw [hget, h.heap_eq place hplace]
      · have hne : place ≠ w.config.next := Nat.ne_of_lt (Nat.lt_of_lt_of_le hplace h.next_le)
        rw [hget]
        dsimp only
        rw [Function.update_of_ne hne, h.heap_eq place hplace]
    · rcases get_cases w.config domain key with hget | ⟨place', -, hget⟩
      · rw [hget]
        exact h.next_le
      · rw [hget]
        exact Nat.le_succ_of_le h.next_le
    · rcases get_cases w.config domain key with hget | ⟨place', -, hget⟩
      · rw [hget]
        exact h.clones_ge
      · rw [hget]
        intro place hplace
        rcases List.mem_cons.mp hplace with rfl | hplace
        · exact h.next_le
        · exact h.clones_ge place hplace
    · rcases get_cases w.config domain key with hget | ⟨place', -, hget⟩
      · rw [hget, h.defaults_eq]
      · rw [hget]
        exact h.defaults_eq
    · rw [hown]
      exact h.assigned domain' key' value' hassigned
    · rw [hown]
      exact h.unassigned domain' key' hassigned
  | mutate place content =>
    simp only [step] at hstep
    split at hstep
    · next hclone =>
      obtain rfl := Option.some.inj hstep
      refine ⟨fun place' hplace' => ?_, h.next_le, h.clones_ge, h.defaults_eq, h.assigned,
        h.unassigned⟩
      have hge := h.clones_ge place hclone
      have hne : place' ≠ place := by omega
      exact (Function.update_of_ne hne _ _).trans (h.heap_eq place' hplace')
    · exact nomatch hstep

/-! ## The values of the constructor -/

theorem placed_defaults (hplaced : Placed next options) {key : String} {place : Nat}
    (h : (new heap next options).defaults.lookup key = some (.object place)) : place < next + 1 := by
  rw [(new_frame heap next options).2.2.1] at h
  have hmax : (ensureMaxConnections ((options.lookup "defaults").join.getD ∅)).lookup key =
      some (.object place) → place < next + 1 := by
    rw [lookup_ensureMaxConnections]
    split
    · exact fun h => nomatch h
    · intro h
      rw [← configured_defaults] at h
      exact Nat.lt_succ_of_lt (hplaced "defaults" key place h)
  by_cases hkey : key = "disabledAddresses"
  · cases harray : newDisabledAddresses heap ((options.lookup "defaults").join.getD ∅) with
    | none =>
      rw [ensureDefaults_of_none _ heap next harray] at h
      exact hmax h
    | some array =>
      rw [ensureDefaults_of_some _ heap next harray, hkey, AList.lookup_insert] at h
      obtain rfl := Value.object.inj (Option.some.inj h)
      exact Nat.lt_succ_self _
  · rw [lookup_ensureDefaults_of_ne _ heap next hkey] at h
    exact hmax h

theorem placed_own (hplaced : Placed next options) {domain key : String} {place : Nat}
    (h : (new heap next options).own domain key = some (.object place)) : place < next + 1 := by
  rw [own_new] at h
  split at h
  · exact nomatch h
  · split at h
    · exact placed_defaults hplaced h
    · exact Nat.lt_succ_of_lt (hplaced domain key place h)

/-- The content of a default never changes. -/
theorem read_default_eq (hplaced : Placed next options) {w : Tracked}
    (h : Inv heap next options w) (key : String) :
    ((w.config.defaults.lookup key).getD .undefined).read w.config.heap =
      (((new heap next options).defaults.lookup key).getD .undefined).read
        (new heap next options).heap := by
  rw [h.defaults_eq]
  refine read_congr fun place hplace => h.heap_eq place ?_
  cases hlookup : (new heap next options).defaults.lookup key with
  | none => rw [hlookup] at hplace; exact nomatch hplace
  | some value =>
    rw [hlookup, Option.getD_some] at hplace
    exact placed_defaults hplaced (hplace ▸ hlookup)

/-! ## The layers in a run -/

/-- A change of a clone is seen nowhere else, unless the clone was set there. -/
theorem content_mutate (hplaced : Placed next options) {w : Tracked}
    (h : Inv heap next options w) {place : Nat} (hclone : place ∈ w.config.clones) (json : Json)
    {domain key : String} (hown : w.config.own domain key ≠ some (.object place)) :
    (w.config.mutate place json).content domain key = w.config.content domain key := by
  have hmutate : (w.config.mutate place json).own domain key = w.config.own domain key := rfl
  rw [content_eq, content_eq, hmutate]
  refine read_congr fun place' hplace' => Function.update_of_ne ?_ _ _
  rintro rfl
  cases hvalue : w.config.own domain key with
  | some value =>
    rw [hvalue, Option.getD_some] at hplace'
    exact hown (hplace' ▸ hvalue)
  | none =>
    rw [hvalue, Option.getD_none] at hplace'
    cases hlookup : w.config.defaults.lookup key with
    | none => exact nomatch (congrArg (·.getD .undefined) hlookup).symm.trans hplace'
    | some value =>
      have hdefault : (w.config.mutate place' json).defaults.lookup key = some value := hlookup
      rw [hdefault, Option.getD_some] at hplace'
      have hlt := placed_defaults hplaced (h.defaults_eq ▸ hplace' ▸ hlookup)
      have hge := h.clones_ge place' hclone
      omega

/-- What `get` returns where nothing is set. -/
theorem content_unassigned (hplaced : Placed next options) {w : Tracked}
    (h : Inv heap next options w) {domain key : String} (hnone : w.assigned domain key = none)
    (hown : w.config.own domain key ≠ none) :
    w.config.content domain key = (new heap next options).content domain key := by
  have hsame := (h.unassigned domain key hnone).resolve_left hown
  rw [content_eq, content_eq, hsame]
  cases hvalue : (new heap next options).own domain key with
  | none => exact absurd (hsame.trans hvalue) hown
  | some value =>
    refine read_congr fun place hplace => h.heap_eq place ?_
    rw [Option.getD_some] at hplace
    exact placed_own hplaced (hplace ▸ hvalue)

/-- What `get` returns where a value is set. -/
theorem content_assigned {w : Tracked} (h : Inv heap next options w) {domain key : String}
    {value : Value} (hvalue : w.assigned domain key = some value) :
    w.config.content domain key = value.read w.config.heap := by
  rw [content_eq, h.assigned domain key value hvalue, Option.getD_some]

/-- What `get` returns where there is nothing but a default. -/
theorem content_default (hplaced : Placed next options) (hagrees : Agrees heap options)
    {w : Tracked} (h : Inv heap next options w) {domain key : String}
    (hown : w.config.own domain key = none) :
    w.config.content domain key = fallback heap options "default" key := by
  rw [content_of_own (Or.inl hown), read_default_eq hplaced h, read_default hplaced hagrees]

/-- The layers are resolved where no value that is configured for a domain is missing. -/
theorem resolves_iff_unassigned (hplaced : Placed next options) (hagrees : Agrees heap options)
    {w : Tracked} (h : Inv heap next options w) :
    Resolves heap options w ↔ ∀ domain key, w.assigned domain key = none →
      w.config.own domain key = none →
      resolved heap options domain key = fallback heap options "default" key := by
  constructor
  · intro hres domain key hnone hown
    have hexpected := hres domain key
    rw [content_default hplaced hagrees h hown, expected, hnone] at hexpected
    exact hexpected.symm
  · intro hmissing domain key
    rw [expected]
    cases hassigned : w.assigned domain key with
    | some value => exact content_assigned h hassigned
    | none =>
      by_cases hown : w.config.own domain key = none
      · exact (content_default hplaced hagrees h hown).trans
          (hmissing domain key hassigned hown).symm
      · exact (content_unassigned hplaced h hassigned hown).trans
          (content_new hplaced hagrees domain key)

theorem resolves_step (hplaced : Placed next options) (hagrees : Agrees heap options)
    {w w' : Tracked} {op : Op} (h : Inv heap next options w) (hres : Resolves heap options w)
    (hkeeps : Keeps heap options op) (hstep : step w op = some w') :
    Resolves heap options w' := by
  have hmissing := (resolves_iff_unassigned hplaced hagrees h).mp hres
  refine (resolves_iff_unassigned hplaced hagrees (inv_step h hstep)).mpr ?_
  intro domain' key' hnone hown
  cases op with
  | set domain key value =>
    obtain rfl := Option.some.inj hstep
    simp only [assign] at hnone
    rw [own_set] at hown
    split at hnone
    · exact nomatch hnone
    · next hother =>
      rw [if_neg hother] at hown
      exact hmissing domain' key' hnone hown
  | remove domain key =>
    obtain rfl := Option.some.inj hstep
    simp only [assign] at hnone
    rw [own_remove] at hown
    by_cases hsame : domain' = domain ∧ key' = key
    · rw [hsame.1, hsame.2, resolved]
      cases hconf : configured options domain key with
      | none => rfl
      | some value => exact hkeeps value hconf
    · rw [if_neg hsame] at hnone hown
      exact hmissing domain' key' hnone hown
  | get domain key =>
    obtain rfl := Option.some.inj hstep
    rw [own_get] at hown
    exact hmissing domain' key' hnone hown
  | mutate place content =>
    simp only [step] at hstep
    split at hstep
    · obtain rfl := Option.some.inj hstep
      exact hmissing domain' key' hnone hown
    · exact nomatch hstep

theorem not_resolves_step (hplaced : Placed next options) (hagrees : Agrees heap options)
    {w w' : Tracked} {op : Op} (h : Inv heap next options w) (hkeeps : ¬Keeps heap options op)
    (hstep : step w op = some w') : ¬Resolves heap options w' := by
  cases op with
  | remove domain key =>
    have hinv := inv_step h hstep
    obtain rfl := Option.some.inj hstep
    intro hres
    apply hkeeps
    intro value hconf
    have hmissing := (resolves_iff_unassigned hplaced hagrees hinv).mp hres domain key
      (if_pos ⟨rfl, rfl⟩) (by rw [own_remove, if_pos ⟨rfl, rfl⟩])
    rw [resolved, hconf] at hmissing
    exact hmissing
  | set | get | mutate => exact absurd trivial hkeeps

/-- In every run, `get` returns what was set last, what is configured for the domain or in the block
    `default`, or the built-in default, if and only if that block says nothing else than the block
    `defaults` and no configured value of a domain is removed. A change of a clone is never seen
    elsewhere. -/
theorem resolves_iff (hplaced : Placed next options) {es : List Op} {w : Tracked}
    (hrun : run step (start heap next options) es = some w) :
    (Throughout step (Resolves heap options) (start heap next options) es ↔
      Agrees heap options ∧
        Along step (fun _ => Keeps heap options) (start heap next options) es) ∧
      ∀ place ∈ w.config.clones, ∀ json domain key,
        w.config.own domain key ≠ some (.object place) →
        (w.config.mutate place json).content domain key = w.config.content domain key := by
  have hinv : Inv heap next options w :=
    ForStd.run_invariant (fun _ _ _ h hstep => inv_step h hstep) inv_start hrun
  refine ⟨?_, fun place hclone json domain key => content_mutate hplaced hinv hclone json⟩
  have hiff (hagrees : Agrees heap options) :
      Throughout step (Resolves heap options) (start heap next options) es ↔
        Along step (fun _ => Keeps heap options) (start heap next options) es :=
    ForStd.throughout_iff_along
      (I := fun w => Inv heap next options w ∧ Resolves heap options w)
      (fun _ _ _ h hkeeps hstep =>
        ⟨inv_step h.1 hstep, resolves_step hplaced hagrees h.1 h.2 hkeeps hstep⟩)
      (fun _ _ _ h hkeeps hstep => not_resolves_step hplaced hagrees h.1 hkeeps hstep)
      (fun _ h => h.2) ⟨inv_start, content_new hplaced hagrees⟩ hrun
  constructor
  · intro hall
    have hfirst : Resolves heap options (start heap next options) := by
      cases es with
      | nil => exact hall
      | cons op es => exact hall.1
    have hagrees := agrees_of_content_new hplaced hfirst
    exact ⟨hagrees, (hiff hagrees).mp hall⟩
  · rintro ⟨hagrees, hkeeps⟩
    exact (hiff hagrees).mpr hkeeps

/-- A configuration with one value. -/
def oneValue (domain key : String) (n : ℚ) : Map String (Option (Map String Value)) :=
  (∅ : Map String (Option (Map String Value))).insert domain
    (some ((∅ : Map String Value).insert key (.scalar (.number n))))

theorem configured_oneValue (domain key domain' key' : String) (n : ℚ) :
    configured (oneValue domain key n) domain' key' =
      if domain' = domain ∧ key' = key then some (.scalar (.number n)) else none := by
  rw [configured, oneValue, lookup_insert]
  by_cases hdomain : domain' = domain
  · simp only [hdomain, if_true, Option.join_some, Option.bind_some, lookup_insert,
      AList.lookup_empty, true_and]
  · rw [if_neg hdomain, if_neg fun h => hdomain h.1, AList.lookup_empty]
    rfl

theorem placed_oneValue (next : Nat) (domain key : String) (n : ℚ) :
    Placed next (oneValue domain key n) := by
  intro domain' key' place h
  rw [configured_oneValue] at h
  split at h
  · exact nomatch h
  · exact nomatch h

theorem agrees_oneValue : Agrees (fun _ => .array []) (oneValue "hot.ee" "maxConnections" 3) := by
  have hnone : ∀ {domain} key, domain ≠ "hot.ee" →
      configured (oneValue "hot.ee" "maxConnections" 3) domain key = none := by
    intro domain key hne
    rw [configured_oneValue, if_neg fun h => hne h.1]
  refine ⟨fun key => ?_, fun value h => ?_, fun value h => ?_⟩
  · rw [fallback, fallback, hnone key (by decide), hnone key (by decide)]
  · rw [hnone _ (by decide)] at h
    exact nomatch h
  · rw [hnone _ (by decide)] at h
    exact nomatch h

/-- A value that is configured for a domain, and set to another one. -/
theorem resolves_set :
    Throughout step (Resolves (fun _ => .array []) (oneValue "hot.ee" "maxConnections" 3))
      (start (fun _ => .array []) 0 (oneValue "hot.ee" "maxConnections" 3))
      [.get "hot.ee" "maxConnections",
        .set "hot.ee" "maxConnections" (.scalar (.number 1))] := by
  obtain ⟨w, hrun⟩ : ∃ w, run step
      (start (fun _ => .array []) 0 (oneValue "hot.ee" "maxConnections" 3))
      [.get "hot.ee" "maxConnections",
        .set "hot.ee" "maxConnections" (.scalar (.number 1))] = some w := ⟨_, rfl⟩
  have hiff := (resolves_iff (placed_oneValue 0 "hot.ee" "maxConnections" 3) hrun).1
  exact hiff.mpr ⟨agrees_oneValue, trivial, fun _ _ => ⟨trivial, fun _ _ => trivial⟩⟩

/-- The block `default` is not read, and a value that is configured is removed for good. -/
theorem not_resolves :
    ¬Resolves (fun _ => .array []) (oneValue "default" "maxConnections" 10)
        (start (fun _ => .array []) 0 (oneValue "default" "maxConnections" 10)) ∧
      ¬Throughout step (Resolves (fun _ => .array []) (oneValue "hot.ee" "maxConnections" 3))
        (start (fun _ => .array []) 0 (oneValue "hot.ee" "maxConnections" 3))
        [.remove "hot.ee" "maxConnections"] := by
  constructor
  · intro h
    have hten := h "example.com" "maxConnections"
    have hfive : some (Json.scalar (.number 5)) = some (Json.scalar (.number 10)) := hten
    have hnumbers := Scalar.number.inj (Json.scalar.inj (Option.some.inj hfive))
    exact absurd hnumbers (by decide)
  · intro h
    have hthree := h.2 _ rfl "hot.ee" "maxConnections"
    have hfive : some (Json.scalar (.number 5)) = some (Json.scalar (.number 3)) := hthree
    have hnumbers := Scalar.number.inj (Json.scalar.inj (Option.some.inj hfive))
    exact absurd hnumbers (by decide)

end Tracked

end DomainConfig

end SendingZones

end ZoneMta
