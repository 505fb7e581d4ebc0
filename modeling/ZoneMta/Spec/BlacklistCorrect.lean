import Mathlib
import ZoneMta.ForStd.Transition
import ZoneMta.Native.Blacklist
import ZoneMta.Spec.TtlCacheCorrect

/-!
# The blacklist and its cache entries

An address that is blacklisted for a domain is in two places: in the array of the domain, and
under a key of the cache whose callback takes it out of the array again. The invariant is that
the array of a domain has the addresses of the configuration, and behind them those whose entry
is in the cache or whose callback has been scheduled and has not run.

## Key results

- `assigns_set`, `assigns_remove`: what the changes of one array do to the lists of the domains
- `inv_step`: the invariant
- `not_inStep`: what a step against the condition breaks
- `waiting_step`: the callbacks that wait
- `in_step_iff`: the runs in which the two places agree
- `in_step_reload`: a reload, and an address that stays disabled
-/

namespace ZoneMta

open ForStd (run Along Throughout throughout_iff_along)

namespace DomainConfig

/-! ## The arrays -/

/-- No two domains share an array. -/
structure Apart (c : DomainConfig) : Prop where
  defaults : c.defaults < c.nextArray
  allocated : ∀ domain array, c.domains.lookup domain = some array → array < c.nextArray
  inj : ∀ domain domain' array, c.domains.lookup domain = some array →
    c.domains.lookup domain' = some array → domain = domain'

/-- The array of the domain is not that of the defaults. -/
def Own (c : DomainConfig) (domain : String) : Prop :=
  c.domains.lookup domain ≠ some c.defaults

theorem disabledAddresses_eq (c : DomainConfig) (domain : String) :
    c.disabledAddresses domain =
      match c.domains.lookup domain with
      | some array => c.arrays array
      | none => c.arrays c.defaults := by
  unfold disabledAddresses get
  cases c.domains.lookup domain with
  | none => exact Function.update_self c.nextArray _ c.arrays
  | some array => rfl

/-- The list of one domain is assigned; those of the others and the defaults stay. -/
structure Assigns (c c' : DomainConfig) (domain : String) (addresses : List String) : Prop where
  apart : c'.Apart
  defaults : c'.arrays c'.defaults = c.arrays c.defaults
  own : ∀ domain', c'.Own domain' ↔ c.Own domain'
  lists : ∀ domain', c'.disabledAddresses domain' =
    if domain' = domain then addresses else c.disabledAddresses domain'

variable {c : DomainConfig} {domain : String}

/-- What `get` returns: an array of the domain only. -/
structure Gets (c : DomainConfig) (domain : String) (array : Nat) (c' : DomainConfig) : Prop where
  allocated : array < c'.nextArray
  next : c.nextArray ≤ c'.nextArray
  domains : c'.domains = c.domains
  defaults : c'.defaults = c.defaults
  arrays : ∀ other < c.nextArray, c'.arrays other = c.arrays other
  other : ∀ domain', c.domains.lookup domain' = some array → domain' = domain
  ne : c.Own domain → array ≠ c.defaults
  list : c'.arrays array = c.disabledAddresses domain

theorem gets_get (hc : c.Apart) (domain : String) :
    Gets c domain (c.get domain).1 (c.get domain).2 := by
  unfold get
  cases hdomain : c.domains.lookup domain with
  | some array =>
    exact
      { allocated := hc.allocated domain array hdomain
        next := Nat.le_refl _
        domains := rfl
        defaults := rfl
        arrays := fun _ _ => rfl
        other := fun domain' h => hc.inj domain' domain array h hdomain
        ne := fun hown heq => hown (heq ▸ hdomain)
        list := by rw [disabledAddresses_eq, hdomain] }
  | none =>
    exact
      { allocated := Nat.lt_succ_self _
        next := Nat.le_succ _
        domains := rfl
        defaults := rfl
        arrays := fun other h => Function.update_of_ne (Nat.ne_of_lt h) _ _
        other := fun domain' h => absurd (hc.allocated domain' _ h) (Nat.lt_irrefl _)
        ne := fun _ => (Nat.ne_of_lt hc.defaults).symm
        list := by
          rw [disabledAddresses_eq, hdomain]
          exact Function.update_self c.nextArray _ c.arrays }

/-- `get` changes no list. -/
theorem assigns_get (hc : c.Apart) (domain : String) :
    Assigns c (c.get domain).2 domain (c.disabledAddresses domain) := by
  have hget := gets_get hc domain
  have hdefaults := hget.arrays c.defaults hc.defaults
  refine ⟨⟨?_, ?_, ?_⟩, ?_, fun domain' => ?_, fun domain' => ?_⟩
  · rw [hget.defaults]
    exact Nat.lt_of_lt_of_le hc.defaults hget.next
  · intro domain' array h
    rw [hget.domains] at h
    exact Nat.lt_of_lt_of_le (hc.allocated domain' array h) hget.next
  · rw [hget.domains]
    exact hc.inj
  · rw [hget.defaults, hdefaults]
  · rw [Own, Own, hget.domains, hget.defaults]
  · have hsame : (c.get domain).2.disabledAddresses domain' = c.disabledAddresses domain' := by
      rw [disabledAddresses_eq, disabledAddresses_eq, hget.domains, hget.defaults, hdefaults]
      cases hdomain' : c.domains.lookup domain' with
      | none => rfl
      | some array => exact hget.arrays array (hc.allocated domain' array hdomain')
    rw [hsame]
    split
    · next h => rw [h]
    · rfl

/-- The array that `get` returns is changed, and it is the array of the domain after that or the
    domain has none. -/
theorem assigns_of {c₁ c' : DomainConfig} {array : Nat} {own : Option Nat}
    {addresses : List String} (hc : c.Apart) (hown : c.Own domain) (hget : Gets c domain array c₁)
    (harray : own = some array ∨ own = none)
    (hlookup : ∀ domain', c'.domains.lookup domain' =
      if domain' = domain then own else c.domains.lookup domain')
    (harrays : c'.arrays = Function.update c₁.arrays array addresses)
    (hdefaults : c'.defaults = c₁.defaults) (hnext : c'.nextArray = c₁.nextArray) :
    Assigns c c' domain
      (match own with | some _ => addresses | none => c.arrays c.defaults) := by
  have hdefault : c'.arrays c'.defaults = c.arrays c.defaults := by
    rw [harrays, hdefaults, hget.defaults, Function.update_of_ne (hget.ne hown).symm]
    exact hget.arrays c.defaults hc.defaults
  -- the arrays of the other domains
  have hother : ∀ domain' other, domain' ≠ domain → c.domains.lookup domain' = some other →
      other ≠ array ∧ c'.arrays other = c.arrays other := by
    intro domain' other hne hdomain'
    have hne' : other ≠ array := by
      rintro rfl
      exact hne (hget.other domain' hdomain')
    refine ⟨hne', ?_⟩
    rw [harrays, Function.update_of_ne hne']
    exact hget.arrays other (hc.allocated domain' other hdomain')
  refine ⟨⟨?_, ?_, ?_⟩, hdefault, fun domain' => ?_, fun domain' => ?_⟩
  · rw [hdefaults, hnext, hget.defaults]
    exact Nat.lt_of_lt_of_le hc.defaults hget.next
  · intro domain' other h
    rw [hlookup] at h
    rw [hnext]
    split at h
    · rcases harray with rfl | rfl
      · exact Option.some.inj h ▸ hget.allocated
      · exact nomatch h
    · exact Nat.lt_of_lt_of_le (hc.allocated domain' other h) hget.next
  · intro domain₁ domain₂ other h₁ h₂
    rw [hlookup] at h₁ h₂
    by_cases hd₁ : domain₁ = domain
    · rw [if_pos hd₁] at h₁
      by_cases hd₂ : domain₂ = domain
      · rw [hd₁, hd₂]
      · rw [if_neg hd₂] at h₂
        rcases harray with rfl | rfl
        · exact absurd (Option.some.inj h₁).symm (hother domain₂ other hd₂ h₂).1
        · exact nomatch h₁
    · rw [if_neg hd₁] at h₁
      by_cases hd₂ : domain₂ = domain
      · rw [if_pos hd₂] at h₂
        rcases harray with rfl | rfl
        · exact absurd (Option.some.inj h₂).symm (hother domain₁ other hd₁ h₁).1
        · exact nomatch h₂
      · rw [if_neg hd₂] at h₂
        exact hc.inj domain₁ domain₂ other h₁ h₂
  · rw [Own, Own, hlookup, hdefaults, hget.defaults]
    split
    · next h =>
      rw [h]
      refine iff_of_true ?_ hown
      rcases harray with rfl | rfl
      · exact fun heq => hget.ne hown (Option.some.inj heq)
      · exact nofun
    · exact Iff.rfl
  · rw [disabledAddresses_eq, hlookup]
    by_cases hd : domain' = domain
    · rw [if_pos hd, if_pos hd]
      rcases harray with rfl | rfl
      · show c'.arrays array = addresses
        rw [harrays, Function.update_self]
      · exact hdefault
    · rw [if_neg hd, if_neg hd, disabledAddresses_eq]
      cases hdomain' : c.domains.lookup domain' with
      | none => exact hdefault
      | some other => exact (hother domain' other hd hdomain').2

/-- The array that `get` returns, changed and assigned to the domain. -/
theorem assigns_set (hc : c.Apart) (hown : c.Own domain) (addresses : List String) :
    Assigns c (((c.get domain).2.update (c.get domain).1 addresses).set domain
      (c.get domain).1) domain addresses := by
  have hget := gets_get hc domain
  refine assigns_of hc hown hget (Or.inl rfl) (fun domain' => ?_)
    rfl rfl rfl
  show ((c.get domain).2.domains.insert domain _).lookup domain' = _
  rw [ForStd.lookup_insert, hget.domains]

theorem disabledAddresses_set (c : DomainConfig) (domain : String) (addresses : List String) :
    (((c.get domain).2.update (c.get domain).1 addresses).set domain
      (c.get domain).1).disabledAddresses domain = addresses := by
  simp only [disabledAddresses_eq, set, update, AList.lookup_insert, Function.update_self]

/-- The array of the domain is removed: its list is that of the defaults. -/
theorem assigns_remove (hc : c.Apart) (hown : c.Own domain) (addresses : List String) :
    Assigns c (((c.get domain).2.update (c.get domain).1 addresses).remove domain) domain
      (c.arrays c.defaults) := by
  have hget := gets_get hc domain
  refine assigns_of hc hown hget (Or.inr rfl)
    (fun domain' => ?_) rfl rfl rfl
  show ((c.get domain).2.domains.erase domain).lookup domain' = _
  rw [ForStd.lookup_erase, hget.domains]

/-! ## The configuration -/

/-- The addresses that are listed for a domain in the configuration. -/
def listed (options : List (String × Option (List String))) (domain : String) : List String :=
  (new options).disabledAddresses domain

/-- The addresses of the defaults. -/
def listedDefaults (options : List (String × Option (List String))) : List String :=
  (new options).arrays (new options).defaults

/-- What holds in the loop of the constructor: only the domain `defaults` has the array of the
    defaults. -/
structure Built (options : List (String × Option (List String))) (c : DomainConfig) : Prop where
  apart : c.Apart
  zero : c.defaults = 0
  own : ∀ domain, ¬c.Own domain → domain = "defaults" ∧ ∃ option ∈ options, option.1 = "defaults"

/-- The array of the defaults under the key `defaults`. -/
theorem built_defaults {options : List (String × Option (List String))}
    (hc : Built options c) {option : String × Option (List String)} (hoption : option ∈ options)
    (hkey : option.1 = "defaults") : Built options (c.set "defaults" 0) := by
  have hlookup : ∀ domain, (c.set "defaults" 0).domains.lookup domain =
      if domain = "defaults" then some 0 else c.domains.lookup domain := fun domain =>
    ForStd.lookup_insert _ _ _ _
  have hzero : ∀ domain, c.domains.lookup domain = some 0 → domain = "defaults" :=
    fun domain h => (hc.own domain fun hown => hown (hc.zero ▸ h)).1
  refine ⟨⟨hc.apart.defaults, ?_, ?_⟩, hc.zero, fun domain h => ?_⟩
  · intro domain array h
    rw [hlookup] at h
    split at h
    · rw [← Option.some.inj h, ← hc.zero]
      exact hc.apart.defaults
    · exact hc.apart.allocated domain array h
  · intro domain₁ domain₂ array h₁ h₂
    rw [hlookup] at h₁ h₂
    split at h₁
    · next hd₁ =>
      split at h₂
      · next hd₂ => rw [hd₁, hd₂]
      · rw [← Option.some.inj h₁] at h₂
        rw [hd₁, hzero domain₂ h₂]
    · split at h₂
      · next hd₂ =>
        rw [← Option.some.inj h₂] at h₁
        rw [hd₂, hzero domain₁ h₁]
      · exact hc.apart.inj domain₁ domain₂ array h₁ h₂
  · refine ⟨?_, option, hoption, hkey⟩
    rw [Own, not_not, hlookup] at h
    split at h
    · next hd => exact hd
    · exact hzero domain (h.trans (congrArg some hc.zero))

/-- A new array for a domain. -/
theorem built_newArray {options : List (String × Option (List String))} (hc : Built options c)
    (domain : String) (addresses : List String) :
    Built options ((c.newArray addresses).2.set domain (c.newArray addresses).1) := by
  have hlookup : ∀ domain',
      ((c.newArray addresses).2.set domain (c.newArray addresses).1).domains.lookup domain' =
        if domain' = domain then some c.nextArray else c.domains.lookup domain' :=
    fun domain' => ForStd.lookup_insert _ _ _ _
  have hnew : ∀ domain', c.domains.lookup domain' ≠ some c.nextArray := fun domain' h =>
    Nat.lt_irrefl _ (hc.apart.allocated domain' _ h)
  refine ⟨⟨Nat.lt_succ_of_lt hc.apart.defaults, ?_, ?_⟩, hc.zero, fun domain' h => ?_⟩
  · intro domain' array h
    rw [hlookup] at h
    split at h
    · rw [← Option.some.inj h]
      exact Nat.lt_succ_self _
    · exact Nat.lt_succ_of_lt (hc.apart.allocated domain' array h)
  · intro domain₁ domain₂ array h₁ h₂
    rw [hlookup] at h₁ h₂
    split at h₁
    · next hd₁ =>
      split at h₂
      · next hd₂ => rw [hd₁, hd₂]
      · exact absurd (h₂.trans h₁.symm) (hnew domain₂)
    · split at h₂
      · exact absurd (h₁.trans h₂.symm) (hnew domain₁)
      · exact hc.apart.inj domain₁ domain₂ array h₁ h₂
  · rw [Own, not_not, hlookup] at h
    split at h
    · have hlt := hc.apart.defaults
      have heq : c.nextArray = c.defaults := Option.some.inj h
      omega
    · exact hc.own domain' fun hown => hown h

theorem built_new (options : List (String × Option (List String))) :
    Built options (new options) := by
  unfold new
  refine List.foldlRecOn options _ ?_ fun c hc option hoption => ?_
  · refine
      ⟨⟨Nat.zero_lt_one, fun domain _ h => ?_, fun domain _ _ h => ?_⟩, rfl, fun domain h => ?_⟩
    · exact nomatch (AList.lookup_empty domain).symm.trans h
    · exact nomatch (AList.lookup_empty domain).symm.trans h
    · exact absurd (fun heq => nomatch (AList.lookup_empty domain).symm.trans heq) h
  · dsimp only
    split
    · exact hc
    · split
      · next hkey => exact built_defaults hc hoption hkey
      · split
        · exact hc
        · exact built_newArray hc _ _

end DomainConfig

open DomainConfig (listed listedDefaults)

namespace Blacklist

/-! ## The addresses that are blacklisted -/

/-- The domain and the address of a value of the cache. -/
def pair? : Cached → Option (String × String)
  | .blacklisted data => some (data.domain, data.address)
  | .empty => none

/-- The addresses with an entry. -/
def entries (s : Blacklist) : List (String × String) :=
  s.cache.sorted.filterMap fun entry => pair? entry.value

/-- The addresses whose callback has been scheduled and has not run. -/
def waiting (s : Blacklist) : List (String × String) :=
  (s.cache.immediates.drop s.handled).filterMap fun immediate =>
    immediate.call?.bind fun call => pair? call.2

/-- The addresses that are blacklisted. -/
def live (s : Blacklist) : List (String × String) := s.entries ++ s.waiting

/-- The entries of blacklisted addresses are under their keys, with the callback. -/
structure Keyed (s : Blacklist) : Prop where
  cache : s.cache.WF
  handled : s.handled ≤ s.cache.immediates.length
  keys : ∀ entry ∈ s.cache.sorted, ∀ data, entry.value = .blacklisted data →
    entry.key = cacheKey data.domain data.address ∧ entry.expireCb = some ()

/-- The array of each domain has its addresses of the configuration, and those that are
    blacklisted behind them. -/
structure Inv (options : List (String × Option (List String))) (s : Blacklist) : Prop
    extends Keyed s where
  apart : s.domainConfig.Apart
  own : ∀ domain, s.domainConfig.Own domain ↔ (DomainConfig.new options).Own domain
  defaults : s.domainConfig.arrays s.domainConfig.defaults = listedDefaults options
  nodup : s.live.Nodup
  lists : ∀ domain, ∃ added, s.domainConfig.disabledAddresses domain =
    listed options domain ++ added ∧ added.Nodup ∧ ∀ address, address ∈ added ↔
      (domain, address) ∈ s.live
  fresh : ∀ domain address, (domain, address) ∈ s.live → address ∉ listed options domain ∧
    (DomainConfig.new options).Own domain

variable {options : List (String × Option (List String))} {ttl : Option Int} {s s' : Blacklist}

theorem inv_start (options : List (String × Option (List String))) (now : Int) :
    Inv options (start options now) where
  cache := TtlCache.wf_empty _
  handled := Nat.le_refl _
  keys _ h := absurd h List.not_mem_nil
  apart := (DomainConfig.built_new options).apart
  own _ := Iff.rfl
  defaults := rfl
  nodup := List.nodup_nil
  lists _ := ⟨[], (List.append_nil _).symm, List.nodup_nil, fun _ =>
    iff_of_false List.not_mem_nil List.not_mem_nil⟩
  fresh _ _ h := absurd h List.not_mem_nil

/-- The configuration of the domains stays, and so does what is blacklisted. -/
theorem Inv.of_perm (hs : Inv options s) (hkeyed : s'.Keyed)
    (hconfig : s'.domainConfig = s.domainConfig) (hlive : s'.live.Perm s.live) :
    Inv options s' where
  toKeyed := hkeyed
  apart := hconfig ▸ hs.apart
  own := hconfig ▸ hs.own
  defaults := hconfig ▸ hs.defaults
  nodup := hlive.nodup_iff.mpr hs.nodup
  lists domain := by
    obtain ⟨added, hadded, hnodup, hmem⟩ := hs.lists domain
    exact ⟨added, hconfig ▸ hadded, hnodup, fun address => (hmem address).trans
      hlive.mem_iff.symm⟩
  fresh domain address h := hs.fresh domain address (hlive.mem_iff.mp h)

/-! ## Entries that leave the cache -/

section drops

variable {cache : TtlCache String Cached Unit Int}
  {left : TtlCache.Entry String Cached Unit Int → Bool}

theorem entries_drops (hdrops : s.cache.Drops cache left) :
    entries { s with cache := cache } =
      (s.cache.sorted.filter fun entry => !left entry).filterMap
        fun entry => pair? entry.value := by
  obtain ⟨immediates, hsorted, -, -⟩ := hdrops
  show cache.sorted.filterMap _ = _
  rw [hsorted]

/-- The callbacks of the entries that leave wait after that. -/
theorem Keyed.waiting_drops (hs : Keyed s) (hdrops : s.cache.Drops cache left) :
    waiting { s with cache := cache } =
      s.waiting ++ (s.cache.sorted.filter left).filterMap fun entry => pair? entry.value := by
  obtain ⟨immediates, -, himmediates, hcalls⟩ := hdrops
  show (cache.immediates.drop s.handled).filterMap _ = _
  rw [himmediates, List.drop_append_of_le_length hs.handled, List.filterMap_append,
    ← List.filterMap_filterMap (f := TtlCache.Immediate.call?), ← List.filterMap_filterMap, hcalls,
    List.filterMap_filterMap, List.filterMap_filterMap]
  refine congrArg _ (List.filterMap_congr fun entry hentry => ?_)
  cases hvalue : entry.value with
  | empty => simp [TtlCache.Entry.call?, hvalue, pair?]
  | blacklisted data =>
    have hcb := (hs.keys entry (List.mem_filter.mp hentry).1 data hvalue).2
    simp [TtlCache.Entry.call?, hcb, hvalue]

theorem Keyed.drops (hs : Keyed s) (hcache : cache.WF) (hdrops : s.cache.Drops cache left) :
    Keyed { s with cache := cache } := by
  obtain ⟨immediates, hsorted, himmediates, -⟩ := hdrops
  have hhandled := hs.handled
  refine ⟨hcache, ?_, fun entry hentry => hs.keys entry ?_⟩
  · show s.handled ≤ cache.immediates.length
    rw [himmediates, List.length_append]
    omega
  · rw [hsorted] at hentry
    exact (List.mem_filter.mp hentry).1

/-- What leaves goes from the entries to what waits. -/
theorem Keyed.live_drops (hs : Keyed s) (hdrops : s.cache.Drops cache left) :
    (live { s with cache := cache }).Perm s.live := by
  rw [live, entries_drops hdrops, hs.waiting_drops hdrops]
  refine List.perm_append_comm.trans ?_
  rw [List.append_assoc, ← List.filterMap_append]
  refine List.perm_append_comm.trans (List.Perm.append_right _ (List.Perm.filterMap _ ?_))
  exact List.filter_append_perm left _

theorem Inv.drops (hs : Inv options s) (hcache : cache.WF) (hdrops : s.cache.Drops cache left) :
    Inv options { s with cache := cache } :=
  hs.of_perm (hs.toKeyed.drops hcache hdrops) rfl (hs.toKeyed.live_drops hdrops)

end drops

/-! ## An entry is put into the cache -/

section set

variable {data : TtlCache.Entry String Cached Unit Int}

theorem Keyed.set (hs : Keyed s) (hcache : s'.cache.WF)
    (hsorted : s'.cache.sorted = ForStd.insertBehind (·.expires) data
      (s.cache.sorted.filter (·.key != data.key)))
    (himmediates : s'.cache.immediates = s.cache.immediates ++ [.updateTimer])
    (hhandled : s'.handled = s.handled)
    (hdata : ∀ value, data.value = .blacklisted value →
      data.key = cacheKey value.domain value.address ∧ data.expireCb = some ()) : Keyed s' := by
  have hle := hs.handled
  refine ⟨hcache, ?_, fun entry h value hvalue => ?_⟩
  · rw [hhandled, himmediates, List.length_append]
    omega
  · rw [hsorted, ForStd.mem_insertBehind] at h
    rcases h with rfl | h
    · exact hdata value hvalue
    · exact hs.keys entry (List.mem_filter.mp h).1 value hvalue

/-- `updateTimer` is no callback of an entry. -/
theorem Keyed.waiting_set (hs : Keyed s)
    (himmediates : s'.cache.immediates = s.cache.immediates ++ [.updateTimer])
    (hhandled : s'.handled = s.handled) : s'.waiting = s.waiting := by
  rw [waiting, himmediates, hhandled, List.drop_append_of_le_length hs.handled,
    List.filterMap_append]
  exact List.append_nil _

theorem Keyed.live_set (hs : Keyed s)
    (hsorted : s'.cache.sorted = ForStd.insertBehind (·.expires) data
      (s.cache.sorted.filter (·.key != data.key)))
    (himmediates : s'.cache.immediates = s.cache.immediates ++ [.updateTimer])
    (hhandled : s'.handled = s.handled)
    (hkey : ∀ entry ∈ s.cache.sorted, entry.key = data.key → pair? entry.value = none) :
    s'.live.Perm ((pair? data.value).toList ++ s.live) := by
  have hfilter : (s.cache.sorted.filter (·.key != data.key)).filterMap
      (fun entry => pair? entry.value) = s.entries := by
    rw [List.filterMap_filter]
    refine List.filterMap_congr fun entry hentry => ?_
    by_cases h : entry.key = data.key
    · rw [if_neg (by simp [h]), hkey entry hentry h]
    · rw [if_pos (bne_iff_ne.mpr h)]
  rw [live, hs.waiting_set himmediates hhandled, live, ← List.append_assoc]
  refine List.Perm.append_right _ ?_
  rw [entries, hsorted]
  refine ((ForStd.perm_insertBehind (hs.cache.sorted.filter _) data).filterMap _).trans ?_
  rw [List.filterMap_cons, hfilter]
  cases pair? data.value <;> exact List.Perm.refl _

end set

/-! ## The steps -/

/-- The domain and the address of the entry under a key of the cache. -/
def pairAt (s : Blacklist) (key : String) : Option (String × String) :=
  (s.cache.data.lookup key).bind fun entry => pair? entry.value

/-- The condition. An address that is blacklisted gets an entry of its own that lives for some
    time, and the array of its domain is not that of the defaults. A callback does not empty the
    list of a domain while there are defaults that the domain would get instead. No entry of a
    blacklisted address is in the cache when the configuration is reloaded. -/
def Keeps (options : List (String × Option (List String))) (ttl : Option Int) (s : Blacklist) :
    Event → Prop
  | .defer _ _ domain address _ =>
    address ≠ "" → domain ≠ "" → address ∉ s.domainConfig.disabledAddresses domain →
      0 < ttl.getD s.cache.defaultTtl ∧ s.pairAt (cacheKey domain address) = none ∧
        s.domainConfig.Own domain
  | .immediate =>
    match s.cache.immediates[s.handled]? with
    | some (.expireCb _ (.blacklisted data)) =>
      s.domainConfig.disabledAddresses data.domain = [data.address] → listedDefaults options = []
    | _ => True
  | .reload => s.entries = []
  | _ => True

/-- The list of one domain changes, and so do the addresses that are blacklisted for it. -/
theorem Inv.assigns (hs : Inv options s) (hkeyed : s'.Keyed) {domain : String} {added : List String}
    (hconfig : DomainConfig.Assigns s.domainConfig s'.domainConfig domain
      (listed options domain ++ added))
    (hnodup : s'.live.Nodup) (hadded : added.Nodup)
    (hmem : ∀ address, address ∈ added ↔ (domain, address) ∈ s'.live)
    (hother : ∀ domain' address, domain' ≠ domain →
      ((domain', address) ∈ s'.live ↔ (domain', address) ∈ s.live))
    (hfresh : ∀ address, (domain, address) ∈ s'.live → address ∉ listed options domain ∧
      (DomainConfig.new options).Own domain) :
    Inv options s' where
  toKeyed := hkeyed
  apart := hconfig.apart
  own domain' := (hconfig.own domain').trans (hs.own domain')
  defaults := hconfig.defaults.trans hs.defaults
  nodup := hnodup
  lists domain' := by
    rw [hconfig.lists]
    by_cases hd : domain' = domain
    · rw [if_pos hd, hd]
      exact ⟨added, rfl, hadded, hmem⟩
    · obtain ⟨added', hlist, hnodup', hmem'⟩ := hs.lists domain'
      rw [if_neg hd]
      exact ⟨added', hlist, hnodup', fun address =>
        (hmem' address).trans (hother domain' address hd).symm⟩
  fresh domain' address h := by
    by_cases hd : domain' = domain
    · subst hd
      exact hfresh address h
    · exact hs.fresh domain' address ((hother domain' address hd).mp h)

/-- `get` changes nothing but the heap. -/
theorem Inv.get (hs : Inv options s) (domain : String) :
    Inv options { s with domainConfig := (s.domainConfig.get domain).2 } := by
  obtain ⟨added, hadded, hnodup, hmem⟩ := hs.lists domain
  have hconfig := DomainConfig.assigns_get hs.apart domain
  rw [hadded] at hconfig
  exact hs.assigns ⟨hs.cache, hs.handled, hs.keys⟩ hconfig hs.nodup hnodup hmem
    (fun _ _ _ => Iff.rfl) (fun address h => hs.fresh domain address h)

/-- No entry of a blacklisted address is under a key of another kind. -/
theorem Inv.pair_empty (hs : Inv options s) {zone : String}
    {entry : TtlCache.Entry String Cached Unit Int} (hentry : entry ∈ s.cache.sorted)
    (hkey : entry.key = "empty:" ++ zone) : pair? entry.value = none := by
  cases hvalue : entry.value with
  | empty => rfl
  | blacklisted data =>
    have heq := hkey.symm.trans (hs.keys entry hentry data hvalue).1
    have hchars := congrArg String.toList heq
    simp [cacheKey, String.toList_append] at hchars

/-- An address that is in no list of the domain is blacklisted for it. -/
theorem Inv.blacklist (hs : Inv options s) {domain : String} (data : BlacklistData)
    (hdomain : data.domain = domain) (httl : 0 < ttl.getD s.cache.defaultTtl)
    (hnew : data.address ∉ s.domainConfig.disabledAddresses domain)
    (hkey : s.pairAt (cacheKey domain data.address) = none)
    (hown : (DomainConfig.new options).Own domain)
    (hconfig : DomainConfig.Assigns s.domainConfig s'.domainConfig domain
      (s.domainConfig.disabledAddresses domain ++ [data.address]))
    (hcache : s'.cache = s.cache.set (cacheKey domain data.address) (some (.blacklisted data)) ttl
      (some ()) s.now)
    (hhandled : s'.handled = s.handled) : Inv options s' := by
  obtain ⟨added, hadded, hnodup, hmem⟩ := hs.lists domain
  rw [hadded, List.append_assoc] at hconfig
  rw [hadded, List.mem_append, not_or] at hnew
  obtain ⟨entry, hentryKey, hentryValue, hentryCb, hsorted, himmediates, -⟩ :=
    TtlCache.set_some hs.cache (cacheKey domain data.address) (.blacklisted data)
      (not_le.mpr httl) (some ()) s.now
  rw [← hcache] at hsorted himmediates
  -- the entry takes the place of no other one
  have hother : ∀ other ∈ s.cache.sorted, other.key = entry.key → pair? other.value = none := by
    intro other h heq
    rw [pairAt, ← hentryKey, ← heq, hs.cache.lookup h] at hkey
    exact hkey
  -- one address more is blacklisted
  have hlive : s'.live.Perm ((domain, data.address) :: s.live) := by
    have hperm := hs.live_set hsorted himmediates hhandled hother
    rw [hentryValue, pair?, hdomain] at hperm
    exact hperm
  have hmemLive : ∀ domain' address, (domain', address) ∈ s'.live ↔
      (domain', address) = (domain, data.address) ∨ (domain', address) ∈ s.live :=
    fun domain' address => hlive.mem_iff.trans List.mem_cons
  have hnotLive : (domain, data.address) ∉ s.live := fun h => hnew.2 ((hmem _).mpr h)
  have hkeyed : s'.Keyed := by
    refine hs.toKeyed.set (hcache ▸ TtlCache.wf_set hs.cache _ _ ttl _ s.now) hsorted himmediates
      hhandled fun value hvalue => ?_
    rw [hentryValue] at hvalue
    obtain rfl := Cached.blacklisted.inj hvalue
    exact ⟨hentryKey.trans (by rw [hdomain]), hentryCb⟩
  refine hs.assigns hkeyed hconfig
    (hlive.nodup_iff.mpr (List.nodup_cons.mpr ⟨hnotLive, hs.nodup⟩)) ?_ ?_ ?_ ?_
  · refine List.nodup_append.mpr ⟨hnodup, List.nodup_singleton _, fun a ha b hb => ?_⟩
    rintro rfl
    exact hnew.2 (List.mem_singleton.mp hb ▸ ha)
  · intro address
    rw [hmemLive, List.mem_append, List.mem_singleton, hmem, Prod.mk.injEq, or_comm]
    exact or_congr_left ⟨fun h => ⟨rfl, h⟩, And.right⟩
  · intro domain' address hne
    rw [hmemLive, Prod.mk.injEq]
    exact or_iff_right fun h => hne h.1
  · intro address h
    rw [hmemLive] at h
    rcases h with heq | h
    · obtain rfl := (Prod.mk.inj heq).2
      exact ⟨hnew.1, hown⟩
    · exact hs.fresh domain address h

/-- `deferDelivery` -/
theorem inv_deferDelivery (hs : Inv options s) {id seq domain address response : String}
    (hkeeps : Keeps options ttl s (.defer id seq domain address response)) :
    Inv options (s.deferDelivery ttl id seq domain address response) := by
  unfold deferDelivery
  split
  case isFalse => exact hs
  case isTrue hgiven =>
  dsimp only
  split
  case isTrue => exact hs.get domain
  case isFalse hnew =>
  obtain ⟨httl, hkey, hown⟩ := hkeeps hgiven.1 hgiven.2 hnew
  exact hs.blacklist ⟨id, seq, address, domain, response, s.now⟩ rfl httl hnew hkey
    ((hs.own domain).mp hown) (DomainConfig.assigns_set hs.apart hown _) rfl rfl

/-- The entry for a zone without deliveries. -/
theorem inv_setEmpty (hs : Inv options s) (zone : String)
    (hcache : s'.cache = s.cache.set ("empty:" ++ zone) (some .empty) (some (5 * 1000)) none s.now)
    (hconfig : s'.domainConfig = s.domainConfig) (hhandled : s'.handled = s.handled) :
    Inv options s' ∧ s'.waiting = s.waiting := by
  have httl : ¬(some (5 * 1000)).getD s.cache.defaultTtl ≤ 0 := by
    show ¬(5 * 1000 : Int) ≤ 0
    decide
  obtain ⟨entry, hentryKey, hentryValue, -, hsorted, himmediates, -⟩ :=
    TtlCache.set_some hs.cache ("empty:" ++ zone) .empty httl none s.now
  rw [← hcache] at hsorted himmediates
  have hkeyed : s'.Keyed := by
    refine hs.toKeyed.set (hcache ▸ TtlCache.wf_set hs.cache _ _ _ _ s.now) hsorted himmediates
      hhandled fun data hvalue => ?_
    exact nomatch hentryValue.symm.trans hvalue
  have hperm := hs.live_set hsorted himmediates hhandled fun entry h heq =>
    hs.pair_empty h (heq.trans hentryKey)
  rw [hentryValue] at hperm
  exact ⟨hs.of_perm hkeyed hconfig hperm, hs.waiting_set himmediates hhandled⟩

/-- The callback of an entry is the next one that runs: it waits no longer. -/
theorem live_callback {data : BlacklistData}
    (himmediate : s.cache.immediates[s.handled]? = some (.expireCb () (.blacklisted data))) :
    s.live.Perm ((data.domain, data.address) :: live { s with handled := s.handled + 1 }) := by
  obtain ⟨hlt, hget⟩ := List.getElem?_eq_some_iff.mp himmediate
  have hdrop : s.cache.immediates.drop s.handled =
      .expireCb () (.blacklisted data) :: s.cache.immediates.drop (s.handled + 1) := by
    rw [List.drop_eq_getElem_cons hlt, hget]
  show (s.entries ++ (s.cache.immediates.drop s.handled).filterMap _).Perm (_ :: (s.entries ++ _))
  rw [hdrop]
  exact List.perm_middle

/-- The callback of an entry runs. -/
theorem inv_removeFromBlacklist (hs : Inv options s) {data : BlacklistData}
    (himmediate : s.cache.immediates[s.handled]? = some (.expireCb () (.blacklisted data)))
    (hkeeps : s.domainConfig.disabledAddresses data.domain = [data.address] →
      listedDefaults options = []) :
    Inv options ({ s with handled := s.handled + 1 }.removeFromBlacklist data) := by
  obtain ⟨hlt, -⟩ := List.getElem?_eq_some_iff.mp himmediate
  have hlive := live_callback himmediate
  have hmemLive : (data.domain, data.address) ∈ s.live := hlive.mem_iff.mpr List.mem_cons_self
  have hnodupLive := List.nodup_cons.mp (hlive.nodup_iff.mp hs.nodup)
  obtain ⟨hunlisted, hown⟩ := hs.fresh _ _ hmemLive
  obtain ⟨added, hadded, hnodup, hmem⟩ := hs.lists data.domain
  have hlist : (s.domainConfig.get data.domain).2.arrays (s.domainConfig.get data.domain).1 =
      listed options data.domain ++ added := hadded
  have hin : data.address ∈ listed options data.domain ++ added :=
    List.mem_append_right _ ((hmem data.address).mpr hmemLive)
  have herase : (listed options data.domain ++ added).erase data.address =
      listed options data.domain ++ added.erase data.address :=
    List.erase_append_right _ hunlisted
  have hmem' : ∀ domain' address', (domain', address') ∈ s.live ↔
      (domain', address') = (data.domain, data.address) ∨
        (domain', address') ∈ live { s with handled := s.handled + 1 } := fun domain' address' =>
    hlive.mem_iff.trans List.mem_cons
  unfold removeFromBlacklist
  dsimp only
  rw [hlist, if_pos hin, herase]
  have hconfig : DomainConfig.Assigns s.domainConfig
      (if listed options data.domain ++ added.erase data.address ≠ [] then
        ((s.domainConfig.get data.domain).2.update (s.domainConfig.get data.domain).1
          (listed options data.domain ++ added.erase data.address)).set data.domain
            (s.domainConfig.get data.domain).1
      else ((s.domainConfig.get data.domain).2.update (s.domainConfig.get data.domain).1
        (listed options data.domain ++ added.erase data.address)).remove data.domain)
      data.domain (listed options data.domain ++ added.erase data.address) := by
    split
    · exact DomainConfig.assigns_set hs.apart ((hs.own _).mpr hown) _
    · next hnil =>
      -- the empty list is that of the defaults
      rw [not_not] at hnil
      have hsingle : s.domainConfig.disabledAddresses data.domain = [data.address] := by
        have hcases := List.erase_eq_nil_iff.mp (herase.trans hnil)
        rw [hadded]
        exact hcases.resolve_left (List.ne_nil_of_mem hin)
      have hdefaults : s.domainConfig.arrays s.domainConfig.defaults = [] :=
        hs.defaults.trans (hkeeps hsingle)
      have hremove := DomainConfig.assigns_remove hs.apart ((hs.own _).mpr hown)
        (listed options data.domain ++ added.erase data.address)
      rw [hdefaults] at hremove
      rw [hnil] at hremove ⊢
      exact hremove
  refine hs.assigns ⟨hs.cache, hlt, hs.keys⟩ hconfig hnodupLive.2 (hnodup.erase _) ?_ ?_ ?_
  · intro address'
    rw [hnodup.mem_erase_iff, hmem, hmem']
    constructor
    · rintro ⟨hne, heq | h⟩
      · exact absurd (Prod.mk.inj heq).2 hne
      · exact h
    · intro h
      refine ⟨?_, Or.inr h⟩
      rintro rfl
      exact hnodupLive.1 h
  · intro domain' address' hne
    rw [hmem']
    exact (or_iff_right fun heq => hne (Prod.mk.inj heq).1).symm
  · intro address' h
    exact hs.fresh data.domain address' ((hmem' _ _).mpr (Or.inr h))

/-- What else was passed to `setImmediate` runs. -/
theorem Inv.skip (hs : Inv options s) {immediate : TtlCache.Immediate Cached Unit}
    (himmediate : s.cache.immediates[s.handled]? = some immediate)
    (hcall : (immediate.call?.bind fun call => pair? call.2) = none) :
    Inv options { s with handled := s.handled + 1 } ∧
      waiting { s with handled := s.handled + 1 } = s.waiting := by
  obtain ⟨hlt, hget⟩ := List.getElem?_eq_some_iff.mp himmediate
  have hwaiting : waiting { s with handled := s.handled + 1 } = s.waiting := by
    show _ = (s.cache.immediates.drop s.handled).filterMap _
    rw [List.drop_eq_getElem_cons hlt, hget, List.filterMap_cons, hcall]
    rfl
  refine ⟨hs.of_perm ⟨hs.cache, hlt, hs.keys⟩ rfl (List.Perm.of_eq ?_), hwaiting⟩
  rw [live, hwaiting]
  rfl

/-- The cache without its timer. -/
theorem wf_clearTimeout (hs : Keyed s) :
    ({ s.cache with checkTimer := none } : TtlCache String Cached Unit Int).WF :=
  ⟨hs.cache.sorted, hs.cache.keys, hs.cache.refs, hs.cache.fresh, hs.cache.key, hs.cache.mem⟩

/-- What one step keeps. -/
theorem inv_step (hs : Inv options s) {e : Event} (hkeeps : Keeps options ttl s e)
    (hstep : step ttl s e = some s') : Inv options s' := by
  cases e with
  | tick now =>
    rw [step, Option.ite_none_right_eq_some] at hstep
    obtain ⟨-, rfl⟩ := hstep.imp_right Option.some.inj
    exact hs.of_perm ⟨hs.cache, hs.handled, hs.keys⟩ rfl (List.Perm.refl _)
  | defer id seq domain address response =>
    obtain rfl := Option.some.inj hstep
    exact inv_deferDelivery hs hkeeps
  | immediate =>
    obtain ⟨immediate, himmediate, rfl⟩ := Option.map_eq_some_iff.mp hstep
    cases immediate with
    | updateTimer =>
      exact (hs.skip himmediate rfl).1.drops (TtlCache.wf_apply hs.cache s.now .updateTimer)
        (TtlCache.drops_updateTimer s.cache s.now)
    | checkExpired =>
      exact (hs.skip himmediate rfl).1.drops (TtlCache.wf_checkExpired s.now hs.cache)
        (TtlCache.drops_checkExpired hs.cache s.now)
    | expireCb func value =>
      cases value with
      | empty => exact (hs.skip himmediate rfl).1
      | blacklisted data =>
        rw [Keeps, himmediate] at hkeeps
        exact inv_removeFromBlacklist hs himmediate hkeeps
  | timer =>
    rw [step, Option.ite_none_right_eq_some] at hstep
    obtain ⟨-, rfl⟩ := hstep.imp_right Option.some.inj
    have hwf := wf_clearTimeout hs.toKeyed
    exact hs.drops (TtlCache.wf_checkExpired s.now hwf) (TtlCache.drops_checkExpired hwf s.now)
  | get key =>
    obtain rfl := Option.some.inj hstep
    exact hs.drops (TtlCache.wf_apply hs.cache s.now (.get key))
      (TtlCache.drops_get hs.cache key s.now)
  | remove key =>
    obtain rfl := Option.some.inj hstep
    exact hs.drops (TtlCache.wf_remove hs.cache key) (TtlCache.drops_remove hs.cache key)
  | setEmpty zone =>
    obtain rfl := Option.some.inj hstep
    exact And.left (inv_setEmpty hs zone rfl rfl rfl)
  | reload =>
    obtain rfl := Option.some.inj hstep
    have hkeyed : Keyed { s with cache := s.cache.flush } :=
      ⟨TtlCache.wf_apply hs.cache s.now .flush, hs.handled, fun _ h => absurd h List.not_mem_nil⟩
    refine hs.of_perm hkeyed rfl (List.Perm.of_eq ?_)
    show [] ++ s.waiting = s.entries ++ s.waiting
    rw [show s.entries = [] from hkeeps]

/-! ## The list and the cache -/

/-- The cache holds the entry of an address. -/
def Holds (s : Blacklist) (domain address : String) : Prop :=
  s.pairAt (cacheKey domain address) = some (domain, address)

/-- The callback of an address has been passed to `setImmediate` and has not run. -/
def Waits (s : Blacklist) (domain address : String) : Prop :=
  (domain, address) ∈ s.waiting

/-- The list of a domain and the cache agree: an address that the configuration does not list is
    in the list if and only if its entry is in the cache. Without such entries the list is what it
    was. -/
structure Agrees (options : List (String × Option (List String))) (s : Blacklist)
    (domain : String) : Prop where
  mem : ∀ address, address ∉ listed options domain →
    (address ∈ s.domainConfig.disabledAddresses domain ↔ s.Holds domain address)
  before : (∀ address, ¬s.Holds domain address) →
    s.domainConfig.disabledAddresses domain = listed options domain

/-- They agree about the addresses whose callback does not wait. -/
structure InStep (options : List (String × Option (List String))) (s : Blacklist)
    (domain : String) : Prop where
  mem : ∀ address, address ∉ listed options domain → ¬s.Waits domain address →
    (address ∈ s.domainConfig.disabledAddresses domain ↔ s.Holds domain address)
  before : (∀ address, ¬s.Holds domain address ∧ ¬s.Waits domain address) →
    s.domainConfig.disabledAddresses domain = listed options domain

theorem Agrees.inStep {domain : String} (h : Agrees options s domain) : InStep options s domain :=
  ⟨fun address hunlisted _ => h.mem address hunlisted,
    fun hnone => h.before fun address => (hnone address).1⟩

/-- They agree when nothing waits. -/
theorem InStep.agrees {domain : String} (h : InStep options s domain) (hnone : s.waiting = []) :
    Agrees options s domain := by
  have hwaits : ∀ address, ¬s.Waits domain address := by
    intro address hwaits
    rw [Waits, hnone] at hwaits
    exact List.not_mem_nil hwaits
  exact ⟨fun address hunlisted => h.mem address hunlisted (hwaits address),
    fun hholds => h.before fun address => ⟨hholds address, hwaits address⟩⟩

/-- The entries of the cache are those of the addresses that are blacklisted. -/
theorem Keyed.mem_entries (hs : Keyed s) (domain address : String) :
    (domain, address) ∈ s.entries ↔ s.Holds domain address := by
  rw [entries, List.mem_filterMap, Holds, pairAt, Option.bind_eq_some_iff]
  constructor
  · rintro ⟨entry, hentry, hpair⟩
    refine ⟨entry, ?_, hpair⟩
    cases hvalue : entry.value with
    | empty =>
      rw [hvalue] at hpair
      exact nomatch hpair
    | blacklisted data =>
      rw [hvalue] at hpair
      obtain ⟨rfl, rfl⟩ := Prod.mk.inj (Option.some.inj hpair)
      rw [← (hs.keys entry hentry data hvalue).1]
      exact hs.cache.lookup hentry
  · rintro ⟨entry, hentry, hpair⟩
    exact ⟨entry, hs.cache.mem_of_lookup hentry, hpair⟩

theorem Keyed.mem_live (hs : Keyed s) (domain address : String) :
    (domain, address) ∈ s.live ↔ s.Holds domain address ∨ s.Waits domain address :=
  List.mem_append.trans (or_congr_left (hs.mem_entries domain address))

/-- What is blacklisted waits or has an entry, not both. -/
theorem Inv.not_holds (hs : Inv options s) {domain address : String}
    (h : s.Waits domain address) : ¬s.Holds domain address := by
  intro hholds
  have hentry := (hs.toKeyed.mem_entries domain address).mpr hholds
  exact (List.nodup_append.mp hs.nodup).2.2 _ hentry _ h rfl

/-- What is blacklisted is in the list of its domain. -/
theorem Inv.mem_disabled (hs : Inv options s) {domain address : String}
    (h : (domain, address) ∈ s.live) : address ∈ s.domainConfig.disabledAddresses domain := by
  obtain ⟨added, hlist, -, hmem⟩ := hs.lists domain
  rw [hlist]
  exact List.mem_append_right _ ((hmem address).mpr h)

theorem Inv.inStep (hs : Inv options s) (domain : String) : InStep options s domain := by
  obtain ⟨added, hlist, -, hmem⟩ := hs.lists domain
  refine ⟨fun address hunlisted hwaits => ?_, fun hnone => ?_⟩
  · rw [hlist, List.mem_append, or_iff_right hunlisted, hmem, hs.toKeyed.mem_live,
      or_iff_left hwaits]
  · have hnil : added = [] := by
      refine List.eq_nil_iff_forall_not_mem.mpr fun address h => ?_
      rcases (hs.toKeyed.mem_live domain address).mp ((hmem address).mp h) with h | h
      · exact (hnone address).1 h
      · exact (hnone address).2 h
    rw [hlist, hnil, List.append_nil]

/-! ## The steps that break it -/

section breaks

variable {id seq domain address response : String}

/-- An address that is in the list of its domain, without an entry or a callback that waits. -/
theorem not_inStep_of (hin : address ∈ s'.domainConfig.disabledAddresses domain)
    (hunlisted : address ∉ listed options domain) (hholds : ¬s'.Holds domain address)
    (hwaits : ¬s'.Waits domain address) : ¬∀ domain, InStep options s' domain := fun h =>
  hholds (((h domain).mem address hunlisted hwaits).mp hin)

/-- What `deferDelivery` does with an address that is not in the list. -/
theorem deferDelivery_new (haddress : address ≠ "") (hdomain : domain ≠ "")
    (hnew : address ∉ s.domainConfig.disabledAddresses domain) :
    s.deferDelivery ttl id seq domain address response =
      { s with
        domainConfig :=
          ((s.domainConfig.get domain).2.update (s.domainConfig.get domain).1
            (s.domainConfig.disabledAddresses domain ++ [address])).set domain
              (s.domainConfig.get domain).1
        cache := s.cache.set (cacheKey domain address)
          (some (.blacklisted ⟨id, seq, address, domain, response, s.now⟩)) ttl (some ())
          s.now } := by
  unfold deferDelivery
  rw [if_pos ⟨haddress, hdomain⟩]
  exact if_neg hnew

/-- What is new is not blacklisted. -/
theorem Inv.new (hs : Inv options s) (hnew : address ∉ s.domainConfig.disabledAddresses domain) :
    address ∉ listed options domain ∧ (domain, address) ∉ s.live := by
  refine ⟨fun h => ?_, fun h => hnew (hs.mem_disabled h)⟩
  obtain ⟨added, hlist, -, -⟩ := hs.lists domain
  rw [hlist] at hnew
  exact hnew (List.mem_append_left _ h)

/-- `set` with such a time to live removes the key. -/
theorem not_inStep_ttl (hs : Inv options s) (haddress : address ≠ "") (hdomain : domain ≠ "")
    (hnew : address ∉ s.domainConfig.disabledAddresses domain)
    (httl : ¬0 < ttl.getD s.cache.defaultTtl) :
    ¬∀ domain', InStep options (s.deferDelivery ttl id seq domain address response) domain' := by
  obtain ⟨hunlisted, hnotLive⟩ := hs.new hnew
  have hremove : s.cache.set (cacheKey domain address)
      (some (.blacklisted ⟨id, seq, address, domain, response, s.now⟩)) ttl (some ()) s.now =
        s.cache.remove (cacheKey domain address) := if_pos (not_lt.mp httl)
  have hdrops := TtlCache.drops_remove hs.cache (cacheKey domain address)
  have hwf := TtlCache.wf_remove hs.cache (cacheKey domain address)
  rw [← (hs.toKeyed.live_drops hdrops).mem_iff, (hs.toKeyed.drops hwf hdrops).mem_live,
    not_or] at hnotLive
  rw [deferDelivery_new haddress hdomain hnew, hremove]
  refine not_inStep_of ?_ hunlisted hnotLive.1 hnotLive.2
  rw [DomainConfig.disabledAddresses_set]
  exact List.mem_append_right _ (List.mem_singleton.mpr rfl)

/-- What is under the keys after `deferDelivery`. -/
theorem Inv.pairAt_deferDelivery (hs : Inv options s) (id seq response : String)
    (haddress : address ≠ "") (hdomain : domain ≠ "")
    (hnew : address ∉ s.domainConfig.disabledAddresses domain)
    (httl : 0 < ttl.getD s.cache.defaultTtl) :
    (s.deferDelivery ttl id seq domain address response).waiting = s.waiting ∧
      ∀ key, (s.deferDelivery ttl id seq domain address response).pairAt key =
        if key = cacheKey domain address then some (domain, address) else s.pairAt key := by
  rw [deferDelivery_new haddress hdomain hnew]
  obtain ⟨entry, -, hvalue, -, -, himmediates, hdata⟩ := TtlCache.set_some hs.cache
    (cacheKey domain address) (.blacklisted ⟨id, seq, address, domain, response, s.now⟩)
    (not_le.mpr httl) (some ()) s.now
  refine ⟨hs.waiting_set himmediates rfl, fun key => ?_⟩
  rw [pairAt, hdata, ForStd.lookup_insert]
  split
  · exact congrArg pair? hvalue
  · rfl

/-- The entry of another address is overwritten. -/
theorem not_inStep_taken (hs : Inv options s) (haddress : address ≠ "") (hdomain : domain ≠ "")
    (hnew : address ∉ s.domainConfig.disabledAddresses domain)
    (httl : 0 < ttl.getD s.cache.defaultTtl) (hown : s.domainConfig.Own domain)
    (hkey : s.pairAt (cacheKey domain address) ≠ none) :
    ¬∀ domain', InStep options (s.deferDelivery ttl id seq domain address response) domain' := by
  obtain ⟨-, hnotLive⟩ := hs.new hnew
  obtain ⟨⟨other, taken⟩, hkey⟩ := Option.ne_none_iff_exists'.mp hkey
  -- the key is that of the other address
  have hsame : cacheKey other taken = cacheKey domain address := by
    obtain ⟨entry, hentry, hpair⟩ := Option.bind_eq_some_iff.mp hkey
    cases hvalue : entry.value with
    | empty =>
      rw [hvalue] at hpair
      exact nomatch hpair
    | blacklisted data =>
      rw [hvalue] at hpair
      obtain ⟨rfl, rfl⟩ := Prod.mk.inj (Option.some.inj hpair)
      rw [← (hs.keys entry (hs.cache.mem_of_lookup hentry) data hvalue).1]
      exact hs.cache.key _ entry hentry
  have hholds : s.Holds other taken := (congrArg s.pairAt hsame).trans hkey
  have hlive := (hs.toKeyed.mem_live other taken).mpr (Or.inl hholds)
  have hassigns := DomainConfig.assigns_set hs.apart hown
    (s.domainConfig.disabledAddresses domain ++ [address])
  obtain ⟨hwaiting, hpairAt⟩ :=
    hs.pairAt_deferDelivery id seq response haddress hdomain hnew httl
  refine not_inStep_of ?_ (hs.fresh other taken hlive).1 ?_ ?_
  · rw [deferDelivery_new haddress hdomain hnew, hassigns.lists]
    split
    · next h => exact List.mem_append_left _ (h ▸ hs.mem_disabled hlive)
    · exact hs.mem_disabled hlive
  · rw [Holds, hpairAt, if_pos hsame]
    intro heq
    rw [← Option.some.inj heq] at hlive
    exact hnotLive hlive
  · rw [Waits, hwaiting]
    exact fun h => hs.not_holds h hholds

/-- The address gets into the array of the defaults, and with it into the list of every domain
    that has no array. -/
theorem not_inStep_defaults (hs : Inv options s) (haddress : address ≠ "") (hdomain : domain ≠ "")
    (hnew : address ∉ s.domainConfig.disabledAddresses domain)
    (httl : 0 < ttl.getD s.cache.defaultTtl) (hown : ¬s.domainConfig.Own domain) :
    ¬∀ domain', InStep options (s.deferDelivery ttl id seq domain address response) domain' := by
  rw [DomainConfig.Own, not_not] at hown
  -- a domain without an array, now and in the configuration
  obtain ⟨other, hother⟩ := Infinite.exists_notMem_finset
    (s.domainConfig.domains.keys ++ (DomainConfig.new options).domains.keys ++
      s.live.map Prod.fst).toFinset
  rw [List.mem_toFinset, List.mem_append, List.mem_append, not_or, not_or] at hother
  obtain ⟨⟨hnow, hstart⟩, hfree⟩ := hother
  have hnow := AList.lookup_eq_none.mpr hnow
  have hne : other ≠ domain := by
    rintro rfl
    exact nomatch hnow.symm.trans hown
  have hnotLive : (other, address) ∉ s.live := fun h => hfree (List.mem_map_of_mem h)
  have hlistDomain : s.domainConfig.disabledAddresses domain = listedDefaults options := by
    rw [DomainConfig.disabledAddresses_eq, hown]
    exact hs.defaults
  have hlistOther : listed options other = listedDefaults options := by
    rw [listed, DomainConfig.disabledAddresses_eq, AList.lookup_eq_none.mpr hstart]
    rfl
  have hget : s.domainConfig.get domain = (s.domainConfig.defaults, s.domainConfig) := by
    rw [DomainConfig.get, hown]
  have hunlisted : address ∉ listed options other := by
    rw [hlistOther, ← hlistDomain]
    exact hnew
  obtain ⟨hwaiting, hpairAt⟩ :=
    hs.pairAt_deferDelivery id seq response haddress hdomain hnew httl
  refine not_inStep_of ?_ hunlisted ?_ ?_
  · rw [deferDelivery_new haddress hdomain hnew]
    simp only [DomainConfig.disabledAddresses_eq, DomainConfig.set, DomainConfig.update, hget,
      ForStd.lookup_insert, if_neg hne, hnow, Function.update_self]
    exact List.mem_append_right _ (List.mem_singleton.mpr rfl)
  · rw [Holds, hpairAt]
    split
    · exact fun heq => hne (Prod.mk.inj (Option.some.inj heq)).1.symm
    · exact fun hholds => hnotLive ((hs.toKeyed.mem_live other address).mpr (Or.inl hholds))
  · rw [Waits, hwaiting]
    exact fun hwaits => hnotLive ((hs.toKeyed.mem_live other address).mpr (Or.inr hwaits))

/-- `flush` drops an entry, and its callback with it. -/
theorem not_inStep_flush (hs : Inv options s) (hentries : s.entries ≠ []) :
    ¬∀ domain, InStep options { s with cache := s.cache.flush } domain := by
  obtain ⟨⟨domain, address⟩, hentry⟩ := List.exists_mem_of_ne_nil _ hentries
  have hlive : (domain, address) ∈ s.live := List.mem_append_left _ hentry
  have hholds := (hs.toKeyed.mem_entries domain address).mp hentry
  refine not_inStep_of (hs.mem_disabled hlive) (hs.fresh domain address hlive).1 ?_
    fun h => hs.not_holds h hholds
  rw [Holds, pairAt]
  show (AList.lookup _ ∅).bind _ ≠ _
  rw [AList.lookup_empty]
  exact nofun

/-- The list that a callback has emptied is taken for that of the defaults. -/
theorem not_inStep_emptied (hs : Inv options s) {data : BlacklistData}
    (himmediate : s.cache.immediates[s.handled]? = some (.expireCb () (.blacklisted data)))
    (hsingle : s.domainConfig.disabledAddresses data.domain = [data.address])
    (hdefaults : listedDefaults options ≠ []) :
    ¬∀ domain,
      InStep options ({ s with handled := s.handled + 1 }.removeFromBlacklist data) domain := by
  have hlive := live_callback himmediate
  have hmemLive : (data.domain, data.address) ∈ s.live := hlive.mem_iff.mpr List.mem_cons_self
  have hnodupLive := List.nodup_cons.mp (hlive.nodup_iff.mp hs.nodup)
  obtain ⟨hunlisted, hown⟩ := hs.fresh _ _ hmemLive
  obtain ⟨added, hadded, -, hmem⟩ := hs.lists data.domain
  -- the domain has no other address
  have hlisted : listed options data.domain = [] := by
    rw [hsingle] at hadded
    rcases List.append_eq_singleton_iff.mp hadded.symm with ⟨h, -⟩ | ⟨h, -⟩
    · exact h
    · rw [h] at hunlisted
      exact absurd (List.mem_singleton.mpr rfl) hunlisted
  have hnone : ∀ address, (data.domain, address) ∉ live { s with handled := s.handled + 1 } := by
    intro address h
    have hin := hs.mem_disabled (hlive.mem_iff.mpr (List.mem_cons_of_mem _ h))
    rw [hsingle, List.mem_singleton] at hin
    exact hnodupLive.1 (hin ▸ h)
  obtain ⟨address, haddress⟩ := List.exists_mem_of_ne_nil _ hdefaults
  have hkeyed : Keyed { s with handled := s.handled + 1 } :=
    ⟨hs.cache, (List.getElem?_eq_some_iff.mp himmediate).1, hs.keys⟩
  have hnot := mt (hkeyed.mem_live data.domain address).mpr (hnone address)
  rw [not_or] at hnot
  have hlist : (s.domainConfig.get data.domain).2.arrays (s.domainConfig.get data.domain).1 =
      [data.address] := hsingle
  unfold removeFromBlacklist
  dsimp only
  rw [hlist, if_pos (List.mem_singleton.mpr rfl), List.erase_cons_head, if_neg (not_not.mpr rfl)]
  refine not_inStep_of ?_ (hlisted ▸ List.not_mem_nil) hnot.1 hnot.2
  rw [(DomainConfig.assigns_remove hs.apart ((hs.own _).mpr hown) []).lists, if_pos rfl,
    hs.defaults]
  exact haddress

end breaks

/-- A step against the condition leads to a state in which they do not agree. -/
theorem not_inStep (hs : Inv options s) {e : Event} (hkeeps : ¬Keeps options ttl s e)
    (hstep : step ttl s e = some s') : ¬∀ domain, InStep options s' domain := by
  cases e with
  | defer id seq domain address response =>
    obtain rfl := Option.some.inj hstep
    rw [Keeps, Classical.not_imp, Classical.not_imp, Classical.not_imp] at hkeeps
    obtain ⟨haddress, hdomain, hnew, hkeeps⟩ := hkeeps
    by_cases httl : 0 < ttl.getD s.cache.defaultTtl
    · by_cases hown : s.domainConfig.Own domain
      · refine not_inStep_taken hs haddress hdomain hnew httl hown fun hkey => ?_
        exact hkeeps ⟨httl, hkey, hown⟩
      · exact not_inStep_defaults hs haddress hdomain hnew httl hown
    · exact not_inStep_ttl hs haddress hdomain hnew httl
  | immediate =>
    obtain ⟨immediate, himmediate, rfl⟩ := Option.map_eq_some_iff.mp hstep
    rw [Keeps, himmediate] at hkeeps
    cases immediate with
    | updateTimer => exact absurd trivial hkeeps
    | checkExpired => exact absurd trivial hkeeps
    | expireCb func value =>
      cases value with
      | empty => exact absurd trivial hkeeps
      | blacklisted data =>
        rw [Classical.not_imp] at hkeeps
        exact not_inStep_emptied hs himmediate hkeeps.1 hkeeps.2
  | reload =>
    obtain rfl := Option.some.inj hstep
    exact not_inStep_flush hs hkeeps
  | tick now => exact absurd trivial hkeeps
  | timer => exact absurd trivial hkeeps
  | get key => exact absurd trivial hkeeps
  | remove key => exact absurd trivial hkeeps
  | setEmpty zone => exact absurd trivial hkeeps

/-! ## The callbacks that wait -/

/-- The entries that leave the cache at an event, for their time is over or they are removed. -/
def leaves (s : Blacklist) (e : Event) (entry : TtlCache.Entry String Cached Unit Int) : Bool :=
  match e with
  | .immediate =>
    match s.cache.immediates[s.handled]? with
    | some .checkExpired => entry.expires ≤ s.now
    | _ => false
  | .timer => entry.expires ≤ s.now
  | .get key => entry.key == key && entry.expires < s.now
  | .remove key => entry.key == key
  | _ => false

/-- No entry of a blacklisted address leaves. -/
def Spares (s : Blacklist) (e : Event) : Prop :=
  ∀ entry ∈ s.cache.sorted, s.leaves e entry = true → pair? entry.value = none

/-- What waits after a step, if nothing has waited: the callbacks of the entries that leave. -/
theorem waiting_step (hs : Inv options s) (hnone : s.waiting = []) {e : Event}
    (hkeeps : Keeps options ttl s e) (hstep : step ttl s e = some s') :
    s'.waiting =
      (s.cache.sorted.filter (s.leaves e)).filterMap fun entry => pair? entry.value := by
  have hnothing : ∀ {left : TtlCache.Entry String Cached Unit Int → Bool},
      (∀ entry, left entry = false) →
        (s.cache.sorted.filter left).filterMap (fun entry => pair? entry.value) = [] := by
    intro left hleft
    rw [List.filter_eq_nil_iff.mpr fun entry _ => ne_true_of_eq_false (hleft entry)]
    rfl
  have hdrops : ∀ {cache : TtlCache String Cached Unit Int}
      {left : TtlCache.Entry String Cached Unit Int → Bool}, s.cache.Drops cache left →
        waiting { s with cache := cache } =
          (s.cache.sorted.filter left).filterMap fun entry => pair? entry.value := by
    intro cache left h
    rw [hs.toKeyed.waiting_drops h, hnone, List.nil_append]
  cases e with
  | tick now =>
    rw [step, Option.ite_none_right_eq_some] at hstep
    obtain ⟨-, rfl⟩ := hstep.imp_right Option.some.inj
    exact hnone.trans (hnothing fun _ => rfl).symm
  | defer id seq domain address response =>
    obtain rfl := Option.some.inj hstep
    refine Eq.trans ?_ (hnothing fun _ => rfl).symm
    by_cases hgiven : address ≠ "" ∧ domain ≠ ""
    · by_cases hnew : address ∈ s.domainConfig.disabledAddresses domain
      · unfold deferDelivery
        rw [if_pos hgiven]
        dsimp only
        rw [if_pos (show address ∈ (s.domainConfig.get domain).2.arrays _ from hnew)]
        exact hnone
      · obtain ⟨httl, -⟩ := hkeeps hgiven.1 hgiven.2 hnew
        rw [(hs.pairAt_deferDelivery id seq response hgiven.1 hgiven.2 hnew httl).1]
        exact hnone
    · unfold deferDelivery
      rw [if_neg hgiven]
      exact hnone
  | immediate =>
    obtain ⟨immediate, himmediate, rfl⟩ := Option.map_eq_some_iff.mp hstep
    cases immediate with
    | updateTimer =>
      have hleaves : s.leaves .immediate = fun _ => false := by
        funext entry
        simp only [leaves, himmediate]
      obtain ⟨hskip, hwaiting⟩ := hs.skip himmediate rfl
      rw [hleaves]
      refine (hskip.toKeyed.waiting_drops (TtlCache.drops_updateTimer s.cache s.now)).trans ?_
      rw [hwaiting, hnone, List.nil_append]
    | checkExpired =>
      have hleaves : s.leaves .immediate = fun entry => decide (entry.expires ≤ s.now) := by
        funext entry
        simp only [leaves, himmediate]
      obtain ⟨hskip, hwaiting⟩ := hs.skip himmediate rfl
      rw [hleaves]
      refine (hskip.toKeyed.waiting_drops (TtlCache.drops_checkExpired hs.cache s.now)).trans ?_
      rw [hwaiting, hnone, List.nil_append]
    | expireCb func value =>
      cases value with
      | empty =>
        have hleaves : ∀ entry, s.leaves .immediate entry = false := by
          simp only [leaves, himmediate, implies_true]
        exact ((hs.skip himmediate rfl).2.trans hnone).trans (hnothing hleaves).symm
      | blacklisted data =>
        -- the callback of a blacklisted address would have waited
        obtain ⟨hlt, hget⟩ := List.getElem?_eq_some_iff.mp himmediate
        rw [waiting, List.drop_eq_getElem_cons hlt, hget] at hnone
        exact nomatch hnone
  | timer =>
    rw [step, Option.ite_none_right_eq_some] at hstep
    obtain ⟨-, rfl⟩ := hstep.imp_right Option.some.inj
    exact hdrops (TtlCache.drops_checkExpired (wf_clearTimeout hs.toKeyed) s.now)
  | get key =>
    obtain rfl := Option.some.inj hstep
    exact hdrops (TtlCache.drops_get hs.cache key s.now)
  | remove key =>
    obtain rfl := Option.some.inj hstep
    exact hdrops (TtlCache.drops_remove hs.cache key)
  | setEmpty zone =>
    obtain rfl := Option.some.inj hstep
    refine Eq.trans (And.right (inv_setEmpty hs zone rfl rfl rfl)) ?_
    exact hnone.trans (hnothing fun _ => rfl).symm
  | reload =>
    obtain rfl := Option.some.inj hstep
    exact hnone.trans (hnothing fun _ => rfl).symm

/-- Nothing waits after the steps that spare the entries, and only after them. -/
theorem waiting_step_eq_nil (hs : Inv options s) (hnone : s.waiting = []) {e : Event}
    (hkeeps : Keeps options ttl s e) (hstep : step ttl s e = some s') :
    s'.waiting = [] ↔ Spares s e := by
  rw [waiting_step hs hnone hkeeps hstep, List.filterMap_eq_nil_iff]
  constructor
  · exact fun h entry hentry hleaves => h entry (List.mem_filter.mpr ⟨hentry, hleaves⟩)
  · exact fun h entry hentry => h entry (List.mem_filter.mp hentry).1 (List.mem_filter.mp hentry).2

/-- A callback that waits: its address is in the list, and its entry is gone. -/
theorem not_agrees_of_waiting (hs : Inv options s) (hwaiting : s.waiting ≠ []) :
    ¬∀ domain, Agrees options s domain := by
  obtain ⟨⟨domain, address⟩, hwaits⟩ := List.exists_mem_of_ne_nil _ hwaiting
  have hlive : (domain, address) ∈ s.live := List.mem_append_right _ hwaits
  intro h
  exact hs.not_holds hwaits (((h domain).mem address (hs.fresh domain address hlive).1).mp
    (hs.mem_disabled hlive))

/-! ## The runs -/

instance (options : List (String × Option (List String))) (ttl : Option Int) (s : Blacklist)
    (e : Event) : Decidable (Keeps options ttl s e) := by
  unfold Keeps DomainConfig.Own
  split
  · infer_instance
  · split <;> infer_instance
  · infer_instance
  · infer_instance

instance (s : Blacklist) (e : Event) : Decidable (Spares s e) :=
  inferInstanceAs (Decidable (∀ entry ∈ s.cache.sorted, _))

/-- The lists and the cache agree in all states of a run if and only if its steps satisfy the
    condition and no entry of a blacklisted address ever leaves the cache, for its callback runs
    later. They agree about the addresses whose callback does not wait if and only if the steps
    satisfy the condition. -/
theorem in_step_iff {now : Int} {es : List Event}
    (hrun : run (step ttl) (start options now) es = some s) :
    (Throughout (step ttl) (fun s => ∀ domain, Agrees options s domain) (start options now) es ↔
      Along (step ttl) (fun s e => Keeps options ttl s e ∧ Spares s e) (start options now) es) ∧
    (Throughout (step ttl) (fun s => ∀ domain, InStep options s domain) (start options now) es ↔
      Along (step ttl) (Keeps options ttl) (start options now) es) := by
  have hstart := inv_start options now
  constructor
  · refine throughout_iff_along (I := fun s => Inv options s ∧ s.waiting = []) ?_ ?_ ?_
      ⟨hstart, rfl⟩ hrun
    · rintro s e s' ⟨hs, hnone⟩ ⟨hkeeps, hspares⟩ hstep
      exact ⟨inv_step hs hkeeps hstep, (waiting_step_eq_nil hs hnone hkeeps hstep).mpr hspares⟩
    · rintro s e s' ⟨hs, hnone⟩ hbreaks hstep
      by_cases hkeeps : Keeps options ttl s e
      · have hwaiting := mt (waiting_step_eq_nil hs hnone hkeeps hstep).mp
          fun hspares => hbreaks ⟨hkeeps, hspares⟩
        exact not_agrees_of_waiting (inv_step hs hkeeps hstep) hwaiting
      · exact fun h => not_inStep hs hkeeps hstep fun domain => (h domain).inStep
    · rintro s ⟨hs, hnone⟩ domain
      exact (hs.inStep domain).agrees hnone
  · exact throughout_iff_along (fun _ _ _ hs => inv_step hs) (fun _ _ _ hs => not_inStep hs)
      (fun _ => Inv.inStep) hstart hrun

/-- A time to live of an hour. -/
def anHour : Option Int := some 3600000

/-- An address is blacklisted, and its entry expires. -/
def expiring : List Event :=
  [.defer "m" "001" "example.com" "192.0.2.1" "listed", .immediate, .tick 3600001, .timer,
    .immediate]

/-- The address is in the list until the callback has run, and its entry is gone before. -/
theorem in_step_expiring : ∃ s, run (step anHour) (start [] 0) expiring = some s ∧
    s.cache.data.entries = [] ∧
      ¬Throughout (step anHour) (fun s => ∀ domain, Agrees [] s domain) (start [] 0) expiring ∧
        Throughout (step anHour) (fun s => ∀ domain, InStep [] s domain) (start [] 0) expiring := by
  have hentries : (run (step anHour) (start [] 0) expiring).map (·.cache.data.entries) =
      some [] := by
    decide +kernel
  obtain ⟨s, hs, hentries⟩ := Option.map_eq_some_iff.mp hentries
  exact ⟨s, hs, hentries, mt (in_step_iff hs).1.mp (by decide +kernel),
    (in_step_iff hs).2.mpr (by decide +kernel)⟩

/-- An address is blacklisted, and the configuration is reloaded. -/
def reloading : List Event :=
  [.defer "m" "001" "example.com" "192.0.2.1" "listed", .immediate, .reload]

/-- The address is in the list, but its entry is gone and no callback waits that would take it
    out again. -/
theorem in_step_reload : ∃ s, run (step anHour) (start [] 0) reloading = some s ∧
    s.domainConfig.disabledAddresses "example.com" = ["192.0.2.1"] ∧
      ¬s.Holds "example.com" "192.0.2.1" ∧ ¬s.Waits "example.com" "192.0.2.1" ∧
        ¬Agrees [] s "example.com" := by
  have hfields : (run (step anHour) (start [] 0) reloading).map (fun s =>
      (s.domainConfig.disabledAddresses "example.com",
        s.pairAt (cacheKey "example.com" "192.0.2.1"), s.waiting)) =
          some (["192.0.2.1"], none, []) := by
    decide +kernel
  obtain ⟨s, hs, hfields⟩ := Option.map_eq_some_iff.mp hfields
  obtain ⟨hlist, hfields⟩ := Prod.mk.inj hfields
  obtain ⟨hpairAt, hwaiting⟩ := Prod.mk.inj hfields
  have hholds : ¬s.Holds "example.com" "192.0.2.1" := by
    rw [Holds, hpairAt]
    exact nofun
  have hwaits : ¬s.Waits "example.com" "192.0.2.1" := by
    rw [Waits, hwaiting]
    exact List.not_mem_nil
  refine ⟨s, hs, hlist, hholds, hwaits, fun h => ?_⟩
  have hunlisted : "192.0.2.1" ∉ listed [] "example.com" := by decide +kernel
  refine hholds ((h.mem _ hunlisted).mp ?_)
  rw [hlist]
  exact List.mem_cons_self

end Blacklist

end ZoneMta
