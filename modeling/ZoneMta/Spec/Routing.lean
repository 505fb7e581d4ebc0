import Mathlib
import ZoneMta.Native.Push

/-!
# Routing

Which zone a delivery is stored for, and which zone polls for it. The registry is compared with
the configuration: each of its maps has the first zone that is configured for a key. A zone polls
under its name, which is lower case and trimmed, and it is registered under the key of the
configuration as it is.

## Key results

- `lookup_init`: the registry and the configuration
- `deliveryZone_eq_firstName`: the zone of a delivery, by the rules that the code follows
- `zone_priority_iff`: when that is the first zone by the rules for the priorities
- `push_polled`: when the deliveries of a message are polled for
-/

namespace ZoneMta

open ForStd (Map)

/-! ## The registry -/

theorem lookup_setMissing {ν : Type} (map : Map String ν) (key key' : String) (value : ν) :
    (setMissing map key value).lookup key' =
      (map.lookup key').or (if key' = key then some value else none) := by
  unfold setMissing
  split
  · next old hold =>
    split
    · next h => rw [h, hold]; rfl
    · rw [Option.or_none]
  · next hnone =>
    rw [ForStd.lookup_insert]
    split
    · next h => rw [h, hnone]; rfl
    · rw [Option.or_none]

/-- The loop over the values of one option of a zone. -/
theorem lookup_foldl_setMissing {ν : Type} (f : String → String) (keys : List String)
    (map : Map String ν) (key : String) (value : ν) :
    (keys.foldl (fun map k => setMissing map (f k) value) map).lookup key =
      (map.lookup key).or (if keys.any (f · == key) then some value else none) := by
  induction keys generalizing map with
  | nil => exact (Option.or_none).symm
  | cons k keys ih =>
    rw [List.foldl_cons, ih, lookup_setMissing, Option.or_assoc, List.any_cons]
    by_cases hk : key = f k
    · rw [if_pos hk, beq_iff_eq.mpr hk.symm, Bool.true_or, if_pos rfl, Option.some_or]
    · rw [if_neg hk, beq_eq_false_iff_ne.mpr (Ne.symm hk), Bool.false_or, Option.none_or]

namespace SendingZones

variable (str : Strings)

/-- The entry of `routingHeaders` is for the header with the value. -/
def isHeader (key value : String) (header : String × String) : Bool :=
  key != "" && value != "" && str.normal header.1 == key && str.normal header.2 == value

theorem isHeader_iff {key value : String} {header : String × String} :
    isHeader str key value header = true ↔
      key ≠ "" ∧ value ≠ "" ∧ str.normal header.1 = key ∧ str.normal header.2 = value := by
  simp only [isHeader, Bool.and_eq_true, bne_iff_ne, beq_iff_eq, and_assoc]

theorem lookup_setRoutingHeaders (zone : SendingZone) (headers : List (String × String))
    (map : Map String (Map String SendingZone)) (key value : String) :
    ((setRoutingHeaders str zone map headers).lookup key).bind (·.lookup value) =
      ((map.lookup key).bind (·.lookup value)).or
        (if headers.any (isHeader str key value) then some zone else none) := by
  unfold setRoutingHeaders
  induction headers generalizing map with
  | nil => exact (Option.or_none).symm
  | cons header headers ih =>
    rw [List.foldl_cons, ih, List.any_cons]
    dsimp only
    by_cases hheader : isHeader str key value header = true
    · obtain ⟨hkey, hvalue, rfl, rfl⟩ := (isHeader_iff str).mp hheader
      have hinner : ((map.lookup (str.normal header.1)).getD ∅).lookup (str.normal header.2) =
          (map.lookup (str.normal header.1)).bind (·.lookup (str.normal header.2)) := by
        cases map.lookup (str.normal header.1) with
        | none => exact AList.lookup_empty _
        | some inner => rfl
      rw [if_neg (not_or.mpr ⟨hkey, hvalue⟩), ForStd.lookup_insert, if_pos rfl, Option.bind_some,
        lookup_setMissing, if_pos rfl, hinner, Option.or_assoc, hheader, Bool.true_or, if_pos rfl,
        Option.some_or]
    · rw [Bool.eq_false_iff.mpr hheader, Bool.false_or]
      refine congrArg (Option.or · _) ?_
      split
      · rfl
      · next hgiven =>
        -- the entry is for another header or another value
        rw [ForStd.lookup_insert]
        split
        · next hkey =>
          subst hkey
          have hvalue : value ≠ str.normal header.2 := by
            rintro rfl
            exact hheader ((isHeader_iff str).mpr
              ⟨fun h => hgiven (Or.inl h), fun h => hgiven (Or.inr h), rfl, rfl⟩)
          rw [Option.bind_some, lookup_setMissing, if_neg hvalue, Option.or_none]
          cases map.lookup (str.normal header.1) with
          | none => exact AList.lookup_empty value
          | some inner => rfl
        · rfl

variable {str}

/-- The first zone that is enabled and has an option. -/
def firstZone (str : Strings) (config : List (String × ZoneConfig)) (p : ZoneConfig → Bool) :
    Option SendingZone :=
  (config.find? fun zone => !zone.2.disabled && p zone.2).map fun zone => newZone str zone.1

/-- A lookup that the zones fill one after another finds the first zone with the option. -/
theorem lookup_init (look : SendingZones → Option SendingZone) {p : ZoneConfig → Bool}
    (hempty : look {} = none)
    (hstep : ∀ zones zoneName zoneData, look (startNextZone str zones zoneName zoneData) =
      (look zones).or
        (if !zoneData.disabled && p zoneData then some (newZone str zoneName) else none))
    (config : List (String × ZoneConfig)) :
    look (init str config) = firstZone str config p := by
  unfold init firstZone
  induction config using List.reverseRecOn with
  | nil => exact hempty
  | append_singleton config zone ih =>
    rw [List.foldl_append, List.foldl_cons, List.foldl_nil, hstep, ih, List.find?_append]
    cases config.find? fun zone => !zone.2.disabled && p zone.2 with
    | some found => rfl
    | none =>
      rw [List.find?_cons]
      cases !zone.2.disabled && p zone.2 <;> rfl

theorem lookup_senderDomainMap (config : List (String × ZoneConfig)) (domain : String) :
    (init str config).senderDomainMap.lookup domain =
      firstZone str config fun data => data.senderDomains.any (str.domain · == domain) := by
  refine lookup_init (fun zones => zones.senderDomainMap.lookup domain)
    (AList.lookup_empty domain) (fun zones zoneName zoneData => ?_) config
  unfold startNextZone
  cases zoneData.disabled with
  | true => exact (Option.or_none).symm
  | false => exact lookup_foldl_setMissing _ _ _ _ _

theorem lookup_recipientDomainMap (config : List (String × ZoneConfig)) (domain : String) :
    (init str config).recipientDomainMap.lookup domain =
      firstZone str config fun data => data.recipientDomains.any (str.domain · == domain) := by
  refine lookup_init (fun zones => zones.recipientDomainMap.lookup domain)
    (AList.lookup_empty domain) (fun zones zoneName zoneData => ?_) config
  unfold startNextZone
  cases zoneData.disabled with
  | true => exact (Option.or_none).symm
  | false => exact lookup_foldl_setMissing _ _ _ _ _

theorem lookup_originMap (config : List (String × ZoneConfig)) (origin : String) :
    (init str config).originMap.lookup origin =
      firstZone str config fun data => data.originAddresses.any (· == origin) := by
  refine lookup_init (fun zones => zones.originMap.lookup origin)
    (AList.lookup_empty origin) (fun zones zoneName zoneData => ?_) config
  unfold startNextZone
  cases zoneData.disabled with
  | true => exact (Option.or_none).symm
  | false => exact lookup_foldl_setMissing id _ _ _ _

theorem lookup_routingHeaders (config : List (String × ZoneConfig)) (key value : String) :
    ((init str config).routingHeaders.lookup key).bind (·.lookup value) =
      firstZone str config fun data => data.routingHeaders.any (isHeader str key value) := by
  refine lookup_init
    (fun zones => (zones.routingHeaders.lookup key).bind (·.lookup value)) ?_
    (fun zones zoneName zoneData => ?_) config
  · show ((∅ : Map String (Map String SendingZone)).lookup key).bind _ = none
    rw [AList.lookup_empty]
    rfl
  · unfold startNextZone
    cases zoneData.disabled with
    | true => exact (Option.or_none).symm
    | false => exact lookup_setRoutingHeaders str _ _ _ _ _

/-- The zone is configured and enabled. -/
def Enabled (config : List (String × ZoneConfig)) (zoneName : String) : Prop :=
  ∃ zone ∈ config, zone.1 = zoneName ∧ zone.2.disabled = false

instance (config : List (String × ZoneConfig)) (zoneName : String) :
    Decidable (Enabled config zoneName) :=
  inferInstanceAs (Decidable (∃ zone ∈ config, _))

theorem enabled_concat (config : List (String × ZoneConfig)) (zone : String × ZoneConfig)
    (zoneName : String) : Enabled (config ++ [zone]) zoneName ↔
      Enabled config zoneName ∨ zone.1 = zoneName ∧ zone.2.disabled = false := by
  simp only [Enabled, List.mem_append, List.mem_singleton, or_and_right, exists_or, exists_eq_left]

/-- The zones are registered under the keys of the configuration. -/
theorem lookup_sendingZonelist (config : List (String × ZoneConfig)) (zoneName : String) :
    (init str config).sendingZonelist.lookup zoneName =
      if Enabled config zoneName then some (newZone str zoneName) else none := by
  unfold init
  induction config using List.reverseRecOn with
  | nil => exact AList.lookup_empty zoneName
  | append_singleton config zone ih =>
    rw [List.foldl_append, List.foldl_cons, List.foldl_nil, startNextZone]
    split
    · next hdisabled =>
      rw [ih]
      refine if_congr ?_ rfl rfl
      rw [enabled_concat, or_iff_left]
      rintro ⟨-, h⟩
      exact Bool.false_ne_true (h.symm.trans hdisabled)
    · next hdisabled =>
      rw [Bool.not_eq_true] at hdisabled
      rw [ForStd.lookup_insert, ih]
      by_cases hname : zoneName = zone.1
      · rw [if_pos hname, if_pos ((enabled_concat ..).mpr (Or.inr ⟨hname.symm, hdisabled⟩)), hname]
      · rw [if_neg hname]
        refine if_congr ?_ rfl rfl
        rw [enabled_concat, or_iff_left]
        rintro ⟨h, -⟩
        exact hname h.symm

/-- `get` finds the zone whose key is the normal form of the name. -/
theorem get_init (config : List (String × ZoneConfig)) (name : String) :
    (init str config).get str name =
      if Enabled config (str.normal name) then some (newZone str (str.normal name)) else none :=
  lookup_sendingZonelist config _

/-- The first zone with an option is enabled. -/
theorem enabled_of_firstZone {config : List (String × ZoneConfig)} {p : ZoneConfig → Bool}
    {zone : SendingZone} (h : firstZone str config p = some zone) :
    ∃ zoneName, Enabled config zoneName ∧ zone = newZone str zoneName := by
  obtain ⟨found, hfind, rfl⟩ := Option.map_eq_some_iff.mp h
  have hp := List.find?_some hfind
  rw [Bool.and_eq_true, Bool.not_eq_true'] at hp
  exact ⟨found.1, ⟨found, List.mem_of_find?_eq_some hfind, rfl, hp.1⟩, rfl⟩

end SendingZones

open SendingZones

namespace MailQueue

variable {str : Strings} {config : List (String × ZoneConfig)} {optionsDefaultZone : String}
  {envelope : Envelope} {recipient : String}

/-! ## The steps of the routing -/

theorem orFind_of_ne {deliveryZone : String} (h : deliveryZone ≠ "") (key : String)
    (find : String → String) : orFind deliveryZone key find = deliveryZone :=
  if_neg fun h' => h h'.1

/-- The zone that the lookups by sender, recipient and origin lead to. -/
def lookedUp (zones : SendingZones) (envelope : Envelope) (recipient : String) : String :=
  orFind (orFind (orFind "" (senderDomain envelope) zones.findBySender)
    (recipientDomain recipient) zones.findByRecipient) envelope.origin zones.findByOrigin

/-- The lookups come after the zone of the envelope, and the default zone comes last. -/
theorem deliveryZone_eq (zones : SendingZones) :
    deliveryZone str zones optionsDefaultZone envelope recipient =
      if zone str zones envelope ≠ "" then zone str zones envelope
      else if lookedUp zones envelope recipient ≠ "" then lookedUp zones envelope recipient
      else defaultZone optionsDefaultZone := by
  unfold deliveryZone lookedUp
  by_cases hzone : zone str zones envelope = ""
  · simp only [hzone, ne_eq, not_true, if_false, ite_not]
  · simp only [orFind_of_ne hzone, if_neg hzone, if_pos hzone, ne_eq]

/-! ## Which zone polls for a delivery -/

/-- An enabled zone polls under the name. -/
def Polled (str : Strings) (config : List (String × ZoneConfig)) (optionsDefaultZone name : String) :
    Prop :=
  ∃ zoneName, Enabled config zoneName ∧
    polledZone optionsDefaultZone (newZone str zoneName) = name

/-- The name is lower case and trimmed, or it is that of the default zone, and a zone with a blank
    name stands for that. -/
def Canonical (str : Strings) (config : List (String × ZoneConfig))
    (optionsDefaultZone name : String) : Prop :=
  str.normal name = name ∨ name = defaultZone optionsDefaultZone ∧
    ∃ zoneName, Enabled config zoneName ∧ str.normal zoneName = ""

/-- A zone that is registered under a name polls under it if the name is canonical. -/
theorem polled_iff {name : String} (hname : name ≠ "")
    (henabled : Enabled config name ∨ Enabled config (str.normal name)) :
    Polled str config optionsDefaultZone name ↔ Canonical str config optionsDefaultZone name := by
  constructor
  · rintro ⟨zoneName, hzone, hpolled⟩
    unfold polledZone at hpolled
    split at hpolled
    · next hblank => exact Or.inr ⟨hpolled.symm, zoneName, hzone, hblank⟩
    · refine Or.inl ?_
      rw [← hpolled]
      exact str.normal_normal zoneName
  · rintro (hnormal | ⟨rfl, zoneName, hzone, hblank⟩)
    · refine ⟨name, ?_, ?_⟩
      · rcases henabled with h | h
        · exact h
        · exact hnormal ▸ h
      · show (if str.normal name = "" then _ else str.normal name) = name
        rw [hnormal, if_neg hname]
    · exact ⟨zoneName, hzone, if_pos hblank⟩

/-- The name of a zone that a lookup has found. -/
theorem polled_of_find {found : Option SendingZone} {name : String}
    (hfound : ∀ zone, found = some zone →
      ∃ zoneName, Enabled config zoneName ∧ zone = newZone str zoneName)
    (hname : name ≠ "") (h : (found.map (·.name)).getD "" = name) :
    Polled str config optionsDefaultZone name := by
  cases found with
  | none => exact absurd h.symm hname
  | some zone =>
    obtain ⟨zoneName, henabled, rfl⟩ := hfound zone rfl
    refine ⟨zoneName, henabled, ?_⟩
    have hzone : (newZone str zoneName).name = name := h
    rw [polledZone, hzone, if_neg hname]

/-- A zone polls under the name that the lookups lead to. -/
theorem polled_lookedUp (h : lookedUp (init str config) envelope recipient ≠ "") :
    Polled str config optionsDefaultZone (lookedUp (init str config) envelope recipient) := by
  have hfind : ∀ {deliveryZone key : String} {find : String → String},
      (deliveryZone ≠ "" → Polled str config optionsDefaultZone deliveryZone) →
      (find key ≠ "" → Polled str config optionsDefaultZone (find key)) →
      orFind deliveryZone key find ≠ "" →
        Polled str config optionsDefaultZone (orFind deliveryZone key find) := by
    intro deliveryZone key find hzone hfind hne
    unfold orFind at hne ⊢
    split at hne
    · next h => rw [if_pos h]; exact hfind hne
    · next h => rw [if_neg h]; exact hzone hne
  refine hfind (hfind (hfind (fun h => absurd rfl h) fun hne => ?_) fun hne => ?_) (fun hne => ?_) h
  · refine polled_of_find (fun zone hzone => ?_) hne rfl
    rw [lookup_senderDomainMap] at hzone
    exact enabled_of_firstZone hzone
  · refine polled_of_find (fun zone hzone => ?_) hne rfl
    rw [lookup_recipientDomainMap] at hzone
    exact enabled_of_firstZone hzone
  · refine polled_of_find (fun zone hzone => ?_) hne rfl
    rw [lookup_originMap] at hzone
    exact enabled_of_firstZone hzone

/-- Each delivery of a message is polled for if and only if the name of its zone is canonical: the
    zone of the envelope, if it exists; otherwise the default zone, unless each recipient is
    routed by its sender, its recipient or its origin. -/
theorem push_polled {date : Nat → Nat} {_id : Nat → ObjectId} {recipients : List Recipient}
    (hpush : push str (init str config) optionsDefaultZone date _id envelope = .ok recipients)
    (hdefault : Enabled config (defaultZone optionsDefaultZone)) :
    (∀ recipient ∈ recipients,
      Polled str config optionsDefaultZone recipient.sendingZone) ↔
    if envelope.sendingZone ≠ "" ∧ ((init str config).get str envelope.sendingZone).isSome then
      Canonical str config optionsDefaultZone envelope.sendingZone
    else
      Canonical str config optionsDefaultZone (defaultZone optionsDefaultZone) ∨
        ∀ recipient ∈ envelope.to, lookedUp (init str config) envelope recipient ≠ "" := by
  unfold push at hpush
  split at hpush
  · exact nomatch hpush
  · next hsome =>
    have hto : ∀ p : String → Prop, (∀ recipient ∈ recipients, p recipient.sendingZone) ↔
        ∀ recipient ∈ envelope.to,
          p (deliveryZone str (init str config) optionsDefaultZone envelope recipient) := by
      intro p
      obtain rfl := Except.ok.inj hpush
      simp only [List.mem_mapIdx, forall_exists_index, List.forall_mem_iff_getElem]
      constructor
      · intro h i hi
        exact h _ i hi rfl
      · rintro h _ i hi rfl
        exact h i hi
    rw [hto]
    split
    · next hzone =>
      -- the zone of the envelope exists: all deliveries are stored under its name
      have hname : zone str (init str config) envelope = envelope.sendingZone := by
        refine if_neg fun h => ?_
        rw [Option.isNone_iff_eq_none] at h
        rw [h.2] at hzone
        exact nomatch hzone.2
      have henabled : Enabled config (str.normal envelope.sendingZone) := by
        by_contra h
        rw [get_init, if_neg h] at hzone
        exact nomatch hzone.2
      have heach : ∀ recipient, deliveryZone str (init str config) optionsDefaultZone envelope
          recipient = envelope.sendingZone := by
        intro recipient
        rw [deliveryZone_eq, hname, if_pos hzone.1]
      simp only [heach, polled_iff hzone.1 (Or.inr henabled)]
      obtain ⟨recipient, hrecipient⟩ := List.exists_mem_of_ne_nil _ hsome
      exact ⟨fun h => h recipient hrecipient, fun h _ _ => h⟩
    · next hzone =>
      have hname : zone str (init str config) envelope = "" := by
        unfold zone
        split
        · rfl
        · next h =>
          by_contra hne
          refine hzone ⟨hne, Option.isSome_iff_ne_none.mpr fun hnone => ?_⟩
          exact h ⟨hne, Option.isNone_iff_eq_none.mpr hnone⟩
      have hdefaultNe : defaultZone optionsDefaultZone ≠ "" := by
        unfold defaultZone
        split
        · decide
        · assumption
      have heach : ∀ recipient, deliveryZone str (init str config) optionsDefaultZone envelope
          recipient = if lookedUp (init str config) envelope recipient ≠ "" then
            lookedUp (init str config) envelope recipient
            else defaultZone optionsDefaultZone := by
        intro recipient
        rw [deliveryZone_eq, hname, if_neg (not_not.mpr rfl)]
      simp only [heach]
      constructor
      · intro h
        rw [or_iff_not_imp_right, not_forall]
        rintro ⟨recipient, hrecipient⟩
        rw [Classical.not_imp] at hrecipient
        have hpolled := h recipient hrecipient.1
        rw [if_neg hrecipient.2] at hpolled
        exact (polled_iff hdefaultNe (Or.inl hdefault)).mp hpolled
      · intro h recipient hrecipient
        split
        · next hlooked => exact polled_lookedUp hlooked
        · next hlooked =>
          refine (polled_iff hdefaultNe (Or.inl hdefault)).mpr ?_
          exact h.resolve_right fun hall => hlooked (hall recipient hrecipient)

/-- ASCII text, where domains need no further encoding. -/
def asciiStrings : Strings := { ForStd.Text.ascii with toASCII := id }

/-- A configuration with the default zone only. -/
def onlyDefault : List (String × ZoneConfig) := [("default", {})]

/-- An envelope with one recipient, for a zone. -/
def oneTo (sendingZone : String) : Envelope where
  sendingZone := sendingZone
  «from» := "sender@example.com"
  «to» := ["user@example.org"]
  origin := ""
  deferDelivery := 0

/-- The delivery of an envelope that is pushed at the start of the clock. -/
def pushOne (sendingZone : String) : Except String (List Recipient) :=
  push asciiStrings (init asciiStrings onlyDefault) "" (fun _ => 0) (fun i => ⟨0, i⟩)
    (oneTo sendingZone)

theorem push_polled_default : ∃ recipients, pushOne "default" = .ok recipients ∧
    ∀ recipient ∈ recipients, Polled asciiStrings onlyDefault "" recipient.sendingZone := by
  obtain ⟨recipients, hpush⟩ : ∃ recipients, pushOne "default" = .ok recipients := ⟨_, rfl⟩
  refine ⟨recipients, hpush, (push_polled hpush (by decide +kernel)).mpr ?_⟩
  rw [if_pos (by decide +kernel)]
  exact Or.inl (by decide +kernel)

/-- The name of the default zone in capitals is found by `get`, but no zone polls under it. -/
theorem push_polled_capitals : ∃ recipients, pushOne "DEFAULT" = .ok recipients ∧
    recipients.map (·.sendingZone) = ["DEFAULT"] ∧
      ∀ recipient ∈ recipients,
        ¬Polled asciiStrings onlyDefault "" recipient.sendingZone := by
  obtain ⟨recipients, hpush⟩ : ∃ recipients, pushOne "DEFAULT" = .ok recipients := ⟨_, rfl⟩
  have hzones : recipients.map (·.sendingZone) = ["DEFAULT"] := by
    obtain rfl := Except.ok.inj hpush
    decide +kernel
  refine ⟨recipients, hpush, hzones, fun recipient hrecipient => ?_⟩
  have hzone : recipient.sendingZone = "DEFAULT" := by
    have hmem := List.mem_map_of_mem (f := (·.sendingZone)) hrecipient
    rw [hzones] at hmem
    exact List.mem_singleton.mp hmem
  rw [hzone]
  rintro ⟨zoneName, ⟨zone, hmem, rfl, -⟩, hpolled⟩
  rw [List.mem_singleton.mp hmem] at hpolled
  exact absurd hpolled (by decide +kernel)

/-! ## The priorities -/

section priority

variable (str config)

/-- The zone that a header names. -/
def byName (value : String) : Option SendingZone :=
  if value = "" then none
  else
    (config.find? fun zone => !zone.2.disabled && str.normal zone.1 == str.normal value).map
      fun zone => newZone str zone.1

/-- The zone of the bottom-most header that one is configured for. -/
def byHeaders (headers : List HeaderLine) : Option SendingZone :=
  headers.reverse.findSome? fun line =>
    firstZone str config fun data =>
      data.routingHeaders.any (isHeader str line.key (str.value line.line))

/-- The zone for a domain, of a sender or a recipient. -/
def byDomain (domains : ZoneConfig → List String) (domain : String) : Option SendingZone :=
  if domain = "" then none
  else firstZone str config fun data => (domains data).any (str.domain · == str.domain domain)

/-- The zone for the address a message comes from. -/
def byOrigin (origin : String) : Option SendingZone :=
  if origin = "" then none
  else firstZone str config fun data => data.originAddresses.any (· == origin)

/-- The zones that a delivery can be routed to, the one with the highest priority first: that of
    the `X-Sending-Zone` header, that of the other headers, and those of the sender, the recipient
    and the origin. -/
def candidates (value : String) (headers : List HeaderLine) (envelope : Envelope)
    (recipient : String) : List (Option SendingZone) :=
  [byName str config value, byHeaders str config headers,
    byDomain str config (·.senderDomains) (senderDomain envelope),
    byDomain str config (·.recipientDomains) (recipientDomain recipient),
    byOrigin str config envelope.origin]

/-- The name of the first zone, or of the default zone. -/
def firstName (optionsDefaultZone : String) (zones : List (Option SendingZone)) : String :=
  (zones.findSome? id).elim (defaultZone optionsDefaultZone) (·.name)

/-! ### What the code finds -/

/-- A way to route a message: the zone it leads to, and whether the code finds this zone. -/
structure Rule where
  zone : Option SendingZone
  found : Bool

/-- The zone that is found by a rule. -/
def Rule.taken (rule : Rule) : Option SendingZone := if rule.found then rule.zone else none

/-- A zone is registered under the name of this one. -/
def registered (zone : Option SendingZone) : Bool :=
  zone.any fun zone => decide (Enabled config zone.name)

/-- The zone has a name. -/
def hasName (zone : Option SendingZone) : Bool := zone.any (·.name != "")

/-- The hook looks at `X-Sending-Zone` if the envelope has no zone, and `push` looks for a zone that
    is registered under the name. -/
def nameRule (value : String) (envelope : Envelope) : Rule :=
  let zone := byName str config value
  ⟨zone, envelope.sendingZone == "" && registered config zone⟩

/-- The hook looks at the other headers if there is no `X-Sending-Zone`, but only the master has
    zones to be found. `push` looks for the zone again, by its name. -/
def headersRule (process : HookProcess) (value : String) (headers : List HeaderLine)
    (envelope : Envelope) : Rule :=
  let zone := byHeaders str config headers
  ⟨zone, envelope.sendingZone == "" && value == "" && process == .master && hasName zone &&
    registered config zone⟩

/-- The maps of `push` have the domains in lower case and ASCII. -/
def domainRule (domains : ZoneConfig → List String) (domain : String) : Rule :=
  let zone := byDomain str config domains domain
  ⟨zone, str.domain domain == domain && hasName zone⟩

/-- The map of the addresses has them as they are. -/
def originRule (origin : String) : Rule :=
  let zone := byOrigin str config origin
  ⟨zone, hasName zone⟩

/-- The ways to route a message, in their order. -/
def rules (process : HookProcess) (value : String) (headers : List HeaderLine)
    (envelope : Envelope) (recipient : String) : List Rule :=
  [nameRule str config value envelope, headersRule str config process value headers envelope,
    domainRule str config (·.senderDomains) (senderDomain envelope),
    domainRule str config (·.recipientDomains) (recipientDomain recipient),
    originRule str config envelope.origin]

/-- The first rule that leads to a zone finds it, or the rules that find one lead to the same
    name. -/
def Routed (optionsDefaultZone : String) : List Rule → Prop
  | [] => True
  | rule :: rules =>
    match rule.zone with
    | none => Routed optionsDefaultZone rules
    | some zone =>
      rule.found = true ∨ firstName optionsDefaultZone (rules.map Rule.taken) = zone.name

instance decidableRouted (optionsDefaultZone : String) :
    (rules : List Rule) → Decidable (Routed optionsDefaultZone rules)
  | [] => isTrue trivial
  | ⟨none, _⟩ :: rules => decidableRouted optionsDefaultZone rules
  | ⟨some _, _⟩ :: _ => inferInstanceAs (Decidable (_ ∨ _))

/-- The envelope has been given a zone that is registered. -/
def HasZone (envelope : Envelope) : Prop :=
  envelope.sendingZone ≠ "" ∧ Enabled config (str.normal envelope.sendingZone)

instance (envelope : Envelope) : Decidable (HasZone str config envelope) :=
  inferInstanceAs (Decidable (_ ∧ _))

end priority

/-! ### Zones and their names -/

theorem map_zone_rules (process : HookProcess) (value : String) (headers : List HeaderLine) :
    (rules str config process value headers envelope recipient).map Rule.zone =
      candidates str config value headers envelope recipient := by
  simp only [rules, candidates, nameRule, headersRule, domainRule, originRule, List.map_cons,
    List.map_nil]

/-- The rules that find their zones lead to the same name as all the rules. -/
theorem firstName_taken_iff (optionsDefaultZone : String) (rules : List Rule) :
    firstName optionsDefaultZone (rules.map Rule.taken) =
      firstName optionsDefaultZone (rules.map Rule.zone) ↔ Routed optionsDefaultZone rules := by
  induction rules with
  | nil => exact iff_of_true rfl trivial
  | cons rule rules ih =>
    obtain ⟨zone, found⟩ := rule
    rw [List.map_cons, List.map_cons, Rule.taken]
    cases zone with
    | none =>
      rw [ite_self]
      exact ih
    | some zone =>
      cases found with
      | true => exact iff_of_true rfl (Or.inl rfl)
      | false =>
        -- the zone of this rule is passed over
        refine ⟨Or.inr, ?_⟩
        rintro (hfound | hname)
        · exact absurd hfound Bool.false_ne_true
        · exact hname

/-- The zone that was found, if any, has a name. -/
def HasName (found : Option SendingZone) : Prop := ∀ zone, found = some zone → zone.name ≠ ""

/-- What the lookups return. -/
def nameOf (found : Option SendingZone) : String := (found.map (·.name)).getD ""

theorem hasName_none : HasName none := fun _ h => nomatch h

theorem hasName_or {found next : Option SendingZone} (hfound : HasName found)
    (hnext : HasName next) : HasName (found.or next) := by
  intro zone h
  rcases Option.or_eq_some_iff.mp h with h | ⟨-, h⟩
  · exact hfound zone h
  · exact hnext zone h

/-- A rule that finds only zones with a name. -/
theorem hasName_taken {rule : Rule} (h : rule.found = true → hasName rule.zone = true) :
    HasName rule.taken := by
  intro zone htaken
  unfold Rule.taken at htaken
  split at htaken
  · next hfound =>
    have hname := h hfound
    rw [htaken, hasName, Option.any_some] at hname
    exact bne_iff_ne.mp hname
  · exact nomatch htaken

/-- A zone without a name is passed over. -/
theorem nameOf_taken (zone : Option SendingZone) :
    nameOf (Rule.taken ⟨zone, hasName zone⟩) = nameOf zone := by
  unfold Rule.taken hasName
  cases zone with
  | none => rfl
  | some zone =>
    by_cases hname : zone.name = ""
    · simp [hname, nameOf]
    · simp [hname]

/-- A lookup comes after those that have found nothing. -/
theorem orFind_nameOf {found next : Option SendingZone} {key : String} {find : String → String}
    (hfound : HasName found) (hnext : nameOf next = if key = "" then "" else find key) :
    orFind (nameOf found) key find = nameOf (found.or next) := by
  cases found with
  | some zone => exact orFind_of_ne (hfound zone rfl) key find
  | none =>
    rw [Option.none_or, hnext]
    unfold orFind
    by_cases hkey : key = "" <;> simp [hkey, nameOf]

/-- The first zone of a list, or the default zone. -/
theorem firstName_eq {first a b c : Option SendingZone} (hfirst : HasName first) (ha : HasName a)
    (hb : HasName b) (hc : HasName c) :
    firstName optionsDefaultZone [first, a, b, c] =
      if nameOf first ≠ "" then nameOf first
      else if nameOf ((a.or b).or c) ≠ "" then nameOf ((a.or b).or c)
      else defaultZone optionsDefaultZone := by
  cases first with
  | some zone => exact (if_pos (hfirst zone rfl)).symm
  | none =>
    have hnone : ¬nameOf none ≠ "" := not_not.mpr rfl
    rw [if_neg hnone]
    cases a with
    | some zone => exact (if_pos (ha zone rfl)).symm
    | none =>
      cases b with
      | some zone => exact (if_pos (hb zone rfl)).symm
      | none =>
        cases c with
        | some zone => exact (if_pos (hc zone rfl)).symm
        | none => exact (if_neg hnone).symm

/-! ### The lookups of `push` -/

/-- A lookup by a domain, which the map has in its form only. -/
theorem nameOf_domainRule (hdomain : ∀ s, str.domain (str.domain s) = str.domain s)
    (domains : ZoneConfig → List String) (domain : String) :
    nameOf (domainRule str config domains domain).taken =
      if domain = "" then ""
      else nameOf (firstZone str config fun data => (domains data).any (str.domain · == domain)) := by
  unfold domainRule
  by_cases hform : str.domain domain = domain
  · dsimp only
    rw [beq_iff_eq.mpr hform, Bool.true_and, nameOf_taken, byDomain, hform]
    split <;> rfl
  · -- no key of the map is equal to the domain
    have hnone : (firstZone str config fun data => (domains data).any (str.domain · == domain)) =
        none := by
      unfold firstZone
      rw [Option.map_eq_none_iff, List.find?_eq_none]
      intro zone _ hzone
      rw [Bool.and_eq_true, List.any_eq_true] at hzone
      obtain ⟨-, key, -, hkey⟩ := hzone
      rw [beq_iff_eq] at hkey
      exact hform (by rw [← hkey, hdomain])
    dsimp only
    rw [beq_eq_false_iff_ne.mpr hform, Bool.false_and, hnone]
    exact (ite_self "").symm

theorem hasName_domainRule (domains : ZoneConfig → List String) (domain : String) :
    HasName (domainRule str config domains domain).taken :=
  hasName_taken fun h => (Bool.and_eq_true_iff.mp h).2

theorem hasName_originRule (origin : String) : HasName (originRule str config origin).taken :=
  hasName_taken id

/-- The lookups by sender, recipient and origin. -/
theorem lookedUp_eq (hdomain : ∀ s, str.domain (str.domain s) = str.domain s) :
    lookedUp (init str config) envelope recipient =
      nameOf (((domainRule str config (·.senderDomains) (senderDomain envelope)).taken.or
        (domainRule str config (·.recipientDomains) (recipientDomain recipient)).taken).or
          (originRule str config envelope.origin).taken) := by
  have hsender : nameOf (domainRule str config (·.senderDomains) (senderDomain envelope)).taken =
      if senderDomain envelope = "" then ""
      else (init str config).findBySender (senderDomain envelope) := by
    rw [nameOf_domainRule hdomain, ← lookup_senderDomainMap]
    rfl
  have hrecipient :
      nameOf (domainRule str config (·.recipientDomains) (recipientDomain recipient)).taken =
        if recipientDomain recipient = "" then ""
        else (init str config).findByRecipient (recipientDomain recipient) := by
    rw [nameOf_domainRule hdomain, ← lookup_recipientDomainMap]
    rfl
  have horigin : nameOf (originRule str config envelope.origin).taken =
      if envelope.origin = "" then "" else (init str config).findByOrigin envelope.origin := by
    unfold originRule
    rw [nameOf_taken]
    unfold byOrigin findByOrigin
    rw [lookup_originMap]
    split <;> rfl
  have hfirst : orFind "" (senderDomain envelope) (init str config).findBySender =
      nameOf (domainRule str config (·.senderDomains) (senderDomain envelope)).taken :=
    orFind_nameOf hasName_none hsender
  unfold lookedUp
  rw [hfirst, orFind_nameOf (hasName_domainRule _ _) hrecipient,
    orFind_nameOf (hasName_or (hasName_domainRule _ _) (hasName_domainRule _ _)) horigin]

/-! ### The hook and `push` -/

/-- In the master the hook finds the zone of the headers. -/
theorem findByHeaders_zones (process : HookProcess) (headers : List HeaderLine) :
    (process.zones str config).findByHeaders str headers =
      if process = .master then nameOf (byHeaders str config headers) else "" := by
  cases process with
  | master =>
    rw [if_pos rfl]
    unfold HookProcess.zones findByHeaders byHeaders nameOf
    rw [List.map_findSome?]
    dsimp only
    congr 2
    funext line
    rw [Function.comp_apply, ← lookup_routingHeaders, Option.map_bind]
    rfl
  | receiver =>
    rw [if_neg (fun h => nomatch h)]
    unfold HookProcess.zones findByHeaders
    have hnone : ∀ line ∈ headers.reverse,
        ((({} : SendingZones).routingHeaders.lookup line.key).bind fun map =>
          (map.lookup (str.value line.line)).map (·.name)) = none := by
      intro line _
      show ((∅ : Map String (Map String SendingZone)).lookup line.key).bind _ = none
      rw [AList.lookup_empty]
      rfl
    rw [List.findSome?_eq_none_iff.mpr hnone]
    rfl

/-- `push` keeps the name of the envelope if a zone is registered under it. -/
theorem zone_eq (envelope : Envelope) :
    zone str (init str config) envelope =
      if HasZone str config envelope then envelope.sendingZone else "" := by
  unfold zone HasZone
  rw [get_init]
  by_cases hempty : envelope.sendingZone = ""
  · simp [hempty]
  · by_cases henabled : Enabled config (str.normal envelope.sendingZone) <;>
      simp [hempty, henabled]

/-- The zone that a header names has the name in its normal form. -/
theorem name_of_byName {value : String} {zone : SendingZone}
    (h : byName str config value = some zone) : value ≠ "" ∧ zone.name = str.normal value := by
  unfold byName at h
  split at h
  · exact nomatch h
  · next hvalue =>
    obtain ⟨found, hfind, rfl⟩ := Option.map_eq_some_iff.mp h
    have hp := List.find?_some hfind
    rw [Bool.and_eq_true, beq_iff_eq] at hp
    exact ⟨hvalue, hp.2⟩

/-- A name under which a zone is registered is that of the zone that it names. -/
theorem byName_of_enabled {value : String} (hvalue : value ≠ "")
    (hnormal : str.normal value = value) (henabled : Enabled config value) :
    ∃ zone, byName str config value = some zone ∧ zone.name = value := by
  obtain ⟨found, hfound, hname, hdisabled⟩ := henabled
  have hsome : (config.find? fun zone =>
      !zone.2.disabled && str.normal zone.1 == str.normal value).isSome = true := by
    rw [List.find?_isSome]
    refine ⟨found, hfound, ?_⟩
    rw [hdisabled, hname, Bool.not_false, Bool.true_and, beq_self_eq_true]
  obtain ⟨zone, hzone⟩ := Option.isSome_iff_exists.mp hsome
  have hby : byName str config value = some (newZone str zone.1) := by
    rw [byName, if_neg hvalue, hzone]
    rfl
  exact ⟨_, hby, (name_of_byName hby).2.trans hnormal⟩

section hook

variable {hdr : MessageHeaders} {allowRoutingHeaders : List String} {interface : String}
  {process : HookProcess}

/-- The name in the `X-Sending-Zone` header, in lower case. -/
def sendingZoneHeader (str : Strings) (hdr : MessageHeaders) (headers : List HeaderLine) : String :=
  str.toLowerCase (hdr.getFirst (hdr.addMessageId headers) "x-sending-zone")

theorem normal_sendingZoneHeader
    (hgetFirst : ∀ headers key, str.trim (hdr.getFirst headers key) = hdr.getFirst headers key)
    (headers : List HeaderLine) :
    str.normal (sendingZoneHeader str hdr headers) = sendingZoneHeader str hdr headers := by
  rw [sendingZoneHeader, ← hgetFirst]
  exact str.normal_lower_trim _

/-- The hook leaves a zone of the envelope as it is; otherwise it sets the name in
    `X-Sending-Zone`, or that of the zone of the other headers. -/
theorem messageHeaders_zone (hinterface : interface ∈ allowRoutingHeaders)
    (headers : List HeaderLine) :
    (messageHeaders str hdr (process.zones str config) allowRoutingHeaders interface
        envelope.sendingZone headers).1 =
      if envelope.sendingZone ≠ "" then envelope.sendingZone
      else if sendingZoneHeader str hdr headers ≠ "" then sendingZoneHeader str hdr headers
      else if process = .master then nameOf (byHeaders str config (messageHeaders str hdr
        (process.zones str config) allowRoutingHeaders interface envelope.sendingZone headers).2)
      else "" := by
  unfold messageHeaders sendingZoneHeader
  by_cases hempty : envelope.sendingZone = ""
  · simp only [hempty, hinterface, and_self, if_true, ne_eq, not_true, if_false]
    split
    · exact findByHeaders_zones process _
    · rfl
  · simp only [hempty, false_and, if_false, ne_eq, not_false_iff, if_true]

/-- The name in `X-Sending-Zone` is found where a zone is registered under it. -/
theorem nameOf_nameRule {value : String} (hempty : envelope.sendingZone = "") (hvalue : value ≠ "")
    (hnormal : str.normal value = value) :
    nameOf (nameRule str config value envelope).taken =
      if Enabled config value then value else "" := by
  have hrule : nameRule str config value envelope =
      ⟨byName str config value, registered config (byName str config value)⟩ := by
    simp [nameRule, hempty]
  rw [hrule, Rule.taken, registered]
  dsimp only
  by_cases henabled : Enabled config value
  · obtain ⟨zone, hby, hname⟩ := byName_of_enabled hvalue hnormal henabled
    rw [hby, Option.any_some, hname, if_pos henabled, if_pos (decide_eq_true henabled)]
    exact hname
  · rw [if_neg henabled]
    cases hby : byName str config value with
    | none => rfl
    | some zone =>
      have hname : zone.name = value := (name_of_byName hby).2.trans hnormal
      rw [Option.any_some, hname, if_neg (by simp [henabled])]
      rfl

/-- The zone of the other headers is found where it has a name, and a zone is registered
    under it. -/
theorem nameOf_headersRule (hempty : envelope.sendingZone = "") (headers : List HeaderLine) :
    nameOf (headersRule str config .master "" headers envelope).taken =
      if nameOf (byHeaders str config headers) ≠ "" ∧
          Enabled config (str.normal (nameOf (byHeaders str config headers))) then
        nameOf (byHeaders str config headers)
      else "" := by
  have hrule : headersRule str config .master "" headers envelope =
      ⟨byHeaders str config headers, hasName (byHeaders str config headers) &&
        registered config (byHeaders str config headers)⟩ := by
    simp [headersRule, hempty]
  rw [hrule, Rule.taken]
  dsimp only
  cases hheaders : byHeaders str config headers with
  | none => rfl
  | some zone =>
    obtain ⟨line, -, hline⟩ := List.exists_of_findSome?_eq_some hheaders
    obtain ⟨zoneName, -, rfl⟩ := enabled_of_firstZone hline
    have hnormal : str.normal (newZone str zoneName).name = (newZone str zoneName).name :=
      str.normal_normal zoneName
    have hname : nameOf (some (newZone str zoneName)) = (newZone str zoneName).name := rfl
    rw [hname, hnormal, apply_ite nameOf, hname]
    refine if_congr ?_ rfl rfl
    simp only [hasName, registered, Option.any_some, Bool.and_eq_true, bne_iff_ne,
      decide_eq_true_eq]

/-- The zone that `push` keeps, after the hook, of an envelope that had none. -/
theorem zone_messageHeaders (hinterface : interface ∈ allowRoutingHeaders)
    (hgetFirst : ∀ headers key, str.trim (hdr.getFirst headers key) = hdr.getFirst headers key)
    (headers : List HeaderLine) (hzone : ¬HasZone str config envelope) :
    let value := sendingZoneHeader str hdr headers
    let hooked := messageHeaders str hdr (process.zones str config) allowRoutingHeaders interface
      envelope.sendingZone headers
    zone str (init str config) { envelope with sendingZone := hooked.1 } =
      nameOf ((nameRule str config value envelope).taken.or
        (headersRule str config process value hooked.2 envelope).taken) := by
  intro value hooked
  have hhooked : hooked.1 =
      if envelope.sendingZone ≠ "" then envelope.sendingZone
      else if value ≠ "" then value
      else if process = .master then nameOf (byHeaders str config hooked.2) else "" :=
    messageHeaders_zone hinterface headers
  have hnormal : str.normal value = value := normal_sendingZoneHeader hgetFirst headers
  have hkept : zone str (init str config) { envelope with sendingZone := hooked.1 } =
      if hooked.1 ≠ "" ∧ Enabled config (str.normal hooked.1) then hooked.1 else "" := zone_eq _
  rw [hkept]
  by_cases hempty : envelope.sendingZone = ""
  · rw [if_neg (not_not.mpr hempty)] at hhooked
    by_cases hvalue : value = ""
    · -- without the header, the others are looked at
      have hname : (nameRule str config value envelope).taken = none := by
        rw [Rule.taken, nameRule, byName, if_pos hvalue, ite_self]
      rw [if_neg (not_not.mpr hvalue)] at hhooked
      rw [hname, Option.none_or]
      cases process with
      | receiver =>
        have hhooked : hooked.1 = "" := hhooked
        rw [if_neg (fun h => h.1 hhooked), Rule.taken, headersRule, if_neg (by simp)]
        rfl
      | master =>
        rw [if_pos rfl] at hhooked
        rw [hvalue, nameOf_headersRule hempty, hhooked]
    · have hheaders : (headersRule str config process value hooked.2 envelope).taken = none := by
        rw [Rule.taken, headersRule, if_neg (by simp [hvalue])]
      rw [if_pos hvalue] at hhooked
      rw [hheaders, Option.or_none, nameOf_nameRule hempty hvalue hnormal, hhooked, hnormal]
      exact if_congr (and_iff_right hvalue) rfl rfl
  · -- a zone that is not registered keeps the hook from looking
    rw [if_pos hempty] at hhooked
    have hname : (nameRule str config value envelope).taken = none := by
      rw [Rule.taken, nameRule, if_neg (by simp [hempty])]
    have hheaders : (headersRule str config process value hooked.2 envelope).taken = none := by
      rw [Rule.taken, headersRule, if_neg (by simp [hempty])]
    have hunset : ¬(envelope.sendingZone ≠ "" ∧ Enabled config (str.normal envelope.sendingZone)) :=
      hzone
    rw [hname, hheaders, hhooked, if_neg hunset]
    rfl

theorem hasName_nameRule
    (hgetFirst : ∀ headers key, str.trim (hdr.getFirst headers key) = hdr.getFirst headers key)
    (headers : List HeaderLine) :
    HasName (nameRule str config (sendingZoneHeader str hdr headers) envelope).taken := by
  intro zone h
  unfold Rule.taken at h
  split at h
  · obtain ⟨hvalue, hname⟩ := name_of_byName h
    rw [hname, normal_sendingZoneHeader hgetFirst]
    exact hvalue
  · exact nomatch h

theorem hasName_headersRule (value : String) (headers : List HeaderLine) :
    HasName (headersRule str config process value headers envelope).taken :=
  hasName_taken fun h => (Bool.and_eq_true_iff.mp (Bool.and_eq_true_iff.mp h).1).2

/-- The zone of a delivery, after the hook and `push`: one that the envelope had before, or else
    the first zone that the rules find. -/
theorem deliveryZone_eq_firstName (hinterface : interface ∈ allowRoutingHeaders)
    (hgetFirst : ∀ headers key, str.trim (hdr.getFirst headers key) = hdr.getFirst headers key)
    (hdomain : ∀ s, str.domain (str.domain s) = str.domain s) (headers : List HeaderLine) :
    let hooked := messageHeaders str hdr (process.zones str config) allowRoutingHeaders interface
      envelope.sendingZone headers
    deliveryZone str (init str config) optionsDefaultZone
        { envelope with sendingZone := hooked.1 } recipient =
      if HasZone str config envelope then envelope.sendingZone
      else firstName optionsDefaultZone ((rules str config process
        (sendingZoneHeader str hdr headers) hooked.2 envelope recipient).map Rule.taken) := by
  intro hooked
  have hlookedUp : lookedUp (init str config) { envelope with sendingZone := hooked.1 } recipient =
      lookedUp (init str config) envelope recipient := rfl
  rw [deliveryZone_eq, hlookedUp, lookedUp_eq hdomain]
  by_cases hzone : HasZone str config envelope
  · have hhooked : hooked.1 = envelope.sendingZone :=
      (messageHeaders_zone hinterface headers).trans (if_pos hzone.1)
    have hkept : zone str (init str config) { envelope with sendingZone := hooked.1 } =
        envelope.sendingZone := by
      rw [zone_eq, hhooked, if_pos hzone]
    rw [hkept, if_pos hzone.1, if_pos hzone]
  · have hkept : zone str (init str config) { envelope with sendingZone := hooked.1 } =
        nameOf ((nameRule str config (sendingZoneHeader str hdr headers) envelope).taken.or
          (headersRule str config process (sendingZoneHeader str hdr headers) hooked.2
            envelope).taken) :=
      zone_messageHeaders hinterface hgetFirst headers hzone
    rw [if_neg hzone, hkept]
    refine (firstName_eq (hasName_or (hasName_nameRule hgetFirst headers)
      (hasName_headersRule _ _)) (hasName_domainRule _ _) (hasName_domainRule _ _)
      (hasName_originRule _)).symm.trans ?_
    simp only [firstName, rules, List.map_cons, List.map_nil, List.findSome?_cons, id_eq]
    cases (nameRule str config (sendingZoneHeader str hdr headers) envelope).taken <;> rfl

/-- The zone of a delivery is the first one by the priorities if and only if the envelope had that
    zone before the hook, or it had none and the first rule that leads to a zone finds it, up to
    rules that lead to a zone of the same name. -/
theorem zone_priority_iff (hinterface : interface ∈ allowRoutingHeaders)
    (hgetFirst : ∀ headers key, str.trim (hdr.getFirst headers key) = hdr.getFirst headers key)
    (hdomain : ∀ s, str.domain (str.domain s) = str.domain s) (headers : List HeaderLine) :
    let hooked := messageHeaders str hdr (process.zones str config) allowRoutingHeaders interface
      envelope.sendingZone headers
    let value := sendingZoneHeader str hdr headers
    deliveryZone str (init str config) optionsDefaultZone
        { envelope with sendingZone := hooked.1 } recipient =
        firstName optionsDefaultZone (candidates str config value hooked.2 envelope recipient) ↔
      if HasZone str config envelope then
        firstName optionsDefaultZone (candidates str config value hooked.2 envelope recipient) =
          envelope.sendingZone
      else
        Routed optionsDefaultZone (rules str config process value hooked.2 envelope recipient) := by
  intro hooked value
  have heq : deliveryZone str (init str config) optionsDefaultZone
      { envelope with sendingZone := hooked.1 } recipient =
        if HasZone str config envelope then envelope.sendingZone
        else firstName optionsDefaultZone
          ((rules str config process value hooked.2 envelope recipient).map Rule.taken) :=
    deliveryZone_eq_firstName hinterface hgetFirst hdomain headers
  rw [heq]
  split
  · exact eq_comm
  · rw [← firstName_taken_iff, map_zone_rules]

end hook

/-- Headers that are complete, and whose values need no decoding. -/
def plainHeaders : MessageHeaders where
  getFirst headers key :=
    ((headers.find? (·.key == key)).map fun line =>
      ForStd.Text.ascii.trim (ForStd.afterFirst ':' line.line)).getD ""
  addMessageId := id
  addDate := id

/-- A zone for a user, whose id is in a header. -/
def userZone (zoneName : String) : List (String × ZoneConfig) :=
  [("default", {}), (zoneName, { routingHeaders := [("X-User-ID", "123")] })]

/-- The header with the id of the user. -/
def userHeader : HeaderLine := ⟨"x-user-id", "X-User-ID: 123"⟩

/-- The zone of the message with the headers, from an interface that may use routing headers. -/
def zoneOf (process : HookProcess) (config : List (String × ZoneConfig))
    (headers : List HeaderLine) : String :=
  let hooked := messageHeaders asciiStrings plainHeaders (process.zones asciiStrings config)
    ["api", "feeder"] "feeder" (oneTo "").sendingZone headers
  deliveryZone asciiStrings (init asciiStrings config) "" { oneTo "" with sendingZone := hooked.1 }
    "user@example.org"

/-- The first zone by the priorities. -/
def firstOf (process : HookProcess) (config : List (String × ZoneConfig))
    (headers : List HeaderLine) : String :=
  let hooked := messageHeaders asciiStrings plainHeaders (process.zones asciiStrings config)
    ["api", "feeder"] "feeder" (oneTo "").sendingZone headers
  firstName "" (candidates asciiStrings config
    (sendingZoneHeader asciiStrings plainHeaders headers) hooked.2 (oneTo "") "user@example.org")

theorem zone_priority_iff_example :
    zoneOf .master (userZone "bulk") [userHeader] = firstOf .master (userZone "bulk") [userHeader] ∧
      zoneOf .receiver (userZone "bulk") [userHeader] ≠
        firstOf .receiver (userZone "bulk") [userHeader] := by
  have hinterface : "feeder" ∈ ["api", "feeder"] := by decide
  have hgetFirst : ∀ headers key, ForStd.Text.ascii.trim (plainHeaders.getFirst headers key) =
      plainHeaders.getFirst headers key := by
    intro headers key
    show ForStd.Text.ascii.trim (Option.getD _ "") = Option.getD _ ""
    cases headers.find? (·.key == key) with
    | none => decide +kernel
    | some line => exact ForStd.Text.ascii.trim_trim _
  have hdomain : ∀ s, asciiStrings.domain (asciiStrings.domain s) = asciiStrings.domain s :=
    ForStd.Text.ascii.normal_normal
  have hiff := fun process => @zone_priority_iff asciiStrings (userZone "bulk") "" (oneTo "")
    "user@example.org" plainHeaders ["api", "feeder"] "feeder" process hinterface hgetFirst hdomain
    [userHeader]
  exact ⟨(hiff .master).mpr (by decide +kernel), mt (hiff .receiver).mp (by decide +kernel)⟩

/-- A receiver has no zones, so the header of the user leads to the default zone. -/
theorem zone_priority_receiver :
    zoneOf .receiver (userZone "bulk") [userHeader] = "default" ∧
      firstOf .receiver (userZone "bulk") [userHeader] = "bulk" := by
  decide +kernel

-- the master passes over the header of the user as well, behind a zone that does not exist
example : zoneOf .master (userZone "bulk")
    [⟨"x-sending-zone", "X-Sending-Zone: nosuch"⟩, userHeader] = "default" := by decide +kernel

-- a zone that is registered under a name with capitals is not found by it
example : zoneOf .master (userZone "Bulk") [⟨"x-sending-zone", "X-Sending-Zone: Bulk"⟩] =
    "default" := by decide +kernel

end MailQueue

end ZoneMta
