import ZoneMta.ForStd.List
import ZoneMta.Native.TtlCache

/-!
# The cache is a map

A cache with times to live is a map from keys to values with a time and a callback. The array
of the entries in the order in which they expire always has the same entries as the map of the
cache, each once, so that the sweep, which looks at the array only, ends what has expired.

## Key results

- `wf_apply`: the map and the array agree
- `plain_apply`: the operations are those of a map
- `calls_apply`: an operation schedules the callbacks of what it ends
- `refines`: both, for every sequence of operations
-/

namespace ZoneMta.TtlCache

open ForStd (insertBehind)

variable {κ ν φ τ : Type} [DecidableEq κ]

/-! ## A map from keys to values with a time and a callback -/

/-- What a key is bound to. -/
structure Binding (ν φ τ : Type) where
  value : ν
  expires : τ
  expireCb : Option φ
deriving Repr, DecidableEq

/-- A map without an order. -/
abbrev Plain (κ ν φ τ : Type) := κ → Option (Binding ν φ τ)

namespace Plain

variable [LinearOrder τ]

/-- The value of a key at a time. -/
def get (m : Plain κ ν φ τ) (key : κ) (now : τ) : Option ν :=
  (m key).bind fun binding => if binding.expires < now then none else some binding.value

variable [Zero τ] [Add τ]

/-- Whether an operation ends a binding and schedules its callback. -/
def Ends (defaultTtl now : τ) (op : Op κ ν φ τ) (key : κ) (binding : Binding ν φ τ) : Prop :=
  match op with
  | .get key' => key = key' ∧ binding.expires < now
  | .set key' value ttl _ => key = key' ∧ (value.isNone = true ∨ ttl.getD defaultTtl ≤ 0)
  | .remove key' => key = key'
  | .checkExpired => binding.expires ≤ now
  | .flush | .updateTimer => False

instance (defaultTtl now : τ) (op : Op κ ν φ τ) (key : κ) (binding : Binding ν φ τ) :
    Decidable (Ends defaultTtl now op key binding) := by
  unfold Ends
  split <;> infer_instance

/-- The map without what the operation ends. -/
def keep (defaultTtl now : τ) (m : Plain κ ν φ τ) (op : Op κ ν φ τ) : Plain κ ν φ τ :=
  fun key => (m key).filter fun binding => !decide (Ends defaultTtl now op key binding)

/-- The map after an operation: what it ends is gone, `set` binds its key, `flush` leaves
    nothing. -/
def apply (defaultTtl now : τ) (m : Plain κ ν φ τ) (op : Op κ ν φ τ) : Plain κ ν φ τ :=
  match op with
  | .flush => fun _ => none
  | .set key (some value) ttl expireCb =>
    if ttl.getD defaultTtl ≤ 0 then m.keep defaultTtl now op
    else Function.update m key (some ⟨value, now + ttl.getD defaultTtl, expireCb⟩)
  | op => m.keep defaultTtl now op

end Plain

/-- The map that a cache stands for. -/
def plain (c : TtlCache κ ν φ τ) : Plain κ ν φ τ := fun key =>
  (c.data.lookup key).map fun entry => ⟨entry.value, entry.expires, entry.expireCb⟩

/-- The callbacks that are scheduled, with their values. -/
def calls (c : TtlCache κ ν φ τ) : List (φ × ν) :=
  c.immediates.filterMap fun immediate =>
    match immediate with
    | .expireCb func value => some (func, value)
    | _ => none

/-- The callback of an entry, with its value. -/
def Entry.call? (entry : Entry κ ν φ τ) : Option (φ × ν) :=
  entry.expireCb.map fun func => (func, entry.value)

/-! ## Callbacks -/

section expire

variable (c : TtlCache κ ν φ τ)

@[simp] theorem data_expire (entry : Entry κ ν φ τ) : (c.expire entry).data = c.data := by
  unfold expire
  split <;> rfl

@[simp] theorem sorted_expire (entry : Entry κ ν φ τ) : (c.expire entry).sorted = c.sorted := by
  unfold expire
  split <;> rfl

@[simp] theorem nextRef_expire (entry : Entry κ ν φ τ) :
    (c.expire entry).nextRef = c.nextRef := by
  unfold expire
  split <;> rfl

@[simp] theorem defaultTtl_expire (entry : Entry κ ν φ τ) :
    (c.expire entry).defaultTtl = c.defaultTtl := by
  unfold expire
  split <;> rfl

theorem calls_setImmediate (immediate : Immediate ν φ)
    (h : ∀ func value, immediate ≠ .expireCb func value) :
    (c.setImmediate immediate).calls = c.calls := by
  cases immediate with
  | expireCb func value => exact absurd rfl (h func value)
  | _ => simp [calls, setImmediate]

theorem calls_expire (entry : Entry κ ν φ τ) :
    (c.expire entry).calls = c.calls ++ entry.call?.toList := by
  unfold expire Entry.call?
  cases entry.expireCb with
  | none => simp
  | some func => simp [calls, setImmediate]

end expire

/-! ## The map and the array -/

variable [LinearOrder τ]

/-- The map and the array have the same entries, each once, and the array is sorted. -/
structure WF (c : TtlCache κ ν φ τ) : Prop where
  sorted : c.sorted.Pairwise (·.expires ≤ ·.expires)
  keys : (c.sorted.map (·.key)).Nodup
  refs : (c.sorted.map (·.ref)).Nodup
  fresh : ∀ entry ∈ c.sorted, entry.ref < c.nextRef
  key : ∀ key entry, c.data.lookup key = some entry → entry.key = key
  mem : ∀ entry, entry ∈ c.sorted ↔ c.data.lookup entry.key = some entry

theorem wf_empty (defaultTtl : τ) : WF ({ defaultTtl := defaultTtl } : TtlCache κ ν φ τ) where
  sorted := .nil
  keys := List.nodup_nil
  refs := List.nodup_nil
  fresh _ h := absurd h List.not_mem_nil
  key key _ h := nomatch (AList.lookup_empty key).symm.trans h
  mem _ := ⟨fun h => absurd h List.not_mem_nil, fun h => nomatch (AList.lookup_empty _).symm.trans h⟩

variable {c c' : TtlCache κ ν φ τ}

/-- The entry of a key is in the array. -/
theorem WF.mem_of_lookup (hc : WF c) {key : κ} {entry : Entry κ ν φ τ}
    (h : c.data.lookup key = some entry) : entry ∈ c.sorted := by
  rw [hc.mem, hc.key key entry h]
  exact h

/-- The entries of the array are those of their keys. -/
theorem WF.lookup (hc : WF c) {entry : Entry κ ν φ τ} (h : entry ∈ c.sorted) :
    c.data.lookup entry.key = some entry :=
  (hc.mem entry).mp h

/-- The map and the array lose the same entries. -/
theorem WF.filter {p : Entry κ ν φ τ → Bool} (hc : WF c) (hsorted : c'.sorted = c.sorted.filter p)
    (hdata : ∀ key, c'.data.lookup key = (c.data.lookup key).filter p)
    (href : c'.nextRef = c.nextRef) : WF c' where
  sorted := by rw [hsorted]; exact hc.sorted.filter p
  keys := by rw [hsorted]; exact hc.keys.sublist (List.filter_sublist.map _)
  refs := by rw [hsorted]; exact hc.refs.sublist (List.filter_sublist.map _)
  fresh entry h := by
    rw [hsorted] at h
    rw [href]
    exact hc.fresh entry (List.mem_filter.mp h).1
  key key entry h := by
    rw [hdata, Option.filter_eq_some_iff] at h
    exact hc.key key entry h.1
  mem entry := by
    rw [hsorted, hdata, List.mem_filter, hc.mem, Option.filter_eq_some_iff]

/-! ## remove -/

/-- The map loses the entry with the key. -/
theorem lookup_remove (hc : WF c) (key key' : κ) :
    (c.remove key).data.lookup key' = (c.data.lookup key').filter (·.key != key) := by
  have hfilter : ∀ entry, c.data.lookup key' = some entry →
      (some entry).filter (·.key != key) = if key' = key then none else some entry := by
    intro entry hentry
    rw [Option.filter_some, hc.key key' entry hentry]
    by_cases h : key' = key
    · simp [h]
    · simp [h]
  unfold remove
  cases hkey : c.data.lookup key with
  | none =>
    -- `remove` does nothing for a key that is missing
    show c.data.lookup key' = _
    cases hkey' : c.data.lookup key' with
    | none => rfl
    | some entry =>
      rw [hfilter entry hkey', if_neg]
      rintro rfl
      rw [hkey] at hkey'
      exact nomatch hkey'
  | some data =>
    show ((c.expire data).data.erase key).lookup key' = _
    rw [data_expire, ForStd.lookup_erase]
    cases hkey' : c.data.lookup key' with
    | none => split <;> rfl
    | some entry => rw [hfilter entry hkey']

/-- The array loses the entry with the key. -/
theorem sorted_remove (hc : WF c) (key : κ) :
    (c.remove key).sorted = c.sorted.filter (·.key != key) := by
  unfold remove
  cases hkey : c.data.lookup key with
  | none =>
    refine (List.filter_eq_self.mpr fun entry hentry => bne_iff_ne.mpr ?_).symm
    rintro rfl
    rw [hc.lookup hentry] at hkey
    exact nomatch hkey
  | some data =>
    show (c.expire data).sorted.eraseP (·.ref == data.ref) = _
    rw [sorted_expire, ForStd.eraseP_eq_filter hc.refs]
    refine List.filter_congr fun entry hentry => ?_
    -- the same object if and only if the same key
    rw [Bool.eq_iff_iff, bne_iff_ne, bne_iff_ne, not_iff_not]
    constructor
    · intro href
      rw [List.inj_on_of_nodup_map hc.refs hentry (hc.mem_of_lookup hkey) href]
      exact hc.key key data hkey
    · rintro rfl
      rw [Option.some.inj ((hc.lookup hentry).symm.trans hkey)]

theorem wf_remove (hc : WF c) (key : κ) : WF (c.remove key) := by
  refine hc.filter (sorted_remove hc key) (lookup_remove hc key) ?_
  unfold remove
  split
  · rfl
  · exact nextRef_expire c _

omit [LinearOrder τ] in
theorem defaultTtl_remove (c : TtlCache κ ν φ τ) (key : κ) :
    (c.remove key).defaultTtl = c.defaultTtl := by
  unfold remove
  split
  · rfl
  · exact defaultTtl_expire c _

omit [LinearOrder τ] in
/-- `remove` schedules the callback of the entry. -/
theorem calls_remove (c : TtlCache κ ν φ τ) (key : κ) :
    (c.remove key).calls = c.calls ++ ((c.data.lookup key).bind Entry.call?).toList := by
  unfold remove
  cases c.data.lookup key with
  | none => simp
  | some data =>
    refine (calls_setImmediate _ _ nofun).trans ?_
    show (c.expire data).calls = _
    rw [calls_expire]
    rfl

/-! ## set -/

section set

variable (data : Entry κ ν φ τ)

/-- The rest of the loop after `data` has been put into the array. -/
theorem insertSorted_true (l r : List (Entry κ ν φ τ)) :
    insertSorted data l.length (l ++ r) true = (l.filter (·.key != data.key) ++ r, true) := by
  induction l using List.reverseRecOn generalizing r with
  | nil => rfl
  | append_singleton l entry ih =>
    have hget : (l ++ [entry] ++ r)[l.length]? = some entry := by simp
    -- the loop runs from the end of the array to its start
    have hloop := insertSorted.eq_2 data (l ++ [entry] ++ r) true l.length
    rw [hget] at hloop
    rw [List.length_append, List.length_singleton, hloop]
    by_cases hkey : entry.key = data.key
    · have herase : (l ++ [entry] ++ r).eraseIdx l.length = l ++ r := by
        rw [List.append_assoc, List.eraseIdx_append_of_length_le (Nat.le_refl _), Nat.sub_self]
        rfl
      simp only [hkey, if_true, herase, ih]
      simp [hkey]
    · simp only [hkey, if_false, Bool.not_true, Bool.false_and, Bool.false_eq_true,
        List.append_assoc, ih]
      simp [hkey]

/-- The loop on a sorted array. -/
theorem insertSorted_false {l : List (Entry κ ν φ τ)} (hl : l.Pairwise (·.expires ≤ ·.expires))
    (r : List (Entry κ ν φ τ)) :
    insertSorted data l.length (l ++ r) false =
      if (l.filter (·.key != data.key)).any (·.expires ≤ data.expires) then
        (insertBehind (·.expires) data (l.filter (·.key != data.key)) ++ r, true)
      else (l.filter (·.key != data.key) ++ r, false) := by
  induction l using List.reverseRecOn generalizing r with
  | nil => rfl
  | append_singleton l entry ih =>
    obtain ⟨hl, -, hle⟩ := List.pairwise_append.mp hl
    have hget : (l ++ [entry] ++ r)[l.length]? = some entry := by simp
    have hloop := insertSorted.eq_2 data (l ++ [entry] ++ r) false l.length
    rw [hget] at hloop
    rw [List.length_append, List.length_singleton, hloop]
    by_cases hkey : entry.key = data.key
    · have herase : (l ++ [entry] ++ r).eraseIdx l.length = l ++ r := by
        rw [List.append_assoc, List.eraseIdx_append_of_length_le (Nat.le_refl _), Nat.sub_self]
        rfl
      simp only [hkey, if_true, herase, ih hl]
      simp [hkey]
    · by_cases hexpires : entry.expires ≤ data.expires
      · have hinsert : (l ++ [entry] ++ r).insertIdx (l.length + 1) data =
            l ++ ([entry, data] ++ r) := by
          rw [List.append_assoc, ForStd.insertIdx_append]
          rfl
        -- no entry of the rest expires after `data`
        have hbehind : insertBehind (·.expires) data (l.filter (·.key != data.key) ++ [entry]) =
            l.filter (·.key != data.key) ++ [entry] ++ [data] := by
          refine ForStd.insertBehind_of_le fun e he => ?_
          rcases List.mem_append.mp he with he | he
          · exact le_trans (hle e (List.mem_filter.mp he).1 entry List.mem_cons_self) hexpires
          · rw [List.mem_singleton.mp he]; exact hexpires
        -- from here on the loop only looks for the key
        simp only [hkey, if_false, hexpires, decide_true, Bool.not_false, Bool.and_self, if_true,
          hinsert, insertSorted_true]
        simp [hkey, hexpires, hbehind]
      · have hbehind : insertBehind (·.expires) data (l.filter (·.key != data.key) ++ [entry]) =
            -- `data` goes in front of this entry
            insertBehind (·.expires) data (l.filter (·.key != data.key)) ++ [entry] :=
          ForStd.insertBehind_concat (not_le.mp hexpires) _
        simp only [hkey, if_false, hexpires, decide_false, Bool.and_false, Bool.false_eq_true,
          List.append_assoc, ih hl]
        simp [hkey, hexpires, hbehind]

/-- The array after `set` has put a new entry into it. -/
theorem sorted_insertSorted {l : List (Entry κ ν φ τ)}
    (hl : l.Pairwise (·.expires ≤ ·.expires)) :
    (if (insertSorted data l.length l false).2 then (insertSorted data l.length l false).1
      else data :: (insertSorted data l.length l false).1) =
      insertBehind (·.expires) data (l.filter (·.key != data.key)) := by
  have hloop := insertSorted_false data hl []
  rw [List.append_nil, List.append_nil, List.append_nil] at hloop
  rw [hloop]
  by_cases hany : (l.filter (·.key != data.key)).any (·.expires ≤ data.expires) = true
  · rw [if_pos hany]
    rfl
  · rw [if_neg hany]
    -- nothing expires before `data`, and `set` puts it at the start
    refine (ForStd.insertBehind_of_lt fun entry hentry => not_le.mp fun hle => hany ?_).symm
    exact List.any_eq_true.mpr ⟨entry, hentry, decide_eq_true hle⟩

/-- A new entry takes the place of the one with its key. -/
theorem WF.insert (hc : WF c) (hsorted : c'.sorted =
      insertBehind (·.expires) data (c.sorted.filter (·.key != data.key)))
    (hdata : c'.data = c.data.insert data.key data) (href : data.ref = c.nextRef)
    (hnext : c'.nextRef = c.nextRef + 1) : WF c' := by
  have hrest : (c.sorted.filter (·.key != data.key)).Pairwise (·.expires ≤ ·.expires) :=
    hc.sorted.filter _
  have hsub : (c.sorted.filter (·.key != data.key)).Sublist c.sorted := List.filter_sublist
  refine ⟨?_, ?_, ?_, ?_, ?_, ?_⟩
  · rw [hsorted]
    exact ForStd.pairwise_insertBehind hrest data
  · rw [hsorted]
    refine ForStd.nodup_map_insertBehind hrest (hc.keys.sublist (hsub.map _)) fun entry h => ?_
    exact bne_iff_ne.mp (List.mem_filter.mp h).2
  · rw [hsorted]
    -- every entry is a new object
    refine ForStd.nodup_map_insertBehind hrest (hc.refs.sublist (hsub.map _)) fun entry h => ?_
    have hlt := hc.fresh entry (List.mem_filter.mp h).1
    omega
  · intro entry h
    rw [hsorted, ForStd.mem_insertBehind] at h
    rcases h with rfl | h
    · omega
    · have hlt := hc.fresh entry (List.mem_filter.mp h).1
      omega
  · intro key entry h
    rw [hdata, ForStd.lookup_insert] at h
    split at h
    · next hkey => obtain rfl := Option.some.inj h; exact hkey.symm
    · exact hc.key key entry h
  · intro entry
    rw [hsorted, hdata, ForStd.mem_insertBehind, ForStd.lookup_insert, List.mem_filter, hc.mem,
      bne_iff_ne]
    split
    · next hkey =>
      constructor
      · rintro (rfl | ⟨-, hne⟩)
        · rfl
        · exact absurd hkey hne
      · exact fun h => Or.inl (Option.some.inj h).symm
    · next hkey =>
      constructor
      · rintro (rfl | ⟨h, -⟩)
        · exact absurd rfl hkey
        · exact h
      · exact fun h => Or.inr ⟨h, hkey⟩

end set

section set

variable [Zero τ] [Add τ]

/-- `set` removes the key, or binds it to the value. -/
theorem set_cases (c : TtlCache κ ν φ τ) (key : κ) (value : Option ν) (ttl : Option τ)
    (expireCb : Option φ) (now : τ) :
    ((value.isNone = true ∨ ttl.getD c.defaultTtl ≤ 0) ∧
      c.set key value ttl expireCb now = c.remove key) ∨
    (∃ v data, value = some v ∧ ¬ttl.getD c.defaultTtl ≤ 0 ∧
      data = (⟨c.nextRef, key, v, ttl.getD c.defaultTtl, now, now + ttl.getD c.defaultTtl,
        expireCb⟩ : Entry κ ν φ τ) ∧
      c.set key value ttl expireCb now =
        { c with
          data := c.data.insert key data
          sorted :=
            if (insertSorted data c.sorted.length c.sorted false).2 then
              (insertSorted data c.sorted.length c.sorted false).1
            else data :: (insertSorted data c.sorted.length c.sorted false).1
          nextRef := c.nextRef + 1 }.setImmediate .updateTimer) := by
  cases value with
  | none => exact Or.inl ⟨Or.inl rfl, rfl⟩
  | some v =>
    by_cases httl : ttl.getD c.defaultTtl ≤ 0
    · refine Or.inl ⟨Or.inr httl, ?_⟩
      simp only [set, httl, if_true]
    · refine Or.inr ⟨v, _, rfl, httl, rfl, ?_⟩
      simp only [set, httl, if_false]

/-- A value that lives for some time is put behind what does not expire after it. -/
theorem set_some (hc : WF c) (key : κ) (value : ν) {ttl : Option τ}
    (httl : ¬ttl.getD c.defaultTtl ≤ 0) (expireCb : Option φ) (now : τ) :
    ∃ data : Entry κ ν φ τ, data.key = key ∧ data.value = value ∧ data.expireCb = expireCb ∧
      (c.set key (some value) ttl expireCb now).sorted =
        insertBehind (·.expires) data (c.sorted.filter (·.key != data.key)) ∧
      (c.set key (some value) ttl expireCb now).immediates = c.immediates ++ [.updateTimer] ∧
      (c.set key (some value) ttl expireCb now).data = c.data.insert key data := by
  rcases set_cases c key (some value) ttl expireCb now with ⟨h | h, -⟩ | ⟨v, data, hv, -, hdata, hset⟩
  · exact nomatch h
  · exact absurd h httl
  · refine ⟨data, by rw [hdata], by rw [hdata, Option.some.inj hv], by rw [hdata], ?_, ?_, ?_⟩
    · rw [hset]
      exact sorted_insertSorted data hc.sorted
    · rw [hset]
      rfl
    · rw [hset]
      rfl

theorem wf_set (hc : WF c) (key : κ) (value : Option ν) (ttl : Option τ) (expireCb : Option φ)
    (now : τ) : WF (c.set key value ttl expireCb now) := by
  rcases set_cases c key value ttl expireCb now with ⟨-, hset⟩ |
    ⟨v, data, -, -, hdata, hset⟩
  · rw [hset]
    exact wf_remove hc key
  · rw [hset]
    have hkey : data.key = key := by rw [hdata]
    refine hc.insert data (sorted_insertSorted data hc.sorted) ?_ (by rw [hdata]) rfl
    rw [hkey]
    rfl

end set

/-! ## checkExpired -/

section checkExpired

/-- The loop of `checkExpired` over the entries that have expired. -/
def expireAll (c : TtlCache κ ν φ τ) (expired : List (Entry κ ν φ τ)) : TtlCache κ ν φ τ :=
  expired.foldl (fun c entry => { c.expire entry with data := c.data.erase entry.key }) c

omit [LinearOrder τ] in
theorem expireAll_fields (expired : List (Entry κ ν φ τ)) (c : TtlCache κ ν φ τ) :
    (c.expireAll expired).sorted = c.sorted ∧ (c.expireAll expired).nextRef = c.nextRef ∧
      (c.expireAll expired).defaultTtl = c.defaultTtl ∧
        (c.expireAll expired).calls = c.calls ++ expired.filterMap Entry.call? := by
  induction expired generalizing c with
  | nil => exact ⟨rfl, rfl, rfl, (List.append_nil _).symm⟩
  | cons entry expired ih =>
    obtain ⟨hsorted, hnext, hdefault, hcalls⟩ :=
      ih { c.expire entry with data := c.data.erase entry.key }
    refine ⟨hsorted.trans (sorted_expire c entry), hnext.trans (nextRef_expire c entry),
      hdefault.trans (defaultTtl_expire c entry), hcalls.trans ?_⟩
    show (c.expire entry).calls ++ _ = _
    rw [calls_expire, List.append_assoc]
    cases hcall : entry.call? with
    | none => rw [List.filterMap_cons_none hcall]; rfl
    | some call => rw [List.filterMap_cons_some hcall]; rfl

omit [LinearOrder τ] in
theorem lookup_expireAll (expired : List (Entry κ ν φ τ)) (c : TtlCache κ ν φ τ) (key : κ) :
    (c.expireAll expired).data.lookup key =
      if key ∈ expired.map (·.key) then none else c.data.lookup key := by
  induction expired generalizing c with
  | nil => rfl
  | cons entry expired ih =>
    refine (ih _).trans ?_
    show (if key ∈ expired.map (·.key) then none else (c.data.erase entry.key).lookup key) = _
    rw [ForStd.lookup_erase]
    by_cases hkey : key = entry.key
    · simp [hkey]
    · simp [hkey]

variable (now : τ)

/-- What has expired, in the array. -/
theorem expired_eq (hc : WF c) :
    c.sorted.takeWhile (fun entry => entry.expires ≤ now) =
      c.sorted.filter fun entry => entry.expires ≤ now :=
  ForStd.takeWhile_eq_filter hc.sorted now

/-- The map loses what has expired. -/
theorem lookup_checkExpired (hc : WF c) (key : κ) :
    (c.checkExpired now).data.lookup key =
      (c.data.lookup key).filter fun entry => now < entry.expires := by
  -- the array is sorted, so the loop sees everything that has expired
  refine (lookup_expireAll _ c key).trans ?_
  rw [expired_eq now hc]
  cases hkey : c.data.lookup key with
  | none => split <;> rfl
  | some entry =>
    have hmem : key ∈ (c.sorted.filter fun entry => entry.expires ≤ now).map (·.key) ↔
        entry.expires ≤ now := by
      rw [List.mem_map]
      constructor
      · rintro ⟨entry', hentry', rfl⟩
        obtain ⟨hsorted, hexpires⟩ := List.mem_filter.mp hentry'
        rw [← Option.some.inj ((hc.lookup hsorted).symm.trans hkey)]
        exact of_decide_eq_true hexpires
      · intro hexpires
        exact ⟨entry, List.mem_filter.mpr ⟨hc.mem_of_lookup hkey, decide_eq_true hexpires⟩,
          hc.key key entry hkey⟩
    rw [Option.filter_some]
    by_cases hexpires : entry.expires ≤ now
    · rw [if_pos (hmem.mpr hexpires), decide_eq_false (not_lt.mpr hexpires)]
      rfl
    · rw [if_neg (mt hmem.mp hexpires), decide_eq_true (not_le.mp hexpires)]
      rfl

/-- The array loses what has expired. -/
theorem sorted_checkExpired (hc : WF c) :
    (c.checkExpired now).sorted = c.sorted.filter fun entry => now < entry.expires := by
  -- the part of the array behind the loop's last index
  have hdrop : c.sorted.drop (c.sorted.takeWhile fun entry => entry.expires ≤ now).length =
      c.sorted.filter fun entry => now < entry.expires := by
    rw [← ForStd.dropWhile_eq_filter hc.sorted now]
    calc c.sorted.drop _
      _ = (c.sorted.takeWhile (fun entry => entry.expires ≤ now) ++
            c.sorted.dropWhile fun entry => entry.expires ≤ now).drop
            (c.sorted.takeWhile fun entry => entry.expires ≤ now).length := by
          rw [List.takeWhile_append_dropWhile]
      _ = _ := List.drop_left
  show (if (c.sorted.takeWhile fun entry => entry.expires ≤ now).length =
      (c.expireAll (c.sorted.takeWhile fun entry => entry.expires ≤ now)).sorted.length ∨
        (c.expireAll (c.sorted.takeWhile fun entry => entry.expires ≤ now)).data.entries = []
      then [] else _) = _
  rw [(expireAll_fields _ c).1]
  split
  · next hend =>
    rcases hend with hlength | hempty
    · rw [← hdrop, hlength, List.drop_length]
    · -- no entry is left in the map
      refine (List.filter_eq_nil_iff.mpr fun entry hentry hlive => ?_).symm
      have hlookup := lookup_checkExpired now hc entry.key
      rw [hc.lookup hentry, Option.filter_some, if_pos hlive] at hlookup
      have hnone := ForStd.lookup_of_entries_eq_nil hempty entry.key
      exact nomatch hnone.symm.trans hlookup
  · show (c.expireAll _).sorted.drop _ = _
    rw [(expireAll_fields _ c).1]
    exact hdrop

theorem wf_checkExpired (hc : WF c) : WF (c.checkExpired now) := by
  refine hc.filter (sorted_checkExpired now hc) (lookup_checkExpired now hc) ?_
  exact (expireAll_fields _ c).2.1

/-- `checkExpired` schedules the callbacks of what has expired. -/
theorem calls_checkExpired (hc : WF c) :
    (c.checkExpired now).calls =
      c.calls ++ (c.sorted.filter fun entry => entry.expires ≤ now).filterMap Entry.call? := by
  rw [← expired_eq now hc]
  refine (calls_setImmediate _ _ nofun).trans ?_
  exact (expireAll_fields _ c).2.2.2

end checkExpired

/-! ## The operations -/

section apply

theorem updateTimer_fields [Add τ] [Sub τ] [One τ] (c : TtlCache κ ν φ τ) (now : τ) :
    (c.updateTimer now).data = c.data ∧ (c.updateTimer now).sorted = c.sorted ∧
      (c.updateTimer now).nextRef = c.nextRef ∧ (c.updateTimer now).defaultTtl = c.defaultTtl ∧
        (c.updateTimer now).calls = c.calls := by
  unfold updateTimer
  dsimp only
  split
  · exact ⟨rfl, rfl, rfl, rfl, rfl⟩
  · split
    · exact ⟨rfl, rfl, rfl, rfl, calls_setImmediate _ _ nofun⟩
    · exact ⟨rfl, rfl, rfl, rfl, rfl⟩

/-- `get` removes the key if its time is over. -/
theorem get_cases (c : TtlCache κ ν φ τ) (key : κ) (now : τ) :
    (∃ entry, c.data.lookup key = some entry ∧ entry.expires < now ∧
      c.get key now = (none, c.remove key)) ∨
    ((∀ entry, c.data.lookup key = some entry → ¬entry.expires < now) ∧
      c.get key now = ((c.data.lookup key).map (·.value), c)) := by
  unfold get
  cases c.data.lookup key with
  | none => exact Or.inr ⟨nofun, rfl⟩
  | some entry =>
    by_cases hexpires : entry.expires < now
    · exact Or.inl ⟨entry, rfl, hexpires, by simp only [hexpires, if_true]⟩
    · refine Or.inr ⟨fun entry' h => ?_, ?_⟩
      · rw [← Option.some.inj h]
        exact hexpires
      · simp only [hexpires, if_false, Option.map_some]

/-- What the key of an entry is bound to. -/
def Entry.binding (entry : Entry κ ν φ τ) : Binding ν φ τ :=
  ⟨entry.value, entry.expires, entry.expireCb⟩

omit [LinearOrder τ] in
/-- A cache without entries. -/
theorem plain_eq_none (h : c.data = ∅) : c.plain = fun _ => none := by
  funext key
  rw [plain, h, AList.lookup_empty]
  rfl

/-- The value that `get` returns. -/
theorem get_eq (c : TtlCache κ ν φ τ) (key : κ) (now : τ) :
    (c.get key now).1 = c.plain.get key now := by
  show _ = ((c.data.lookup key).map Entry.binding).bind _
  rcases get_cases c key now with ⟨entry, hentry, hexpires, hget⟩ | ⟨hlive, hget⟩
  · rw [hget, hentry]
    exact (if_pos hexpires).symm
  · rw [hget]
    cases hentry : c.data.lookup key with
    | none => rfl
    | some entry => exact (if_neg (hlive entry hentry)).symm

variable [Zero τ]

/-- The map after an operation that keeps the entries with a property. -/
theorem plain_filter {c' : TtlCache κ ν φ τ} {p : Entry κ ν φ τ → Bool} (hc : WF c)
    (hdata : ∀ key, c'.data.lookup key = (c.data.lookup key).filter p) {now : τ}
    {op : Op κ ν φ τ}
    (hp : ∀ entry ∈ c.sorted,
      p entry = !decide (Plain.Ends c.defaultTtl now op entry.key entry.binding)) :
    c'.plain = c.plain.keep c.defaultTtl now op := by
  funext key
  show (c'.data.lookup key).map Entry.binding =
    ((c.data.lookup key).map Entry.binding).filter _
  rw [hdata]
  cases hkey : c.data.lookup key with
  | none => rfl
  | some entry =>
    rw [Option.filter_some, Option.map_some, Option.filter_some, hp entry (hc.mem_of_lookup hkey),
      hc.key key entry hkey]
    split <;> rfl

/-- The callback of a binding, with its value. -/
def Binding.call? (binding : Binding ν φ τ) : Option (φ × ν) :=
  binding.expireCb.map fun func => (func, binding.value)

/-- What an operation schedules: the callbacks of the keys that it ends, each once and with its
    own value. -/
def Schedules (c c' : TtlCache κ ν φ τ) (now : τ) (op : Op κ ν φ τ) : Prop :=
  ∃ keys : List κ, keys.Nodup ∧
    (∀ key, key ∈ keys ↔
      ∃ binding, c.plain key = some binding ∧ Plain.Ends c.defaultTtl now op key binding) ∧
    c'.calls = c.calls ++ keys.filterMap fun key => (c.plain key).bind Binding.call?

/-- The callbacks of entries of the array. -/
theorem schedules_of {c' : TtlCache κ ν φ τ} {now : τ} {op : Op κ ν φ τ}
    {ended : List (Entry κ ν φ τ)} (hc : WF c) (hsub : ended.Sublist c.sorted)
    (hended : ∀ entry ∈ c.sorted,
      entry ∈ ended ↔ Plain.Ends c.defaultTtl now op entry.key entry.binding)
    (hcalls : c'.calls = c.calls ++ ended.filterMap Entry.call?) : Schedules c c' now op := by
  refine ⟨ended.map (·.key), hc.keys.sublist (hsub.map _), fun key => ?_, ?_⟩
  · rw [List.mem_map]
    constructor
    · rintro ⟨entry, hentry, rfl⟩
      have hmem := hsub.subset hentry
      exact ⟨entry.binding, by rw [plain, hc.lookup hmem]; rfl, (hended entry hmem).mp hentry⟩
    · rintro ⟨binding, hbinding, hends⟩
      obtain ⟨entry, hentry, rfl⟩ := Option.map_eq_some_iff.mp hbinding
      have hmem := hc.mem_of_lookup hentry
      obtain rfl := hc.key key entry hentry
      exact ⟨entry, (hended entry hmem).mpr hends, rfl⟩
  · rw [hcalls, List.filterMap_map]
    refine congrArg _ (List.filterMap_congr fun entry hentry => ?_)
    show entry.call? = (c.plain entry.key).bind Binding.call?
    rw [plain, hc.lookup (hsub.subset hentry)]
    rfl

/-- What the removal of a key schedules. -/
theorem schedules_remove {now : τ} {op : Op κ ν φ τ} {key : κ} (hc : WF c)
    (hended : ∀ entry ∈ c.sorted,
      entry.key = key ↔ Plain.Ends c.defaultTtl now op entry.key entry.binding) :
    Schedules c (c.remove key) now op := by
  cases hkey : c.data.lookup key with
  | none =>
    refine schedules_of hc (List.nil_sublist _) (fun entry h => ?_) ?_
    · rw [← hended entry h]
      refine iff_of_false List.not_mem_nil ?_
      rintro rfl
      exact nomatch hkey.symm.trans (hc.lookup h)
    · rw [calls_remove, hkey]
      rfl
  | some data =>
    have hdata := hc.mem_of_lookup hkey
    refine schedules_of hc (List.singleton_sublist.mpr hdata) (fun entry h => ?_) ?_
    · rw [← hended entry h, List.mem_singleton]
      constructor
      · rintro rfl
        exact hc.key key entry hkey
      · rintro rfl
        exact Option.some.inj ((hc.lookup h).symm.trans hkey)
    · rw [calls_remove, hkey]
      cases hcall : data.call? with
      | none => rw [List.filterMap_cons_none hcall, Option.bind_some, hcall]; rfl
      | some call => rw [List.filterMap_cons_some hcall, Option.bind_some, hcall]; rfl

/-- An operation that ends nothing schedules no callback. -/
theorem schedules_nothing {c' : TtlCache κ ν φ τ} {now : τ} {op : Op κ ν φ τ} (hc : WF c)
    (hended : ∀ entry ∈ c.sorted,
      ¬Plain.Ends c.defaultTtl now op entry.key entry.binding)
    (hcalls : c'.calls = c.calls) : Schedules c c' now op :=
  schedules_of hc (List.nil_sublist _)
    (fun entry h => iff_of_false List.not_mem_nil (hended entry h))
    (hcalls.trans (List.append_nil _).symm)

variable [Add τ] [Sub τ] [One τ]

/-- Every operation keeps the map and the array in agreement. -/
theorem wf_apply (hc : WF c) (now : τ) (op : Op κ ν φ τ) : WF (c.apply now op) := by
  cases op with
  | get key =>
    rcases get_cases c key now with ⟨entry, -, -, hget⟩ | ⟨-, hget⟩
    · rw [apply, hget]; exact wf_remove hc key
    · rw [apply, hget]; exact hc
  | set key value ttl expireCb => exact wf_set hc key value ttl expireCb now
  | remove key => exact wf_remove hc key
  | flush =>
    refine hc.filter (p := fun _ => false)
      (List.filter_eq_nil_iff.mpr fun _ _ => Bool.false_ne_true).symm (fun key => ?_) rfl
    show AList.lookup key ∅ = _
    rw [AList.lookup_empty]
    cases c.data.lookup key <;> rfl
  | updateTimer =>
    obtain ⟨hdata, hsorted, hnext, -, -⟩ := updateTimer_fields c now
    refine hc.filter (p := fun _ => true)
      (hsorted.trans (List.filter_eq_self.mpr fun _ _ => rfl).symm) (fun key => ?_) hnext
    rw [apply, hdata]
    cases c.data.lookup key <;> rfl
  | checkExpired => exact wf_checkExpired now hc

theorem defaultTtl_apply (c : TtlCache κ ν φ τ) (now : τ) (op : Op κ ν φ τ) :
    (c.apply now op).defaultTtl = c.defaultTtl := by
  cases op with
  | get key =>
    rcases get_cases c key now with ⟨entry, -, -, hget⟩ | ⟨-, hget⟩
    · rw [apply, hget]; exact defaultTtl_remove c key
    · rw [apply, hget]
  | set key value ttl expireCb =>
    rcases set_cases c key value ttl expireCb now with ⟨-, hset⟩ | ⟨v, data, -, -, -, hset⟩
    · rw [apply, hset]; exact defaultTtl_remove c key
    · rw [apply, hset]; rfl
  | remove key => exact defaultTtl_remove c key
  | flush => rfl
  | updateTimer => exact (updateTimer_fields c now).2.2.2.1
  | checkExpired => exact (expireAll_fields _ c).2.2.1

/-- The operations on the cache are those on the map. -/
theorem plain_apply (hc : WF c) (now : τ) (op : Op κ ν φ τ) :
    (c.apply now op).plain = c.plain.apply c.defaultTtl now op := by
  cases op with
  | get key =>
    rcases get_cases c key now with ⟨entry, hentry, hexpires, hget⟩ | ⟨hlive, hget⟩
    · rw [apply, hget]
      refine plain_filter hc (lookup_remove hc key) fun entry' h => ?_
      rw [Bool.eq_iff_iff, bne_iff_ne, Bool.not_eq_true', decide_eq_false_iff_not]
      refine not_congr ⟨?_, And.left⟩
      rintro rfl
      rw [Option.some.inj (hentry.symm.trans (hc.lookup h))] at hexpires
      exact ⟨rfl, hexpires⟩
    · rw [apply, hget]
      refine plain_filter hc (p := fun _ => true) (fun key' => ?_) fun entry' h => ?_
      · cases c.data.lookup key' <;> rfl
      · rw [eq_comm, Bool.not_eq_true', decide_eq_false_iff_not]
        rintro ⟨rfl, hexpires⟩
        exact hlive entry' (hc.lookup h) hexpires
  | set key value ttl expireCb =>
    rcases set_cases c key value ttl expireCb now with ⟨hend, hset⟩ |
      ⟨v, data, rfl, httl, hdata, hset⟩
    · have hkeep : c.plain.apply c.defaultTtl now (.set key value ttl expireCb) =
          c.plain.keep c.defaultTtl now (.set key value ttl expireCb) := by
        cases value with
        | none => rfl
        | some v => exact if_pos (hend.resolve_left Bool.false_ne_true)
      rw [hkeep, apply, hset]
      refine plain_filter hc (lookup_remove hc key) fun entry h => ?_
      rw [Bool.eq_iff_iff, bne_iff_ne, Bool.not_eq_true', decide_eq_false_iff_not]
      exact not_congr ⟨fun hkey => ⟨hkey, hend⟩, And.left⟩
    · rw [apply, hset]
      funext key'
      show ((c.data.insert key data).lookup key').map Entry.binding =
        (if ttl.getD c.defaultTtl ≤ 0 then _ else
          Function.update c.plain key (some ⟨v, now + ttl.getD c.defaultTtl, expireCb⟩)) key'
      rw [if_neg httl, ForStd.lookup_insert, Function.update_apply, hdata]
      split <;> rfl
  | remove key =>
    refine plain_filter hc (lookup_remove hc key) fun entry h => ?_
    rw [Bool.eq_iff_iff, bne_iff_ne, Bool.not_eq_true', decide_eq_false_iff_not]
    exact Iff.rfl
  | flush => exact plain_eq_none rfl
  | updateTimer =>
    refine plain_filter hc (p := fun _ => true) (fun key => ?_) fun entry h => ?_
    · rw [apply, (updateTimer_fields c now).1]
      cases c.data.lookup key <;> rfl
    · exact (Bool.not_eq_true' _).mpr (decide_eq_false id) |>.symm
  | checkExpired =>
    refine plain_filter hc (lookup_checkExpired now hc) fun entry h => ?_
    rw [Bool.eq_iff_iff, decide_eq_true_eq, Bool.not_eq_true', decide_eq_false_iff_not]
    exact not_le.symm

/-- An operation schedules the callbacks of what it ends. -/
theorem calls_apply (hc : WF c) (now : τ) (op : Op κ ν φ τ) :
    Schedules c (c.apply now op) now op := by
  cases op with
  | get key =>
    rcases get_cases c key now with ⟨entry, hentry, hexpires, hget⟩ | ⟨hlive, hget⟩
    · rw [apply, hget]
      refine schedules_remove hc fun entry' h => ⟨?_, And.left⟩
      rintro rfl
      rw [Option.some.inj (hentry.symm.trans (hc.lookup h))] at hexpires
      exact ⟨rfl, hexpires⟩
    · rw [apply, hget]
      refine schedules_nothing hc ?_ rfl
      rintro entry' h ⟨rfl, hexpires⟩
      exact hlive entry' (hc.lookup h) hexpires
  | set key value ttl expireCb =>
    rcases set_cases c key value ttl expireCb now with ⟨hend, hset⟩ |
      ⟨v, data, rfl, httl, hdata, hset⟩
    · rw [apply, hset]
      exact schedules_remove hc fun entry _ => ⟨fun hkey => ⟨hkey, hend⟩, And.left⟩
    · rw [apply, hset]
      refine schedules_nothing hc (fun entry _ hends => ?_) (calls_setImmediate _ _ nofun)
      exact httl (hends.2.resolve_left Bool.false_ne_true)
  | remove key => exact schedules_remove hc fun entry _ => Iff.rfl
  | flush => exact schedules_nothing hc (fun _ _ => id) rfl
  | updateTimer => exact schedules_nothing hc (fun _ _ => id) (updateTimer_fields c now).2.2.2.2
  | checkExpired =>
    refine schedules_of hc List.filter_sublist (fun entry h => ?_) (calls_checkExpired now hc)
    rw [List.mem_filter, decide_eq_true_eq]
    exact and_iff_right h

end apply

/-! ## What an operation leaves of the array -/

section drops

/-- What is passed to `setImmediate`, if it is the callback of an entry. -/
def Immediate.call? : Immediate ν φ → Option (φ × ν)
  | .expireCb func value => some (func, value)
  | _ => none

/-- The entries that satisfy `left` leave, and their callbacks are passed to `setImmediate`. -/
def Drops (c c' : TtlCache κ ν φ τ) (left : Entry κ ν φ τ → Bool) : Prop :=
  ∃ immediates : List (Immediate ν φ),
    (c'.sorted = c.sorted.filter fun entry => !left entry) ∧
      c'.immediates = c.immediates ++ immediates ∧
        immediates.filterMap Immediate.call? = (c.sorted.filter left).filterMap Entry.call?

omit [LinearOrder τ] in
/-- No entry leaves. -/
theorem drops_nothing {left : Entry κ ν φ τ → Bool} {immediates : List (Immediate ν φ)}
    (hleft : ∀ entry ∈ c.sorted, left entry = false) (hsorted : c'.sorted = c.sorted)
    (himmediates : c'.immediates = c.immediates ++ immediates)
    (hcalls : immediates.filterMap Immediate.call? = []) : Drops c c' left := by
  refine ⟨immediates, hsorted.trans ?_, himmediates, ?_⟩
  · refine (List.filter_eq_self.mpr fun entry h => ?_).symm
    rw [hleft entry h]
    rfl
  · have hnone : c.sorted.filter left = [] :=
      List.filter_eq_nil_iff.mpr fun entry h => ne_true_of_eq_false (hleft entry h)
    rw [hcalls, hnone]
    rfl

omit [LinearOrder τ] in
theorem immediates_expire (c : TtlCache κ ν φ τ) (entry : Entry κ ν φ τ) :
    ∃ immediates : List (Immediate ν φ), (c.expire entry).immediates = c.immediates ++ immediates ∧
      immediates.filterMap Immediate.call? = entry.call?.toList := by
  unfold expire Entry.call?
  cases entry.expireCb with
  | none => exact ⟨[], (List.append_nil _).symm, rfl⟩
  | some func => exact ⟨[.expireCb func entry.value], rfl, rfl⟩

/-- The entry of a key, in the array. -/
theorem WF.filter_key (hc : WF c) (key : κ) :
    c.sorted.filter (·.key == key) = (c.data.lookup key).toList := by
  have hnodup : (c.sorted.filter (·.key == key)).Nodup := (hc.keys.of_map _).filter _
  cases hkey : c.data.lookup key with
  | none =>
    refine List.filter_eq_nil_iff.mpr fun entry h hentry => ?_
    rw [beq_iff_eq] at hentry
    exact nomatch (hentry ▸ hkey).symm.trans (hc.lookup h)
  | some data =>
    have hmem : ∀ entry, entry ∈ c.sorted.filter (·.key == key) ↔ entry = data := by
      intro entry
      rw [List.mem_filter, beq_iff_eq]
      constructor
      · rintro ⟨h, rfl⟩
        exact Option.some.inj ((hc.lookup h).symm.trans hkey)
      · rintro rfl
        exact ⟨hc.mem_of_lookup hkey, hc.key key entry hkey⟩
    exact List.perm_singleton.mp ((List.perm_ext_iff_of_nodup hnodup (List.nodup_singleton _)).mpr
      fun entry => by rw [hmem, List.mem_singleton])

theorem drops_remove (hc : WF c) (key : κ) : Drops c (c.remove key) (·.key == key) := by
  cases hkey : c.data.lookup key with
  | none =>
    have hsame : c.remove key = c := by
      unfold remove
      rw [hkey]
    have hother : ∀ entry ∈ c.sorted, (entry.key == key) = false := by
      intro entry h
      refine beq_eq_false_iff_ne.mpr ?_
      rintro rfl
      exact nomatch hkey.symm.trans (hc.lookup h)
    rw [hsame]
    exact drops_nothing hother rfl (List.append_nil _).symm rfl
  | some data =>
    obtain ⟨immediates, himmediates, hcalls⟩ := immediates_expire c data
    refine ⟨immediates ++ [.updateTimer], sorted_remove hc key, ?_, ?_⟩
    · unfold remove
      rw [hkey]
      show (c.expire data).immediates ++ _ = _
      rw [himmediates, List.append_assoc]
    · rw [hc.filter_key, hkey, List.filterMap_append, hcalls]
      show _ ++ [] = [data].filterMap Entry.call?
      rw [List.append_nil]
      cases hcall : data.call? with
      | none => rw [List.filterMap_cons_none hcall]; rfl
      | some call => rw [List.filterMap_cons_some hcall]; rfl

theorem drops_get (hc : WF c) (key : κ) (now : τ) :
    Drops c (c.get key now).2 fun entry => entry.key == key && entry.expires < now := by
  rcases get_cases c key now with ⟨data, hkey, hexpires, hget⟩ | ⟨hexpires, hget⟩
  · -- all entries with the key have expired: there is only one
    have hleft : ∀ entry ∈ c.sorted,
        (entry.key == key && decide (entry.expires < now)) = (entry.key == key) := by
      intro entry h
      by_cases hentry : entry.key = key
      · rw [← hentry, hc.lookup h] at hkey
        rw [Option.some.inj hkey, decide_eq_true hexpires, Bool.and_true]
      · rw [beq_eq_false_iff_ne.mpr hentry, Bool.false_and]
    obtain ⟨immediates, hsorted, himmediates, hcalls⟩ := drops_remove hc key
    rw [hget]
    refine ⟨immediates, hsorted.trans ?_, himmediates, hcalls.trans ?_⟩
    · exact List.filter_congr fun entry h => congrArg _ (hleft entry h).symm
    · exact congrArg _ (List.filter_congr fun entry h => (hleft entry h).symm)
  · have hleft : ∀ entry ∈ c.sorted,
        (entry.key == key && decide (entry.expires < now)) = false := by
      intro entry h
      by_cases hentry : entry.key = key
      · rw [decide_eq_false (hexpires entry (hentry ▸ hc.lookup h)), Bool.and_false]
      · rw [beq_eq_false_iff_ne.mpr hentry, Bool.false_and]
    rw [hget]
    exact drops_nothing hleft rfl (List.append_nil _).symm rfl

omit [LinearOrder τ] in
theorem immediates_expireAll (expired : List (Entry κ ν φ τ)) (c : TtlCache κ ν φ τ) :
    ∃ immediates : List (Immediate ν φ),
      (c.expireAll expired).immediates = c.immediates ++ immediates ∧
        immediates.filterMap Immediate.call? = expired.filterMap Entry.call? := by
  induction expired generalizing c with
  | nil => exact ⟨[], (List.append_nil _).symm, rfl⟩
  | cons entry expired ih =>
    obtain ⟨first, hfirst, hfirstCalls⟩ := immediates_expire c entry
    obtain ⟨rest, hrest, hrestCalls⟩ :=
      ih { c.expire entry with data := c.data.erase entry.key }
    refine ⟨first ++ rest, hrest.trans ?_, ?_⟩
    · show (c.expire entry).immediates ++ rest = _
      rw [hfirst, List.append_assoc]
    · rw [List.filterMap_append, hfirstCalls, hrestCalls]
      cases hcall : entry.call? with
      | none => rw [List.filterMap_cons_none hcall]; rfl
      | some call => rw [List.filterMap_cons_some hcall]; rfl

theorem drops_checkExpired (hc : WF c) (now : τ) :
    Drops c (c.checkExpired now) fun entry => entry.expires ≤ now := by
  obtain ⟨immediates, himmediates, hcalls⟩ :=
    immediates_expireAll (c.sorted.takeWhile fun entry => entry.expires ≤ now) c
  refine ⟨immediates ++ [.updateTimer], (sorted_checkExpired now hc).trans ?_, ?_, ?_⟩
  · refine List.filter_congr fun entry _ => ?_
    rw [← decide_not, decide_eq_decide]
    exact not_le.symm
  · show (c.expireAll _).immediates ++ _ = _
    rw [himmediates, List.append_assoc]
  · rw [List.filterMap_append, hcalls, expired_eq now hc]
    exact List.append_nil _

theorem drops_updateTimer [Add τ] [Sub τ] [One τ] (c : TtlCache κ ν φ τ) (now : τ) :
    Drops c (c.updateTimer now) fun _ => false := by
  obtain ⟨-, hsorted, -, -, -⟩ := updateTimer_fields c now
  have hend : ∃ immediates : List (Immediate ν φ),
      (c.updateTimer now).immediates = c.immediates ++ immediates ∧
        immediates.filterMap Immediate.call? = [] := by
    unfold updateTimer
    dsimp only
    split
    · exact ⟨[], (List.append_nil _).symm, rfl⟩
    · split
      · exact ⟨[.checkExpired], rfl, rfl⟩
      · exact ⟨[], (List.append_nil _).symm, rfl⟩
  obtain ⟨immediates, himmediates, hcalls⟩ := hend
  exact drops_nothing (fun _ _ => rfl) hsorted himmediates hcalls

end drops

/-! ## Sequences of operations -/

section run

variable [Zero τ] [Add τ] [Sub τ] [One τ]

/-- The cache after operations at given times. -/
def run (defaultTtl : τ) (ops : List (τ × Op κ ν φ τ)) : TtlCache κ ν φ τ :=
  ops.foldl (fun c op => c.apply op.1 op.2) { defaultTtl := defaultTtl }

/-- The map after operations at given times. -/
def Plain.run (defaultTtl : τ) (ops : List (τ × Op κ ν φ τ)) : Plain κ ν φ τ :=
  ops.foldl (fun m op => m.apply defaultTtl op.1 op.2) fun _ => none

/-- The cache behaves like the map: it has the same bindings, `get` returns the same values, the
    operations schedule the callbacks of what they end in the map, and `checkExpired` ends what
    has expired. -/
structure Refines (c : TtlCache κ ν φ τ) (m : Plain κ ν φ τ) : Prop where
  plain : c.plain = m
  get : ∀ key now, (c.get key now).1 = m.get key now
  calls : ∀ now op, Schedules c (c.apply now op) now op
  checkExpired : ∀ now key,
    (c.checkExpired now).plain key = (m key).filter fun binding => now < binding.expires

theorem refines_of_wf (hc : WF c) : Refines c c.plain where
  plain := rfl
  get := get_eq c
  calls := calls_apply hc
  checkExpired now key := by
    show ((c.checkExpired now).data.lookup key).map Entry.binding =
      ((c.data.lookup key).map Entry.binding).filter _
    rw [lookup_checkExpired now hc]
    cases c.data.lookup key with
    | none => rfl
    | some entry =>
      rw [Option.filter_some, Option.map_some, Option.filter_some]
      show Option.map _ (if decide (now < entry.expires) = true then _ else _) =
        if decide (now < entry.expires) = true then _ else _
      split <;> rfl

theorem wf_run (defaultTtl : τ) (ops : List (τ × Op κ ν φ τ)) : WF (run defaultTtl ops) := by
  induction ops using List.reverseRecOn with
  | nil => exact wf_empty defaultTtl
  | append_singleton ops op ih =>
    rw [run, List.foldl_append]
    exact wf_apply ih op.1 op.2

/-- After every sequence of operations the cache behaves like the map after the same
    operations. -/
theorem refines (defaultTtl : τ) (ops : List (τ × Op κ ν φ τ)) :
    Refines (run defaultTtl ops) (Plain.run defaultTtl ops) := by
  have hrun : (run defaultTtl ops).defaultTtl = defaultTtl ∧
      (run defaultTtl ops).plain = Plain.run defaultTtl ops := by
    induction ops using List.reverseRecOn with
    | nil => exact ⟨rfl, plain_eq_none rfl⟩
    | append_singleton ops op ih =>
      obtain ⟨hdefault, hplain⟩ := ih
      rw [run, List.foldl_append, Plain.run, List.foldl_append]
      refine ⟨(defaultTtl_apply _ op.1 op.2).trans hdefault, ?_⟩
      refine (plain_apply (wf_run defaultTtl ops) op.1 op.2).trans ?_
      rw [hplain, hdefault]
      rfl
  rw [← hrun.2]
  exact refines_of_wf (wf_run defaultTtl ops)

end run

end ZoneMta.TtlCache
