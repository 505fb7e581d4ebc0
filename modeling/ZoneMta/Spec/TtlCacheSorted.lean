import ZoneMta.Spec.TtlCacheCorrect

/-!
# The order of the cache

The sweep of `checkExpired` ends at the first entry of the array that is still alive. What it does
not look at has not expired, because the array is in the order in which the entries expire, and
because its entries are those of the map.

## Key results

- `objects_perm`: the array and the map have the same objects
- `swept`: what the sweep leaves
- `inOrder_run`: both, after every sequence of operations
-/

namespace ZoneMta.TtlCache

variable {κ ν φ τ : Type} [DecidableEq κ] [LinearOrder τ]

/-- The array is in the order in which its entries expire, no two of them have one key, and they
    are the objects of the map. The sweep at a time goes through those that have expired, and
    leaves none of them. -/
structure InOrder (c : TtlCache κ ν φ τ) : Prop where
  sorted : c.sorted.Pairwise (·.expires ≤ ·.expires)
  keys : (c.sorted.map (·.key)).Nodup
  refs : (c.sorted.map (·.ref)).Nodup
  objects : c.sorted.Perm (c.data.entries.map (·.2))
  key : ∀ key entry, c.data.lookup key = some entry → entry.key = key
  swept : ∀ now, (c.checkExpired now).sorted = c.sorted.filter fun entry => now < entry.expires
  left : ∀ now key entry, (c.checkExpired now).data.lookup key = some entry → now < entry.expires

variable {c : TtlCache κ ν φ τ}

omit [LinearOrder τ] in
theorem mem_objects {entry : Entry κ ν φ τ} :
    entry ∈ c.data.entries.map (·.2) ↔ ∃ key, c.data.lookup key = some entry := by
  rw [List.mem_map]
  constructor
  · rintro ⟨⟨key, _⟩, hmem, rfl⟩
    exact ⟨key, AList.mem_lookup_iff.mpr hmem⟩
  · rintro ⟨key, hlookup⟩
    exact ⟨⟨key, entry⟩, AList.mem_lookup_iff.mp hlookup, rfl⟩

/-- No object is in the map twice: it is under its own key. -/
theorem WF.nodup_objects (hc : WF c) : (c.data.entries.map (·.2)).Nodup := by
  have hkeys : (c.data.entries.map (·.2)).map (·.key) = c.data.entries.map (·.1) := by
    rw [List.map_map]
    apply List.map_congr_left
    intro x hx
    exact hc.key x.1 x.2 (AList.mem_lookup_iff.mpr hx)
  apply List.Nodup.of_map (·.key)
  rw [hkeys]
  exact c.data.nodupKeys

/-- The array and the map have the same objects. -/
theorem WF.objects_perm (hc : WF c) : c.sorted.Perm (c.data.entries.map (·.2)) := by
  apply (List.perm_ext_iff_of_nodup (hc.keys.of_map _) hc.nodup_objects).mpr
  intro entry
  rw [mem_objects]
  constructor
  · intro h
    exact ⟨entry.key, hc.lookup h⟩
  · rintro ⟨key, hlookup⟩
    exact hc.mem_of_lookup hlookup

/-- Nothing that the sweep leaves in the map has expired. -/
theorem WF.left (hc : WF c) {now : τ} {key : κ} {entry : Entry κ ν φ τ}
    (h : (c.checkExpired now).data.lookup key = some entry) : now < entry.expires := by
  rw [lookup_checkExpired now hc, Option.filter_eq_some_iff] at h
  exact of_decide_eq_true h.2

theorem WF.inOrder (hc : WF c) : InOrder c where
  sorted := hc.sorted
  keys := hc.keys
  refs := hc.refs
  objects := hc.objects_perm
  key := hc.key
  swept now := sorted_checkExpired now hc
  left _ _ _ h := hc.left h

variable [Zero τ] [Add τ] [Sub τ] [One τ]

/-- After every sequence of operations the array is in order, with the objects of the map, and the
    sweep leaves nothing that has expired. -/
theorem inOrder_run (defaultTtl : τ) (ops : List (τ × Op κ ν φ τ)) :
    InOrder (run defaultTtl ops) :=
  (wf_run defaultTtl ops).inOrder

end ZoneMta.TtlCache
