import Mathlib
import ZoneMta.ForStd.AList

/-!
# Ordered maps

A map whose entries stay in the order in which their keys were set first; a new value for a key
takes the place of the old one.

## Key results

- `mem_keys_setAll`, `pairwise_keys_setAll`: the keys behind a number of updates, in their order
- `mem_setAll`: the value that a key was set to last
-/

namespace ForStd

variable {κ ν : Type*} [DecidableEq κ]

/-- A map with its entries in order. -/
structure OrderedMap (κ ν : Type*) where
  entries : List (κ × ν)
  nodup : (entries.map Prod.fst).Nodup

/-- The entries behind `set`. -/
def setEntry (k : κ) (v : ν) : List (κ × ν) → List (κ × ν)
  | [] => [(k, v)]
  | e :: es => if e.1 = k then (k, v) :: es else e :: setEntry k v es

theorem keys_setEntry (k : κ) (v : ν) (es : List (κ × ν)) :
    (setEntry k v es).map Prod.fst =
      if k ∈ es.map Prod.fst then es.map Prod.fst else es.map Prod.fst ++ [k] := by
  induction es with
  | nil => simp [setEntry]
  | cons e es ih =>
    rw [setEntry]
    split
    · next he => simp [he]
    · next he =>
      rw [List.map_cons, ih]
      simp only [List.map_cons, List.mem_cons, Ne.symm he, false_or]
      split
      · rfl
      · rfl

theorem mem_setEntry {k : κ} {v : ν} {es : List (κ × ν)} (hes : (es.map Prod.fst).Nodup)
    {x : κ × ν} : x ∈ setEntry k v es ↔ x = (k, v) ∨ x.1 ≠ k ∧ x ∈ es := by
  induction es with
  | nil => simp [setEntry]
  | cons e es ih =>
    rw [List.map_cons, List.nodup_cons] at hes
    rw [setEntry]
    split
    · next he =>
      -- the key is not found again
      have hrest (h : x ∈ es) : x.1 ≠ k := by
        rintro rfl
        exact hes.1 (he ▸ List.mem_map_of_mem h)
      constructor
      · intro h
        rcases List.mem_cons.mp h with h | h
        · exact Or.inl h
        · exact Or.inr ⟨hrest h, List.mem_cons_of_mem e h⟩
      · rintro (h | ⟨hne, h⟩)
        · exact h ▸ List.mem_cons_self
        · rcases List.mem_cons.mp h with rfl | h
          · exact absurd he hne
          · exact List.mem_cons_of_mem _ h
    · next he =>
      rw [List.mem_cons, ih hes.2, List.mem_cons]
      constructor
      · rintro (rfl | h | ⟨hne, h⟩)
        · exact Or.inr ⟨he, Or.inl rfl⟩
        · exact Or.inl h
        · exact Or.inr ⟨hne, Or.inr h⟩
      · rintro (h | ⟨hne, h | h⟩)
        · exact Or.inr (Or.inl h)
        · exact Or.inl h
        · exact Or.inr (Or.inr ⟨hne, h⟩)

namespace OrderedMap

/-- The map without entries. -/
def empty : OrderedMap κ ν := ⟨[], List.nodup_nil⟩

/-- The keys in their order. -/
def keys (m : OrderedMap κ ν) : List κ := m.entries.map Prod.fst

/-- The values in the order of their keys. -/
def values (m : OrderedMap κ ν) : List ν := m.entries.map Prod.snd

/-- Set the value of a key. -/
def set (m : OrderedMap κ ν) (k : κ) (v : ν) : OrderedMap κ ν where
  entries := setEntry k v m.entries
  nodup := by
    rw [keys_setEntry]
    split
    · exact m.nodup
    · next hk =>
      rw [← List.concat_eq_append]
      exact List.Nodup.concat hk m.nodup

theorem keys_set (m : OrderedMap κ ν) (k : κ) (v : ν) :
    (m.set k v).keys = if k ∈ m.keys then m.keys else m.keys ++ [k] :=
  keys_setEntry k v m.entries

theorem mem_entries_set {m : OrderedMap κ ν} {k : κ} {v : ν} {x : κ × ν} :
    x ∈ (m.set k v).entries ↔ x = (k, v) ∨ x.1 ≠ k ∧ x ∈ m.entries :=
  mem_setEntry m.nodup

/-- Several updates, one after the other. -/
def setAll (m : OrderedMap κ ν) (l : List (κ × ν)) : OrderedMap κ ν :=
  l.foldl (fun m x => m.set x.1 x.2) m

theorem setAll_append (m : OrderedMap κ ν) (l l' : List (κ × ν)) :
    m.setAll (l ++ l') = (m.setAll l).setAll l' :=
  List.foldl_append

theorem setAll_concat (m : OrderedMap κ ν) (l : List (κ × ν)) (x : κ × ν) :
    m.setAll (l ++ [x]) = (m.setAll l).set x.1 x.2 :=
  setAll_append m l [x]

theorem mem_keys_setAll {l : List (κ × ν)} {k : κ} :
    k ∈ (empty.setAll l).keys ↔ k ∈ l.map Prod.fst := by
  induction l using List.reverseRecOn with
  | nil => exact Iff.rfl
  | append_singleton l x ih =>
    rw [setAll_concat, keys_set, List.map_append, List.mem_append]
    split
    · next hx =>
      rw [ih, List.map_singleton, List.mem_singleton]
      refine (or_iff_left_of_imp ?_).symm
      rintro rfl
      exact ih.mp hx
    · rw [List.mem_append, ih, List.map_singleton]

/-- The keys are in the order in which they were set first. -/
theorem pairwise_keys_setAll (l : List (κ × ν)) :
    (empty.setAll l).keys.Pairwise
      fun k k' => (l.map Prod.fst).idxOf k < (l.map Prod.fst).idxOf k' := by
  induction l using List.reverseRecOn with
  | nil => exact List.Pairwise.nil
  | append_singleton l x ih =>
    have hold : ∀ {k}, k ∈ (empty.setAll l).keys →
        ((l ++ [x]).map Prod.fst).idxOf k = (l.map Prod.fst).idxOf k := by
      intro k hk
      rw [List.map_append, List.idxOf_append_of_mem (mem_keys_setAll.mp hk)]
    have hkeep : (empty.setAll l).keys.Pairwise fun k k' =>
        ((l ++ [x]).map Prod.fst).idxOf k < ((l ++ [x]).map Prod.fst).idxOf k' := by
      refine ih.imp_of_mem fun {k k'} hk hk' hlt => ?_
      rw [hold hk, hold hk']
      exact hlt
    rw [setAll_concat, keys_set]
    split
    · exact hkeep
    · next hx =>
      -- a new key is behind all the others
      refine List.pairwise_append.mpr ⟨hkeep, List.pairwise_singleton _ _, ?_⟩
      intro k hk k' hk'
      obtain rfl := List.mem_singleton.mp hk'
      have hnew : x.1 ∉ l.map Prod.fst := fun h => hx (mem_keys_setAll.mpr h)
      rw [hold hk, List.map_append, List.idxOf_append_of_notMem hnew]
      exact Nat.lt_add_right _ (List.idxOf_lt_length_of_mem (mem_keys_setAll.mp hk))

/-- A key has the value that it was set to last. -/
theorem mem_setAll {l : List (κ × ν)} {k : κ} {v : ν} :
    (k, v) ∈ (empty.setAll l).entries ↔ l.reverse.lookup k = some v := by
  induction l using List.reverseRecOn with
  | nil => simp [setAll, empty]
  | append_singleton l x ih =>
    rw [setAll_concat, mem_entries_set, List.reverse_append, List.reverse_singleton,
      List.singleton_append, lookup_cons, ih, Prod.mk.injEq]
    split
    · next hk => simp [hk, eq_comm]
    · next hk => simp [hk]

/-- The last update of a key. -/
theorem exists_last_of_mem_setAll {l : List (κ × ν)} {x : κ × ν}
    (h : x ∈ (empty.setAll l).entries) :
    ∃ before after, l = before ++ x :: after ∧ ∀ y ∈ after, y.1 ≠ x.1 := by
  obtain ⟨l₁, l₂, hl, hne⟩ := List.lookup_eq_some_iff.mp (mem_setAll.mp h)
  refine ⟨l₂.reverse, l₁.reverse, ?_, fun y hy => ?_⟩
  · rw [← List.reverse_reverse l, hl]
    simp
  · exact (by simpa using hne y (List.mem_reverse.mp hy) : x.1 ≠ y.1).symm

end OrderedMap

end ForStd
