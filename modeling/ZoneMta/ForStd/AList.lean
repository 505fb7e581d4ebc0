import Mathlib

/-!
# Maps

What a key is bound to after an update of an association list whose values all have one
type, and how many of its values have a property.
-/

namespace ForStd

variable {κ ν : Type*} [DecidableEq κ]

/-- A map from `κ` to `ν`. -/
abbrev Map (κ ν : Type*) [DecidableEq κ] := AList fun _ : κ => ν

theorem lookup_insert (s : Map κ ν) (a a' : κ) (b : ν) :
    (s.insert a b).lookup a' = if a' = a then some b else s.lookup a' := by
  split
  · next h => rw [h, AList.lookup_insert]
  · next h => exact AList.lookup_insert_ne h

theorem lookup_erase (s : Map κ ν) (a a' : κ) :
    (s.erase a).lookup a' = if a' = a then none else s.lookup a' := by
  split
  · next h => rw [h, AList.lookup_erase]
  · next h => exact AList.lookup_erase_ne h

theorem dlookup_cons (x : Σ _ : κ, ν) (l : List (Σ _ : κ, ν)) (a : κ) :
    (x :: l).dlookup a = if a = x.1 then some x.2 else l.dlookup a := by
  split
  · next h =>
    subst h
    exact List.dlookup_cons_eq l x.1 x.2
  · next h => exact List.dlookup_cons_ne l x h

/-- The same for a list of pairs. -/
theorem lookup_cons (a a' : κ) (b : ν) (l : List (κ × ν)) :
    ((a', b) :: l).lookup a = if a = a' then some b else l.lookup a := by
  rw [List.lookup_cons]
  split
  · next h => rw [if_pos (beq_iff_eq.mp h)]
  · next h => rw [if_neg (by simpa using h)]

/-- The entries of a second map, inserted one after the other. -/
def insertAll (s t : Map κ ν) : Map κ ν := t.entries.foldl (fun s x => s.insert x.1 x.2) s

/-- The entries of the second map come first. -/
theorem lookup_insertAll (s t : Map κ ν) (a : κ) :
    (insertAll s t).lookup a = (t.lookup a).or (s.lookup a) := by
  have hfold : ∀ (l : List (Σ _ : κ, ν)) (s : Map κ ν), l.NodupKeys →
      (l.foldl (fun s x => s.insert x.1 x.2) s).lookup a = (l.dlookup a).or (s.lookup a) := by
    intro l
    induction l with
    | nil => exact fun s _ => rfl
    | cons x l ih =>
      intro s hl
      obtain ⟨hx, hl⟩ := List.nodupKeys_cons.mp hl
      rw [List.foldl_cons, ih _ hl, lookup_insert, dlookup_cons]
      by_cases ha : a = x.1
      · -- the key is not found again
        rw [ha, List.dlookup_eq_none.mpr hx, if_pos rfl, if_pos rfl]
        rfl
      · rw [if_neg ha, if_neg ha]
  exact hfold t.entries s t.nodupKeys

/-- The values of a map, changed one by one. -/
def mapValues {ν' : Type*} (f : ν → ν') (s : Map κ ν) : Map κ ν' :=
  ⟨s.entries.map fun x => ⟨x.1, f x.2⟩, by
    have h := s.nodupKeys
    rw [List.NodupKeys, List.keys] at h ⊢
    rwa [List.map_map]⟩

theorem lookup_mapValues {ν' : Type*} (f : ν → ν') (s : Map κ ν) (a : κ) :
    (mapValues f s).lookup a = (s.lookup a).map f := by
  have hlist : ∀ l : List (Σ _ : κ, ν),
      (l.map fun x => (⟨x.1, f x.2⟩ : Σ _ : κ, ν')).dlookup a = (l.dlookup a).map f := by
    intro l
    induction l with
    | nil => rfl
    | cons x l ih =>
      rw [List.map_cons, dlookup_cons, dlookup_cons, ih]
      split
      · rfl
      · rfl
  exact hlist s.entries

/-- A map without entries has no values. -/
theorem lookup_of_entries_eq_nil {s : Map κ ν} (h : s.entries = []) (a : κ) :
    s.lookup a = none := by
  have hs : s = ∅ := AList.ext h
  rw [hs, AList.lookup_empty]

/-! ## The number of the values with a property -/

/-- How many keys are bound to a value with the property. -/
def countValues (p : ν → Bool) (s : Map κ ν) : Nat := s.entries.countP fun x => p x.2

@[simp] theorem countValues_empty (p : ν → Bool) : countValues p (∅ : Map κ ν) = 0 := rfl

/-- Without a key that is bound. -/
theorem countValues_erase {p : ν → Bool} {s : Map κ ν} {a : κ} {b : ν}
    (h : s.lookup a = some b) :
    countValues p (s.erase a) + (if p b = true then 1 else 0) = countValues p s := by
  have hkey : a ∈ s.entries.keys := AList.lookup_isSome.mp (by rw [h]; rfl)
  obtain ⟨b', l₁, l₂, -, hentries, herase⟩ := List.exists_of_kerase hkey
  -- a key is bound to one value
  have hlookup : s.lookup a = some b' := by
    refine AList.mem_lookup_iff.mpr ?_
    rw [hentries]
    exact List.mem_append_right l₁ List.mem_cons_self
  obtain rfl := Option.some.inj (h.symm.trans hlookup)
  have hleft : (s.erase a).entries = l₁ ++ l₂ := herase
  rw [countValues, countValues, hleft, hentries, List.countP_append, List.countP_append,
    List.countP_cons, Nat.add_assoc]

/-- With another key. -/
theorem countValues_insert {p : ν → Bool} {s : Map κ ν} {a : κ} (h : s.lookup a = none) (b : ν) :
    countValues p (s.insert a b) = countValues p s + (if p b = true then 1 else 0) := by
  rw [countValues, AList.entries_insert_of_notMem (AList.lookup_eq_none.mp h), List.countP_cons]
  rfl

/-- With another value of a key. -/
theorem countValues_insert_of_lookup {p : ν → Bool} {s : Map κ ν} {a : κ} {b : ν}
    (h : s.lookup a = some b) (b' : ν) :
    countValues p (s.insert a b') + (if p b = true then 1 else 0) =
      countValues p s + (if p b' = true then 1 else 0) := by
  have hinsert : countValues p (s.insert a b') =
      countValues p (s.erase a) + (if p b' = true then 1 else 0) := by
    rw [countValues, AList.entries_insert, List.countP_cons]
    rfl
  have herase := countValues_erase (p := p) h
  omega

end ForStd
