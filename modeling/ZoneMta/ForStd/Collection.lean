import Mathlib

/-!
# Document collections

The updates of a document store on a collection, which is the list of its documents in
their natural order: `updateOne` changes the first document that matches.

## Key results

- `mem_updateOne`, `mem_updateOne_of_not`: what the documents are after an update
- `updateOne_updateOne`, `foldl_updateOne`: updates of one document after each other
- `map_updateOne`: keys that no update changes
- `updateOne_eq_map`: an update by a key that no two documents share
- `find?_of_forall₂`, `filter_of_forall₂`, `any_of_forall₂`: two collections with corresponding
  documents
-/

namespace ForStd

variable {α β κ : Type*}

/-- `updateOne(p, f)`: change the first document that matches. -/
def updateOne (p : α → Bool) (f : α → α) : List α → List α
  | [] => []
  | d :: ds => if p d then f d :: ds else d :: updateOne p f ds

variable {p : α → Bool} {f g : α → α}

theorem mem_updateOne {d : α} {ds : List α} (h : d ∈ updateOne p f ds) :
    d ∈ ds ∨ ∃ d' ∈ ds, p d' = true ∧ d = f d' := by
  induction ds with
  | nil => exact Or.inl h
  | cons a ds ih =>
    rw [updateOne] at h
    split at h
    · next hp =>
      rcases List.mem_cons.mp h with rfl | h
      · exact Or.inr ⟨a, List.mem_cons_self, hp, rfl⟩
      · exact Or.inl (List.mem_cons_of_mem a h)
    · rcases List.mem_cons.mp h with rfl | h
      · exact Or.inl List.mem_cons_self
      · rcases ih h with h | ⟨d', hd', hp, rfl⟩
        · exact Or.inl (List.mem_cons_of_mem a h)
        · exact Or.inr ⟨d', List.mem_cons_of_mem a hd', hp, rfl⟩

/-- A document is still there after an update, changed or not. -/
theorem mem_updateOne_of_mem {d : α} {ds : List α} (h : d ∈ ds) :
    d ∈ updateOne p f ds ∨ f d ∈ updateOne p f ds := by
  induction ds with
  | nil => exact absurd h List.not_mem_nil
  | cons a ds ih =>
    rw [updateOne]
    split
    · rcases List.mem_cons.mp h with rfl | h
      · exact Or.inr List.mem_cons_self
      · exact Or.inl (List.mem_cons_of_mem _ h)
    · rcases List.mem_cons.mp h with rfl | h
      · exact Or.inl List.mem_cons_self
      · exact (ih h).imp (List.mem_cons_of_mem a) (List.mem_cons_of_mem a)

/-- A document that does not match is not changed. -/
theorem mem_updateOne_of_not {d : α} {ds : List α} (h : d ∈ ds) (hp : p d = false) :
    d ∈ updateOne p f ds := by
  induction ds with
  | nil => exact h
  | cons a ds ih =>
    rw [updateOne]
    cases List.mem_cons.mp h with
    | inl ha =>
      rw [← ha, if_neg (by simp [hp])]
      exact List.mem_cons_self
    | inr hd =>
      split
      · exact List.mem_cons_of_mem _ hd
      · exact List.mem_cons_of_mem _ (ih hd)

/-- Two updates that look for the same document. -/
theorem updateOne_updateOne (hf : ∀ d, p (f d) = p d) (ds : List α) :
    updateOne p g (updateOne p f ds) = updateOne p (g ∘ f) ds := by
  induction ds with
  | nil => rfl
  | cons d ds ih =>
    by_cases hp : p d = true
    · simp only [updateOne, hp, if_true, hf, Function.comp]
    · simp only [updateOne, hp, Bool.false_eq_true, if_false, ih]

/-- Many updates that look for the same document. -/
theorem foldl_updateOne {h : α → β → α} (hh : ∀ d b, p (h d b) = p d) (bs : List β)
    (ds : List α) :
    bs.foldl (fun ds b => updateOne p (h · b) ds) ds = updateOne p (fun d => bs.foldl h d) ds := by
  induction bs generalizing ds with
  | nil =>
    induction ds with
    | nil => rfl
    | cons d ds ih => simp only [List.foldl_nil, updateOne] at ih ⊢; rw [← ih]; split <;> rfl
  | cons b bs ih =>
    rw [List.foldl_cons, ih, updateOne_updateOne fun d => hh d b]
    rfl

/-- Keys that the update does not change. -/
theorem map_updateOne {key : α → κ} (hf : ∀ d, key (f d) = key d) (ds : List α) :
    (updateOne p f ds).map key = ds.map key := by
  induction ds with
  | nil => rfl
  | cons d ds ih =>
    rw [updateOne]
    split
    · simp only [List.map_cons, hf]
    · simp only [List.map_cons, ih]

/-- An update by a key that no two documents share changes every document that matches. -/
theorem updateOne_eq_map [DecidableEq κ] {key : α → κ} {ds : List α} (h : (ds.map key).Nodup)
    (k : κ) (f : α → α) :
    updateOne (key · == k) f ds = ds.map fun d => if key d = k then f d else d := by
  induction ds with
  | nil => rfl
  | cons d ds ih =>
    obtain ⟨hd, hds⟩ := List.nodup_cons.mp h
    rw [updateOne, List.map_cons]
    by_cases hk : key d = k
    · -- the key is not found again behind the document
      have hrest : ∀ d' ∈ ds, (if key d' = k then f d' else d') = d' := by
        intro d' hd'
        have hk' : key d' ≠ k := by
          intro hk'
          rw [hk, ← hk'] at hd
          exact hd (List.mem_map_of_mem hd')
        exact if_neg hk'
      rw [if_pos (beq_iff_eq.mpr hk), if_pos hk, List.map_congr_left hrest, List.map_id']
    · rw [if_neg (by simpa using hk), if_neg hk, ih hds]

/-! ## Corresponding documents -/

section

variable {R : α → β → Prop} {xs : List α} {ys : List β} {q : β → Bool}

/-- The same query finds documents that correspond. -/
theorem find?_of_forall₂ (h : List.Forall₂ R xs ys) (hpq : ∀ x y, R x y → p x = q y) {x : α}
    (hx : x ∈ xs) (hp : p x = true) :
    ∃ x' y, xs.find? p = some x' ∧ ys.find? q = some y ∧ R x' y := by
  induction h with
  | nil => exact absurd hx List.not_mem_nil
  | @cons a b xs ys hab _ ih =>
    cases ha : p a with
    | true => exact ⟨a, b, by simp [ha], by simp [← hpq a b hab, ha], hab⟩
    | false =>
      have hne : x ≠ a := by
        rintro rfl
        exact Bool.false_ne_true (ha.symm.trans hp)
      obtain ⟨x', y, hx', hy, hxy⟩ := ih ((List.mem_cons.mp hx).resolve_left hne)
      exact ⟨x', y, by simp [ha, hx'], by simp [← hpq a b hab, ha, hy], hxy⟩

theorem filter_of_forall₂ (h : List.Forall₂ R xs ys) (hpq : ∀ x y, R x y → p x = q y) :
    List.Forall₂ R (xs.filter p) (ys.filter q) :=
  List.rel_filter (fun {x y} hxy => iff_of_eq (congrArg (· = true) (hpq x y hxy))) h

theorem any_of_forall₂ (h : List.Forall₂ R xs ys) (hpq : ∀ x y, R x y → p x = q y) :
    xs.any p = ys.any q := by
  induction h with
  | nil => rfl
  | cons hab _ ih => rw [List.any_cons, List.any_cons, hpq _ _ hab, ih]

end

end ForStd
