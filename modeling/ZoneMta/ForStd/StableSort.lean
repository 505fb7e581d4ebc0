import Mathlib

/-!
# Stable sorting

A list without repetitions, sorted by a key. Elements of one key stay in the order in which they
were.

## Key results

- `pairwise_sortBy`: the sorted list is in the stable order of the key
- `pairwise_sortBy_iff`: the list sorted by one key is in the stable order of another exactly if
  the two keys agree on what has to change places
- `sortBy_of_argmin`: the first element of the least key is the first one of the sorted list
-/

namespace ForStd

open List (Pairwise Perm Sublist)

variable {α : Type*} {a b : α} {l : List α}

/-! ## The order of two elements in a list -/

/-- Of two elements of a list, one stands in front of the other. -/
theorem pair_sublist_or (ha : a ∈ l) (hb : b ∈ l) (hne : a ≠ b) :
    [a, b].Sublist l ∨ [b, a].Sublist l := by
  induction l with
  | nil => simp at ha
  | cons c l ih =>
    rw [List.mem_cons] at ha hb
    cases ha with
    | inl ha =>
      subst ha
      -- one of the two is the head, or both stand behind it
      have hb : b ∈ l := hb.resolve_left fun h => hne h.symm
      exact .inl (.cons_cons _ (List.singleton_sublist.mpr hb))
    | inr ha =>
      cases hb with
      | inl hb =>
        subst hb
        exact .inr (.cons_cons _ (List.singleton_sublist.mpr ha))
      | inr hb => exact (ih ha hb).imp (.cons _) (.cons _)

/-- And only one, where nothing is repeated. -/
theorem not_pair_sublist (hl : l.Nodup) (h : [a, b].Sublist l) : ¬ [b, a].Sublist l := by
  induction l with
  | nil => simp at h
  | cons c l ih =>
    have ⟨hc, hl⟩ := List.nodup_cons.mp hl
    intro h'
    cases h with
    | cons _ h =>
      cases h' with
      | cons _ h' => exact ih hl h h'
      -- the head cannot stand in the rest of the list again
      | cons_cons _ _ => exact hc (h.subset (by simp))
    | cons_cons _ _ =>
      cases h' with
      | cons _ h' => exact hc (h'.subset (by simp))
      | cons_cons _ h' => exact hc (h'.subset (by simp))

theorem ne_of_pair_sublist (hl : l.Nodup) (h : [a, b].Sublist l) : a ≠ b := by
  have hpair := h.nodup hl
  simpa using hpair

/-! ## Sorting by a key -/

section Key

variable {κ μ : Type*} [LinearOrder κ] [LinearOrder μ] (f : α → κ) (g : α → μ)

/-- The elements in the order of their keys. -/
def sortBy (l : List α) : List α := l.insertionSort (f · ≤ f ·)

/-- One element goes in front of another: its key is less, or the two have one key and it stood in
front. -/
def StableOrder (l : List α) (a b : α) : Prop := f a < f b ∨ f a = f b ∧ [a, b].Sublist l

theorem perm_sortBy (l : List α) : (sortBy f l).Perm l := List.perm_insertionSort _ l

theorem pairwise_sortBy (hl : l.Nodup) : (sortBy f l).Pairwise (StableOrder f l) := by
  have htotal : Std.Total (f · ≤ f · : α → α → Prop) := ⟨fun a b => le_total (f a) (f b)⟩
  have htrans : IsTrans α (f · ≤ f ·) := ⟨fun _ _ _ => le_trans⟩
  have hsorted : (sortBy f l).Pairwise (f · ≤ f ·) := List.pairwise_insertionSort _ l
  have hnodup : (sortBy f l).Nodup := (perm_sortBy f l).nodup_iff.mpr hl
  rw [List.pairwise_iff_forall_sublist] at hsorted ⊢
  intro a b hab
  cases (hsorted hab).lt_or_eq with
  | inl hlt => exact .inl hlt
  | inr heq =>
    right
    have ha : a ∈ l := (perm_sortBy f l).subset (hab.subset (by simp))
    have hb : b ∈ l := (perm_sortBy f l).subset (hab.subset (by simp))
    cases pair_sublist_or ha hb (ne_of_pair_sublist hnodup hab) with
    | inl h => exact ⟨heq, h⟩
    | inr h =>
      -- two of one key that stood the other way round still do
      have hba := List.pair_sublist_insertionSort (r := (f · ≤ f ·)) heq.ge h
      exact absurd hba (not_pair_sublist hnodup hab)

/-- Sorted by `f`, the list is in the stable order of `g`: two elements change places by `f`
exactly if they have to by `g`. -/
theorem pairwise_sortBy_iff (hl : l.Nodup) :
    (sortBy f l).Pairwise (StableOrder g l) ↔ l.Pairwise fun a b => f b < f a ↔ g b < g a := by
  have hperm := perm_sortBy f l
  have hnodup : (sortBy f l).Nodup := hperm.nodup_iff.mpr hl
  have hsorted := pairwise_sortBy f hl
  rw [List.pairwise_iff_forall_sublist] at hsorted
  rw [List.pairwise_iff_forall_sublist, List.pairwise_iff_forall_sublist]
  constructor
  · intro h a b hab
    have hne := ne_of_pair_sublist hl hab
    have hplace := pair_sublist_or (hperm.mem_iff.mpr (hab.subset (by simp : a ∈ [a, b])))
      (hperm.mem_iff.mpr (hab.subset (by simp : b ∈ [a, b]))) hne
    have hback := not_pair_sublist hl hab
    cases hplace with
    | inl hkept =>
      -- the pair has kept its places or changed them, and `hback` excludes both
      have hf := hsorted hkept
      have hg := h hkept
      have hf' : f a ≤ f b := hf.elim le_of_lt fun h => h.1.le
      have hg' : g a ≤ g b := hg.elim le_of_lt fun h => h.1.le
      exact iff_of_false (not_lt.mpr hf') (not_lt.mpr hg')
    | inr hmoved =>
      have hf : f b < f a := (hsorted hmoved).resolve_right fun h => hback h.2
      have hg : g b < g a := (h hmoved).resolve_right fun h => hback h.2
      exact iff_of_true hf hg
  · intro h a b hab
    have hne := ne_of_pair_sublist hnodup hab
    have hplace := pair_sublist_or (hperm.mem_iff.mp (hab.subset (by simp : a ∈ [a, b])))
      (hperm.mem_iff.mp (hab.subset (by simp : b ∈ [a, b]))) hne
    cases hplace with
    | inl hkept =>
      have hf : f a ≤ f b := (hsorted hab).elim le_of_lt fun h => h.1.le
      have hg : ¬ g b < g a := fun hg => absurd ((h hkept).mpr hg) (not_lt.mpr hf)
      cases (not_lt.mp hg).lt_or_eq with
      | inl hlt => exact .inl hlt
      | inr heq => exact .inr ⟨heq, hkept⟩
    | inr hmoved =>
      have hback := not_pair_sublist hl hmoved
      have hf : f a < f b := (hsorted hab).resolve_right fun h => hback h.2
      exact .inl ((h hmoved).mp hf)

/-! ## The first element of the least key -/

/-- Where `argmin` has found its element. -/
theorem exists_of_argmin (h : l.argmin f = some a) :
    ∃ xs ys, l = xs ++ a :: ys ∧ (∀ x ∈ xs, f a < f x) ∧ ∀ y ∈ ys, f a ≤ f y := by
  induction l generalizing a with
  | nil => cases h
  | cons b l ih =>
    rw [List.argmin_cons] at h
    cases hrest : l.argmin f with
    | none =>
      rw [hrest] at h
      obtain rfl := Option.some.inj h
      rw [List.argmin_eq_none.mp hrest]
      exact ⟨[], [], rfl, by simp, by simp⟩
    | some c =>
      obtain ⟨xs, ys, hl, hxs, hys⟩ := ih hrest
      rw [hrest] at h
      dsimp only at h
      split at h
      next hlt =>
        obtain rfl := Option.some.inj h
        refine ⟨b :: xs, ys, by rw [hl, List.cons_append], fun x hx => ?_, hys⟩
        rcases List.mem_cons.mp hx with rfl | hx
        · exact hlt
        · exact hxs x hx
      next hle =>
        obtain rfl := Option.some.inj h
        exact ⟨[], l, rfl, by simp,
          fun y hy => (not_lt.mp hle).trans (List.le_of_mem_argmin hy hrest)⟩

/-- An element before which there are only greater ones, and behind which no less ones. -/
theorem sortBy_append_cons {xs ys : List α} (hxs : ∀ x ∈ xs, f a < f x)
    (hys : ∀ y ∈ ys, f a ≤ f y) : sortBy f (xs ++ a :: ys) = a :: sortBy f (xs ++ ys) := by
  induction xs with
  | nil =>
    rw [List.nil_append, List.nil_append, sortBy, List.insertionSort_cons, ← sortBy]
    cases hsorted : sortBy f ys with
    | nil => rfl
    | cons y rest =>
      have hy : y ∈ ys := (perm_sortBy f ys).subset (hsorted ▸ List.mem_cons_self)
      exact List.orderedInsert_cons_of_le _ _ (hys y hy)
  | cons x xs ih =>
    have hx : ¬f x ≤ f a := not_le.mpr (hxs x List.mem_cons_self)
    have hrest := ih fun x h => hxs x (List.mem_cons_of_mem _ h)
    rw [List.cons_append, sortBy, List.insertionSort_cons, ← sortBy, hrest]
    exact List.orderedInsert_of_not_le _ _ hx

/-- What `argmin` finds is the first element of the sorted list. -/
theorem sortBy_of_argmin [DecidableEq α] (h : l.argmin f = some a) :
    sortBy f l = a :: sortBy f (l.erase a) := by
  obtain ⟨xs, ys, rfl, hxs, hys⟩ := exists_of_argmin f h
  have hnot : a ∉ xs := fun ha => lt_irrefl _ (hxs a ha)
  rw [sortBy_append_cons f hxs hys, List.erase_append_right _ hnot, List.erase_cons_head]

end Key

end ForStd
