import Mathlib

/-!
# Lists

Complements to `List.rdropWhile` and `List.rtakeWhile` for a list whose end is known, to
`List.takeWhile` for one whose beginning is, and to lists that are sorted by a value of their
elements.

## Key results

- `takeWhile_congr`, `dropWhile_congr`: two conditions that agree on the list
- `takeWhile_eq_filter`, `dropWhile_eq_filter`: the two parts of a sorted list
- `insertBehind`: the insertion that keeps a list sorted
- `crossings_eq`: how often an increasing list crosses a threshold
- `eq_of_sum_map_eq`: the terms of equal sums
-/

namespace ForStd

variable {α : Type*} {p : α → Bool}

theorem rdropWhile_append_of_all {t : List α} (ht : ∀ c ∈ t, p c = true) (s : List α) :
    (s ++ t).rdropWhile p = s.rdropWhile p := by
  induction t using List.reverseRecOn with
  | nil => rw [List.append_nil]
  | append_singleton t c ih =>
    rw [← List.append_assoc, List.rdropWhile_concat_pos _ _ _ (ht c (by simp))]
    exact ih fun x hx => ht x (by simp [hx])

theorem rdropWhile_append (s t : List α) :
    (s ++ t).rdropWhile p =
      if t.rdropWhile p = [] then s.rdropWhile p else s ++ t.rdropWhile p := by
  simp only [List.rdropWhile, List.reverse_append, List.dropWhile_append, List.isEmpty_iff,
    List.reverse_eq_nil_iff]
  split
  · rfl
  · rw [List.reverse_append, List.reverse_reverse]

theorem rdropWhile_append_of_eq {s : List α} (hs : s.rdropWhile p = s) (t : List α) :
    (s ++ t).rdropWhile p = s ++ t.rdropWhile p := by
  rw [rdropWhile_append]
  split
  next h => rw [h, List.append_nil, hs]
  next => rfl

theorem rtakeWhile_append_of_all {t : List α} (ht : ∀ c ∈ t, p c = true) (s : List α) :
    (s ++ t).rtakeWhile p = s.rtakeWhile p ++ t := by
  induction t using List.reverseRecOn with
  | nil => rw [List.append_nil, List.append_nil]
  | append_singleton t c ih =>
    rw [← List.append_assoc, List.rtakeWhile_concat_pos _ _ _ (ht c (by simp)),
      ih fun x hx => ht x (by simp [hx]), List.append_assoc]

theorem rdropWhile_of_getLast? {s : List α} (h : ∀ c, s.getLast? = some c → p c = false) :
    s.rdropWhile p = s := by
  rw [List.rdropWhile_eq_self_iff]
  intro hs
  simp [h _ (List.getLast?_eq_some_getLast hs)]

theorem rtakeWhile_of_getLast? {s : List α} (h : ∀ c, s.getLast? = some c → p c = false) :
    s.rtakeWhile p = [] := by
  have hsplit : s.rdropWhile p ++ s.rtakeWhile p = s := List.rdropWhile_append_rtakeWhile
  rw [rdropWhile_of_getLast? h] at hsplit
  exact List.append_right_eq_self.mp hsplit

theorem takeWhile_congr {q : α → Bool} {s : List α} (h : ∀ c ∈ s, p c = q c) :
    s.takeWhile p = s.takeWhile q := by
  induction s with
  | nil => rfl
  | cons c s ih =>
    simp only [List.takeWhile_cons, h c List.mem_cons_self,
      ih fun d hd => h d (List.mem_cons_of_mem c hd)]

theorem dropWhile_congr {q : α → Bool} {s : List α} (h : ∀ c ∈ s, p c = q c) :
    s.dropWhile p = s.dropWhile q := by
  induction s with
  | nil => rfl
  | cons c s ih =>
    simp only [List.dropWhile_cons, h c List.mem_cons_self,
      ih fun d hd => h d (List.mem_cons_of_mem c hd)]

theorem takeWhile_append_of_head {w s : List α} (hw : ∀ c ∈ w, p c = true)
    (hs : ∀ c ∈ s.head?, p c = false) : (w ++ s).takeWhile p = w := by
  rw [List.takeWhile_append_of_pos hw]
  cases s with
  | nil => exact List.append_nil w
  | cons c s =>
    rw [List.takeWhile_cons_of_neg (by simp [hs c rfl]), List.append_nil]

/-- A list that ends, for `takeWhile`, where it does. -/
theorem takeWhile_append_left {s t : List α}
    (h : (∃ c ∈ s, p c = false) ∨ ∀ c ∈ t.head?, p c = false) :
    (s ++ t).takeWhile p = s.takeWhile p := by
  by_cases hs : ∀ c ∈ s, p c = true
  · have hhead : ∀ c ∈ t.head?, p c = false := by
      cases h with
      | inl h =>
        obtain ⟨c, hc, hpc⟩ := h
        rw [hs c hc] at hpc
        exact nomatch hpc
      | inr h => exact h
    rw [takeWhile_append_of_head hs hhead, List.takeWhile_eq_self_iff.mpr hs]
  · rw [List.takeWhile_append, if_neg]
    intro hlength
    have hstart := (List.takeWhile_prefix p (l := s)).eq_of_length hlength
    exact hs (List.takeWhile_eq_self_iff.mp hstart)

/-- A list that another one starts with, and the next element of that. -/
theorem prefix_concat {l m : List α} (h : l <+: m) {a : α} (ha : m[l.length]? = some a) :
    l ++ [a] <+: m := by
  obtain ⟨r, rfl⟩ := h
  rw [List.getElem?_append_right (Nat.le_refl _), Nat.sub_self] at ha
  cases r with
  | nil => exact nomatch ha
  | cons b r =>
    obtain rfl := Option.some.inj ha
    exact ⟨r, List.append_assoc l [b] r⟩

/-- An element of a list with one more element is the last one, or it is in the list. -/
theorem concat_eq_append_cons {a b : α} {l l₁ l₂ : List α} :
    l ++ [a] = l₁ ++ b :: l₂ ↔
      (l₁ = l ∧ b = a ∧ l₂ = []) ∨ ∃ l₃, l₂ = l₃ ++ [a] ∧ l = l₁ ++ b :: l₃ := by
  constructor
  · intro h
    cases l₂ using List.reverseRecOn with
    | nil =>
      obtain ⟨rfl, hb⟩ := List.append_inj' h rfl
      exact Or.inl ⟨rfl, (List.cons.inj hb).1.symm, rfl⟩
    | append_singleton l₃ c =>
      have hc : l ++ [a] = (l₁ ++ b :: l₃) ++ [c] := by simp [h]
      obtain ⟨hl, ha⟩ := List.append_inj' hc rfl
      rw [(List.cons.inj ha).1]
      exact Or.inr ⟨l₃, rfl, hl⟩
  · rintro (⟨rfl, rfl, rfl⟩ | ⟨l₃, rfl, rfl⟩)
    · rfl
    · simp only [List.append_assoc, List.cons_append]

/-- A list is cut at the last occurrence of an element in one way only. -/
theorem append_cons_inj_of_notMem [DecidableEq α] {a : α} {l l' r r' : List α} (hr : a ∉ r)
    (hr' : a ∉ r') : l ++ a :: r = l' ++ a :: r' ↔ l = l' ∧ r = r' := by
  refine ⟨fun h => ?_, fun h => by rw [h.1, h.2]⟩
  have hcut : ∀ (l : List α) {r : List α}, a ∉ r → (l ++ a :: r).rtakeWhile (· != a) = r := by
    intro l r hr
    have hne : ∀ c ∈ r, (c != a) = true := by
      rintro c hc
      refine bne_iff_ne.mpr ?_
      rintro rfl
      exact hr hc
    rw [List.append_cons, rtakeWhile_append_of_all hne, rtakeWhile_of_getLast?, List.nil_append]
    intro c hc
    rw [List.getLast?_concat] at hc
    simp [Option.some.inj hc]
  have hright : r = r' := (hcut l hr).symm.trans ((congrArg _ h).trans (hcut l' hr'))
  subst hright
  exact ⟨List.append_cancel_right h, rfl⟩

/-- An insertion behind the first part of a list. -/
theorem insertIdx_append (l r : List α) (i : Nat) (a : α) :
    (l ++ r).insertIdx (l.length + i) a = l ++ r.insertIdx i a := by
  induction l with
  | nil => rw [List.nil_append, List.nil_append, List.length_nil, Nat.zero_add]
  | cons b l ih =>
    rw [List.cons_append, List.length_cons, Nat.add_right_comm, List.insertIdx_succ_cons, ih,
      List.cons_append]

/-! ## Keys -/

section keys

variable {κ : Type*} [DecidableEq κ] {f : α → κ}

/-- The only element with a key is erased. -/
theorem eraseP_eq_filter {l : List α} (h : (l.map f).Nodup) (k : κ) :
    l.eraseP (f · == k) = l.filter (f · != k) := by
  induction l with
  | nil => rfl
  | cons a l ih =>
    rw [List.map_cons, List.nodup_cons] at h
    by_cases ha : f a = k
    · have hrest : l.filter (f · != k) = l := by
        refine List.filter_eq_self.mpr fun b hb => bne_iff_ne.mpr ?_
        rintro hbk
        exact h.1 (ha ▸ hbk ▸ List.mem_map_of_mem hb)
      simp [ha, hrest]
    · simp [ha, ih h.2]

end keys

/-! ## Sorted lists -/

section sorted

variable {τ : Type*} [LinearOrder τ] {f : α → τ} {l : List α}

/-- The elements up to a value are the first ones. -/
theorem takeWhile_eq_filter (h : l.Pairwise (f · ≤ f ·)) (t : τ) :
    l.takeWhile (f · ≤ t) = l.filter (f · ≤ t) := by
  induction l with
  | nil => rfl
  | cons a l ih =>
    obtain ⟨ha, hl⟩ := List.pairwise_cons.mp h
    by_cases hat : f a ≤ t
    · simp [hat, ih hl]
    · have hrest : l.filter (f · ≤ t) = [] := by
        refine List.filter_eq_nil_iff.mpr fun b hb hbt => ?_
        exact hat (le_trans (ha b hb) (of_decide_eq_true hbt))
      simp [hat, hrest]

/-- The elements behind a value are the last ones. -/
theorem dropWhile_eq_filter (h : l.Pairwise (f · ≤ f ·)) (t : τ) :
    l.dropWhile (f · ≤ t) = l.filter (t < f ·) := by
  induction l with
  | nil => rfl
  | cons a l ih =>
    obtain ⟨ha, hl⟩ := List.pairwise_cons.mp h
    by_cases hat : f a ≤ t
    · simp [hat, ih hl]
    · have hrest : l.filter (t < f ·) = l := by
        refine List.filter_eq_self.mpr fun b hb => decide_eq_true ?_
        exact lt_of_lt_of_le (not_le.mp hat) (ha b hb)
      simp [hat, not_le.mp hat, hrest]

/-- The list with an element put behind those that are not greater. -/
def insertBehind (f : α → τ) (a : α) (l : List α) : List α :=
  l.filter (f · ≤ f a) ++ a :: l.filter (f a < f ·)

theorem mem_insertBehind {a b : α} : b ∈ insertBehind f a l ↔ b = a ∨ b ∈ l := by
  simp only [insertBehind, List.mem_append, List.mem_cons, List.mem_filter, decide_eq_true_eq]
  constructor
  · rintro (⟨hb, -⟩ | rfl | ⟨hb, -⟩)
    · exact Or.inr hb
    · exact Or.inl rfl
    · exact Or.inr hb
  · rintro (rfl | hb)
    · exact Or.inr (Or.inl rfl)
    · rcases le_or_gt (f b) (f a) with hle | hlt
      · exact Or.inl ⟨hb, hle⟩
      · exact Or.inr (Or.inr ⟨hb, hlt⟩)

theorem insertBehind_of_le {a : α} (h : ∀ b ∈ l, f b ≤ f a) : insertBehind f a l = l ++ [a] := by
  have hle : l.filter (f · ≤ f a) = l :=
    List.filter_eq_self.mpr fun b hb => decide_eq_true (h b hb)
  have hlt : l.filter (f a < f ·) = [] :=
    List.filter_eq_nil_iff.mpr fun b hb hab => not_lt.mpr (h b hb) (of_decide_eq_true hab)
  rw [insertBehind, hle, hlt]

theorem insertBehind_of_lt {a : α} (h : ∀ b ∈ l, f a < f b) : insertBehind f a l = a :: l := by
  have hlt : l.filter (f a < f ·) = l :=
    List.filter_eq_self.mpr fun b hb => decide_eq_true (h b hb)
  have hle : l.filter (f · ≤ f a) = [] :=
    List.filter_eq_nil_iff.mpr fun b hb hba => not_le.mpr (h b hb) (of_decide_eq_true hba)
  rw [insertBehind, hle, hlt, List.nil_append]

theorem insertBehind_concat {a b : α} (h : f a < f b) (l : List α) :
    insertBehind f a (l ++ [b]) = insertBehind f a l ++ [b] := by
  simp [insertBehind, List.filter_append, h, not_le.mpr h]

theorem pairwise_insertBehind (h : l.Pairwise (f · ≤ f ·)) (a : α) :
    (insertBehind f a l).Pairwise (f · ≤ f ·) := by
  refine List.pairwise_append.mpr ⟨h.filter _, List.pairwise_cons.mpr ⟨?_, h.filter _⟩, ?_⟩
  · intro b hb
    exact le_of_lt (of_decide_eq_true (List.mem_filter.mp hb).2)
  · intro b hb c hc
    have hba : f b ≤ f a := of_decide_eq_true (List.mem_filter.mp hb).2
    rcases List.mem_cons.mp hc with rfl | hc
    · exact hba
    · exact le_trans hba (le_of_lt (of_decide_eq_true (List.mem_filter.mp hc).2))

theorem perm_insertBehind (h : l.Pairwise (f · ≤ f ·)) (a : α) :
    (insertBehind f a l).Perm (a :: l) := by
  refine List.perm_middle.trans (List.Perm.cons a ?_)
  rw [← takeWhile_eq_filter h, ← dropWhile_eq_filter h, List.takeWhile_append_dropWhile]

/-- Other values stay without repetitions. -/
theorem nodup_map_insertBehind {κ : Type*} {g : α → κ} (hsorted : l.Pairwise (f · ≤ f ·))
    (h : (l.map g).Nodup) {a : α} (ha : ∀ b ∈ l, g b ≠ g a) :
    ((insertBehind f a l).map g).Nodup := by
  rw [((perm_insertBehind hsorted a).map g).nodup_iff, List.map_cons, List.nodup_cons]
  refine ⟨fun hmem => ?_, h⟩
  obtain ⟨b, hb, hba⟩ := List.mem_map.mp hmem
  exact ha b hb hba

end sorted

/-! ## Thresholds -/

section crossings

variable {τ : Type*} [LinearOrder τ] {θ prev : τ} {ts : List τ}

/-- How often the threshold lies between a value of the list and the one before it; a value that
    meets it counts on both sides. `prev` stands before the list. -/
def crossings (θ : τ) : τ → List τ → Nat
  | _, [] => 0
  | prev, t :: ts => (if prev ≤ θ ∧ θ ≤ t then 1 else 0) + crossings θ t ts

theorem crossings_of_lt (hsorted : (prev :: ts).Pairwise (· < ·)) (h : θ < prev) :
    crossings θ prev ts = 0 := by
  induction ts generalizing prev with
  | nil => rfl
  | cons t ts ih =>
    obtain ⟨hprev, hts⟩ := List.pairwise_cons.mp hsorted
    have hrest := ih hts (h.trans (hprev t List.mem_cons_self))
    rw [crossings, hrest, if_neg fun hcross => not_le.mpr h hcross.1]

/-- An increasing list that starts below the threshold crosses it once, and once more where a value
    that is not the last one meets it. -/
theorem crossings_eq (hsorted : (prev :: ts).Pairwise (· < ·)) (h : prev ≤ θ) :
    crossings θ prev ts =
      (if ∃ t ∈ ts, θ ≤ t then 1 else 0) + if θ ∈ ts.dropLast then 1 else 0 := by
  induction ts generalizing prev with
  | nil => simp [crossings]
  | cons t ts ih =>
    obtain ⟨-, hts⟩ := List.pairwise_cons.mp hsorted
    have hlt : ∀ t' ∈ ts, t < t' := (List.pairwise_cons.mp hts).1
    have hle : ∀ t' ∈ (t :: ts).dropLast, t ≤ t' := by
      intro t' ht'
      obtain rfl | ht' := List.mem_cons.mp (List.dropLast_subset _ ht')
      · exact le_refl _
      · exact (hlt t' ht').le
    rcases lt_trichotomy t θ with hbelow | rfl | habove
    · -- not crossed yet
      have hmem : θ ∈ (t :: ts).dropLast ↔ θ ∈ ts.dropLast := by
        cases ts with
        | nil => rfl
        | cons u us => simp [List.dropLast_cons_cons, hbelow.ne']
      simp only [crossings, ih hts hbelow.le, hmem, List.exists_mem_cons_iff, not_le.mpr hbelow,
        and_false, if_false, false_or, Nat.zero_add]
    · -- met: the rest of the list crosses it again
      have hnotin : t ∉ ts.dropLast := fun hmem =>
        lt_irrefl t (hlt t (List.dropLast_subset _ hmem))
      have hmet : ∃ t' ∈ t :: ts, t ≤ t' := ⟨t, List.mem_cons_self, le_refl t⟩
      rw [crossings, ih hts (le_refl t), if_pos ⟨h, le_refl t⟩, if_neg hnotin, if_pos hmet,
        Nat.add_zero]
      refine congrArg (1 + ·) ?_
      cases ts with
      | nil => simp
      | cons u us =>
        rw [if_pos ⟨u, List.mem_cons_self, (hlt u List.mem_cons_self).le⟩,
          List.dropLast_cons_cons, if_pos List.mem_cons_self]
    · have hnotin : θ ∉ (t :: ts).dropLast := fun hmem => not_le.mpr habove (hle θ hmem)
      rw [crossings, crossings_of_lt hts habove, if_pos ⟨h, habove.le⟩,
        if_pos ⟨t, List.mem_cons_self, habove.le⟩, if_neg hnotin]

end crossings

/-! ## Sums -/

/-- Sums over a list that are equal, of terms of which one is never greater. -/
theorem eq_of_sum_map_eq {f g : α → Nat} {l : List α} (hle : ∀ a ∈ l, f a ≤ g a)
    (h : (l.map f).sum = (l.map g).sum) : ∀ a ∈ l, f a = g a := by
  have hsum : ∀ {l : List α}, (∀ a ∈ l, f a ≤ g a) → (l.map f).sum ≤ (l.map g).sum := by
    intro l
    induction l with
    | nil => exact fun _ => Nat.le_refl 0
    | cons a l ih =>
      intro hle
      have ha := hle a List.mem_cons_self
      have hl := ih fun b hb => hle b (List.mem_cons_of_mem a hb)
      simp only [List.map_cons, List.sum_cons]
      omega
  induction l with
  | nil => simp
  | cons b l ih =>
    have hb := hle b List.mem_cons_self
    have hl := fun a ha => hle a (List.mem_cons_of_mem b ha)
    have hrest := hsum hl
    simp only [List.map_cons, List.sum_cons] at h
    intro a ha
    obtain rfl | ha := List.mem_cons.mp ha
    · omega
    · exact ih hl (by omega) a ha

end ForStd
