import Mathlib

/-!
# Round robin

A queue whose members are served in turn: the first one is served and goes to the end. Members
leave at any time, and new ones join at any place.

## Key results

- `Turns.nodup`: no member is in the queue twice
- `Turns.count_serve`: between two turns of a member every other member that stays has one turn
-/

namespace ForStd

open scoped List

variable {κ : Type*} [DecidableEq κ]

/-- What happens to a queue. -/
inductive Turn (κ : Type*) where
  | serve (a : κ)
  | join (a : κ)
  | leave (a : κ)
deriving DecidableEq

/-- The queue before and after something happens. -/
inductive TurnStep : List κ → Turn κ → List κ → Prop where
  | serve (a : κ) (l : List κ) : TurnStep (a :: l) (.serve a) (l ++ [a])
  | join (a : κ) (l₁ l₂ : List κ) (h : a ∉ l₁ ++ l₂) :
    TurnStep (l₁ ++ l₂) (.join a) (l₁ ++ a :: l₂)
  | leave (a : κ) (l : List κ) : TurnStep l (.leave a) (l.erase a)

/-- The queue before and after a number of turns. -/
inductive Turns : List κ → List (Turn κ) → List κ → Prop where
  | nil (l : List κ) : Turns l [] l
  | cons {l₁ l₂ l₃ : List κ} {t : Turn κ} {ts : List (Turn κ)} (h : TurnStep l₁ t l₂)
    (hs : Turns l₂ ts l₃) : Turns l₁ (t :: ts) l₃

variable {l l' : List κ} {t : Turn κ} {ts ts' : List (Turn κ)} {c d : κ}

/-- A queue in which a member is served starts with it. -/
theorem TurnStep.eq_of_serve {a : κ} (h : TurnStep l (.serve a) l') :
    ∃ r, l = a :: r ∧ l' = r ++ [a] := by
  generalize ht : Turn.serve a = t at h
  cases h with
  | serve b r =>
    obtain rfl := Turn.serve.inj ht
    exact ⟨r, rfl, rfl⟩
  | join | leave => cases ht

theorem TurnStep.nodup (h : TurnStep l t l') (hnodup : l.Nodup) : l'.Nodup := by
  cases h with
  | serve a l => exact (List.perm_append_singleton a l).nodup_iff.mpr hnodup
  | join a l₁ l₂ ha => exact List.perm_middle.nodup_iff.mpr (List.nodup_cons.mpr ⟨ha, hnodup⟩)
  | leave a => exact hnodup.erase a

theorem Turns.nodup (h : Turns l ts l') (hnodup : l.Nodup) : l'.Nodup := by
  induction h with
  | nil => exact hnodup
  | cons hstep _ ih => exact ih (hstep.nodup hnodup)

theorem Turns.append {l'' : List κ} (h : Turns l ts l') (h' : Turns l' ts' l'') :
    Turns l (ts ++ ts') l'' := by
  induction h with
  | nil => exact h'
  | cons hstep _ ih => exact .cons hstep (ih h')

/-- A member that stays stays behind another one, unless that is served. -/
theorem TurnStep.sublist (h : TurnStep l t l') (hcd : [c, d] <+ l) (hserve : t ≠ .serve c)
    (hc : t ≠ .leave c) (hd : t ≠ .leave d) : [c, d] <+ l' := by
  cases h with
  | serve a l =>
    have hne : c ≠ a := fun hca => hserve (by rw [hca])
    cases hcd with
    | cons _ hcd => exact hcd.trans (List.sublist_append_left l [a])
    | cons_cons _ _ => exact absurd rfl hne
  | join a l₁ l₂ _ =>
    exact hcd.trans ((List.append_sublist_append_left l₁).mpr (List.sublist_cons_self a l₂))
  | leave a =>
    have herase : [c, d].erase a = [c, d] := by
      refine List.erase_of_not_mem fun ha => ?_
      rcases List.mem_pair.mp ha with rfl | rfl
      · exact hc rfl
      · exact hd rfl
    exact herase ▸ hcd.erase a

/-- A member that is served is behind the others then. -/
theorem TurnStep.sublist_serve (h : TurnStep l (.serve c) l') (hcd : [c, d] <+ l) :
    [d, c] <+ l' := by
  obtain ⟨r, rfl, rfl⟩ := h.eq_of_serve
  have hd : d ∈ r := by
    cases hcd with
    | cons _ hcd => exact hcd.subset (List.mem_cons_of_mem c List.mem_cons_self)
    | cons_cons _ hd => exact hd.subset List.mem_cons_self
  exact (List.singleton_sublist.mpr hd).append (List.Sublist.refl [c])

omit [DecidableEq κ] in
/-- The first member of a queue is not behind another one. -/
theorem not_sublist_head (h : (d :: l).Nodup) : ¬[c, d] <+ d :: l := by
  intro hcd
  have hmem : d ∉ l := (List.nodup_cons.mp h).1
  cases hcd with
  | cons _ hcd => exact hmem (hcd.subset (List.mem_cons_of_mem c List.mem_cons_self))
  | cons_cons _ hcd => exact hmem (hcd.subset List.mem_cons_self)

/-- A member is not served while another one that stays and is not served is in front of it. -/
theorem Turns.count_serve_eq_zero (h : Turns l ts l') (hnodup : l.Nodup) (hdc : [d, c] <+ l)
    (hserve : .serve d ∉ ts) (hc : .leave c ∉ ts) (hd : .leave d ∉ ts) :
    ts.count (.serve c) = 0 ∧ [d, c] <+ l' := by
  induction h with
  | nil => exact ⟨rfl, hdc⟩
  | @cons l₁ l₂ l₃ t ts hstep _ ih =>
    rw [List.mem_cons, not_or] at hserve hc hd
    have hnext := hstep.sublist hdc (Ne.symm hserve.1) (Ne.symm hd.1) (Ne.symm hc.1)
    obtain ⟨hcount, hrest⟩ := ih (hstep.nodup hnodup) hnext hserve.2 hc.2 hd.2
    have hne : t ≠ .serve c := by
      rintro rfl
      obtain ⟨r, rfl, -⟩ := hstep.eq_of_serve
      exact not_sublist_head hnodup hdc
    rw [List.count_cons_of_ne hne]
    exact ⟨hcount, hrest⟩

/-- A member in front of another one that stays and is not served has had no turn, or one. -/
theorem Turns.count_serve_le_one (h : Turns l ts l') (hnodup : l.Nodup) (hcd : [c, d] <+ l)
    (hserve : .serve d ∉ ts) (hc : .leave c ∉ ts) (hd : .leave d ∉ ts) :
    (ts.count (.serve c) = 0 ∧ [c, d] <+ l') ∨ (ts.count (.serve c) = 1 ∧ [d, c] <+ l') := by
  induction h with
  | nil => exact Or.inl ⟨rfl, hcd⟩
  | @cons l₁ l₂ l₃ t ts hstep hrest ih =>
    rw [List.mem_cons, not_or] at hserve hc hd
    by_cases ht : t = .serve c
    · -- from now on the other one is in front
      subst ht
      have hnext := hstep.sublist_serve hcd
      obtain ⟨hcount, hlast⟩ := hrest.count_serve_eq_zero (hstep.nodup hnodup) hnext hserve.2
        hc.2 hd.2
      rw [List.count_cons_self, hcount]
      exact Or.inr ⟨rfl, hlast⟩
    · have hnext := hstep.sublist hcd ht (Ne.symm hc.1) (Ne.symm hd.1)
      rw [List.count_cons_of_ne ht]
      exact ih (hstep.nodup hnodup) hnext hserve.2 hc.2 hd.2

/-- Between two turns of a member every other member that stays has one turn. -/
theorem Turns.count_serve {l₁ l₂ : List κ} (h : Turns (d :: l₁) (.serve d :: ts) (d :: l₂))
    (hnodup : (d :: l₁).Nodup) (hmem : c ∈ l₁) (hserve : .serve d ∉ ts) (hc : .leave c ∉ ts)
    (hd : .leave d ∉ ts) : ts.count (.serve c) = 1 := by
  cases h with
  | @cons _ l _ _ _ hstep hrest =>
    obtain ⟨r, hr, rfl⟩ := hstep.eq_of_serve
    obtain ⟨-, rfl⟩ := List.cons.inj hr
    have hnodup' : (l₁ ++ [d]).Nodup := (List.perm_append_singleton d l₁).nodup_iff.mpr hnodup
    have hcd : [c, d] <+ l₁ ++ [d] :=
      (List.singleton_sublist.mpr hmem).append (List.Sublist.refl [d])
    rcases hrest.count_serve_le_one hnodup' hcd hserve hc hd with ⟨-, hlast⟩ | ⟨hcount, -⟩
    · exact absurd hlast (not_sublist_head (hrest.nodup hnodup'))
    · exact hcount

end ForStd
