import ZoneMta.ForStd.RoundRobin

/-!
# Sets with live iterators

A set whose elements stay in the order in which they were added. An iterator is the place of the
entry that it looks at next: it sees what is added while it is in use, and not what is deleted. A
new iterator for one that is at its end makes the set a queue that is served in turn.

## Key results

- `turnStep_add`, `turnStep_delete`, `turnStep_next`: what the operations are for the queue
- `next_eq_none_iff`: an iterator at its end
-/

namespace ForStd

variable {κ : Type*}

/-- A set with its elements in order; what is deleted leaves its place empty. -/
structure LiveSet (κ : Type*) where
  entries : List (Option κ) := []
deriving Repr, DecidableEq

namespace LiveSet

/-- The first entry that is not empty, and the place behind it. -/
def find : List (Option κ) → Option (κ × Nat)
  | [] => none
  | some a :: _ => some (a, 1)
  | none :: es => (find es).map fun (a, n) => (a, n + 1)

/-- The next element for an iterator, and the iterator behind it. -/
def next (s : LiveSet κ) (i : Nat) : Option (κ × Nat) :=
  (find (s.entries.drop i)).map fun (a, n) => (a, i + n)

/-- The elements in their order. -/
def elems (s : LiveSet κ) : List κ := s.entries.reduceOption

/-- The number of elements. -/
def size (s : LiveSet κ) : Nat := s.elems.length

/-- The elements that an iterator has seen. -/
def seen (s : LiveSet κ) (i : Nat) : List κ := (s.entries.take i).reduceOption

/-- The elements that an iterator will see. -/
def ahead (s : LiveSet κ) (i : Nat) : List κ := (s.entries.drop i).reduceOption

/-- The elements in the order in which an iterator sees them, and a new one behind it. -/
def queue (s : LiveSet κ) (i : Nat) : List κ := s.ahead i ++ s.seen i

/-- The iterator is at an entry, or at the end. -/
def WF (s : LiveSet κ) (i : Nat) : Prop := s.elems.Nodup ∧ i ≤ s.entries.length

theorem elems_eq (s : LiveSet κ) (i : Nat) : s.elems = s.seen i ++ s.ahead i := by
  rw [elems, seen, ahead, ← List.reduceOption_append, List.take_append_drop]

theorem queue_perm (s : LiveSet κ) (i : Nat) : (s.queue i).Perm s.elems :=
  s.elems_eq i ▸ List.perm_append_comm

theorem mem_queue {s : LiveSet κ} {i : Nat} {a : κ} : a ∈ s.queue i ↔ a ∈ s.elems :=
  (s.queue_perm i).mem_iff

theorem queue_zero (s : LiveSet κ) : s.queue 0 = s.elems := by
  rw [queue, ahead, seen, List.take_zero, List.drop_zero]
  exact List.append_nil _

theorem queue_of_ahead_eq_nil {s : LiveSet κ} {i : Nat} (h : s.ahead i = []) :
    s.queue i = s.queue 0 := by
  rw [queue_zero, elems_eq s i, queue, h, List.nil_append, List.append_nil]

/-! ## Iterators -/

theorem find_eq_none_iff {es : List (Option κ)} : find es = none ↔ es.reduceOption = [] := by
  induction es with
  | nil => exact iff_of_true rfl rfl
  | cons e es ih =>
    cases e with
    | none => rw [find, Option.map_eq_none_iff, ih, List.reduceOption_cons_of_none]
    | some a =>
      rw [List.reduceOption_cons_of_some]
      exact iff_of_false (Option.some_ne_none _) (List.cons_ne_nil _ _)

theorem find_eq_some {es : List (Option κ)} {a : κ} {n : Nat} (h : find es = some (a, n)) :
    n ≤ es.length ∧ (es.take n).reduceOption = [a] ∧
      es.reduceOption = a :: (es.drop n).reduceOption := by
  induction es generalizing n with
  | nil => cases h
  | cons e es ih =>
    cases e with
    | some b =>
      obtain ⟨rfl, rfl⟩ := Prod.mk.inj (Option.some.inj h)
      exact ⟨Nat.succ_le_succ (Nat.zero_le _), rfl, rfl⟩
    | none =>
      obtain ⟨⟨b, m⟩, hm, heq⟩ := Option.map_eq_some_iff.mp h
      obtain ⟨rfl, rfl⟩ := Prod.mk.inj heq
      obtain ⟨hle, htake, hdrop⟩ := ih hm
      exact ⟨Nat.succ_le_succ hle, htake, hdrop⟩

/-- An iterator is at its end when it has seen all elements. -/
theorem next_eq_none_iff {s : LiveSet κ} {i : Nat} : s.next i = none ↔ s.ahead i = [] := by
  rw [next, Option.map_eq_none_iff, find_eq_none_iff, ahead]

theorem next_eq_some {s : LiveSet κ} {i j : Nat} {a : κ} (hi : i ≤ s.entries.length)
    (h : s.next i = some (a, j)) :
    j ≤ s.entries.length ∧ s.seen j = s.seen i ++ [a] ∧ s.ahead i = a :: s.ahead j := by
  obtain ⟨⟨b, n⟩, hn, heq⟩ := Option.map_eq_some_iff.mp h
  obtain ⟨rfl, rfl⟩ := Prod.mk.inj heq
  obtain ⟨hle, htake, hdrop⟩ := find_eq_some hn
  rw [List.length_drop] at hle
  refine ⟨by omega, ?_, ?_⟩
  · rw [seen, List.take_add, List.reduceOption_append, htake, seen]
  · rw [ahead, hdrop, List.drop_drop, ahead]

variable [DecidableEq κ]

/-- The element that an iterator sees is served. -/
theorem turnStep_next {s : LiveSet κ} {i j : Nat} {a : κ} (hi : i ≤ s.entries.length)
    (h : s.next i = some (a, j)) : TurnStep (s.queue i) (.serve a) (s.queue j) := by
  obtain ⟨-, hseen, hahead⟩ := next_eq_some hi h
  rw [queue, queue, hseen, hahead, ← List.append_assoc]
  exact .serve a _

/-! ## Changes -/

/-- Add an element at the end. -/
def add (s : LiveSet κ) (a : κ) : LiveSet κ :=
  if some a ∈ s.entries then s else ⟨s.entries ++ [some a]⟩

/-- Delete an element. -/
def delete (s : LiveSet κ) (a : κ) : LiveSet κ :=
  ⟨s.entries.map fun e => if e = some a then none else e⟩

omit [DecidableEq κ] in
theorem mem_elems {s : LiveSet κ} {a : κ} : a ∈ s.elems ↔ some a ∈ s.entries :=
  List.reduceOption_mem_iff

theorem elems_add {s : LiveSet κ} {a : κ} (h : a ∉ s.elems) : (s.add a).elems = s.elems ++ [a] := by
  rw [add, if_neg (mem_elems.not.mp h), elems, List.reduceOption_append]
  rfl

theorem reduceOption_delete (es : List (Option κ)) (a : κ) :
    (es.map fun e => if e = some a then none else e).reduceOption =
      es.reduceOption.filter (· != a) := by
  induction es with
  | nil => rfl
  | cons e es ih =>
    cases e with
    | none => simpa using ih
    | some b =>
      by_cases hb : b = a
      · simp [hb, ih]
      · simp [hb, ih]

theorem elems_delete (s : LiveSet κ) (a : κ) : (s.delete a).elems = s.elems.filter (· != a) :=
  reduceOption_delete s.entries a

/-- An element that is added joins the queue where the iterator turns back. -/
theorem turnStep_add {s : LiveSet κ} {i : Nat} {a : κ} (hi : i ≤ s.entries.length)
    (h : a ∉ s.elems) : TurnStep (s.queue i) (.join a) ((s.add a).queue i) := by
  have hqueue : (s.add a).queue i = s.ahead i ++ a :: s.seen i := by
    rw [queue, ahead, seen, add, if_neg (mem_elems.not.mp h), List.drop_append_of_le_length hi,
      List.take_append_of_le_length hi, List.reduceOption_append, List.append_assoc]
    rfl
  rw [hqueue]
  exact .join a _ _ (mem_queue.not.mpr h)

/-- An element that is deleted leaves the queue. -/
theorem turnStep_delete {s : LiveSet κ} {i : Nat} (h : s.elems.Nodup) (a : κ) :
    TurnStep (s.queue i) (.leave a) ((s.delete a).queue i) := by
  have hqueue : (s.delete a).queue i = (s.queue i).erase a := by
    rw [((s.queue_perm i).nodup_iff.mpr h).erase_eq_filter, queue, ahead, seen, delete,
      ← List.map_drop, ← List.map_take, reduceOption_delete, reduceOption_delete,
      ← List.filter_append]
    rfl
  rw [hqueue]
  exact .leave a _

theorem length_entries_add (s : LiveSet κ) (a : κ) :
    s.entries.length ≤ (s.add a).entries.length := by
  unfold add
  split
  · exact Nat.le_refl _
  · rw [List.length_append]
    exact Nat.le_add_right _ _

theorem length_entries_delete (s : LiveSet κ) (a : κ) :
    (s.delete a).entries.length = s.entries.length :=
  List.length_map _

end LiveSet

end ForStd
