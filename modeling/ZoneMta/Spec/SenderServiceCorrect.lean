import Mathlib
import ZoneMta.ForStd.Transition
import ZoneMta.Native.SenderService

/-!
# Reloads of a sender process

How many senders there are after reloads. The loop that ends senders keeps one too many, as it
compares an index with a number, and the process remembers the number of the configuration.

## Key results

- `senders_reload_of_lt`: a reload with fewer connections keeps one sender more
- `inv_step`: reloads that do not lower the connections keep the count right
- `counted_iff`: the count is right if and only if no reload lowers the connections
-/

namespace ZoneMta

namespace SenderService

open ForStd (run Along Throughout throughout_iff_along_of_along)

/-- No sender fails, and a reload waits for the timers of the last one. -/
def Settled (s : SenderService) : Event → Prop
  | .spawn => True
  | .reload _ => s.pending = 0
  | .error _ => False

/-- A reload does not lower the number of connections. -/
def Keeps (s : SenderService) : Event → Prop
  | .reload connections => s.connections ≤ zoneUpdate connections
  | _ => True

instance (s : SenderService) : (e : Event) → Decidable (Settled s e)
  | .spawn => isTrue trivial
  | .reload _ => inferInstanceAs (Decidable (s.pending = 0))
  | .error _ => isFalse id

instance (s : SenderService) : (e : Event) → Decidable (Keeps s e)
  | .spawn => isTrue trivial
  | .reload connections => inferInstanceAs (Decidable (s.connections ≤ zoneUpdate connections))
  | .error _ => isTrue trivial

/-- Once all timers have fired, there are as many senders as connections. -/
def Counted (s : SenderService) : Prop := s.pending = 0 → s.senders.length = s.connections

instance (s : SenderService) : Decidable (Counted s) :=
  inferInstanceAs (Decidable (s.pending = 0 → s.senders.length = s.connections))

/-- The senders and the timers make up the number of connections. -/
structure Inv (s : SenderService) : Prop where
  remembered : s.zoneConnections = s.connections
  count : s.senders.length + s.pending = s.connections
  nodup : s.senders.Nodup
  le : ∀ sender ∈ s.senders, sender ≤ s.zoneCounter

theorem Inv.counted {s : SenderService} (h : Inv s) : Counted s := by
  intro hpending
  have hcount := h.count
  omega

theorem inv_start (connections : Nat) : Inv (start connections) where
  remembered := rfl
  count := by simp [start, spawnConnections]
  nodup := List.nodup_nil
  le _ h := nomatch h

theorem Inv.spawn {s : SenderService} (h : Inv s) (hpending : s.pending ≠ 0) : Inv s.spawn where
  remembered := h.remembered
  count := by
    have hcount := h.count
    show (s.senders ++ [_]).length + (s.pending - 1) = s.connections
    rw [List.length_append, List.length_singleton]
    omega
  nodup := by
    show (s.senders ++ [_]).Nodup
    rw [← List.concat_eq_append]
    refine h.nodup.concat fun hmem => ?_
    have hle := h.le _ hmem
    omega
  le := by
    intro sender hsender
    show sender ≤ s.zoneCounter + 1
    obtain hsender | hsender := List.mem_append.mp hsender
    · have hle := h.le sender hsender
      omega
    · exact Nat.le_of_eq (List.mem_singleton.mp hsender)

/-- The senders behind the first `connections + 1` are deleted. -/
theorem deletedSenders_eq (s : SenderService) (connections : Nat) :
    s.deletedSenders connections = s.senders.drop (connections + 1) := by
  -- the indices of the loop start anywhere, for the induction
  have hloop : ∀ (senders : List Nat) (i : Nat),
      ((senders.zipIdx i).filter fun x => connections < x.2).map (·.1) =
        senders.drop (connections + 1 - i) := by
    intro senders
    induction senders with
    | nil => intro i; simp
    | cons sender senders ih =>
      intro i
      rw [List.zipIdx_cons]
      -- behind the index that is equal to the number everything is deleted
      by_cases hi : connections < i
      · have hzero : connections + 1 - i = 0 := by omega
        have hnext : connections + 1 - (i + 1) = 0 := by omega
        rw [List.filter_cons_of_pos (by simpa using hi), List.map_cons, ih, hzero, hnext]
        rfl
      · have hsucc : connections + 1 - i = connections + 1 - (i + 1) + 1 := by omega
        rw [List.filter_cons_of_neg (by simpa using hi), ih, hsucc, List.drop_succ_cons]
  exact hloop s.senders 0

/-- A reload with fewer connections leaves the first senders, one more than it should. -/
theorem senders_reload_of_lt {s : SenderService} (h : s.senders.Nodup) {connections : Nat}
    (hlt : zoneUpdate connections < s.zoneConnections) :
    (s.reload connections).senders = s.senders.take (zoneUpdate connections + 1) := by
  have hne : s.zoneConnections ≠ zoneUpdate connections := by omega
  have hge : ¬s.zoneConnections < zoneUpdate connections := by omega
  simp only [reload, if_neg hne, if_neg hge]
  show s.senders.filter (fun sender =>
    !(s.deletedSenders (zoneUpdate connections)).contains sender) = _
  rw [deletedSenders_eq]
  generalize zoneUpdate connections + 1 = n
  -- no sender is both kept and deleted, as they have different numbers
  have hsplit := List.take_append_drop n s.senders
  rw [← hsplit, List.nodup_append] at h
  obtain ⟨-, -, hdisjoint⟩ := h
  have hkept : (s.senders.take n).filter (fun sender => !(s.senders.drop n).contains sender) =
      s.senders.take n := by
    refine List.filter_eq_self.mpr fun sender hsender => ?_
    simpa using fun hmem => hdisjoint sender hsender sender hmem rfl
  have hgone : (s.senders.drop n).filter (fun sender => !(s.senders.drop n).contains sender) =
      [] :=
    List.filter_eq_nil_iff.mpr fun sender hsender => by simp [hsender]
  conv_lhs => rw [← hsplit, List.filter_append]
  rw [hsplit, hkept, hgone, List.append_nil]

/-- A reload that does not lower the number of connections starts the missing senders. -/
theorem Inv.reload {s : SenderService} (h : Inv s) {connections : Nat}
    (hle : s.connections ≤ zoneUpdate connections) : Inv (s.reload connections) := by
  have hcount := h.count
  have hremembered := h.remembered
  unfold SenderService.reload
  dsimp only
  -- the same number, or more: fewer is excluded
  split
  · next heq =>
    have heq : s.zoneConnections = zoneUpdate connections := heq
    refine ⟨heq, ?_, h.nodup, h.le⟩
    show s.senders.length + s.pending = zoneUpdate connections
    omega
  · next hne =>
    have hlt : s.zoneConnections < zoneUpdate connections := by
      have hne : s.zoneConnections ≠ zoneUpdate connections := hne
      omega
    rw [if_pos hlt]
    refine ⟨rfl, ?_, h.nodup, h.le⟩
    show s.senders.length + (s.pending + (zoneUpdate connections - s.zoneConnections)) =
      zoneUpdate connections
    omega

/-- Reloads that do not lower the number of connections keep the count right. -/
theorem inv_step {s s' : SenderService} {e : Event} (h : Inv s) (hsettled : Settled s e)
    (he : Keeps s e) (hs : s.step e = some s') : Inv s' := by
  cases e with
  | spawn =>
    simp only [step] at hs
    split at hs
    · exact nomatch hs
    · next hpending => exact Option.some.inj hs ▸ h.spawn hpending
  | reload connections => exact Option.some.inj hs ▸ h.reload he
  | error sender => exact hsettled.elim

/-- A reload that lowers the number of connections leaves a sender too many. -/
theorem not_counted_step {s s' : SenderService} {e : Event} (h : Inv s) (hsettled : Settled s e)
    (he : ¬Keeps s e) (hs : s.step e = some s') : ¬Counted s' := by
  cases e with
  | spawn => exact absurd trivial he
  | reload connections =>
    obtain rfl := Option.some.inj hs
    -- no timer is pending, so the count is due right after the reload
    have hpending : s.pending = 0 := hsettled
    have hcount := h.count
    have hlt : zoneUpdate connections < s.connections := Nat.not_le.mp he
    have hlt' : zoneUpdate connections < s.zoneConnections := by rw [h.remembered]; exact hlt
    have hsenders := senders_reload_of_lt h.nodup hlt'
    have hne : s.zoneConnections ≠ zoneUpdate connections := by omega
    have hge : ¬s.zoneConnections < zoneUpdate connections := by omega
    have hafter : (s.reload connections).pending = 0 ∧
        (s.reload connections).connections = zoneUpdate connections := by
      simp only [SenderService.reload, if_neg hne, if_neg hge]
      exact ⟨hpending, trivial⟩
    intro hcounted
    have hlength := hcounted hafter.1
    rw [hsenders, hafter.2, List.length_take] at hlength
    omega
  | error sender => exact hsettled.elim

/-- When no sender fails and every reload waits for the senders of the last one, there are as many
    senders as connections after every reload if and only if no reload lowers their number. -/
theorem counted_iff {connections : Nat} {es : List Event} {s : SenderService}
    (hes : Along step Settled (start connections) es)
    (hrun : run step (start connections) es = some s) :
    Throughout step Counted (start connections) es ↔ Along step Keeps (start connections) es :=
  throughout_iff_along_of_along (fun _ _ _ h hr hp hs => inv_step h hr hp hs)
    (fun _ _ _ h hr hp hs => not_counted_step h hr hp hs) (fun _ => Inv.counted)
    (inv_start connections) hes hrun

theorem counted_iff_grown : ∃ s, run step (start 1) [.spawn, .reload 2, .spawn] = some s ∧
    s.senders = [1, 2] ∧ Throughout step Counted (start 1) [.spawn, .reload 2, .spawn] := by
  have hrun : run step (start 1) [.spawn, .reload 2, .spawn] =
      some { (start 2) with zoneCounter := 2, pending := 0, senders := [1, 2] } := rfl
  exact ⟨_, hrun, rfl, (counted_iff (by decide) hrun).mpr (by decide)⟩

/-- Three senders, and a reload with one connection: two are left. -/
theorem not_counted_lowered : ∃ s, run step (start 3) [.spawn, .spawn, .spawn, .reload 1] = some s ∧
    s.pending = 0 ∧ s.connections = 1 ∧ s.senders = [1, 2] :=
  ⟨_, rfl, rfl, rfl, rfl⟩

end SenderService

end ZoneMta
