import Mathlib
import ZoneMta.ForStd.Transition
import ZoneMta.Native.SpawnSenders

/-!
# The number of sender processes

`spawnNext` compares the processes that have started up with the number of the configuration. It
does not see those that are still starting, nor those that were too slow and have not ended yet,
nor what other loops are about to fork: there are several loops, as every exit starts one.

## Key results

- `inv_step`: decisions that leave room keep the number of processes
- `within_of_along`: the number of processes in a run of such decisions
- `exists_exceeds`: after another decision the forks lead to too many processes
- `exceeds_respawn`: two loops, and two processes where one is configured
-/

namespace ZoneMta

namespace Spawner

open ForStd (run Along Throughout run_concat)

/-- There are not more processes than the configuration has. -/
def Within (s : Spawner) : Prop := s.live.length ≤ s.processes

instance (s : Spawner) : Decidable (Within s) :=
  inferInstanceAs (Decidable (s.live.length ≤ s.processes))

/-- What `spawnNext` does not count: processes that have not started up, or not in time, and the
    forks of the other loops. -/
def uncounted (s : Spawner) : Nat := (s.live.filter (· ∉ s.children)).length + s.forks

/-- When `spawnNext` decides to fork, what it does not count leaves room for a process. -/
def LeavesRoom (s : Spawner) (e : Event) : Prop :=
  ∀ t, s.handle e = some (t, true) → t.stopped = false → t.children.length < t.processes →
    t.children.length + t.uncounted < t.processes

instance (s : Spawner) (e : Event) : Decidable (LeavesRoom s e) :=
  match h : s.handle e with
  | none => isTrue fun _ ht => nomatch h.symm.trans ht
  | some (t, next) =>
    decidable_of_iff
      (next = true → t.stopped = false → t.children.length < t.processes →
        t.children.length + t.uncounted < t.processes)
      ⟨fun hroom t' ht' => by
        obtain ⟨rfl, rfl⟩ := Prod.mk.inj (Option.some.inj (h.symm.trans ht'))
        exact hroom rfl,
      fun hroom hnext => hroom t (by rw [h, hnext])⟩

/-! ## The invariant -/

/-- The processes that have started up are among those that live, and the forks that are decided
    on fit. -/
structure Inv (s : Spawner) : Prop where
  live : s.live.Nodup
  lt : ∀ pid ∈ s.live, pid < s.nextPid
  children : s.children.Nodup
  subset : s.children ⊆ s.live
  returned : ∀ pid ∈ s.children, pid ∈ s.returned
  waiting : ∀ pid, pid < s.nextPid → pid ∉ s.live → pid ∈ s.returned

/-- The rest of the invariant, which the decisions keep. -/
def Fits (s : Spawner) : Prop := s.live.length + s.forks ≤ s.processes

variable {s s' t : Spawner} {e : Event}

theorem Inv.length_live (h : Inv s) :
    s.children.length + (s.live.filter (· ∉ s.children)).length = s.live.length := by
  -- those of `live` that are counted are `children`, in some order
  have hcounted : (s.live.filter (· ∈ s.children)).Perm s.children := by
    refine (List.perm_ext_iff_of_nodup (h.live.filter _) h.children).mpr fun pid => ?_
    rw [List.mem_filter, decide_eq_true_eq]
    exact ⟨fun hpid => hpid.2, fun hpid => ⟨h.subset hpid, hpid⟩⟩
  rw [← hcounted.length_eq]
  have hsplit := List.length_eq_length_filter_add (l := s.live) (· ∈ s.children)
  simp only [← decide_not] at hsplit
  exact hsplit.symm

theorem inv_start (processes : Nat) (disabled : Bool) : Inv (start processes disabled) := by
  unfold start spawnSenders
  split <;> exact ⟨List.nodup_nil, by simp, List.nodup_nil, by simp, by simp, by simp⟩

theorem Inv.spawnSender (h : Inv s) : Inv { s with forks := s.forks - 1 }.spawnSender where
  live := by
    show (s.live ++ [s.nextPid]).Nodup
    rw [← List.concat_eq_append]
    exact h.live.concat fun hmem => Nat.lt_irrefl _ (h.lt _ hmem)
  lt := by
    intro pid hpid
    obtain hpid | hpid := List.mem_append.mp hpid
    · exact Nat.lt_succ_of_lt (h.lt pid hpid)
    · rw [List.mem_singleton.mp hpid]
      exact Nat.lt_succ_self _
  children := h.children
  subset := fun pid hpid => List.mem_append_left _ (h.subset hpid)
  returned := h.returned
  waiting := by
    intro pid hpid hlive
    -- the new process lives, so only older ones can have exited
    have hne : pid ≠ s.nextPid := fun heq => hlive (heq ▸ List.mem_append_right _ (by simp))
    have hlt : pid < s.nextPid := Nat.lt_of_le_of_ne (Nat.le_of_lt_succ hpid) hne
    exact h.waiting pid hlt fun hmem => hlive (List.mem_append_left _ hmem)

/-- The loops and the timers have no part in it, and more processes may have `returned`. -/
theorem Inv.congr (h : Inv s) (hlive : t.live = s.live) (hpid : t.nextPid = s.nextPid)
    (hchildren : t.children = s.children) (hreturned : s.returned ⊆ t.returned) : Inv t where
  live := hlive ▸ h.live
  lt := by
    rw [hlive, hpid]
    exact h.lt
  children := hchildren ▸ h.children
  subset := by
    rw [hchildren, hlive]
    exact h.subset
  returned := by
    rw [hchildren]
    exact fun pid hpid' => hreturned (h.returned pid hpid')
  waiting := by
    rw [hlive, hpid]
    exact fun pid hlt hmem => hreturned (h.waiting pid hlt hmem)

/-- A process has started up in time. -/
theorem Inv.startup (h : Inv s) {pid : Nat} (hpid : pid < s.nextPid) (hreturned : pid ∉ s.returned) :
    Inv ({ s with children := s.children ++ [pid] }.setReturned pid) where
  live := h.live
  lt := h.lt
  children := by
    show (s.children ++ [pid]).Nodup
    rw [← List.concat_eq_append]
    exact h.children.concat fun hmem => hreturned (h.returned pid hmem)
  subset := by
    -- a process that has exited has returned
    have hlive : pid ∈ s.live := by
      by_contra hlive
      exact hreturned (h.waiting pid hpid hlive)
    intro other hother
    obtain hother | hother := List.mem_append.mp hother
    · exact h.subset hother
    · exact List.mem_singleton.mp hother ▸ hlive
  returned := by
    intro other hother
    show other ∈ s.returned ++ [pid]
    obtain hother | hother := List.mem_append.mp hother
    · exact List.mem_append_left _ (h.returned other hother)
    · exact List.mem_append_right _ hother
  waiting := fun other hlt hlive => List.mem_append_left _ (h.waiting other hlt hlive)

/-- A process exits, and has returned. -/
theorem Inv.close (h : Inv s) {pid : Nat} (hlive : t.live = s.live.erase pid)
    (hpid : t.nextPid = s.nextPid) (hchildren : t.children = s.children.erase pid)
    (hreturned : s.returned ⊆ t.returned) (hclosed : pid ∈ t.returned) : Inv t where
  live := by
    rw [hlive]
    exact h.live.erase pid
  lt := by
    rw [hlive, hpid]
    exact fun other hother => h.lt other (List.mem_of_mem_erase hother)
  children := by
    rw [hchildren]
    exact h.children.erase pid
  subset := by
    rw [hchildren, hlive]
    intro other hother
    obtain ⟨hne, hmem⟩ := h.children.mem_erase_iff.mp hother
    exact h.live.mem_erase_iff.mpr ⟨hne, h.subset hmem⟩
  returned := by
    rw [hchildren]
    exact fun other hother => hreturned (h.returned other (List.mem_of_mem_erase hother))
  waiting := by
    rw [hlive, hpid]
    intro other hlt hmem
    by_cases hother : other = pid
    · exact hother ▸ hclosed
    · exact hreturned (h.waiting other hlt fun hlive =>
        hmem ((List.mem_erase_of_ne hother).mpr hlive))

/-- What an event does before `spawnNext` keeps the invariant, and makes no process more. -/
theorem inv_handle {next : Bool} (h : Inv s) (hs : s.handle e = some (t, next)) :
    Inv t ∧ t.processes = s.processes ∧
      t.live.length + t.forks ≤ s.live.length + s.forks := by
  cases e with
  | next =>
    simp only [handle] at hs
    split at hs
    · exact nomatch hs
    · obtain ⟨rfl, -⟩ := Prod.mk.inj (Option.some.inj hs)
      exact ⟨h.congr rfl rfl rfl (List.Subset.refl _), rfl, Nat.le_refl _⟩
  | fork =>
    simp only [handle] at hs
    split at hs
    · exact nomatch hs
    · next hforks =>
      obtain ⟨rfl, -⟩ := Prod.mk.inj (Option.some.inj hs)
      refine ⟨h.spawnSender, rfl, ?_⟩
      show (s.live ++ [_]).length + (s.forks - 1) ≤ s.live.length + s.forks
      rw [List.length_append, List.length_singleton]
      omega
  | message pid startup =>
    simp only [handle] at hs
    split at hs
    · exact nomatch hs
    · next hfirst =>
      have hpid : pid < s.nextPid := Nat.lt_of_not_le fun hle => hfirst (Or.inl hle)
      -- only the `startup` message counts the process
      split at hs
      · split at hs
        · obtain ⟨rfl, -⟩ := Prod.mk.inj (Option.some.inj hs)
          exact ⟨h.congr rfl rfl rfl (List.Subset.refl _), rfl, Nat.le_refl _⟩
        -- it was too slow, and the message is ignored
        · next hreturned =>
          obtain ⟨rfl, -⟩ := Prod.mk.inj (Option.some.inj hs)
          have hsent : Inv ({ s with messages := s.messages ++ [pid] }.clearTimeout pid) :=
            h.congr rfl rfl rfl (List.Subset.refl _)
          exact ⟨hsent.startup hpid hreturned, rfl, Nat.le_refl _⟩
      · obtain ⟨rfl, -⟩ := Prod.mk.inj (Option.some.inj hs)
        exact ⟨h.congr rfl rfl rfl (List.Subset.refl _), rfl, Nat.le_refl _⟩
  | timeout pid =>
    simp only [handle] at hs
    split at hs
    -- a process that did not start up in time returns, and lives on
    · split at hs
      · obtain ⟨rfl, -⟩ := Prod.mk.inj (Option.some.inj hs)
        exact ⟨h.congr rfl rfl rfl (List.Subset.refl _), rfl, Nat.le_refl _⟩
      · obtain ⟨rfl, -⟩ := Prod.mk.inj (Option.some.inj hs)
        exact ⟨h.congr rfl rfl rfl (List.subset_append_left _ _), rfl, Nat.le_refl _⟩
    · exact nomatch hs
  | close pid =>
    simp only [handle] at hs
    split at hs
    · next hlive =>
      have hlength : (s.live.erase pid).length + s.forks ≤ s.live.length + s.forks :=
        Nat.add_le_add_right List.length_erase_le _
      -- an exit before the startup is also the return of the process
      split at hs
      · next hreturned =>
        obtain ⟨rfl, -⟩ := Prod.mk.inj (Option.some.inj hs)
        exact ⟨h.close rfl rfl rfl (List.Subset.refl _) hreturned, rfl, hlength⟩
      · obtain ⟨rfl, -⟩ := Prod.mk.inj (Option.some.inj hs)
        exact ⟨h.close rfl rfl rfl (List.subset_append_left _ _)
          (List.mem_append_right _ (List.mem_singleton_self _)), rfl, hlength⟩
    · exact nomatch hs
  | respawn =>
    simp only [handle] at hs
    split at hs
    · exact nomatch hs
    · obtain ⟨rfl, -⟩ := Prod.mk.inj (Option.some.inj hs)
      unfold spawnSenders
      split <;> exact ⟨h.congr rfl rfl rfl (List.Subset.refl _), rfl, Nat.le_refl _⟩
  | stop =>
    obtain ⟨rfl, -⟩ := Prod.mk.inj (Option.some.inj hs)
    exact ⟨h.congr rfl rfl rfl (List.Subset.refl _), rfl, Nat.le_refl _⟩

/-- A step is an event, and `spawnNext` where it is called. -/
theorem step_cases (hs : s.step e = some s') :
    ∃ t next, s.handle e = some (t, next) ∧ s' = if next then t.spawnNext else t := by
  obtain ⟨⟨t, next⟩, ht, rfl⟩ := Option.map_eq_some_iff.mp hs
  exact ⟨t, next, ht, rfl⟩

theorem Inv.spawnNext (h : Inv s) : Inv s.spawnNext := by
  unfold Spawner.spawnNext
  split
  · exact h
  · split
    · exact h
    · exact h.congr rfl rfl rfl (List.Subset.refl _)

theorem inv_step (h : Inv s) (hs : s.step e = some s') : Inv s' := by
  obtain ⟨t, next, ht, rfl⟩ := step_cases hs
  have hinv := (inv_handle h ht).1
  split
  · exact hinv.spawnNext
  · exact hinv

/-- Decisions that leave room keep the number of processes. -/
theorem fits_step (h : Inv s) (hfits : Fits s) (he : LeavesRoom s e) (hs : s.step e = some s') :
    Fits s' := by
  obtain ⟨t, next, ht, rfl⟩ := step_cases hs
  obtain ⟨hinv, hprocesses, hle⟩ := inv_handle h ht
  have hkept : Fits t := by
    unfold Fits at hfits ⊢
    omega
  -- `spawnNext` forks at most once for an event
  cases next with
  | false => exact hkept
  | true =>
    show Fits t.spawnNext
    unfold Spawner.spawnNext
    split
    · exact hkept
    · next hfew =>
      split
      · exact hkept
      · next hrunning =>
        -- all processes that live, and all forks, are counted in the condition
        have hroom := he t ht (eq_false_of_ne_true hrunning) (Nat.lt_of_not_le hfew)
        have hlength := hinv.length_live
        unfold uncounted at hroom
        show t.live.length + (t.forks + 1) ≤ t.processes
        omega

theorem Fits.within (h : Fits s) : Within s := by
  unfold Fits at h
  unfold Within
  omega

/-- In a run in which every decision to fork leaves room for what it does not count, there are not
    more processes than the configuration has. -/
theorem within_of_along {processes : Nat} {disabled : Bool} {es : List Event}
    (hes : Along step LeavesRoom (start processes disabled) es) :
    Throughout step Within (start processes disabled) es := by
  refine hes.throughout (I := fun s => Inv s ∧ Fits s)
    (fun s e s' h he hs => ⟨inv_step h.1 hs, fits_step h.1 h.2 he hs⟩) (fun s h => h.2.within)
    ⟨inv_start processes disabled, ?_⟩
  unfold Fits start spawnSenders
  split <;> exact Nat.zero_le _

/-- Pending forks that all happen. -/
theorem run_forks (n : Nat) (h : s.forks = n) :
    ∃ s', run step s (List.replicate n .fork) = some s' ∧ s'.processes = s.processes ∧
      s'.live.length = s.live.length + n := by
  induction n generalizing s with
  | zero => exact ⟨s, rfl, rfl, rfl⟩
  | succ n ih =>
    have hfork : s.step .fork = some { s with forks := s.forks - 1 }.spawnSender := by
      simp [step, handle, h]
    obtain ⟨s', hrun, hprocesses, hlength⟩ :=
      ih (s := { s with forks := s.forks - 1 }.spawnSender) (by
        show s.forks - 1 = n
        omega)
    refine ⟨s', ?_, hprocesses, ?_⟩
    · rw [List.replicate_succ, run, hfork]
      exact hrun
    · rw [hlength]
      show (s.live ++ [_]).length + n = _
      rw [List.length_append, List.length_singleton]
      omega

/-- After a decision that leaves no room the forks lead to too many processes. -/
theorem exists_exceeds {processes : Nat} {disabled : Bool} {es : List Event}
    (hrun : run step (start processes disabled) es = some s) (he : ¬LeavesRoom s e)
    (hs : s.step e = some s') :
    ∃ n s'', run step (start processes disabled) (es ++ e :: List.replicate n .fork) = some s'' ∧
      ¬Within s'' := by
  have h : Inv s := ForStd.run_invariant (fun _ _ _ h hs => inv_step h hs)
    (inv_start processes disabled) hrun
  simp only [LeavesRoom, not_forall] at he
  -- `t` is the state in which `spawnNext` decides
  obtain ⟨t, ht, hrunning, hfew, hroom⟩ := he
  have hs' : s' = t.spawnNext := by
    rw [step, ht] at hs
    exact (Option.some.inj hs).symm
  have hforks : t.spawnNext = { t with forks := t.forks + 1 } := by
    rw [Spawner.spawnNext, if_neg (Nat.not_le.mpr hfew), hrunning, if_neg Bool.false_ne_true]
  -- nothing stands between the forks that are pending and the processes
  obtain ⟨s'', hrun', hprocesses, hlength⟩ := run_forks (s := t.spawnNext) (t.forks + 1)
    (by rw [hforks])
  refine ⟨t.forks + 1, s'', ?_, ?_⟩
  · rw [ForStd.run_append, hrun, Option.bind_some, run, hs, Option.bind_some, hs', hrun']
  · have hlive := (inv_handle h ht).1.length_live
    rw [hforks] at hprocesses hlength
    unfold uncounted at hroom
    unfold Within
    show ¬s''.live.length ≤ s''.processes
    rw [hprocesses, hlength]
    show ¬t.live.length + (t.forks + 1) ≤ t.processes
    omega

/-- One process starts up and exits, and another one takes its place. -/
def replaced : List Event :=
  [.next, .fork, .message 0 true, .close 0, .respawn, .next, .fork, .message 1 true]

theorem within_of_along_replaced : Along step LeavesRoom (start 1 false) replaced ∧
    Throughout step Within (start 1 false) replaced := by
  have hes : Along step LeavesRoom (start 1 false) replaced := by decide +kernel
  exact ⟨hes, within_of_along hes⟩

/-- A process exits before its startup: its loop goes on, and another one starts after five seconds,
    while the next process is still starting. -/
theorem exceeds_respawn : ∃ s,
    run step (start 1 false) [.next, .fork, .close 0, .fork, .respawn, .next, .fork] = some s ∧
      s.processes = 1 ∧ s.live = [1, 2] :=
  ⟨_, rfl, rfl, rfl⟩

end Spawner

end ZoneMta
