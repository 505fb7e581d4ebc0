import ZoneMta.ForStd.Mealy
import ZoneMta.Native.SmtpProxy

/-!
# Sockets and receiver processes

The children of an interface are a queue for the sockets: the child that gets a socket goes to the
end, and a new child joins the queue where the selector turns back to the first one.

## Key results

- `inv_step`: what every event keeps of the children, the selector and the calls that wait
- `turns_step`: what an event is for the queue
- `within_processes`, `connection_served`, `count_sends_between`: how many children there are, and
  which of them gets a socket
-/

namespace ZoneMta

namespace SMTPProxy

open ForStd (LiveSet Turn TurnStep Turns exec exec_cons_eq_some exec_concat)

variable {s s' : SMTPProxy} {e : Event} {es : List Event} {out : List Output} {child : Nat}

/-- The children in the order in which they get a socket. -/
def queue (s : SMTPProxy) : List Nat := s.children.queue (s.selector.getD 0)

/-- A socket for the child. -/
def Output.sends (child : Nat) : Output → Bool
  | .send child' _ => child' = child
  | _ => false

/-! ## The invariant -/

/-- The children are told apart by their numbers and are not too many, and where some are missing
    a call of `spawnReceiver` waits. -/
structure Inv (s : SMTPProxy) : Prop where
  nodup : s.children.elems.Nodup
  fresh : ∀ child ∈ s.children.elems, child < s.nextChild
  selector : s.selector.getD 0 ≤ s.children.entries.length
  within : s.children.size ≤ s.processes
  spawning : s.closing = false → s.children.size < s.processes → 0 < s.spawns + s.respawns

theorem Inv.not_mem (h : Inv s) : s.nextChild ∉ s.children.elems :=
  fun hmem => Nat.lt_irrefl _ (h.fresh _ hmem)

/-- What `spawnReceiver` needs: a missing child may have no other call that waits. -/
theorem inv_spawnReceiver (calls : Nat × Nat) (h : Inv s) :
    Inv { s with spawns := calls.1, respawns := calls.2 }.spawnReceiver.1 := by
  unfold spawnReceiver
  dsimp only
  split
  next hle =>
    exact { h with
      spawning := fun _ hlt => absurd hle (Nat.not_le.mpr hlt) }
  next hlt =>
    have helems : (s.children.add s.nextChild).elems = s.children.elems ++ [s.nextChild] :=
      LiveSet.elems_add h.not_mem
    have hsize : (s.children.add s.nextChild).size = s.children.size + 1 := by
      rw [LiveSet.size, helems, List.length_append, List.length_singleton, LiveSet.size]
    refine ⟨?_, fun child hchild => ?_, ?_, ?_, fun _ hless => ?_⟩
    · rw [helems]
      exact h.nodup.append (List.nodup_singleton _) (List.disjoint_singleton.mpr h.not_mem)
    · rw [helems, List.mem_append, List.mem_singleton] at hchild
      rcases hchild with hchild | rfl
      · exact Nat.lt_succ_of_lt (h.fresh child hchild)
      · exact Nat.lt_succ_self _
    · exact h.selector.trans (LiveSet.length_entries_add s.children s.nextChild)
    · rw [hsize]
      exact Nat.not_le.mp hlt
    · dsimp only at hless ⊢
      rw [if_pos hless]
      omega

theorem inv_connection (h : Inv s) (sent : Bool) : Inv (s.connection sent).1 := by
  unfold connection
  split
  · exact h
  · split
    next => exact { h with selector := Nat.zero_le _ }
    next child selector hselect =>
      refine { h with selector := ?_ }
      unfold select at hselect
      split at hselect
      next value hnext =>
        obtain rfl := Option.some.inj hselect
        exact (LiveSet.next_eq_some h.selector hnext).1
      next hnext => exact (LiveSet.next_eq_some (Nat.zero_le _) hselect).1

theorem inv_childClosed (h : Inv s) (child : Nat) : Inv (s.childClosed child) := by
  unfold childClosed
  have helems := LiveSet.elems_delete s.children child
  refine ⟨?_, fun other hother => ?_, ?_, ?_, fun hclosing _ => ?_⟩
  · rw [helems]
    exact h.nodup.filter _
  · rw [helems] at hother
    exact h.fresh other (List.mem_of_mem_filter hother)
  · rw [LiveSet.length_entries_delete]
    exact h.selector
  · rw [LiveSet.size, helems]
    exact (List.length_filter_le _ _).trans h.within
  · dsimp only at hclosing ⊢
    rw [hclosing, if_neg Bool.false_ne_true]
    omega

theorem inv_step (h : Inv s) (hstep : step s e = some (s', out)) : Inv s' := by
  cases e with
  | spawn =>
    rw [step] at hstep
    split at hstep
    · cases hstep
    · obtain rfl : _ = s' := congrArg Prod.fst (Option.some.inj hstep)
      exact inv_spawnReceiver (s.spawns - 1, s.respawns) h
  | respawn =>
    rw [step] at hstep
    split at hstep
    · cases hstep
    · obtain rfl : _ = s' := congrArg Prod.fst (Option.some.inj hstep)
      exact inv_spawnReceiver (s.spawns, s.respawns - 1) h
  | childClosed child =>
    rw [step] at hstep
    split at hstep
    · obtain rfl : _ = s' := congrArg Prod.fst (Option.some.inj hstep)
      exact inv_childClosed h child
    · cases hstep
  | connection sent =>
    obtain rfl : _ = s' := congrArg Prod.fst (Option.some.inj hstep)
    exact inv_connection h sent
  | close =>
    obtain rfl : _ = s' := congrArg Prod.fst (Option.some.inj hstep)
    exact { h with spawning := fun hclosing => by cases hclosing }

theorem inv_start (processes : Nat) : Inv (start processes) := by
  have hempty : ∀ n, Inv { processes := n, spawns := 1 } := by
    intro n
    exact ⟨List.nodup_nil, fun _ h => absurd h List.not_mem_nil, Nat.le_refl _, Nat.zero_le _,
      fun _ _ => Nat.one_pos⟩
  exact inv_spawnReceiver (0, 0) (hempty _)

theorem inv_exec (h : Inv s) (hrun : exec step s es = some (s', out)) : Inv s' := by
  induction es generalizing s out with
  | nil =>
    obtain ⟨rfl, -⟩ := Prod.mk.inj (Option.some.inj hrun)
    exact h
  | cons e es ih =>
    obtain ⟨t, _, _, hstep, hrun, -⟩ := exec_cons_eq_some.mp hrun
    exact ih (inv_step h hstep) hrun

/-! ## The queue -/

/-- What an event is for the queue. -/
def Event.turns : Event → List (Turn Nat)
  | .childClosed child => [.leave child]
  | _ => []

/-- What an output is for the queue. -/
def Output.turn : Output → Option (Turn Nat)
  | .fork child => some (.join child)
  | .send child _ => some (.serve child)
  | .socketEnd _ => none

/-- What an event with its output is for the queue. -/
def turns (e : Event) (out : List Output) : List (Turn Nat) :=
  e.turns ++ out.filterMap Output.turn

theorem turns_spawnReceiver (calls : Nat × Nat) {t : SMTPProxy} (h : Inv s)
    (hcalls : { s with spawns := calls.1, respawns := calls.2 }.spawnReceiver = (t, out)) :
    Turns s.queue (turns .spawn out) t.queue := by
  unfold spawnReceiver at hcalls
  dsimp only at hcalls
  split at hcalls
  · obtain ⟨rfl, rfl⟩ := Prod.mk.inj hcalls
    exact .nil _
  · obtain ⟨rfl, rfl⟩ := Prod.mk.inj hcalls
    exact .cons (LiveSet.turnStep_add h.selector h.not_mem) (.nil _)

/-- The selector at its end, or one that is not at its end, serves the first child. -/
theorem turnStep_select (h : Inv s) {selector : Nat} (hselect : s.select = some (child, selector)) :
    TurnStep s.queue (.serve child) (s.children.queue selector) := by
  unfold select at hselect
  split at hselect
  next value hnext =>
    obtain rfl := Option.some.inj hselect
    exact LiveSet.turnStep_next h.selector hnext
  next hnext =>
    rw [queue, LiveSet.queue_of_ahead_eq_nil (LiveSet.next_eq_none_iff.mp hnext)]
    exact LiveSet.turnStep_next (Nat.zero_le _) hselect

/-- A socket goes to the first child of the queue, if there is one. -/
theorem connection_eq (h : Inv s) (sent : Bool) :
    (s.children.elems = [] ∧
      s.connection sent = (s, [.socketEnd "421 No free process to handle connection"])) ∨
    ∃ child selector, s.select = some (child, selector) ∧ child ∈ s.children.elems ∧
      s.connection sent = ({ s with selector := some selector },
        .send child sent ::
          if sent then [] else [.socketEnd "421 Failed to assign connection to child process"]) := by
  unfold connection
  split
  next hsize => exact Or.inl ⟨List.eq_nil_of_length_eq_zero hsize, rfl⟩
  next hsize =>
    refine Or.inr ?_
    cases hselect : s.select with
    | some value =>
      obtain ⟨child, selector⟩ := value
      refine ⟨child, selector, rfl, ?_, rfl⟩
      obtain ⟨r, hr, -⟩ := (turnStep_select h hselect).eq_of_serve
      have hmem : child ∈ s.queue := hr ▸ List.mem_cons_self
      exact LiveSet.mem_queue.mp hmem
    | none =>
      -- a new selector has seen nothing
      unfold select at hselect
      split at hselect
      · cases hselect
      · rw [LiveSet.next_eq_none_iff] at hselect
        exact absurd (congrArg List.length hselect) hsize

theorem turns_step (h : Inv s) (hstep : step s e = some (s', out)) :
    Turns s.queue (turns e out) s'.queue := by
  cases e with
  | spawn =>
    rw [step] at hstep
    split at hstep
    · cases hstep
    · exact turns_spawnReceiver (s.spawns - 1, s.respawns) h (Option.some.inj hstep)
  | respawn =>
    rw [step] at hstep
    split at hstep
    · cases hstep
    · exact turns_spawnReceiver (s.spawns, s.respawns - 1) h (Option.some.inj hstep)
  | childClosed child =>
    rw [step] at hstep
    split at hstep
    · obtain ⟨rfl, rfl⟩ := Prod.mk.inj (Option.some.inj hstep)
      exact .cons (LiveSet.turnStep_delete h.nodup child) (.nil _)
    · cases hstep
  | connection sent =>
    rcases connection_eq h sent with ⟨-, heq⟩ | ⟨child, selector, hselect, -, heq⟩
    · obtain ⟨rfl, rfl⟩ := Prod.mk.inj (heq.symm.trans (Option.some.inj hstep))
      exact .nil _
    · obtain ⟨rfl, rfl⟩ := Prod.mk.inj (heq.symm.trans (Option.some.inj hstep))
      cases sent <;> exact .cons (turnStep_select h hselect) (.nil _)
  | close =>
    obtain ⟨rfl, rfl⟩ := Prod.mk.inj (Option.some.inj hstep)
    exact .nil _

theorem count_turns (e : Event) (out : List Output) (child : Nat) :
    (turns e out).count (.serve child) = out.countP (Output.sends child) := by
  have hevent : e.turns.count (.serve child) = 0 := by cases e <;> rfl
  rw [turns, List.count_append, hevent, Nat.zero_add]
  induction out with
  | nil => rfl
  | cons o out ih =>
    cases o with
    | fork other => simpa [Output.turn, Output.sends] using ih
    | send other _ =>
      by_cases hother : other = child
      · simpa [Output.turn, Output.sends, hother] using ih
      · simpa [Output.turn, Output.sends, hother] using ih
    | socketEnd _ =>
      rw [List.filterMap_cons_none rfl, List.countP_cons_of_neg Bool.false_ne_true]
      exact ih

theorem leave_mem_turns : Turn.leave child ∈ turns e out ↔ .childClosed child = e := by
  rw [turns, List.mem_append, List.mem_filterMap]
  constructor
  · rintro (hmem | ⟨o, -, ho⟩)
    · cases e with
      | childClosed other => rw [Turn.leave.inj (List.mem_singleton.mp hmem)]
      | _ => cases hmem
    · cases o <;> cases ho
  · rintro rfl
    exact Or.inl (List.mem_singleton.mpr rfl)

/-- The turns of a run. -/
theorem turns_exec (h : Inv s) (hrun : exec step s es = some (s', out)) :
    ∃ ts, Turns s.queue ts s'.queue ∧
      (∀ child, ts.count (.serve child) = out.countP (Output.sends child)) ∧
      ∀ child, Turn.leave child ∈ ts ↔ .childClosed child ∈ es := by
  induction es generalizing s out with
  | nil =>
    obtain ⟨rfl, rfl⟩ := Prod.mk.inj (Option.some.inj hrun)
    exact ⟨[], .nil _, fun _ => rfl, fun _ => by simp⟩
  | cons e es ih =>
    obtain ⟨t, o, os, hstep, hrest, rfl⟩ := exec_cons_eq_some.mp hrun
    obtain ⟨ts, hts, hcount, hleave⟩ := ih (inv_step h hstep) hrest
    refine ⟨turns e o ++ ts, (turns_step h hstep).append hts, fun child => ?_, fun child => ?_⟩
    · rw [List.count_append, List.countP_append, count_turns, hcount]
    · rw [List.mem_append, leave_mem_turns, hleave, List.mem_cons]

/-! ## Children that have ended -/

/-- A child that has ended does not come back. -/
theorem ended_step (h : Inv s) (hstep : step s e = some (s', out)) :
    s.nextChild ≤ s'.nextChild ∧
      ∀ child ∈ s'.children.elems, child ∈ s.children.elems ∨ s.nextChild ≤ child := by
  have hspawn (calls : Nat × Nat) (t : SMTPProxy)
      (hcalls : { s with spawns := calls.1, respawns := calls.2 }.spawnReceiver = (t, out)) :
      s.nextChild ≤ t.nextChild ∧
        ∀ child ∈ t.children.elems, child ∈ s.children.elems ∨ s.nextChild ≤ child := by
    unfold spawnReceiver at hcalls
    dsimp only at hcalls
    split at hcalls
    · obtain ⟨rfl, -⟩ := Prod.mk.inj hcalls
      exact ⟨Nat.le_refl _, fun _ hchild => Or.inl hchild⟩
    · obtain ⟨rfl, -⟩ := Prod.mk.inj hcalls
      refine ⟨Nat.le_succ _, fun child hchild => ?_⟩
      dsimp only at hchild
      rw [LiveSet.elems_add h.not_mem, List.mem_append, List.mem_singleton] at hchild
      exact hchild.imp_right fun heq => Nat.le_of_eq heq.symm
  cases e with
  | spawn =>
    rw [step] at hstep
    split at hstep
    · cases hstep
    · exact hspawn (s.spawns - 1, s.respawns) s' (Option.some.inj hstep)
  | respawn =>
    rw [step] at hstep
    split at hstep
    · cases hstep
    · exact hspawn (s.spawns, s.respawns - 1) s' (Option.some.inj hstep)
  | childClosed child =>
    rw [step] at hstep
    split at hstep
    · obtain ⟨rfl, -⟩ := Prod.mk.inj (Option.some.inj hstep)
      refine ⟨Nat.le_refl _, fun other hother => Or.inl ?_⟩
      rw [childClosed, LiveSet.elems_delete] at hother
      exact List.mem_of_mem_filter hother
    · cases hstep
  | connection sent =>
    rcases connection_eq h sent with ⟨-, heq⟩ | ⟨child, selector, -, -, heq⟩
    · obtain ⟨rfl, -⟩ := Prod.mk.inj (heq.symm.trans (Option.some.inj hstep))
      exact ⟨Nat.le_refl _, fun _ hchild => Or.inl hchild⟩
    · obtain ⟨rfl, -⟩ := Prod.mk.inj (heq.symm.trans (Option.some.inj hstep))
      exact ⟨Nat.le_refl _, fun _ hchild => Or.inl hchild⟩
  | close =>
    obtain ⟨rfl, -⟩ := Prod.mk.inj (Option.some.inj hstep)
    exact ⟨Nat.le_refl _, fun _ hchild => Or.inl hchild⟩

/-- A child that is there before and behind a run has not ended in it. -/
theorem childClosed_not_mem (h : Inv s) (hrun : exec step s es = some (s', out))
    (hlt : child < s.nextChild) (hmem : child ∈ s'.children.elems) :
    child ∈ s.children.elems ∧ .childClosed child ∉ es := by
  induction es generalizing s out with
  | nil =>
    obtain ⟨rfl, -⟩ := Prod.mk.inj (Option.some.inj hrun)
    exact ⟨hmem, List.not_mem_nil⟩
  | cons e es ih =>
    obtain ⟨t, o, os, hstep, hrest, -⟩ := exec_cons_eq_some.mp hrun
    obtain ⟨hle, hback⟩ := ended_step h hstep
    obtain ⟨hthere, hes⟩ := ih (inv_step h hstep) hrest (Nat.lt_of_lt_of_le hlt hle)
    refine ⟨(hback child hthere).resolve_right (Nat.not_le.mpr hlt), ?_⟩
    rw [List.mem_cons, not_or]
    refine ⟨?_, hes⟩
    rintro rfl
    rw [step] at hstep
    split at hstep
    · obtain ⟨rfl, -⟩ := Prod.mk.inj (Option.some.inj hstep)
      rw [childClosed, LiveSet.elems_delete, List.mem_filter] at hthere
      simp at hthere
    · cases hstep

/-! ## Runs -/

/-- There are never more children than processes, and when no call of `spawnReceiver` waits there
    are exactly as many, unless the proxy is closing. -/
theorem within_processes {processes : Nat} (hrun : exec step (start processes) es = some (s, out)) :
    s.children.size ≤ s.processes ∧
      (s.closing = false → s.spawns = 0 → s.respawns = 0 → s.children.size = s.processes) := by
  have h := inv_exec (inv_start processes) hrun
  refine ⟨h.within, fun hclosing hspawns hrespawns => ?_⟩
  by_contra hne
  have hwaits := h.spawning hclosing (Nat.lt_of_le_of_ne h.within hne)
  omega

/-- Three processes, and what happens to them from the first one on. -/
def threeProcesses (es : List Event) : SMTPProxy :=
  ((exec step (start 3) es).map Prod.fst).getD (start 3)

theorem within_processes_example :
    (threeProcesses [.spawn, .spawn]).children.size ≤ 3 ∧
      ((threeProcesses [.spawn, .spawn]).closing = false →
        (threeProcesses [.spawn, .spawn]).spawns = 0 →
          (threeProcesses [.spawn, .spawn]).respawns = 0 →
            (threeProcesses [.spawn, .spawn]).children.size = 3) :=
  within_processes (by decide : exec step (start 3) [.spawn, .spawn] =
    some (threeProcesses [.spawn, .spawn], [.fork 1, .fork 2]))

/-- Between two sockets of a child every other child that is there all the time gets one. -/
theorem count_sends_between {processes : Nat} {before between : List Event} {s₁ s₂ s₃ : SMTPProxy}
    {o o₁ o₃ : List Output} {child other : Nat} {sent sent' : Bool}
    (hrun : exec step (start processes) before = some (s, o))
    (hfirst : step s (.connection sent) = some (s₁, .send child sent :: o₁))
    (hbetween : exec step s₁ between = some (s₂, out))
    (hlast : step s₂ (.connection sent') = some (s₃, .send child sent' :: o₃))
    (hnone : ∀ b, .send child b ∉ out) (hne : other ≠ child)
    (hthere : other ∈ s₁.children.elems) (hstays : other ∈ s₂.children.elems) :
    out.countP (Output.sends other) = 1 := by
  have h := inv_exec (inv_start processes) hrun
  have h₁ := inv_step h hfirst
  have h₂ := inv_exec h₁ hbetween
  obtain ⟨ts, hts, hcount, hleave⟩ := turns_exec h₁ hbetween
  -- the child is the first one of the queue before both sockets
  have hserve {t t' : SMTPProxy} {b : Bool} {o : List Output} (ht : Inv t)
      (hstep : step t (.connection b) = some (t', .send child b :: o)) :
      t'.children = t.children ∧ child ∈ t.children.elems ∧
        TurnStep t.queue (.serve child) t'.queue := by
    rcases connection_eq ht b with ⟨-, heq⟩ | ⟨first, selector, hselect, hmem, heq⟩
    · cases (Prod.mk.inj (heq.symm.trans (Option.some.inj hstep))).2
    · obtain ⟨rfl, hout⟩ := Prod.mk.inj (heq.symm.trans (Option.some.inj hstep))
      obtain ⟨rfl, -⟩ := Output.send.inj (List.cons.inj hout).1
      exact ⟨rfl, hmem, turnStep_select ht hselect⟩
  obtain ⟨hsame, hchild, hturn⟩ := hserve h hfirst
  obtain ⟨-, hchild₂, hturn₂⟩ := hserve h₂ hlast
  obtain ⟨l₁, hqueue, -⟩ := id hturn.eq_of_serve
  obtain ⟨l₂, hqueue₂, -⟩ := hturn₂.eq_of_serve
  have hturns : Turns (child :: l₁) (.serve child :: ts) (child :: l₂) := by
    rw [← hqueue, ← hqueue₂]
    exact .cons hturn hts
  have hnodup : (child :: l₁).Nodup := by
    rw [← hqueue]
    exact (LiveSet.queue_perm _ _).nodup_iff.mpr h.nodup
  have hother : other ∈ l₁ := by
    have hmem : other ∈ s.queue := LiveSet.mem_queue.mpr (hsame ▸ hthere)
    rw [hqueue, List.mem_cons] at hmem
    exact hmem.resolve_left hne
  rw [← hcount]
  refine hturns.count_serve hnodup hother (fun hmem => ?_) ?_ ?_
  · -- the child would have got a socket
    have hpos := List.count_pos_iff.mpr hmem
    rw [hcount, List.countP_pos_iff] at hpos
    obtain ⟨output, hout, hsends⟩ := hpos
    cases output with
    | send first b =>
      obtain rfl := of_decide_eq_true hsends
      exact hnone b hout
    | _ => cases hsends
  · rw [hleave]
    exact (childClosed_not_mem h₁ hbetween (h₁.fresh other hthere) hstays).2
  · rw [hleave]
    exact (childClosed_not_mem h₁ hbetween (h₁.fresh child (hsame ▸ hchild)) hchild₂).2

/-- The events between two sockets of the first child: a child ends, and another one is started. -/
def betweenSockets : List Event := [.childClosed 2, .connection true, .respawn, .connection true]

theorem count_sends_between_example :
    [Output.send 1 true, .fork 3, .send 3 true].countP (Output.sends 1) = 1 :=
  count_sends_between
    (by decide : exec step (start 3) [.spawn, .spawn] =
      some (threeProcesses [.spawn, .spawn], [.fork 1, .fork 2]))
    (by decide : step (threeProcesses [.spawn, .spawn]) (.connection true) =
      some (threeProcesses [.spawn, .spawn, .connection true], [.send 0 true]))
    (by decide : exec step (threeProcesses [.spawn, .spawn, .connection true]) betweenSockets =
      some (threeProcesses ([.spawn, .spawn, .connection true] ++ betweenSockets),
        [.send 1 true, .fork 3, .send 3 true]))
    (by decide : step (threeProcesses ([.spawn, .spawn, .connection true] ++ betweenSockets))
        (.connection true) =
      some (threeProcesses
        ([.spawn, .spawn, .connection true] ++ betweenSockets ++ [.connection true]),
        [.send 0 true]))
    (by decide) (by decide) (by decide) (by decide)

end SMTPProxy

end ZoneMta
