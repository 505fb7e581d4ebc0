import ZoneMta.ForStd.Transition
import ZoneMta.Native.SendCommand

/-!
# Callbacks of commands

The number of a command is in the table of callbacks until its first answer arrives, and nowhere
else; what the server answers then finds no callback. So the answers that have arrived determine
which callbacks are called, and with what: each one with the first answer to its command.

## Key results

- `inv_step`: what every event keeps of the numbers, the messages and the callbacks
- `called_of_answer`, `called_iff_answered`: the callbacks that were called in a run
-/

namespace ZoneMta

namespace QueueClient

open ForStd (run run_history along_of_forall)

variable {γ ρ : Type} {s s' : QueueClient γ ρ} {e : Event γ ρ} {es : List (Event γ ρ)}

/-- The commands of a run, in their order. -/
def commands (es : List (Event γ ρ)) : List γ :=
  es.filterMap fun
    | .sendCommand cmd => some cmd
    | _ => none

/-- The answers of a run, in their order. -/
def answers (es : List (Event γ ρ)) : List (ServerAnswer ρ) :=
  es.filterMap fun
    | .answer data => some data
    | _ => none

/-- The arguments of the callback of a command, given the answers: the first one decides. -/
def firstResult (answers : List (ServerAnswer ρ)) (callback : Nat) : Option (CallbackResult ρ) :=
  (answers.find? fun data => data.req = callback + 1).map ServerAnswer.result

theorem firstResult_concat (l : List (ServerAnswer ρ)) (data : ServerAnswer ρ) (callback : Nat) :
    firstResult (l ++ [data]) callback =
      (firstResult l callback).or (if data.req = callback + 1 then some data.result else none) := by
  rw [firstResult, List.find?_append, firstResult]
  cases l.find? fun data => data.req = callback + 1 with
  | some first => rfl
  | none =>
    by_cases hreq : data.req = callback + 1
    · simp [hreq]
    · simp [hreq]

/-- The callbacks that were taken out of the table, and their arguments. -/
def taken (s : QueueClient γ ρ) : List (Nat × CallbackResult ρ) := s.called ++ s.scheduled

/-! ## The invariant -/

/-- A command has the number behind that of its call. `arrived` has the answers that have
    arrived. -/
structure Inv (es : List (Event γ ρ)) (arrived : List (ServerAnswer ρ)) (s : QueueClient γ ρ) : Prop where
  cmdId : s.cmdId = (commands es).length
  calls : s.calls = (commands es).length
  requests : ∀ r ∈ s.received ++ s.toServer, ∃ n, r.1 = n + 1 ∧ (commands es)[n]? = some r.2
  answered : ∀ data ∈ answers es, data.req ∈ s.received.map Prod.fst
  messages : answers es = arrived ++ s.toClient
  handlers : ∀ id callback, s.responseHandlers.lookup id = some callback ↔
    id = callback + 1 ∧ callback < s.calls ∧ firstResult arrived callback = none
  taken : ∀ callback result, (callback, result) ∈ s.taken ↔
    firstResult arrived callback = some result
  nodup : (s.taken.map Prod.fst).Nodup

theorem commands_concat (es : List (Event γ ρ)) (e : Event γ ρ) :
    commands (es ++ [e]) = commands es ++ commands [e] := List.filterMap_append

theorem answers_concat (es : List (Event γ ρ)) (e : Event γ ρ) :
    answers (es ++ [e]) = answers es ++ answers [e] := List.filterMap_append

variable {arrived : List (ServerAnswer ρ)}

theorem Inv.lt_of_answer (h : Inv es arrived s) {data : ServerAnswer ρ} (hdata : data ∈ answers es) :
    ∃ callback, data.req = callback + 1 ∧ callback < s.calls := by
  obtain ⟨r, hr, heq⟩ := List.mem_map.mp (h.answered data hdata)
  obtain ⟨n, hn, hcmd⟩ := h.requests r (List.mem_append_left _ hr)
  refine ⟨n, heq.symm.trans hn, ?_⟩
  rw [h.calls]
  exact (List.getElem?_eq_some_iff.mp hcmd).1

/-- The call of a command takes a number that nobody has. -/
theorem inv_sendCommand (h : Inv es arrived s) (cmd : γ) (hlt : (commands es).length < 2 ^ 53) :
    Inv (es ++ [.sendCommand cmd]) arrived (s.sendCommand cmd) := by
  have hid : nextId s.cmdId = s.calls + 1 := by
    rw [nextId, h.cmdId, if_pos hlt, h.calls]
  have hcommands : commands (es ++ [.sendCommand cmd]) = commands es ++ [cmd] :=
    commands_concat es _
  have hanswers : answers (es ++ [.sendCommand cmd]) = answers es :=
    (answers_concat es _).trans (List.append_nil _)
  -- no answer has the new number
  have hnew : firstResult arrived s.calls = none := by
    rw [firstResult, Option.map_eq_none_iff, List.find?_eq_none]
    intro data hdata hreq
    have hmem : data ∈ answers es := h.messages ▸ List.mem_append_left _ hdata
    obtain ⟨callback, heq, hless⟩ := h.lt_of_answer hmem
    have hreq := of_decide_eq_true hreq
    omega
  unfold sendCommand
  dsimp only
  rw [hid]
  refine ⟨?_, ?_, fun r hr => ?_, ?_, ?_, fun id callback => ?_, h.taken, h.nodup⟩
  · rw [hcommands, h.calls, List.length_append, List.length_singleton]
  · rw [hcommands, h.calls, List.length_append, List.length_singleton]
  · rw [← List.append_assoc, List.mem_append, List.mem_singleton] at hr
    rw [hcommands]
    rcases hr with hr | rfl
    · obtain ⟨n, hn, hcmd⟩ := h.requests r hr
      exact ⟨n, hn, List.getElem?_append_left (List.getElem?_eq_some_iff.mp hcmd).1 ▸ hcmd⟩
    · exact ⟨s.calls, rfl, by rw [h.calls, List.getElem?_concat_length]⟩
  · rw [hanswers]
    exact h.answered
  · rw [hanswers]
    exact h.messages
  · rw [ForStd.lookup_insert]
    split
    next heq =>
      rw [heq]
      constructor
      · intro hcallback
        obtain rfl := Option.some.inj hcallback
        exact ⟨rfl, Nat.lt_succ_self _, hnew⟩
      · rintro ⟨hcallback, -, -⟩
        rw [Nat.succ.inj hcallback]
    next hne =>
      rw [h.handlers]
      constructor
      · rintro ⟨heq, hless, hnone⟩
        exact ⟨heq, Nat.lt_succ_of_lt hless, hnone⟩
      · rintro ⟨heq, hless, hnone⟩
        have hlast : callback ≠ s.calls := fun hcallback => hne (heq.trans (by rw [hcallback]))
        exact ⟨heq, Nat.lt_of_le_of_ne (Nat.le_of_lt_succ hless) hlast, hnone⟩

/-- The first answer to a command takes its callback, and every other one finds none. -/
theorem inv_onData {data : ServerAnswer ρ} {rest : List (ServerAnswer ρ)} (h : Inv es arrived s)
    (hclient : s.toClient = data :: rest) :
    Inv (es ++ [.onData]) (arrived ++ [data]) ({ s with toClient := rest }.onData data) := by
  have hcommands : commands (es ++ [.onData]) = commands es :=
    (commands_concat es _).trans (List.append_nil _)
  have hanswers : answers (es ++ [.onData]) = answers es :=
    (answers_concat es _).trans (List.append_nil _)
  have harrived : answers es = (arrived ++ [data]) ++ rest := by
    rw [h.messages, hclient, List.append_cons]
  have hmem : data ∈ answers es := by
    rw [harrived]
    exact List.mem_append_left _ (List.mem_append_right _ List.mem_cons_self)
  obtain ⟨n, hn, hless⟩ := h.lt_of_answer hmem
  -- what the answer changes for the callbacks
  have hfirst (callback : Nat) : firstResult (arrived ++ [data]) callback =
      (firstResult arrived callback).or (if n = callback then some data.result else none) := by
    rw [firstResult_concat, hn]
    simp only [Nat.add_right_cancel_iff]
  unfold onData
  dsimp only
  split
  next callback hlookup =>
    obtain ⟨heq, -, hnone⟩ := (h.handlers data.req callback).mp hlookup
    obtain rfl : n = callback := Nat.succ.inj (hn.symm.trans heq)
    refine ⟨hcommands ▸ h.cmdId, hcommands ▸ h.calls, hcommands ▸ h.requests,
      hanswers ▸ h.answered, hanswers ▸ harrived, fun id callback => ?_, fun callback result => ?_,
      ?_⟩
    · rw [ForStd.lookup_erase, hfirst]
      split
      next hid =>
        refine iff_of_false (Option.some_ne_none _).symm ?_
        rintro ⟨hcallback, -, hfalse⟩
        obtain rfl : n = callback := Nat.succ.inj (hn.symm.trans (hid.symm.trans hcallback))
        rw [hnone, if_pos rfl] at hfalse
        exact Option.some_ne_none _ hfalse
      next hid =>
        rw [h.handlers]
        refine and_congr_right fun hcallback => and_congr_right fun _ => ?_
        have hother : n ≠ callback := by
          rintro rfl
          exact hid (hcallback.trans hn.symm)
        rw [if_neg hother, Option.or_none]
    · have happ : taken { s with
          toClient := rest
          responseHandlers := s.responseHandlers.erase data.req
          scheduled := s.scheduled ++ [(n, data.result)] } = s.taken ++ [(n, data.result)] :=
        (List.append_assoc _ _ _).symm
      rw [happ, List.mem_append, h.taken, List.mem_singleton, hfirst]
      by_cases hcallback : n = callback
      · subst hcallback
        simp [hnone, eq_comm]
      · rw [if_neg hcallback, Option.or_none]
        refine or_iff_left fun hpair => hcallback (Prod.mk.inj hpair).1.symm
    · have happ : taken { s with
          toClient := rest
          responseHandlers := s.responseHandlers.erase data.req
          scheduled := s.scheduled ++ [(n, data.result)] } = s.taken ++ [(n, data.result)] :=
        (List.append_assoc _ _ _).symm
      rw [happ, List.map_append]
      refine h.nodup.append (List.nodup_singleton _) (List.disjoint_singleton.mpr fun hn => ?_)
      obtain ⟨⟨callback, result⟩, hpair, rfl⟩ := List.mem_map.mp hn
      rw [(h.taken _ _).mp hpair] at hnone
      exact Option.some_ne_none _ hnone
  next hlookup =>
    -- the callback was taken by an earlier answer
    have hearlier : firstResult arrived n ≠ none := by
      intro hnone
      have hsome := (h.handlers data.req n).mpr ⟨hn, hless, hnone⟩
      rw [hlookup] at hsome
      exact Option.some_ne_none _ hsome.symm
    have hsame (callback : Nat) :
        firstResult (arrived ++ [data]) callback = firstResult arrived callback := by
      rw [hfirst]
      cases hfound : firstResult arrived callback with
      | some result => rfl
      | none =>
        have hne : n ≠ callback := by
          rintro rfl
          exact hearlier hfound
        rw [if_neg hne]
        rfl
    refine ⟨hcommands ▸ h.cmdId, hcommands ▸ h.calls, hcommands ▸ h.requests,
      hanswers ▸ h.answered, hanswers ▸ harrived, fun id callback => ?_, fun callback result => ?_,
      h.nodup⟩
    · rw [hsame]
      exact h.handlers id callback
    · rw [hsame]
      exact h.taken callback result

/-- Every event keeps the invariant, while there are fewer commands than numbers. -/
theorem inv_step (h : Inv es arrived s) (hstep : step s e = some s')
    (hle : (commands (es ++ [e])).length ≤ 2 ^ 53) : ∃ arrived', Inv (es ++ [e]) arrived' s' := by
  have hsame (hcommands : commands [e] = []) : commands (es ++ [e]) = commands es := by
    rw [commands_concat, hcommands, List.append_nil]
  have hno (hanswers : answers [e] = []) : answers (es ++ [e]) = answers es := by
    rw [answers_concat, hanswers, List.append_nil]
  cases e with
  | sendCommand cmd =>
    rw [step] at hstep
    split at hstep
    · cases hstep
    · obtain rfl := Option.some.inj hstep
      refine ⟨arrived, inv_sendCommand h cmd ?_⟩
      rw [commands_concat, List.length_append] at hle
      exact hle
  | receive =>
    rw [step] at hstep
    split at hstep
    · cases hstep
    next request rest hserver =>
      obtain rfl := Option.some.inj hstep
      refine ⟨arrived, { h with
        cmdId := hsame rfl ▸ h.cmdId
        calls := hsame rfl ▸ h.calls
        requests := fun r hr => ?_
        answered := fun data hdata => ?_
        messages := hno rfl ▸ h.messages }⟩
      · rw [hsame rfl]
        refine h.requests r ?_
        rw [hserver]
        rwa [List.append_assoc] at hr
      · rw [hno rfl] at hdata
        rw [List.map_append]
        exact List.mem_append_left _ (h.answered data hdata)
  | answer data =>
    rw [step] at hstep
    split at hstep
    next hreceived =>
      obtain rfl := Option.some.inj hstep
      have hanswers : answers (es ++ [.answer data]) = answers es ++ [data] := answers_concat es _
      refine ⟨arrived, { h with
        cmdId := hsame rfl ▸ h.cmdId
        calls := hsame rfl ▸ h.calls
        requests := hsame rfl ▸ h.requests
        answered := fun other hother => ?_
        messages := ?_ }⟩
      · rw [hanswers, List.mem_append, List.mem_singleton] at hother
        rcases hother with hother | rfl
        · exact h.answered other hother
        · exact hreceived
      · rw [hanswers, h.messages, List.append_assoc]
    · cases hstep
  | onData =>
    rw [step] at hstep
    split at hstep
    · cases hstep
    next data rest hclient =>
      split at hstep
      · cases hstep
      · obtain rfl := Option.some.inj hstep
        exact ⟨arrived ++ [data], inv_onData h hclient⟩
  | callback =>
    rw [step] at hstep
    split at hstep
    · cases hstep
    next call rest hscheduled =>
      split at hstep
      · cases hstep
      · obtain rfl := Option.some.inj hstep
        have htaken : taken { s with scheduled := rest, called := s.called ++ [call] } = s.taken := by
          rw [taken, taken, hscheduled]
          exact (List.append_cons _ _ _).symm
        exact ⟨arrived, { h with
          cmdId := hsame rfl ▸ h.cmdId
          calls := hsame rfl ▸ h.calls
          requests := hsame rfl ▸ h.requests
          answered := hno rfl ▸ h.answered
          messages := hno rfl ▸ h.messages
          taken := htaken ▸ h.taken
          nodup := htaken ▸ h.nodup }⟩
  | close =>
    obtain rfl := Option.some.inj hstep
    exact ⟨arrived, { h with
      cmdId := hsame rfl ▸ h.cmdId
      calls := hsame rfl ▸ h.calls
      requests := hsame rfl ▸ h.requests
      answered := hno rfl ▸ h.answered
      messages := hno rfl ▸ h.messages }⟩

theorem inv_empty : Inv ([] : List (Event γ ρ)) [] {} where
  cmdId := rfl
  calls := rfl
  requests := fun _ h => absurd h List.not_mem_nil
  answered := fun _ h => absurd h List.not_mem_nil
  messages := rfl
  handlers := fun id callback => by
    refine iff_of_false (Option.some_ne_none _).symm ?_
    rintro ⟨-, h, -⟩
    exact Nat.not_lt_zero _ h
  taken := fun _ _ => iff_of_false List.not_mem_nil (Option.some_ne_none _).symm
  nodup := List.nodup_nil

/-- The invariant holds in every run with fewer commands than numbers. -/
theorem inv_run (hle : (commands es).length ≤ 2 ^ 53) (hrun : run step {} es = some s) :
    ∃ arrived, Inv es arrived s := by
  have hall := run_history (p := fun _ _ => True)
    (I := fun _ es s => (commands es).length ≤ 2 ^ 53 → ∃ arrived, Inv es arrived s)
    (fun _ => ⟨[], inv_empty⟩) (fun _ es s e s' ih hstep hle => ?_) hrun
  · exact hall hle
  · rw [commands_concat, List.length_append] at hle
    obtain ⟨arrived, h⟩ := ih (Nat.le_of_add_right_le hle)
    refine inv_step h hstep ?_
    rwa [commands_concat, List.length_append]

/-! ## Runs -/

/-- No callback is called twice, and one that is called belongs to a command that the server has
    read, and gets its first answer. -/
theorem called_of_answer (hle : (commands es).length ≤ 2 ^ 53) (hrun : run step {} es = some s) :
    (s.called.map Prod.fst).Nodup ∧
      ∀ callback result, (callback, result) ∈ s.called →
        firstResult (answers es) callback = some result ∧
          ∃ cmd, (commands es)[callback]? = some cmd ∧ (callback + 1, cmd) ∈ s.received := by
  obtain ⟨arrived, h⟩ := inv_run hle hrun
  refine ⟨?_, fun callback result hcalled => ?_⟩
  · have hnodup := h.nodup
    rw [taken, List.map_append] at hnodup
    exact hnodup.of_append_left
  · have hfirst := (h.taken callback result).mp (List.mem_append_left _ hcalled)
    obtain ⟨data, hdata, hresult⟩ := Option.map_eq_some_iff.mp hfirst
    have hall : firstResult (answers es) callback = some result := by
      rw [firstResult, h.messages, List.find?_append, hdata]
      exact congrArg some hresult
    have hmem : data ∈ answers es :=
      h.messages ▸ List.mem_append_left _ (List.mem_of_find?_eq_some hdata)
    have hreq : data.req = callback + 1 := by simpa using List.find?_some hdata
    obtain ⟨⟨req, cmd⟩, hr, heq⟩ := List.mem_map.mp (h.answered data hmem)
    obtain ⟨n, hn, hcmd⟩ := h.requests _ (List.mem_append_left _ hr)
    obtain rfl : n = callback := Nat.succ.inj (hn.symm.trans (heq.trans hreq))
    exact ⟨hall, cmd, hcmd, hn ▸ hr⟩

/-- When no answer is under way and no callback waits, exactly the callbacks of the commands that
    were answered have been called, with the first answers. -/
theorem called_iff_answered (hle : (commands es).length ≤ 2 ^ 53) (hrun : run step {} es = some s)
    (hclient : s.toClient = []) (hscheduled : s.scheduled = []) (callback : Nat)
    (result : CallbackResult ρ) :
    (callback, result) ∈ s.called ↔ firstResult (answers es) callback = some result := by
  obtain ⟨arrived, h⟩ := inv_run hle hrun
  rw [h.messages, hclient, List.append_nil, ← h.taken, taken, hscheduled, List.append_nil]

/-- Two commands whose answers come in the other order, the second one twice. -/
def twoCommands : List (Event String String) :=
  [.sendCommand "GET", .sendCommand "RELEASE", .receive, .receive, .answer ⟨2, "", "done"⟩,
    .answer ⟨1, "locked", ""⟩, .answer ⟨2, "", "again"⟩, .onData, .onData, .onData, .callback,
    .callback]

/-- The process behind the two commands. -/
def afterTwoCommands : QueueClient String String := (run step {} twoCommands).getD {}

theorem called_of_answer_example :
    (afterTwoCommands.called.map Prod.fst).Nodup ∧
      ∀ callback result, (callback, result) ∈ afterTwoCommands.called →
        firstResult (answers twoCommands) callback = some result ∧
          ∃ cmd, (commands twoCommands)[callback]? = some cmd ∧
            (callback + 1, cmd) ∈ afterTwoCommands.received :=
  called_of_answer (by decide) (rfl : run step {} twoCommands = some afterTwoCommands)

theorem called_iff_answered_example :
    (1, CallbackResult.response "done") ∈ afterTwoCommands.called ↔
      firstResult (answers twoCommands) 1 = some (.response "done") :=
  called_iff_answered (by decide) (rfl : run step {} twoCommands = some afterTwoCommands)
    (by decide) (by decide) 1 (.response "done")

end QueueClient

end ZoneMta
