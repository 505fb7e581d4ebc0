import ZoneMta.ForStd.Transition
import ZoneMta.Native.PluginHandler

/-!
# Hooks run one after another

The handlers that are registered under a name run in the order of their registration, each after
the one before it has completed, and `done` is called once, with the error of the first handler
that fails or with none. The exceptions: a call of `done` without an error that ends with one, an
error whose properties cannot be read or set, and a handler that completes with the promise of
another library.

## Key results

- `hooks_registered`: the registered hooks of a name
- `goes_of_step`: what a step does
- `length_add_weight_le`: a call takes a bounded number of steps
- `served_iff`: the calls that end as they should
-/

namespace ZoneMta

namespace PluginHandler

open ForStd (Map Text)

/-! ## Registration -/

/-- The arguments of a call of `addHook`. -/
structure Registration where
  title : String
  name : String
  action : Action
deriving Repr, DecidableEq

/-- The calls of `addHook` in their order. -/
def addHooks (text : Text) (calls : List Registration) : Map String (List Hook) :=
  calls.foldl (fun hooks call => addHook text hooks call.title call.name call.action) ∅

/-- The hooks of a name, in the order of their registration. -/
def registered (text : Text) (calls : List Registration) (name : String) : List Hook :=
  (calls.filter fun call => text.normal call.name == text.normal name).map fun call =>
    ⟨call.title, text.normal call.name, call.action⟩

/-- The hooks whose action is a function. -/
def handlers (hooks : List Hook) : List Hook := hooks.filter fun hook => hook.action != .other

theorem lookup_addHook (text : Text) (hooks : Map String (List Hook)) (title name key : String)
    (action : Action) : ((addHook text hooks title name action).lookup key).getD [] =
      (hooks.lookup key).getD [] ++
        if text.normal name = key then [⟨title, text.normal name, action⟩] else [] := by
  unfold addHook
  dsimp only
  split
  · next h =>
    rw [ForStd.lookup_insert]
    by_cases hkey : key = text.normal name
    · subst hkey
      simp [h]
    · simp [hkey, Ne.symm hkey]
  · next hs h =>
    rw [ForStd.lookup_insert]
    by_cases hkey : key = text.normal name
    · subst hkey
      simp [h]
    · simp [hkey, Ne.symm hkey]

theorem hooks_registered (text : Text) (calls : List Registration) (name : String) :
    ((addHooks text calls).lookup (text.normal name)).getD [] = registered text calls name := by
  -- the calls of `addHook` from the last one
  induction calls using List.reverseRecOn with
  | nil => rfl
  | append_singleton calls call ih =>
    have hfold : addHooks text (calls ++ [call]) =
        addHook text (addHooks text calls) call.title call.name call.action := by
      simp [addHooks]
    rw [hfold, lookup_addHook, ih]
    by_cases hname : text.normal call.name = text.normal name <;> simp [registered, hname]

/-! ## What should be observed -/

/-- What is observed of handlers that succeed. -/
def passed (hs : List Hook) : List Observation :=
  hs.flatMap fun hook => [.started hook, .completed hook none]

/-- The observations of a call that has ended as it should. -/
inductive Served (hs : List Hook) : List Observation → Prop where
  /-- every handler succeeds -/
  | passes : Served hs (passed hs ++ [.done none])
  /-- a handler fails -/
  | fails {pre rest : List Hook} {hook : Hook} {err err' : Value} :
      hs = pre ++ hook :: rest → err'.Same err →
      Served hs (passed pre ++ [.started hook, .completed hook (some err), .done (some err')])

/-- The observations so far are the first ones of a call that ends as it should. -/
def Sequential (hs : List Hook) (trace : List Observation) : Prop :=
  ∃ rest, Served hs (trace ++ rest)

/-- Nothing happens any more. -/
def Quiescent (s : Call) : Prop := ∀ e, step s e = none

/-- The handling of an error can read its name and set its properties. -/
def Value.Decorable : Value → Prop
  | .object err => err.name ≠ none ∧ err.frozen = false
  | .typeError => True
  | .nullish | .primitive _ => False

/-- A step of a call that goes as it should: no handler completes with the promise of another
    library, an error of a handler can be decorated, and a call of `done` without an error
    returns. -/
def Handled (s : Call) (e : Event) : Prop :=
  match s.phase, e with
  | .handler _ _ (.returned .thenable), .settles _ => False
  | .handler _ _ (.settled (some err)), .continues => err.Decorable
  | .fulfilled, .done outcome => outcome = .returns
  | _, _ => True

/-! ## What a step does -/

/-- The error that a call of `done` ends with. -/
def Outcome.error : Outcome → Option Value
  | .returns => none
  | .throws err | .rejects err => some err

/-- What a step does. -/
inductive Goes (s : Call) : Event → Call → Prop where
  | called {hook rest err} : s.phase = .handler hook rest .running →
      Goes s (.callback err) (s.complete hook rest (result err) (.called (result err)))
  | callback {hook rest f err} : s.phase = .handler hook rest (.returned f) → f ≠ .promise →
      Goes s (.callback err) (s.complete hook rest (result err) (.settled (result err)))
  | throws {hook rest err} : s.phase = .handler hook rest .running →
      Goes s (.throws err) (s.complete hook rest (some err) (.settled (some err)))
  | returns {hook rest f} : s.phase = .handler hook rest .running →
      Goes s (.returns f) { s with phase := .handler hook rest (.returned f) }
  | resolved {hook rest f r} : s.phase = .handler hook rest (.called r) →
      Goes s (.returns f) { s with phase := .handler hook rest (.settled r) }
  | settles {hook rest r} : s.phase = .handler hook rest (.returned .promise) →
      Goes s (.settles r) (s.complete hook rest r (.settled r))
  | unnoticed {hook rest r} : s.phase = .handler hook rest (.returned .thenable) →
      Goes s (.settles r) (s.complete hook rest r .unnoticed)
  | next {hook rest} : s.phase = .handler hook rest (.settled none) →
      Goes s .continues (s.loop rest)
  | fails {hook rest err} : s.phase = .handler hook rest (.settled (some err)) →
      Goes s .continues (s.fail hook err)
  | ends : s.phase = .fulfilled → Goes s (.done .returns) (s.callDone none .over)
  | breaks {outcome err} : s.phase = .fulfilled → outcome.error = some err →
      Goes s (.done outcome) (s.callDone none (.rejected err))
  | catches {outcome err} : s.phase = .rejected err →
      Goes s (.done outcome) (s.callDone (some err) .over)

theorem goes_of_step {s s' : Call} {e : Event} (h : step s e = some s') : Goes s e s' := by
  unfold step at h
  cases e with
  | callback err =>
    dsimp only at h
    split at h
    · next hs => exact Option.some.inj h ▸ .called hs
    · next hook rest f hs =>
      split at h
      · exact nomatch h
      · next hf => exact Option.some.inj h ▸ .callback hs hf
    · exact nomatch h
  | throws err =>
    dsimp only at h
    split at h
    · next hs => exact Option.some.inj h ▸ .throws hs
    · exact nomatch h
  | returns f =>
    dsimp only at h
    split at h
    · next hs => exact Option.some.inj h ▸ .returns hs
    · next hs => exact Option.some.inj h ▸ .resolved hs
    · exact nomatch h
  | settles r =>
    dsimp only at h
    split at h
    · next hs => exact Option.some.inj h ▸ .settles hs
    · next hs => exact Option.some.inj h ▸ .unnoticed hs
    · exact nomatch h
  | continues =>
    dsimp only at h
    split at h
    · next hs => exact Option.some.inj h ▸ .next hs
    · next hs => exact Option.some.inj h ▸ .fails hs
    · exact nomatch h
  | done outcome =>
    dsimp only at h
    split at h
    · next hs =>
      cases outcome with
      | returns => exact Option.some.inj h ▸ .ends hs
      | throws err => exact Option.some.inj h ▸ .breaks hs rfl
      | rejects err => exact Option.some.inj h ▸ .breaks hs rfl
    · next hs => exact Option.some.inj h ▸ .catches hs
    · exact nomatch h

/-! ## Errors -/

theorem same_of_decorate {hook : Hook} {err err' : Value} (h : decorate hook err = some err') :
    err'.Same err := by
  cases err with
  | object o =>
    simp only [decorate] at h
    split at h
    · exact nomatch h
    · obtain rfl := Option.some.inj h
      show o.id = o.id
      rfl
  | typeError => exact Option.some.inj h ▸ rfl
  | nullish => exact nomatch h
  | primitive t => exact nomatch h

/-- An error that can be decorated is the one that `runHooksAsync` is rejected with. -/
theorem fail_of_decorable (s : Call) (hook : Hook) {err : Value} (h : err.Decorable) :
    ∃ err', err'.Same err ∧ (s.fail hook err).phase = .rejected err' ∧
      (s.fail hook err).trace = s.trace := by
  cases err with
  | object o =>
    obtain ⟨hname, hfrozen⟩ := h
    obtain ⟨name, hname⟩ := Option.ne_none_iff_exists'.mp hname
    have hdecorate : ∃ err', decorate hook (.object o) = some err' := by
      simp [decorate, hfrozen]
    obtain ⟨err', hdecorate⟩ := hdecorate
    refine ⟨err', same_of_decorate hdecorate, ?_⟩
    simp [Call.fail, isError, hname, hdecorate]
  | typeError => exact ⟨.typeError, rfl, rfl, rfl⟩
  | nullish => exact h.elim
  | primitive t => exact h.elim

/-- `runHooksAsync` is rejected, with that error or another one. -/
theorem fail_phase (s : Call) (hook : Hook) (err : Value) :
    ∃ err', (s.fail hook err).phase = .rejected err' := by
  unfold Call.fail
  split <;> exact ⟨_, rfl⟩

/-- Any other error is replaced. -/
theorem fail_of_not_decorable (s : Call) (hook : Hook) {err : Value} (h : ¬err.Decorable) :
    ¬Value.typeError.Same err ∧ (s.fail hook err).phase = .rejected .typeError ∧
      (s.fail hook err).trace = s.trace := by
  cases err with
  | object o =>
    refine ⟨fun hsame => (nomatch hsame), ?_⟩
    cases hname : o.name with
    | none => simp [Call.fail, isError, hname]
    | some name =>
      have hfrozen : o.frozen = true := by
        by_contra hf
        exact h ⟨by simp [hname], by simpa using hf⟩
      simp [Call.fail, isError, hname, decorate, hfrozen]
  | typeError => exact absurd trivial h
  | nullish => exact ⟨fun hsame => (nomatch hsame), rfl, rfl⟩
  | primitive t => exact ⟨fun hsame => (nomatch hsame), rfl, rfl⟩

/-! ## Calls that go as they should -/

/-- What has been observed of the handler that the loop is at, after its start. -/
def Progress.observed (hook : Hook) : Progress → List Observation
  | .running | .returned _ => []
  | .called r | .settled r => [.completed hook r]
  | .unnoticed => []

/-- What holds while a call goes as it should. -/
def Inv (hs : List Hook) (s : Call) : Prop :=
  match s.phase with
  | .handler hook rest progress => progress ≠ .unnoticed ∧
      ∃ pre, hs = pre ++ hook :: handlers rest ∧
        s.trace = passed pre ++ .started hook :: progress.observed hook
  | .fulfilled => s.trace = passed hs
  | .rejected err' => ∃ pre hook rest err, hs = pre ++ hook :: rest ∧ err'.Same err ∧
      s.trace = passed pre ++ [.started hook, .completed hook (some err)]
  | .over => Served hs s.trace

theorem passed_concat (pre : List Hook) (hook : Hook) :
    passed (pre ++ [hook]) = passed pre ++ [.started hook, .completed hook none] := by
  simp [passed]

/-- The loop goes on with the handlers that are left. -/
theorem loop_inv {hs pre : List Hook} (s : Call) {rest : List Hook}
    (hhs : hs = pre ++ handlers rest) (htrace : s.trace = passed pre) : Inv hs (s.loop rest) := by
  induction rest with
  | nil =>
    show s.trace = passed hs
    rw [htrace, hhs, handlers, List.filter_nil, List.append_nil]
  | cons hook rest ih =>
    rw [Call.loop]
    cases haction : hook.action with
    | function id =>
      have hhandlers : handlers (hook :: rest) = hook :: handlers rest := by
        simp [handlers, haction]
      exact ⟨nofun, pre, hhandlers ▸ hhs, by rw [htrace]; rfl⟩
    | other =>
      have hhandlers : handlers (hook :: rest) = handlers rest := by
        simp [handlers, haction]
      exact ih (hhandlers ▸ hhs)

theorem inv_runHooks (text : Text) (calls : List Registration) (name : String) :
    Inv (handlers (registered text calls name)) (runHooks text (addHooks text calls) name) := by
  rw [runHooks, hooks_registered]
  exact @loop_inv _ [] {} _ rfl rfl

theorem inv_step {hs : List Hook} {s s' : Call} {e : Event} (hinv : Inv hs s) (hp : Handled s e)
    (hs' : step s e = some s') : Inv hs s' := by
  cases goes_of_step hs' with
  | called h | callback h | throws h | settles h =>
    simp only [Inv, h] at hinv
    obtain ⟨-, pre, hhs, htrace⟩ := hinv
    exact ⟨nofun, pre, hhs, by simp [Call.complete, htrace, Progress.observed]⟩
  | returns h | resolved h =>
    simp only [Inv, h] at hinv
    obtain ⟨-, pre, hhs, htrace⟩ := hinv
    exact ⟨nofun, pre, hhs, htrace⟩
  | unnoticed h =>
    simp [Handled, h] at hp
  | @next hook rest h =>
    simp only [Inv, h] at hinv
    obtain ⟨-, pre, hhs, htrace⟩ := hinv
    -- the handler is one of those that have passed
    have hpre : hs = pre ++ [hook] ++ handlers rest := by
      rw [hhs, List.append_assoc, List.singleton_append]
    exact loop_inv s hpre (htrace.trans (passed_concat pre hook).symm)
  | @fails hook rest err h =>
    simp only [Inv, h] at hinv
    obtain ⟨-, pre, hhs, htrace⟩ := hinv
    have hdecorable : err.Decorable := by simpa [Handled, h] using hp
    obtain ⟨err', hsame, hphase, htrace'⟩ := fail_of_decorable s hook hdecorable
    simp only [Inv, hphase]
    exact ⟨pre, hook, handlers rest, err, hhs, hsame, htrace'.trans htrace⟩
  | ends h =>
    simp only [Inv, h] at hinv
    show Served hs (s.trace ++ [.done none])
    exact hinv ▸ .passes
  | @breaks outcome err h herr =>
    have hreturns : outcome = .returns := by simpa [Handled, h] using hp
    subst hreturns
    exact nomatch herr
  | @catches outcome err' h =>
    simp only [Inv, h] at hinv
    obtain ⟨pre, hook, rest, err, hhs, hsame, htrace⟩ := hinv
    show Served hs (s.trace ++ [.done (some err')])
    rw [htrace, List.append_assoc]
    exact .fails hhs hsame

theorem Value.same_refl (err : Value) : err.Same err := by
  cases err <;> rfl

theorem sequential_of_inv {hs : List Hook} {s : Call} (hinv : Inv hs s) :
    Sequential hs s.trace := by
  cases hphase : s.phase with
  | fulfilled =>
    simp only [Inv, hphase] at hinv
    exact ⟨[.done none], hinv ▸ .passes⟩
  | rejected err' =>
    simp only [Inv, hphase] at hinv
    obtain ⟨pre, hook, rest, err, hhs, hsame, htrace⟩ := hinv
    refine ⟨[.done (some err')], ?_⟩
    rw [htrace, List.append_assoc]
    exact .fails hhs hsame
  | «over» =>
    simp only [Inv, hphase] at hinv
    exact ⟨[], (List.append_nil s.trace).symm ▸ hinv⟩
  | handler hook rest progress =>
    simp only [Inv, hphase] at hinv
    obtain ⟨-, pre, hhs, htrace⟩ := hinv
    -- a handler that has not completed may still fail
    have hrunning : progress.observed hook = [] → Sequential hs s.trace := by
      intro hobserved
      refine ⟨[.completed hook (some .typeError), .done (some .typeError)], ?_⟩
      rw [htrace, hobserved, List.append_assoc]
      exact .fails hhs (Value.same_refl _)
    have hcompleted : ∀ r, progress.observed hook = [.completed hook r] →
        Sequential hs s.trace := by
      intro r hobserved
      cases r with
      | none =>
        refine ⟨passed (handlers rest) ++ [.done none], ?_⟩
        have hpassed : passed hs = s.trace ++ passed (handlers rest) := by
          rw [htrace, hobserved, hhs]
          simp [passed]
        rw [← List.append_assoc, ← hpassed]
        exact .passes
      | some err =>
        refine ⟨[.done (some err)], ?_⟩
        rw [htrace, hobserved, List.append_assoc]
        exact .fails hhs (Value.same_refl err)
    cases progress with
    | running | returned f | unnoticed => exact hrunning rfl
    | called r | settled r => exact hcompleted r rfl

/-- A call that goes as it should, and where nothing happens any more, is over. -/
theorem served_of_quiescent {hs : List Hook} {s : Call} (hinv : Inv hs s) (hq : Quiescent s) :
    Served hs s.trace := by
  cases hphase : s.phase with
  | «over» =>
    simp only [Inv, hphase] at hinv
    exact hinv
  | fulfilled => simpa [step, hphase] using hq (.done .returns)
  | rejected err => simpa [step, hphase] using hq (.done .returns)
  | handler hook rest progress =>
    cases progress with
    | running => simpa [step, hphase] using hq (.throws .nullish)
    | called r => simpa [step, hphase] using hq (.returns .other)
    | returned f =>
      cases f with
      | promise => simpa [step, hphase] using hq (.settles none)
      | thenable => simpa [step, hphase] using hq (.settles none)
      | other => simpa [step, hphase] using hq (.callback .nullish)
    | settled r => cases r <;> simpa [step, hphase] using hq .continues
    | unnoticed =>
      simp only [Inv, hphase] at hinv
      exact absurd rfl hinv.1

/-! ## Calls that do not -/

theorem Served.exists_done {hs : List Hook} {trace : List Observation} (h : Served hs trace) :
    ∃ before err, trace = before ++ [.done err] ∧ ∀ err, .done err ∉ before := by
  have hpassed : ∀ hs err, Observation.done err ∉ passed hs := by simp [passed]
  cases h with
  | passes => exact ⟨passed hs, none, rfl, hpassed hs⟩
  | @fails pre rest hook err err' =>
    refine ⟨passed pre ++ [.started hook, .completed hook (some err)], some err', by simp, ?_⟩
    simp [hpassed]

/-- `done` is called in the end. -/
theorem Served.mem {hs : List Hook} {trace : List Observation} (h : Served hs trace) :
    ∃ err, .done err ∈ trace := by
  obtain ⟨before, err, rfl, -⟩ := h.exists_done
  exact ⟨err, by simp⟩

/-- `done` is not called before. -/
theorem Served.not_mem {hs : List Hook} {before : List Observation} {o : Observation}
    (h : Served hs (before ++ [o])) (err : Option Value) : .done err ∉ before := by
  obtain ⟨before', err', heq, hbefore⟩ := h.exists_done
  obtain ⟨rfl, -⟩ := List.append_inj' heq rfl
  exact hbefore err

/-- The error is that of the handler. -/
theorem Served.same {hs : List Hook} {before : List Observation} {hook : Hook} {err err' : Value}
    (h : Served hs (before ++ [.completed hook (some err), .done (some err')])) :
    err'.Same err := by
  generalize htrace : before ++ [.completed hook (some err), .done (some err')] = trace at h
  cases h with
  | passes =>
    have hlast := congrArg List.getLast? htrace
    simp at hlast
  | @fails pre rest hook' e e' _ hsame =>
    have hlast : [Observation.completed hook (some err), .done (some err')] =
        [.completed hook' (some e), .done (some e')] := by
      have hcut : before ++ [.completed hook (some err), .done (some err')] =
          (passed pre ++ [.started hook']) ++ [.completed hook' (some e), .done (some e')] := by
        simpa using htrace
      exact (List.append_inj' hcut rfl).2
    simp at hlast
    rw [hlast.1.2, hlast.2]
    exact hsame

/-- What holds in every call. -/
def Open (s : Call) : Prop :=
  match s.phase with
  | .handler hook _ progress => (∀ err, .done err ∉ s.trace) ∧
      ∃ before, s.trace = before ++ progress.observed hook
  | .fulfilled => ∀ err, .done err ∉ s.trace
  | _ => True

/-- What holds after a step that does not go as it should. -/
def Broken (hs : List Hook) (s : Call) : Prop :=
  match s.phase with
  | .handler _ _ progress => progress = .unnoticed ∧ ∀ err, .done err ∉ s.trace
  | .rejected err' => (∃ err, .done err ∈ s.trace) ∨
      ∃ before hook err, s.trace = before ++ [.completed hook (some err)] ∧ ¬err'.Same err
  | .over => ¬Served hs s.trace
  | .fulfilled => False

theorem loop_open (s : Call) (rest : List Hook) (h : ∀ err, .done err ∉ s.trace) :
    Open (s.loop rest) := by
  induction rest with
  | nil => exact h
  | cons hook rest ih =>
    rw [Call.loop]
    cases hook.action with
    | function id =>
      exact ⟨by simpa using h, s.trace ++ [.started hook], by simp [Progress.observed]⟩
    | other => exact ih

theorem open_step (s : Call) (e : Event) (s' : Call) (hopen : Open s) (hs' : step s e = some s') :
    Open s' := by
  cases goes_of_step hs' with
  | called h | callback h | throws h | settles h =>
    simp only [Open, h] at hopen
    exact ⟨by simpa [Call.complete] using hopen.1, s.trace, rfl⟩
  | unnoticed h =>
    simp only [Open, h] at hopen
    exact ⟨by simpa [Call.complete] using hopen.1, _, (List.append_nil _).symm⟩
  | returns h | resolved h =>
    simp only [Open, h] at hopen
    exact hopen
  | @next hook rest h =>
    simp only [Open, h] at hopen
    exact loop_open s rest hopen.1
  | @fails hook rest err h =>
    obtain ⟨err', hphase⟩ := fail_phase s hook err
    simp only [Open, hphase]
  | ends h | breaks h | catches h => trivial

theorem broken_of_not_handled (hs : List Hook) (s : Call) (e : Event) (s' : Call) (hopen : Open s)
    (hp : ¬Handled s e) (hs' : step s e = some s') : Broken hs s' := by
  cases goes_of_step hs' with
  | called h | callback h | throws h | settles h | returns h | resolved h | next h | catches h =>
    exact absurd (by simp [Handled, h]) hp
  | unnoticed h =>
    simp only [Open, h] at hopen
    exact ⟨rfl, by simpa [Call.complete] using hopen.1⟩
  | @fails hook rest err h =>
    simp only [Open, h, Progress.observed] at hopen
    have hnot : ¬err.Decorable := by simpa [Handled, h] using hp
    obtain ⟨hsame, hphase, htrace⟩ := fail_of_not_decorable s hook hnot
    obtain ⟨-, before, hbefore⟩ := hopen
    simp only [Broken, hphase]
    exact .inr ⟨before, hook, err, htrace.trans hbefore, hsame⟩
  | ends h => exact absurd (by simp [Handled, h]) hp
  | breaks h herr => exact .inl ⟨none, by simp [Call.callDone]⟩

/-- Nothing that happens later makes up for it. -/
theorem broken_step (hs : List Hook) (s : Call) (e : Event) (s' : Call) (hbroken : Broken hs s)
    (hs' : step s e = some s') : Broken hs s' := by
  cases goes_of_step hs' with
  | called h | callback h | throws h | settles h | unnoticed h | returns h | resolved h | next h
  | fails h => simp [Broken, h] at hbroken
  | ends h | breaks h => simp [Broken, h] at hbroken
  | @catches outcome err' h =>
    simp only [Broken, h] at hbroken
    intro hserved
    rcases hbroken with ⟨err, hmem⟩ | ⟨before, hook, err, htrace, hsame⟩
    · -- the second call of `done`
      exact hserved.not_mem err hmem
    · refine hsame (@Served.same hs before hook _ _ ?_)
      have happend : s.trace ++ [.done (some err')] =
          before ++ [.completed hook (some err), .done (some err')] := by simp [htrace]
      exact happend ▸ hserved

theorem not_served_of_broken {hs : List Hook} {s : Call} (hbroken : Broken hs s)
    (hq : Quiescent s) : ¬Served hs s.trace := by
  intro hserved
  cases hphase : s.phase with
  | handler hook rest progress =>
    simp only [Broken, hphase] at hbroken
    obtain ⟨err, hmem⟩ := hserved.mem
    exact hbroken.2 err hmem
  | fulfilled => simp [Broken, hphase] at hbroken
  | rejected err => simpa [step, hphase] using hq (.done .returns)
  | «over» =>
    simp only [Broken, hphase] at hbroken
    exact hbroken hserved

/-! ## The length of a call -/

/-- How many steps a handler may take. -/
def Progress.weight : Progress → Nat
  | .running => 3
  | .called _ | .returned _ => 2
  | .settled _ => 1
  | .unnoticed => 0

/-- How many steps a call may take. -/
def Call.weight (s : Call) : Nat :=
  match s.phase with
  | .handler _ rest progress => progress.weight + 3 * (handlers rest).length + 2
  | .fulfilled => 2
  | .rejected _ => 1
  | .over => 0

theorem weight_loop (s : Call) (hooks : List Hook) :
    (s.loop hooks).weight = 3 * (handlers hooks).length + 2 := by
  induction hooks with
  | nil => rfl
  | cons hook rest ih =>
    rw [Call.loop]
    cases haction : hook.action with
    | function id =>
      have hhandlers : handlers (hook :: rest) = hook :: handlers rest := by
        simp [handlers, haction]
      show 3 + 3 * (handlers rest).length + 2 = _
      rw [hhandlers, List.length_cons]
      omega
    | other =>
      have hhandlers : handlers (hook :: rest) = handlers rest := by
        simp [handlers, haction]
      rw [hhandlers]
      exact ih

/-- Every step brings the end nearer. -/
theorem weight_step {s s' : Call} {e : Event} (hs' : step s e = some s') :
    s'.weight < s.weight := by
  cases goes_of_step hs' with
  | called h | callback h | throws h | settles h | unnoticed h | returns h | resolved h =>
    simp [Call.weight, h, Call.complete, Progress.weight]
  | next h =>
    rw [weight_loop]
    simp [Call.weight, h, Progress.weight]
  | @fails hook rest err h =>
    obtain ⟨err', hphase⟩ := fail_phase s hook err
    simp only [Call.weight, h, hphase, Progress.weight]
    omega
  | ends h | breaks h | catches h => simp [Call.weight, h, Call.callDone]

theorem length_add_weight_le {s s' : Call} {es : List Event}
    (hrun : ForStd.run step s es = some s') :
    es.length + s'.weight ≤ s.weight := by
  induction es generalizing s with
  | nil => simp [Option.some.inj hrun]
  | cons e es ih =>
    obtain ⟨t, ht, hrun⟩ := ForStd.run_cons_eq_some.mp hrun
    have hstep := weight_step ht
    have hrest := ih hrun
    rw [List.length_cons]
    omega

/-! ## Main result -/

section

variable (text : Text) (calls : List Registration) (name : String)

/-- `runHooks` after the calls of `addHook`. -/
def start : Call := runHooks text (addHooks text calls) name

/-- The handlers that are registered under the name. -/
def hooksOf : List Hook := handlers (registered text calls name)

/-- The handlers of a call that goes as it should run one after another, and `done` is called as
    it should; a call that ends as it should has gone so. A call ends after a bounded number of
    steps. -/
theorem served_iff (es : List Event) (s : Call)
    (hrun : ForStd.run step (start text calls name) es = some s) :
    (ForStd.Along step Handled (start text calls name) es →
      Sequential (hooksOf text calls name) s.trace) ∧
    (Quiescent s → (Served (hooksOf text calls name) s.trace ↔
      ForStd.Along step Handled (start text calls name) es)) ∧
    es.length ≤ 3 * (hooksOf text calls name).length + 2 := by
  have hinv : ForStd.Along step Handled (start text calls name) es →
      Inv (hooksOf text calls name) s := fun halong =>
    ForStd.run_invariant_along (fun s e s' hinv hp => inv_step hinv hp)
      (inv_runHooks text calls name) halong hrun
  refine ⟨fun halong => sequential_of_inv (hinv halong), fun hq => ⟨fun hserved => ?_, fun halong =>
    served_of_quiescent (hinv halong) hq⟩, ?_⟩
  · by_contra hnot
    have hopen : Open (start text calls name) := loop_open {} _ (by simp)
    have hbroken : Broken (hooksOf text calls name) s :=
      ForStd.run_of_not_along (fun s e s' hopen => open_step s e s' hopen)
        (fun s e s' => broken_of_not_handled _ s e s')
        (fun s e s' _ => broken_step _ s e s') hopen hnot hrun
    exact not_served_of_broken hbroken hq hserved
  · have hlength := length_add_weight_le hrun
    rw [start, runHooks, hooks_registered, weight_loop] at hlength
    show es.length ≤ 3 * (handlers (registered text calls name)).length + 2
    omega

end

/-! ## Two plugins -/

def firstHook : Hook := ⟨"Hook-1", "testhook", .function 1⟩

def secondHook : Hook := ⟨"Hook-2", "testhook", .function 2⟩

/-- Two plugins register a hook under spellings of one name; a third hook is no function. -/
def testCalls : List Registration :=
  [⟨"Hook-1", "testhook", .function 1⟩, ⟨"Hook-1", "testhook", .other⟩,
    ⟨"Hook-2", " TestHook", .function 2⟩]

def testError : ErrorObject := { id := 7, stack := "Error: 7" }

/-- The first handler calls its callback, the promise of the second one is rejected, and `done`
    throws. -/
def testRun : List Event :=
  [.callback .nullish, .returns .other, .continues, .returns .promise,
    .settles (some (.object testError)), .continues, .done (.throws .nullish)]

def testEnd : Call where
  phase := .over
  trace := [.started firstHook, .completed firstHook none, .started secondHook,
    .completed secondHook (some (.object testError)),
    .done (some (.object { testError with
      category := "plugin", source := "PLUGIN", sourceName := "Hook-2" }))]
  log := [⟨"Hook-2", "testhook", "Error: 7"⟩]

theorem served_iff_example :
    ForStd.Along step Handled (start .ascii testCalls "testhook") testRun := by
  have hrun : ForStd.run step (start .ascii testCalls "testhook") testRun = some testEnd := by
    decide +kernel
  have hhooks : hooksOf .ascii testCalls "testhook" = [firstHook] ++ secondHook :: [] := by
    decide +kernel
  have hserved : Served (hooksOf .ascii testCalls "testhook") testEnd.trace :=
    .fails hhooks rfl
  have hquiescent : Quiescent testEnd := fun e => by cases e <;> rfl
  exact ((served_iff .ascii testCalls "testhook" testRun testEnd hrun).2.1 hquiescent).mp hserved

/-- `done` throws when it is called without an error, and is called again with what it has
    thrown. No hook is registered. -/
theorem done_called_twice :
    ¬∀ (text : Text) (calls : List Registration) (name : String) (es : List Event) (s : Call),
      ForStd.run step (start text calls name) es = some s → Quiescent s →
        Served (hooksOf text calls name) s.trace := by
  intro h
  have hquiescent : Quiescent
      { phase := .over, trace := [.done none, .done (some (.object testError))] } :=
    fun e => by cases e <;> rfl
  have hserved := h .ascii [] "testhook" [.done (.throws (.object testError)), .done .returns] _
    rfl hquiescent
  exact @Served.not_mem _ [.done none] _ hserved none List.mem_cons_self

end PluginHandler

end ZoneMta
