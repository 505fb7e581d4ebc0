import ZoneMta.Spec.SmtpSessionCorrect

/-!
# STARTTLS

After a successful STARTTLS the session starts again with an empty reader, no greeting, no sender
and no recipients. The content of the last message stays as well, but is written before it is
read again. What stays and is read is whether the client was authenticated.

## Key results

- `startTLS_step`: the session after STARTTLS
- `simulates_sameButData`: the content of the last message has no influence
- `outputs_eq_iff`: two sessions behave the same after STARTTLS if and only if both were
  authenticated before it, or neither
- `outputs_ne_authenticated`: AUTH before STARTTLS
-/

namespace ZoneMta

open ForStd (GoString exec outputs history Simulates)
open ForStd.GoString (ofString)

namespace SmtpSession

variable {cfg : SmtpConfig} {env : Env} {s s' t : Session} {out : List Output}

/-! ## The content of the last message -/

/-- The sessions differ in the content of the last message only. -/
def SameButData (s t : Session) : Prop := ∃ data, t = { s with data := data }

/-- The results of a handler in such sessions. -/
def SameResult (r r' : Session × List Output) : Prop := SameButData r.1 r'.1 ∧ r.2 = r'.2

theorem sameResult_answer (out : List Output) (h : SameButData s t) :
    SameResult (answer env s out) (answer env t out) := by
  obtain ⟨data, rfl⟩ := h
  unfold answer
  split
  · exact ⟨⟨data, rfl⟩, rfl⟩
  · split
    · exact ⟨⟨data, rfl⟩, rfl⟩
    · exact ⟨⟨data, rfl⟩, rfl⟩

theorem sameResult_sendResponse (code : Nat) (text : GoString) (h : SameButData s t) :
    SameResult (sendResponse env s code text) (sendResponse env t code text) :=
  sameResult_answer _ h

theorem sameResult_ite {p : Prop} [Decidable p] {a a' b b' : Session × List Output}
    (ha : SameResult a a') (hb : SameResult b b') :
    SameResult (if p then a else b) (if p then a' else b') := by
  split
  · exact ha
  · exact hb

theorem sameResult_helo (args : GoString) (extended : Bool) (h : SameButData s t) :
    SameResult (handleHelo cfg env s args extended) (handleHelo cfg env t args extended) := by
  obtain ⟨data, rfl⟩ := h
  refine sameResult_ite (sameResult_sendResponse _ _ ⟨data, rfl⟩) ?_
  cases extended with
  | true => exact sameResult_answer _ ⟨data, rfl⟩
  | false => exact sameResult_sendResponse _ _ ⟨data, rfl⟩

theorem sameResult_startTLS (h : SameButData s t) :
    SameResult (handleStartTLS cfg env s) (handleStartTLS cfg env t) := by
  have hanswer : SameResult (sendResponse env s 220 (ofString "Ready to start TLS"))
      (sendResponse env t 220 (ofString "Ready to start TLS")) := sameResult_sendResponse _ _ h
  obtain ⟨data, rfl⟩ := h
  refine sameResult_ite (sameResult_sendResponse _ _ ⟨data, rfl⟩)
    (sameResult_ite (sameResult_sendResponse _ _ ⟨data, rfl⟩) ?_)
  -- the response was written in both sessions, or in neither
  generalize sendResponse env s 220 (ofString "Ready to start TLS") = r at hanswer ⊢
  generalize sendResponse env { s with data := data } 220 (ofString "Ready to start TLS") = r'
    at hanswer ⊢
  obtain ⟨s₁, out₁⟩ := r
  obtain ⟨t₁, out₂⟩ := r'
  obtain ⟨⟨data', rfl⟩, rfl⟩ := hanswer
  exact sameResult_ite ⟨⟨data', rfl⟩, rfl⟩
    (sameResult_ite ⟨⟨data', rfl⟩, rfl⟩ ⟨⟨data', rfl⟩, rfl⟩)

theorem sameResult_auth (args : GoString) (h : SameButData s t) :
    SameResult (handleAuth cfg env s args) (handleAuth cfg env t args) := by
  refine sameResult_ite (sameResult_sendResponse _ _ h) ?_
  obtain ⟨data, rfl⟩ := h
  cases args.fields with
  | nil => exact sameResult_sendResponse _ _ ⟨data, rfl⟩
  | cons mechanism rest =>
    exact sameResult_ite (sameResult_sendResponse _ _ ⟨data, rfl⟩)
      (sameResult_sendResponse _ _ ⟨data, rfl⟩)

theorem sameResult_mail (args : GoString) (h : SameButData s t) :
    SameResult (handleMail cfg env s args) (handleMail cfg env t args) := by
  obtain ⟨data, rfl⟩ := h
  have hsend : ∀ code text, SameResult (sendResponse env s code text)
      (sendResponse env { s with data := data } code text) :=
    fun code text => sameResult_sendResponse code text ⟨data, rfl⟩
  exact sameResult_ite (hsend _ _) (sameResult_ite (hsend _ _) (sameResult_ite (hsend _ _)
    (sameResult_sendResponse _ _ ⟨data, rfl⟩)))

theorem sameResult_rcpt (args : GoString) (h : SameButData s t) :
    SameResult (handleRcpt cfg env s args) (handleRcpt cfg env t args) := by
  obtain ⟨data, rfl⟩ := h
  have hsend : ∀ code text, SameResult (sendResponse env s code text)
      (sendResponse env { s with data := data } code text) :=
    fun code text => sameResult_sendResponse code text ⟨data, rfl⟩
  exact sameResult_ite (hsend _ _) (sameResult_ite (hsend _ _) (sameResult_ite (hsend _ _)
    (sameResult_sendResponse _ _ ⟨data, rfl⟩)))

theorem sameResult_line (line : GoString) (h : SameButData s t) :
    SameResult (handleLine cfg env s line) (handleLine cfg env t line) := by
  unfold handleLine
  cases parse line with
  | none => exact sameResult_sendResponse _ _ h
  | some cmdArgs =>
    obtain ⟨cmd, args⟩ := cmdArgs
    cases cmd with
    | none => exact sameResult_sendResponse _ _ h
    | some cmd =>
      cases cmd with
      | helo => exact sameResult_helo args false h
      | ehlo => exact sameResult_helo args true h
      | startTLS => exact sameResult_startTLS h
      | auth => exact sameResult_auth args h
      | mail => exact sameResult_mail args h
      | rcpt => exact sameResult_rcpt args h
      | data =>
        obtain ⟨data, rfl⟩ := h
        exact sameResult_ite (sameResult_sendResponse _ _ ⟨data, rfl⟩)
          (sameResult_sendResponse _ _ ⟨data, rfl⟩)
      | rset =>
        obtain ⟨data, rfl⟩ := h
        exact sameResult_sendResponse _ _ ⟨[], rfl⟩
      | noop => exact sameResult_sendResponse _ _ h
      | quit =>
        have hsame : SameResult (sendResponse env s 221 (ofString "Bye"))
            (sendResponse env t 221 (ofString "Bye")) := sameResult_sendResponse _ _ h
        obtain ⟨⟨data, hs⟩, hout⟩ := hsame
        refine ⟨⟨data, ?_⟩, hout⟩
        simp only [handleCommand, handleQuit, hs]

/-- The rest of DATA overwrites the content before it is stored. -/
theorem dataStep_of_same (h : SameButData s t) :
    (dataStep cfg env s = none ∧ dataStep cfg env t = none) ∨
      ∃ r r', dataStep cfg env s = some r ∧ dataStep cfg env t = some r' ∧ SameResult r r' := by
  obtain ⟨data, rfl⟩ := h
  unfold dataStep
  dsimp only
  cases readDotBytes s.reader with
  | some message => exact Or.inr ⟨_, _, rfl, rfl, ⟨_, rfl⟩, rfl⟩
  | none =>
    cases env.readFails with
    | true => exact Or.inr ⟨_, _, rfl, rfl, sameResult_sendResponse _ _ ⟨data, rfl⟩⟩
    | false => exact Or.inl ⟨rfl, rfl⟩

theorem step_of_closed (h : s.closed = true) (e : Event) : step cfg s e = none := by
  cases e <;> exact if_pos h

theorem step_receive (h : ¬s.closed = true) (line : GoString) :
    step cfg s (.receive line) = some ({ s with reader := s.reader ++ [line] }, []) :=
  if_neg h

theorem step_next_data (h : ¬s.closed = true) (hin : s.inData = true) :
    step cfg s (.next env) = dataStep cfg env s := by
  rw [step, if_neg h, if_pos hin]

theorem step_next_nil (h : ¬s.closed = true) (hin : ¬s.inData = true) (hreader : s.reader = []) :
    step cfg s (.next env) = if env.readFails then some ({ s with closed := true }, []) else none := by
  rw [step, if_neg h, if_neg hin, hreader]

theorem step_next_line (h : ¬s.closed = true) (hin : ¬s.inData = true) {line : GoString}
    {rest : List GoString} (hreader : s.reader = line :: rest) :
    step cfg s (.next env) = some (handleLine cfg env { s with reader := rest } line) := by
  rw [step, if_neg h, if_neg hin, hreader]

theorem simulates_sameButData (cfg : SmtpConfig) : Simulates (step cfg) SameButData := by
  intro s t e h
  obtain ⟨data, ht⟩ := h
  have hclosed' : t.closed = s.closed := by rw [ht]
  have hin' : t.inData = s.inData := by rw [ht]
  have hreader' : t.reader = s.reader := by rw [ht]
  by_cases hclosed : s.closed = true
  · exact Or.inl ⟨step_of_closed hclosed e, step_of_closed (hclosed'.trans hclosed) e⟩
  · have hopen' : ¬t.closed = true := hclosed' ▸ hclosed
    cases e with
    | receive line =>
      refine Or.inr ⟨_, _, [], step_receive hclosed line, step_receive hopen' line, data, ?_⟩
      rw [ht]
    | next env =>
      by_cases hin : s.inData = true
      · rw [step_next_data hclosed hin, step_next_data hopen' (hin'.trans hin)]
        cases dataStep_of_same ⟨data, ht⟩ with
        | inl hnone => exact Or.inl hnone
        | inr hsome =>
          obtain ⟨⟨s', o⟩, ⟨t', o'⟩, hs, hst, hsame, rfl⟩ := hsome
          exact Or.inr ⟨s', t', o, hs, hst, hsame⟩
      · have hnot' : ¬t.inData = true := hin' ▸ hin
        cases hreader : s.reader with
        | nil =>
          rw [step_next_nil hclosed hin hreader,
            step_next_nil hopen' hnot' (hreader'.trans hreader)]
          cases env.readFails with
          | true => exact Or.inr ⟨_, _, [], rfl, rfl, data, by rw [ht]⟩
          | false => exact Or.inl ⟨rfl, rfl⟩
        | cons line rest =>
          rw [step_next_line hclosed hin hreader,
            step_next_line hopen' hnot' (hreader'.trans hreader)]
          have hrest : SameButData { s with reader := rest } { t with reader := rest } :=
            ⟨data, by rw [ht]⟩
          obtain ⟨hsame, hout⟩ := sameResult_line line hrest
          exact Or.inr ⟨_, _, _, rfl, congrArg some (Prod.ext rfl hout.symm), hsame⟩

/-! ## The session after STARTTLS -/

/-- A STARTTLS that is accepted starts the session again. -/
theorem handleStartTLS_open {reader : List GoString}
    (h : handleStartTLS cfg env { s with reader := reader } = (s', out))
    (hopen : s'.closed = false) (hpos : out.any Output.positive = true) (hin : s.inData = false)
    (hclosed : s.closed = false) :
    s' = { data := s.data, authenticated := s.authenticated, tlsEnabled := true } := by
  have hreply : ∀ {code : Nat} {text : GoString}, 300 ≤ code →
      sendResponse env { s with reader := reader } code text = (s', out) → False := by
    intro code text hcode hr
    have hwritten := answer_open ((congrArg (·.1.closed) hr).trans hopen)
    rw [sendResponse, hwritten] at hr
    rw [← (Prod.mk.inj hr).2] at hpos
    simp only [List.any_cons, List.any_nil, Output.positive, Bool.or_false, Bool.and_eq_true,
      decide_eq_true_eq] at hpos
    omega
  unfold handleStartTLS at h
  split at h
  · exact (hreply (by decide) h).elim
  · split at h
    · exact (hreply (by decide) h).elim
    · cases hr : sendResponse env { s with reader := reader } 220 (ofString "Ready to start TLS") with
      | mk s₁ out₁ =>
        rw [hr] at h
        dsimp only at h
        split at h
        · next hlost => rw [← (Prod.mk.inj h).1, hlost] at hopen; cases hopen
        · next hwritten =>
          have hwritten := answer_open ((congrArg (·.1.closed) hr).trans (by simpa using hwritten))
          rw [sendResponse, hwritten] at hr
          obtain ⟨rfl, -⟩ := Prod.mk.inj hr
          split at h
          · rw [← (Prod.mk.inj h).1] at hopen
            cases hopen
          · rw [← (Prod.mk.inj h).1, hin, hclosed]

/-- The session after STARTTLS: what stays is the content of the last message and whether the
    client was authenticated. -/
theorem startTLS_step (hstep : step cfg s (.next env) = some (s', out))
    (haccepted : accepted cfg s (.next env) = [.startTLS]) :
    s' = { data := s.data, authenticated := s.authenticated, tlsEnabled := true } := by
  rw [accepted, hstep] at haccepted
  dsimp only at haccepted
  split at haccepted
  · next hpos =>
    rw [Bool.and_eq_true, Bool.not_eq_true'] at hpos
    obtain ⟨hopen, hpos⟩ := hpos
    have hpending : pending s = [.startTLS] := haccepted
    cases step_cases hstep with
    | fail _ _ => cases hopen
    | data _ hin _ => rw [pending, if_pos hin] at hpending; cases hpending
    | @line _ line rest _ _ hclosed hin hreader hline =>
      rw [pending, hin, if_neg Bool.false_ne_true, hreader] at hpending
      have hoffers : offers line = [.startTLS] := hpending
      unfold offers at hoffers
      unfold handleLine at hline
      cases hparse : parse line with
      | none => rw [hparse] at hoffers; cases hoffers
      | some cmdArgs =>
        obtain ⟨cmd, args⟩ := cmdArgs
        rw [hparse] at hoffers hline
        cases cmd with
        | none => cases hoffers
        | some cmd =>
          cases cmd with
          | startTLS => exact handleStartTLS_open hline hopen hpos hin hclosed
          | _ => cases hoffers
  · cases haccepted

/-! ## Two sessions -/

/-- A client greets and names a sender. -/
def probe : List Event := dialog ["HELO client.example", "MAIL FROM:<a@example.com>"]

/-- The replies after STARTTLS: the sender is accepted if the client was authenticated or need
    not be. -/
theorem outputs_probe (cfg : SmtpConfig) (data : GoString) (authenticated : Bool) :
    outputs (step cfg) { data := data, authenticated := authenticated, tlsEnabled := true } probe =
      some [.reply 250 (cfg.name ++ ofString " Hello " ++ ofString "client.example"),
        if cfg.authentication && !authenticated then .reply 530 (ofString "Authentication required")
        else .reply 250 (ofString "OK")] := by
  have hhelo : parse (ofString "HELO client.example") =
      some (some .helo, ofString "client.example") := by decide +kernel
  have hmail : parse (ofString "MAIL FROM:<a@example.com>") =
      some (some .mail, ofString "FROM:<a@example.com>") := by decide +kernel
  have hargs : (ofString "FROM:<a@example.com>").toUpper.hasPrefix (ofString "FROM:") = true := by
    decide +kernel
  have hname : ofString "client.example" ≠ [] := by decide +kernel
  simp only [outputs, exec, probe, dialog, List.flatMap_cons, List.flatMap_nil, List.cons_append,
    List.nil_append, List.append_nil, step, handleLine, hhelo, hmail, handleCommand, handleHelo,
    hname, handleMail, hargs, sendResponse, answer, Option.bind_some, Option.map_some,
    Bool.false_eq_true, if_false, Bool.not_true]
  split <;> rfl

/-- Two sessions behave the same after STARTTLS if and only if the server has accepted AUTH in
    both of them before, or in neither. -/
theorem outputs_eq_iff {es₁ es₂ : List Event} {env₁ env₂ : Env} {s₁ s₂ t₁ t₂ : Session}
    {o₁ o₂ p₁ p₂ : List Output}
    (hrun₁ : exec (step cfg) {} es₁ = some (s₁, o₁))
    (hrun₂ : exec (step cfg) {} es₂ = some (s₂, o₂))
    (hstep₁ : step cfg s₁ (.next env₁) = some (t₁, p₁))
    (hstep₂ : step cfg s₂ (.next env₂) = some (t₂, p₂))
    (htls₁ : accepted cfg s₁ (.next env₁) = [.startTLS])
    (htls₂ : accepted cfg s₂ (.next env₂) = [.startTLS]) :
    (∀ es, outputs (step cfg) t₁ es = outputs (step cfg) t₂ es) ↔
      (.auth ∈ history (step cfg) (accepted cfg) {} es₁ ↔
        .auth ∈ history (step cfg) (accepted cfg) {} es₂) := by
  have hopen : ∀ {s t : Session} {env : Env} {p : List Output},
      step cfg s (.next env) = some (t, p) → ¬s.closed = true := by
    intro s t env p hstep hclosed
    exact nomatch (step_of_closed hclosed _).symm.trans hstep
  have hinv₁ := (inv_exec hrun₁).resolve_left (hopen hstep₁)
  have hinv₂ := (inv_exec hrun₂).resolve_left (hopen hstep₂)
  rw [← hinv₁.auth, ← hinv₂.auth, ← Bool.eq_iff_iff, startTLS_step hstep₁ htls₁,
    startTLS_step hstep₂ htls₂]
  constructor
  · intro hall
    have hprobe := hall probe
    rw [outputs_probe, outputs_probe] at hprobe
    by_contra hne
    -- one of the sessions is authenticated, which the server must require then
    have henabled : cfg.authentication = true := by
      cases h₁ : s₁.authenticated with
      | true => exact hinv₁.enabled h₁
      | false => exact hinv₂.enabled (by simpa [h₁] using hne)
    cases h₁ : s₁.authenticated <;> cases h₂ : s₂.authenticated <;>
      simp [h₁, h₂, henabled] at hne hprobe
  · intro hauth es
    rw [hauth]
    exact ForStd.outputs_eq_of_simulates (simulates_sameButData cfg) ⟨s₂.data, rfl⟩ es

/-- A server that requires authentication. -/
def authServer : SmtpConfig := { openServer with authentication := true }

/-- A client that sends STARTTLS. -/
def plain : List Event := dialog ["EHLO client.example"] ++ [.receive (ofString "STARTTLS")]

/-- A client that sends AUTH before it. -/
def authenticated : List Event :=
  dialog ["EHLO client.example", "AUTH PLAIN AGEAYg=="] ++ [.receive (ofString "STARTTLS")]

/-- A session in which STARTTLS is accepted next. -/
theorem exists_startTLS (es : List Event)
    (h : ((exec (step authServer) {} es).bind fun r => (step authServer r.1 (.next {})).map
      fun _ => accepted authServer r.1 (.next {})) = some [.startTLS]) :
    ∃ s o t p, exec (step authServer) {} es = some (s, o) ∧
      step authServer s (.next {}) = some (t, p) ∧
        accepted authServer s (.next {}) = [.startTLS] := by
  obtain ⟨⟨s, o⟩, hs, hstep⟩ := Option.bind_eq_some_iff.mp h
  obtain ⟨⟨t, p⟩, ht, haccepted⟩ := Option.map_eq_some_iff.mp hstep
  exact ⟨s, o, t, p, hs, ht, haccepted⟩

theorem outputs_eq_iff_example :
    ∃ t₁ o₁ t₂ o₂, exec (step authServer) {} (plain ++ [.next {}]) = some (t₁, o₁) ∧
      exec (step authServer) {} (authenticated ++ [.next {}]) = some (t₂, o₂) ∧
        ((∀ es, outputs (step authServer) t₁ es = outputs (step authServer) t₂ es) ↔
          (.auth ∈ history (step authServer) (accepted authServer) {} plain ↔
            .auth ∈ history (step authServer) (accepted authServer) {} authenticated)) := by
  obtain ⟨s₁, o₁, t₁, p₁, hrun₁, hstep₁, htls₁⟩ :=
    exists_startTLS plain (by decide +kernel)
  obtain ⟨s₂, o₂, t₂, p₂, hrun₂, hstep₂, htls₂⟩ :=
    exists_startTLS authenticated (by decide +kernel)
  exact ⟨t₁, _, t₂, _, ForStd.exec_concat.mpr ⟨s₁, o₁, p₁, hrun₁, hstep₁, rfl⟩,
    ForStd.exec_concat.mpr ⟨s₂, o₂, p₂, hrun₂, hstep₂, rfl⟩,
    outputs_eq_iff hrun₁ hrun₂ hstep₁ hstep₂ htls₁ htls₂⟩

theorem outputs_ne_authenticated :
    ¬∀ (cfg : SmtpConfig) (es₁ es₂ : List Event) (env₁ env₂ : Env) (s₁ s₂ t₁ t₂ : Session)
      (o₁ o₂ p₁ p₂ : List Output),
      exec (step cfg) {} es₁ = some (s₁, o₁) → exec (step cfg) {} es₂ = some (s₂, o₂) →
        step cfg s₁ (.next env₁) = some (t₁, p₁) → step cfg s₂ (.next env₂) = some (t₂, p₂) →
          accepted cfg s₁ (.next env₁) = [.startTLS] → accepted cfg s₂ (.next env₂) = [.startTLS] →
            ∀ es, outputs (step cfg) t₁ es = outputs (step cfg) t₂ es := by
  intro h
  obtain ⟨s₁, o₁, t₁, p₁, hrun₁, hstep₁, htls₁⟩ :=
    exists_startTLS plain (by decide +kernel)
  obtain ⟨s₂, o₂, t₂, p₂, hrun₂, hstep₂, htls₂⟩ :=
    exists_startTLS authenticated (by decide +kernel)
  have hsame := h authServer plain authenticated {} {} s₁ s₂ t₁ t₂ o₁ o₂ p₁ p₂ hrun₁ hrun₂ hstep₁
    hstep₂ htls₁ htls₂ probe
  have hauth₁ : ((exec (step authServer) {} plain).map (·.1.authenticated)) = some false := by
    decide +kernel
  have hauth₂ : ((exec (step authServer) {} authenticated).map (·.1.authenticated)) =
      some true := by decide +kernel
  rw [hrun₁, Option.map_some, Option.some.injEq] at hauth₁
  rw [hrun₂, Option.map_some, Option.some.injEq] at hauth₂
  rw [startTLS_step hstep₁ htls₁, startTLS_step hstep₂ htls₂, outputs_probe, outputs_probe, hauth₁,
    hauth₂] at hsame
  simp [authServer] at hsame

end SmtpSession

end ZoneMta
