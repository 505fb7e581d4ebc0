import ZoneMta.ForStd.Mealy
import ZoneMta.Native.SmtpSession

/-!
# SMTP session

What the server has accepted in a session is a list of commands, taken from the lines of the
client and the positive replies to them. The fields of the session are a view of that list
(`Inv`), so that every stored message goes back to a MAIL and the RCPTs behind it.

## Key results

- `change_step`: what an event changes, and what the server accepts in it
- `inv_step`: every event keeps the fields in step with the accepted commands
- `stored_accepted`: where the sender and the recipients of a stored message come from
-/

namespace ZoneMta

open ForStd (GoString exec history)
open ForStd.GoString (ofString)

namespace SmtpSession

/-! ## Accepted commands -/

/-- What a server accepts: a command, or a message. -/
inductive Accepted where
  | greeting
  | startTLS
  | auth
  | mail («from» : GoString)
  | rcpt («to» : GoString)
  | rset
  | message
deriving Repr, DecidableEq

/-- A reply that accepts a command. -/
def Output.positive : Output → Bool
  | .reply code _ => 200 ≤ code && code < 300
  | .line _ => true
  | .store _ => false

/-- What a positive reply to a command accepts. -/
def Command.accepts (args : GoString) : Command → List Accepted
  | .helo | .ehlo => [.greeting]
  | .startTLS => [.startTLS]
  | .auth => [.auth]
  | .mail => [.mail (address (args.drop 5))]
  | .rcpt => [.rcpt (address (args.drop 3))]
  | .rset => [.rset]
  | .data | .noop | .quit => []

/-- What a positive reply to a line accepts. -/
def offers (line : GoString) : List Accepted :=
  match parse line with
  | some (some cmd, args) => cmd.accepts args
  | _ => []

/-- What the session is at: the message of DATA, or the next line. -/
def pending (s : Session) : List Accepted :=
  if s.inData then [.message] else (s.reader.head?.map offers).getD []

/-- What the server accepts in a step that leaves the session open. -/
def accepted (cfg : SmtpConfig) (s : Session) (e : Event) : List Accepted :=
  match step cfg s e with
  | some (s', out) => if !s'.closed && out.any Output.positive then pending s else []
  | none => []

/-- The commands after which the recipients are gone. -/
def Accepted.clears : Accepted → Bool
  | .mail _ | .startTLS | .rset | .message => true
  | .greeting | .auth | .rcpt _ => false

/-- The accepted recipients. -/
def recipients (past : List Accepted) : List GoString :=
  past.filterMap fun
    | .rcpt «to» => some «to»
    | _ => none

/-- The client has sent HELO or EHLO since the last STARTTLS. -/
def Greeted (past : List Accepted) : Prop :=
  ∃ before after, past = before ++ .greeting :: after ∧ .startTLS ∉ after

/-- The client may send MAIL. -/
def Ready (cfg : SmtpConfig) (past : List Accepted) : Prop :=
  Greeted past ∧ (cfg.authentication = true → .auth ∈ past)

theorem Greeted.concat {past : List Accepted} (h : Greeted past) {c : Accepted}
    (hc : c ≠ .startTLS) : Greeted (past ++ [c]) := by
  obtain ⟨before, after, rfl, hafter⟩ := h
  refine ⟨before, after ++ [c], by simp, fun hmem => ?_⟩
  have hor := List.mem_append.mp hmem
  rw [List.mem_singleton] at hor
  exact hor.elim hafter fun heq => hc heq.symm

/-! ## Steps -/

variable {cfg : SmtpConfig} {env : Env} {s s' : Session} {out : List Output}

/-- What an event does: a line arrives, the message of DATA is read, the connection fails, or a
    line is handled. -/
inductive Step (cfg : SmtpConfig) (s : Session) : Event → Session → List Output → Prop where
  | receive (line : GoString) (hopen : s.closed = false) :
      Step cfg s (.receive line) { s with reader := s.reader ++ [line] } []
  | data {env : Env} {s' : Session} {out : List Output} (hopen : s.closed = false)
      (hin : s.inData = true) (h : dataStep cfg env s = some (s', out)) :
      Step cfg s (.next env) s' out
  | fail {env : Env} (hopen : s.closed = false) (hin : s.inData = false) :
      Step cfg s (.next env) { s with closed := true } []
  | line {env : Env} {line : GoString} {rest : List GoString} {s' : Session} {out : List Output}
      (hopen : s.closed = false) (hin : s.inData = false) (hreader : s.reader = line :: rest)
      (h : handleLine cfg env { s with reader := rest } line = (s', out)) :
      Step cfg s (.next env) s' out

theorem step_cases {e : Event} (h : step cfg s e = some (s', out)) : Step cfg s e s' out := by
  unfold step at h
  cases e with
  | receive line =>
    dsimp only at h
    split at h
    · exact nomatch h
    · next hopen =>
      obtain ⟨rfl, rfl⟩ := Prod.mk.inj (Option.some.inj h)
      exact .receive line (by simpa using hopen)
  | next env =>
    dsimp only at h
    split at h
    · exact nomatch h
    · next hopen =>
      rw [Bool.not_eq_true] at hopen
      split at h
      · next hin => exact .data hopen hin h
      · next hin =>
        rw [Bool.not_eq_true] at hin
        split at h
        · split at h
          · obtain ⟨rfl, rfl⟩ := Prod.mk.inj (Option.some.inj h)
            exact .fail hopen hin
          · exact nomatch h
        · next hreader => exact .line hopen hin hreader (Option.some.inj h)

/-- An answer that leaves the session open was written. -/
theorem answer_open {out : List Output} (h : (answer env s out).1.closed = false) :
    answer env s out = (s, out) := by
  unfold answer at h ⊢
  cases hn : env.failedWrite with
  | none => rfl
  | some n =>
    rw [hn] at h
    dsimp only at h ⊢
    split
    · next hlt => rw [if_pos hlt] at h; exact nomatch h
    · rfl

/-- What an event changes when it leaves the session open, with what the server accepts. -/
inductive Change (cfg : SmtpConfig) (s s' : Session) : List Accepted → Prop where
  | quiet (helo : s'.helo = s.helo) (mail : s'.mailFrom = s.mailFrom)
      (rcpt : s'.rcptTo = s.rcptTo) (auth : s'.authenticated = s.authenticated)
      (data : s'.inData = true → s.rcptTo ≠ []) : Change cfg s s' []
  | greeting (mail : s'.mailFrom = s.mailFrom) (rcpt : s'.rcptTo = s.rcptTo)
      (auth : s'.authenticated = s.authenticated) (data : s'.inData = false) :
      Change cfg s s' [.greeting]
  | startTLS (helo : s'.helo = []) (mail : s'.mailFrom = []) (rcpt : s'.rcptTo = [])
      (auth : s'.authenticated = s.authenticated) (data : s'.inData = false) :
      Change cfg s s' [.startTLS]
  | auth (enabled : cfg.authentication = true) (helo : s'.helo = s.helo)
      (mail : s'.mailFrom = s.mailFrom) (rcpt : s'.rcptTo = s.rcptTo)
      (auth : s'.authenticated = true) (data : s'.inData = false) : Change cfg s s' [.auth]
  | mail (greeted : s.helo ≠ [])
      (allowed : cfg.authentication = true → s.authenticated = true)
      (helo : s'.helo = s.helo) (rcpt : s'.rcptTo = [])
      (auth : s'.authenticated = s.authenticated) (data : s'.inData = false) :
      Change cfg s s' [.mail s'.mailFrom]
  | rcpt («to» : GoString) (named : s.mailFrom ≠ [])
      (room : (s.rcptTo.length : Int) < cfg.maxRecipients) (helo : s'.helo = s.helo)
      (mail : s'.mailFrom = s.mailFrom) (rcpt : s'.rcptTo = s.rcptTo ++ [«to»])
      (auth : s'.authenticated = s.authenticated) (data : s'.inData = false) :
      Change cfg s s' [.rcpt «to»]
  | reset {c : Accepted} (hc : c = .rset ∨ c = .message) (helo : s'.helo = s.helo)
      (mail : s'.mailFrom = []) (rcpt : s'.rcptTo = [])
      (auth : s'.authenticated = s.authenticated) (data : s'.inData = false) :
      Change cfg s s' [c]

/-- The lines that wait have no part in it. -/
theorem Change.of_reader {reader : List GoString} {l : List Accepted}
    (h : Change cfg { s with reader := reader } s' l) : Change cfg s s' l := by
  cases h with
  | quiet helo mail rcpt auth data => exact .quiet helo mail rcpt auth data
  | greeting mail rcpt auth data => exact .greeting mail rcpt auth data
  | startTLS helo mail rcpt auth data => exact .startTLS helo mail rcpt auth data
  | auth enabled helo mail rcpt auth data => exact .auth enabled helo mail rcpt auth data
  | mail greeted allowed helo rcpt auth data => exact .mail greeted allowed helo rcpt auth data
  | rcpt «to» named room helo mail rcpt auth data =>
    exact .rcpt «to» named room helo mail rcpt auth data
  | reset hc helo mail rcpt auth data => exact .reset hc helo mail rcpt auth data

/-- What the replies accept of what was pending. -/
def acceptedOf (pending : List Accepted) (out : List Output) : List Accepted :=
  if out.any Output.positive then pending else []

/-- A reply that is not positive, of a handler that has changed nothing. -/
theorem change_reply (hdata : s.inData = false) {code : Nat} {message : GoString}
    (hcode : 300 ≤ code) (pending : List Accepted) {r : Session × List Output}
    (hr : r = sendResponse env s code message) (hopen : r.1.closed = false) :
    Change cfg s r.1 (acceptedOf pending r.2) := by
  subst hr
  rw [sendResponse, answer_open hopen]
  have hnot : acceptedOf pending [Output.reply code message] = [] := by
    refine if_neg ?_
    simp only [List.any_cons, List.any_nil, Output.positive, Bool.or_false, Bool.and_eq_true,
      decide_eq_true_eq, not_and]
    omega
  rw [hnot]
  exact .quiet rfl rfl rfl rfl fun h => nomatch hdata.symm.trans h

theorem change_helo (hdata : s.inData = false) {args : GoString} {extended : Bool}
    (hopen : (handleHelo cfg env s args extended).1.closed = false) :
    Change cfg s (handleHelo cfg env s args extended).1
      (acceptedOf [.greeting] (handleHelo cfg env s args extended).2) := by
  unfold handleHelo at hopen ⊢
  split at hopen
  · next hargs => rw [if_pos hargs]; exact change_reply hdata (by decide) _ rfl hopen
  · next hargs =>
    rw [if_neg hargs]
    dsimp only at hopen ⊢
    cases extended with
    | true =>
      rw [if_pos rfl] at hopen ⊢
      rw [answer_open hopen]
      exact .greeting rfl rfl rfl hdata
    | false =>
      rw [if_neg Bool.false_ne_true, sendResponse] at hopen ⊢
      rw [answer_open hopen]
      exact .greeting rfl rfl rfl hdata

theorem change_startTLS (hdata : s.inData = false)
    (hopen : (handleStartTLS cfg env s).1.closed = false) :
    Change cfg s (handleStartTLS cfg env s).1
      (acceptedOf [.startTLS] (handleStartTLS cfg env s).2) := by
  unfold handleStartTLS at hopen ⊢
  split at hopen
  · next h => rw [if_pos h]; exact change_reply hdata (by decide) _ rfl hopen
  · next h =>
    rw [if_neg h]
    split at hopen
    · next htls => rw [if_pos htls]; exact change_reply hdata (by decide) _ rfl hopen
    · next htls =>
      rw [if_neg htls]
      dsimp only at hopen ⊢
      split at hopen
      · next hclosed => rw [hclosed] at hopen; exact nomatch hopen
      · next hwritten =>
        rw [if_neg hwritten]
        rw [Bool.not_eq_true, sendResponse] at hwritten
        rw [sendResponse, answer_open hwritten] at hopen ⊢
        split at hopen
        · exact nomatch hopen
        · next hshake =>
          rw [if_neg hshake]
          exact .startTLS rfl rfl rfl rfl hdata

theorem change_auth (hdata : s.inData = false) {args : GoString}
    (hopen : (handleAuth cfg env s args).1.closed = false) :
    Change cfg s (handleAuth cfg env s args).1
      (acceptedOf [.auth] (handleAuth cfg env s args).2) := by
  unfold handleAuth at hopen ⊢
  cases hauth : cfg.authentication with
  | false =>
    rw [hauth, if_pos (by decide)] at hopen
    rw [if_pos (by decide)]
    exact change_reply hdata (by decide) _ rfl hopen
  | true =>
    rw [hauth, if_neg (by decide)] at hopen
    rw [if_neg (by decide)]
    cases hfields : args.fields with
    | nil =>
      rw [hfields] at hopen
      exact change_reply hdata (by decide) _ rfl hopen
    | cons mechanism rest =>
      rw [hfields] at hopen
      dsimp only at hopen ⊢
      split at hopen
      · next hmechanism =>
        rw [if_pos hmechanism]
        rw [sendResponse] at hopen ⊢
        rw [answer_open hopen]
        exact .auth hauth rfl rfl rfl rfl hdata
      · next hmechanism =>
        rw [if_neg hmechanism]
        exact change_reply hdata (by decide) _ rfl hopen

theorem change_mail (hdata : s.inData = false) {args : GoString}
    (hopen : (handleMail cfg env s args).1.closed = false) :
    Change cfg s (handleMail cfg env s args).1
      (acceptedOf [.mail (address (args.drop 5))] (handleMail cfg env s args).2) := by
  unfold handleMail at hopen ⊢
  split at hopen
  · next h => rw [if_pos h]; exact change_reply hdata (by decide) _ rfl hopen
  · next hhelo =>
    rw [if_neg hhelo]
    split at hopen
    · next h => rw [if_pos h]; exact change_reply hdata (by decide) _ rfl hopen
    · next hauth =>
      rw [if_neg hauth]
      split at hopen
      · next h => rw [if_pos h]; exact change_reply hdata (by decide) _ rfl hopen
      · next hargs =>
        rw [if_neg hargs]
        rw [sendResponse] at hopen ⊢
        rw [answer_open hopen]
        refine .mail hhelo (fun hrequired => ?_) rfl rfl rfl hdata
        rw [hrequired, Bool.true_and, Bool.not_eq_true, Bool.not_eq_false'] at hauth
        exact hauth

theorem change_rcpt (hdata : s.inData = false) {args : GoString}
    (hopen : (handleRcpt cfg env s args).1.closed = false) :
    Change cfg s (handleRcpt cfg env s args).1
      (acceptedOf [.rcpt (address (args.drop 3))] (handleRcpt cfg env s args).2) := by
  unfold handleRcpt at hopen ⊢
  split at hopen
  · next h => rw [if_pos h]; exact change_reply hdata (by decide) _ rfl hopen
  · next hmail =>
    rw [if_neg hmail]
    split at hopen
    · next h => rw [if_pos h]; exact change_reply hdata (by decide) _ rfl hopen
    · next hargs =>
      rw [if_neg hargs]
      split at hopen
      · next h => rw [if_pos h]; exact change_reply hdata (by decide) _ rfl hopen
      · next hroom =>
        rw [if_neg hroom]
        rw [sendResponse] at hopen ⊢
        rw [answer_open hopen]
        exact .rcpt _ hmail (by omega) rfl rfl rfl rfl hdata

theorem change_data (hopen : (handleData env s).1.closed = false) (hdata : s.inData = false) :
    Change cfg s (handleData env s).1 (acceptedOf [] (handleData env s).2) := by
  unfold handleData at hopen ⊢
  split at hopen
  · next h => rw [if_pos h]; exact change_reply hdata (by decide) _ rfl hopen
  · next hrcpt =>
    rw [if_neg hrcpt]
    rw [sendResponse] at hopen ⊢
    rw [answer_open hopen]
    exact .quiet rfl rfl rfl rfl fun _ => hrcpt

/-- A command: the handlers one by one. -/
theorem change_command (hdata : s.inData = false) {cmd : Option Command} {args : GoString}
    (hopen : (handleCommand cfg env s cmd args).1.closed = false) :
    Change cfg s (handleCommand cfg env s cmd args).1
      (acceptedOf ((cmd.map (Command.accepts args)).getD [])
        (handleCommand cfg env s cmd args).2) := by
  cases cmd with
  | none => exact change_reply hdata (by decide) _ rfl hopen
  | some cmd =>
    cases cmd with
    | helo => exact change_helo hdata hopen
    | ehlo => exact change_helo hdata hopen
    | startTLS => exact change_startTLS hdata hopen
    | auth => exact change_auth hdata hopen
    | mail => exact change_mail hdata hopen
    | rcpt => exact change_rcpt hdata hopen
    | data => exact change_data hopen hdata
    | rset =>
      simp only [handleCommand, handleRset, sendResponse] at hopen ⊢
      rw [answer_open hopen]
      exact .reset (Or.inl rfl) rfl rfl rfl rfl hdata
    | noop =>
      simp only [handleCommand, sendResponse] at hopen ⊢
      rw [answer_open hopen]
      exact .quiet rfl rfl rfl rfl fun h => nomatch hdata.symm.trans h
    | quit => exact nomatch hopen

theorem change_line (hdata : s.inData = false) {line : GoString}
    (hopen : (handleLine cfg env s line).1.closed = false) :
    Change cfg s (handleLine cfg env s line).1
      (acceptedOf (offers line) (handleLine cfg env s line).2) := by
  unfold handleLine offers at *
  cases hparse : parse line with
  | none =>
    rw [hparse] at hopen
    exact change_reply hdata (show 300 ≤ 500 by decide) [] rfl hopen
  | some cmdArgs =>
    obtain ⟨cmd, args⟩ := cmdArgs
    rw [hparse] at hopen
    cases cmd with
    | none => exact change_command hdata hopen
    | some cmd => exact change_command hdata hopen

/-- The rest of DATA. -/
theorem change_dataStep (h : dataStep cfg env s = some (s', out)) (hopen : s'.closed = false) :
    Change cfg s s' (acceptedOf [.message] out) := by
  unfold dataStep at h
  split at h
  · next data reader _ =>
    have h := Option.some.inj h
    unfold processMessage at h
    dsimp only at h
    split at h
    · obtain ⟨rfl, rfl⟩ := Prod.mk.inj h
      rw [sendResponse] at hopen ⊢
      rw [answer_open hopen]
      exact .reset (Or.inr rfl) rfl rfl rfl rfl rfl
    · obtain ⟨rfl, rfl⟩ := Prod.mk.inj h
      rw [sendResponse] at hopen ⊢
      rw [answer_open hopen]
      exact .quiet rfl rfl rfl rfl nofun
  · split at h
    · have h := Option.some.inj h
      have hwritten := answer_open ((congrArg (·.1.closed) h).trans hopen)
      rw [sendResponse, hwritten] at h
      obtain ⟨rfl, rfl⟩ := Prod.mk.inj h
      exact .quiet rfl rfl rfl rfl nofun
    · exact nomatch h

/-- What an event changes, and what the server accepts in it. -/
theorem change_step {e : Event} (h : step cfg s e = some (s', out)) (hopen : s'.closed = false)
    (hdata : s.inData = true → s.rcptTo ≠ []) : Change cfg s s' (accepted cfg s e) := by
  have haccepted : accepted cfg s e = acceptedOf (pending s) out := by
    rw [accepted, h]
    dsimp only
    rw [hopen, acceptedOf]
    rfl
  rw [haccepted]
  cases step_cases h with
  | receive line _ => exact .quiet rfl rfl rfl rfl hdata
  | data _ hin hstep =>
    rw [pending, if_pos hin]
    exact change_dataStep hstep hopen
  | fail _ _ => exact nomatch hopen
  | @line env line rest _ _ _ hin hreader hline =>
    rw [pending, hin, if_neg Bool.false_ne_true, hreader, List.head?_cons, Option.map_some,
      Option.getD_some]
    have hout : (handleLine cfg env { s with reader := rest } line).2 = out := by rw [hline]
    have hs' : (handleLine cfg env { s with reader := rest } line).1 = s' := by rw [hline]
    rw [← hout, ← hs']
    rw [← hs'] at hopen
    have hrest : ({ s with reader := rest } : Session).inData = false := hin
    exact (change_line hrest hopen).of_reader

/-! ## The invariant -/

/-- The fields of an open session, by what the server has accepted. -/
structure Inv (cfg : SmtpConfig) (s : Session) (past : List Accepted) : Prop where
  greeted : s.helo ≠ [] → Greeted past
  auth : s.authenticated = true ↔ .auth ∈ past
  enabled : s.authenticated = true → cfg.authentication = true
  mail : s.mailFrom ≠ [] → ∃ before after, past = before ++ .mail s.mailFrom :: after ∧
    Ready cfg before ∧ s.rcptTo = recipients after ∧ ∀ c ∈ after, c.clears = false
  named : s.rcptTo ≠ [] → s.mailFrom ≠ []
  room : s.rcptTo ≠ [] → (s.rcptTo.length : Int) ≤ cfg.maxRecipients
  data : s.inData = true → s.rcptTo ≠ []

theorem inv_empty (cfg : SmtpConfig) : Inv cfg {} [] where
  greeted h := absurd rfl h
  auth := ⟨fun h => (nomatch h), fun h => (nomatch h)⟩
  enabled h := nomatch h
  mail h := absurd rfl h
  named h := absurd rfl h
  room h := absurd rfl h
  data h := nomatch h

/-- The sender stays, and so do its recipients, when something else is accepted. -/
theorem Inv.mail_concat {past : List Accepted} (h : Inv cfg s past) {c : Accepted}
    (hc : c.clears = false) (hmail : s.mailFrom ≠ []) :
    ∃ before after, past ++ [c] = before ++ .mail s.mailFrom :: after ∧ Ready cfg before ∧
      s.rcptTo ++ recipients [c] = recipients after ∧ ∀ c ∈ after, c.clears = false := by
  obtain ⟨before, after, rfl, hready, hrcpt, hafter⟩ := h.mail hmail
  refine ⟨before, after ++ [c], by simp, hready, ?_, fun c' hc' => ?_⟩
  · rw [hrcpt, recipients, recipients, recipients, List.filterMap_append]
  · have hor := List.mem_append.mp hc'
    rw [List.mem_singleton] at hor
    exact hor.elim (hafter c') fun heq => heq ▸ hc

theorem Inv.change {past l : List Accepted} (h : Inv cfg s past) (hchange : Change cfg s s' l) :
    Inv cfg s' (past ++ l) := by
  cases hchange with
  | quiet helo mail rcpt auth data =>
    rw [List.append_nil]
    constructor
    · rw [helo]; exact h.greeted
    · rw [auth]; exact h.auth
    · rw [auth]; exact h.enabled
    · rw [mail, rcpt]; exact h.mail
    · rw [mail, rcpt]; exact h.named
    · rw [rcpt]; exact h.room
    · rw [rcpt]; exact data
  | greeting mail rcpt auth data =>
    constructor
    · exact fun _ => ⟨past, [], rfl, List.not_mem_nil⟩
    · rw [auth, h.auth]; simp
    · rw [auth]; exact h.enabled
    · rw [mail, rcpt]
      intro hmail
      have hconcat := h.mail_concat (c := .greeting) rfl hmail
      rwa [show recipients [.greeting] = [] from rfl, List.append_nil] at hconcat
    · rw [mail, rcpt]; exact h.named
    · rw [rcpt]; exact h.room
    · exact fun hin => nomatch data.symm.trans hin
  | startTLS helo mail rcpt auth data =>
    constructor
    · exact fun hhelo => absurd helo hhelo
    · rw [auth, h.auth]; simp
    · rw [auth]; exact h.enabled
    · exact fun hmail => absurd mail hmail
    · exact fun hrcpt => absurd rcpt hrcpt
    · exact fun hrcpt => absurd rcpt hrcpt
    · exact fun hin => nomatch data.symm.trans hin
  | auth enabled helo mail rcpt auth data =>
    constructor
    · rw [helo]; exact fun hhelo => (h.greeted hhelo).concat nofun
    · rw [auth]; simp
    · exact fun _ => enabled
    · rw [mail, rcpt]
      intro hmail
      have hconcat := h.mail_concat (c := .auth) rfl hmail
      rwa [show recipients [.auth] = [] from rfl, List.append_nil] at hconcat
    · rw [mail, rcpt]; exact h.named
    · rw [rcpt]; exact h.room
    · exact fun hin => nomatch data.symm.trans hin
  | mail greeted allowed helo rcpt auth data =>
    constructor
    · rw [helo]; exact fun hhelo => (h.greeted hhelo).concat nofun
    · rw [auth, h.auth]; simp
    · rw [auth]; exact h.enabled
    · intro _
      refine ⟨past, [], rfl, ⟨h.greeted greeted, fun hauth => ?_⟩, rcpt, nofun⟩
      exact h.auth.mp (allowed hauth)
    · exact fun hrcpt => absurd rcpt hrcpt
    · exact fun hrcpt => absurd rcpt hrcpt
    · exact fun hin => nomatch data.symm.trans hin
  | rcpt «to» named room helo mail rcpt auth data =>
    constructor
    · rw [helo]; exact fun hhelo => (h.greeted hhelo).concat nofun
    · rw [auth, h.auth]; simp
    · rw [auth]; exact h.enabled
    · rw [mail, rcpt]
      exact fun hmail => h.mail_concat rfl hmail
    · rw [mail]; exact fun _ => named
    · rw [rcpt, List.length_append, List.length_singleton]
      omega
    · exact fun hin => nomatch data.symm.trans hin
  | @reset c hc helo mail rcpt auth data =>
    have hne : c ≠ .startTLS ∧ c ≠ .auth := by cases hc with
      | inl h => subst h; exact ⟨nofun, nofun⟩
      | inr h => subst h; exact ⟨nofun, nofun⟩
    constructor
    · rw [helo]; exact fun hhelo => (h.greeted hhelo).concat hne.1
    · rw [auth, h.auth, List.mem_append, List.mem_singleton]
      exact ⟨Or.inl, fun hor => hor.resolve_right fun heq => hne.2 heq.symm⟩
    · rw [auth]; exact h.enabled
    · exact fun hmail => absurd mail hmail
    · exact fun hrcpt => absurd rcpt hrcpt
    · exact fun hrcpt => absurd rcpt hrcpt
    · exact fun hin => nomatch data.symm.trans hin

/-- Every event keeps the fields in step with the accepted commands, unless it closes the
    session. -/
theorem inv_step {e : Event} {past : List Accepted} (h : s.closed = true ∨ Inv cfg s past)
    (hstep : step cfg s e = some (s', out)) :
    s'.closed = true ∨ Inv cfg s' (past ++ accepted cfg s e) := by
  cases hs' : s'.closed with
  | true => exact Or.inl rfl
  | false =>
    cases h with
    | inl hclosed =>
      -- a closed session takes no step
      cases e <;> simp [step, hclosed] at hstep
    | inr hinv => exact Or.inr (hinv.change (change_step hstep hs' hinv.data))

theorem inv_exec {es : List Event} (hrun : exec (step cfg) {} es = some (s, out)) :
    s.closed = true ∨ Inv cfg s (history (step cfg) (accepted cfg) {} es) :=
  ForStd.exec_invariant (I := fun s past => s.closed = true ∨ Inv cfg s past)
    (fun _ _ _ _ _ h hstep => inv_step h hstep) (Or.inr (inv_empty cfg)) hrun

/-! ## Stored messages -/

theorem store_not_mem_sendResponse {code : Nat} {text : GoString} {msg : Message} :
    .store msg ∉ (sendResponse env s code text).2 := by
  unfold sendResponse answer
  split
  · simp
  · split
    · exact fun hmem => by simpa using List.mem_of_mem_take hmem
    · simp

theorem store_not_mem_handleHelo {args : GoString} {extended : Bool} {msg : Message} :
    .store msg ∉ (handleHelo cfg env s args extended).2 := by
  unfold handleHelo
  split
  · exact store_not_mem_sendResponse
  · dsimp only
    split
    · unfold answer
      split
      · simp
      · split
        · exact fun hmem => by simpa using List.mem_of_mem_take hmem
        · simp
    · exact store_not_mem_sendResponse

/-- No command stores a message. -/
theorem store_not_mem_handleLine {line : GoString} {msg : Message} :
    .store msg ∉ (handleLine cfg env s line).2 := by
  unfold handleLine
  split
  · exact store_not_mem_sendResponse
  · next cmd args _ =>
    cases cmd with
    | none => exact store_not_mem_sendResponse
    | some cmd =>
      cases cmd with
      | helo => exact store_not_mem_handleHelo
      | ehlo => exact store_not_mem_handleHelo
      | startTLS =>
        unfold handleCommand handleStartTLS
        dsimp only
        repeat' split
        all_goals exact store_not_mem_sendResponse
      | auth =>
        unfold handleCommand handleAuth
        dsimp only
        repeat' split
        all_goals exact store_not_mem_sendResponse
      | mail =>
        unfold handleCommand handleMail
        dsimp only
        repeat' split
        all_goals exact store_not_mem_sendResponse
      | rcpt =>
        unfold handleCommand handleRcpt
        dsimp only
        repeat' split
        all_goals exact store_not_mem_sendResponse
      | data =>
        unfold handleCommand handleData
        dsimp only
        split <;> exact store_not_mem_sendResponse
      | rset => exact store_not_mem_sendResponse
      | noop => exact store_not_mem_sendResponse
      | quit => exact store_not_mem_sendResponse

/-- A message is stored at the end of DATA, with the fields of the session. -/
theorem stored_step {e : Event} {msg : Message} (h : step cfg s e = some (s', out))
    (hmsg : .store msg ∈ out) : s.closed = false ∧ s.inData = true ∧
      msg.from = s.mailFrom ∧ msg.recipients = s.rcptTo := by
  cases step_cases h with
  | receive line _ => exact nomatch hmsg
  | fail _ _ => exact nomatch hmsg
  | line _ _ _ hline =>
    have hout := congrArg Prod.snd hline
    subst hout
    exact absurd hmsg store_not_mem_handleLine
  | data hopen hin hdata =>
    refine ⟨hopen, hin, ?_⟩
    unfold dataStep at hdata
    split at hdata
    · have hout := congrArg Prod.snd (Option.some.inj hdata)
      subst hout
      unfold processMessage at hmsg
      dsimp only at hmsg
      cases List.mem_cons.mp hmsg with
      | inl heq => rw [Output.store.inj heq]; exact ⟨rfl, rfl⟩
      | inr hrest => split at hrest <;> exact absurd hrest store_not_mem_sendResponse
    · split at hdata
      · have hout := congrArg Prod.snd (Option.some.inj hdata)
        subst hout
        exact absurd hmsg store_not_mem_sendResponse
      · exact nomatch hdata

/-- Where a stored message comes from: its sender was accepted after a greeting on the present
    connection, and after AUTH if that is required, and its recipients are those that were
    accepted since and are not cleared. -/
theorem stored_accepted {es : List Event} {e : Event} {o : List Output} {msg : Message}
    (hrun : exec (step cfg) {} es = some (s, out)) (hstep : step cfg s e = some (s', o))
    (hmsg : .store msg ∈ o) :
    1 ≤ msg.recipients.length ∧ (msg.recipients.length : Int) ≤ cfg.maxRecipients ∧
      msg.from ≠ [] ∧
      ∃ before after,
        history (step cfg) (accepted cfg) {} es = before ++ .mail msg.from :: after ∧
          Ready cfg before ∧ msg.recipients = recipients after ∧
            ∀ c ∈ after, c.clears = false := by
  obtain ⟨hopen, hin, hfrom, hrcpt⟩ := stored_step hstep hmsg
  have hinv := (inv_exec hrun).resolve_left (by rw [hopen]; exact Bool.false_ne_true)
  have hne := hinv.data hin
  have hnamed := hinv.named hne
  rw [hfrom, hrcpt]
  exact ⟨List.length_pos_iff.mpr hne, hinv.room hne, hnamed, hinv.mail hnamed⟩

/-- A server that requires no authentication. -/
def openServer : SmtpConfig where
  name := ofString "feeder"
  origin := ofString "127.0.0.1"
  secure := false
  authentication := false
  maxRecipients := 10
  disableSTARTTLS := false
  tlsConfig := true

/-- The lines of a client arrive and are handled one by one. -/
def dialog (lines : List String) : List Event :=
  lines.flatMap fun line => [.receive (ofString line), .next {}]

/-- A client sends a message. -/
def oneMessage : List Event :=
  dialog ["EHLO client.example", "MAIL FROM:<a@example.com>", "RCPT TO:<b@example.com>", "DATA"] ++
    [.receive (ofString "Hello"), .receive (ofString ".")]

/-- The message. -/
def sentMessage : Message where
  interface := ofString "feeder"
  «from» := ofString "a@example.com"
  recipients := [ofString "b@example.com"]
  origin := ofString "127.0.0.1"
  data := ofString "Hello\n"

theorem stored_accepted_example :
    ∃ before after, history (step openServer) (accepted openServer) {} oneMessage =
        before ++ .mail (ofString "a@example.com") :: after ∧ Ready openServer before ∧
          [ofString "b@example.com"] = recipients after ∧ ∀ c ∈ after, c.clears = false := by
  have hmsg : ((exec (step openServer) {} oneMessage).bind
      fun r => (step openServer r.1 (.next {})).map Prod.snd).any (.store sentMessage ∈ ·) =
        true := by decide +kernel
  obtain ⟨o, ho, hmem⟩ := (Option.any_eq_true _ _).mp hmsg
  obtain ⟨⟨s, out⟩, hs, hstep⟩ := Option.bind_eq_some_iff.mp ho
  obtain ⟨⟨s', o'⟩, hs', rfl⟩ := Option.map_eq_some_iff.mp hstep
  exact (stored_accepted hs hs' (of_decide_eq_true hmem)).2.2.2

end SmtpSession

end ZoneMta
