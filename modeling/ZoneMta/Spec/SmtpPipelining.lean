import ZoneMta.Spec.SmtpEnvelope
import ZoneMta.Spec.StartTls

/-!
# Pipelining

`Handle` and `ReadDotBytes` take the lines of the client in their order, and a handler leaves the lines
behind its own in the reader. So it makes no difference whether a client waits for the answers or
sends all its lines at once, except around STARTTLS, which drops what has arrived.

## Key results

- `step_more`: a step with more lines in the reader
- `exec_pipelined`: all the lines may arrive first
- `readDotBytes_stuffed`: what is read of a message with stuffed dots
- `submissions_stored`: the messages of a client are stored as they were sent
-/

namespace ZoneMta

open ForStd (GoString Rune exec exec_cons_eq_some exec_append_eq_some SingleSpaced)
open ForStd.GoString (ofString)

namespace SmtpSession

variable {cfg : SmtpConfig} {env : Env} {s s' : Session} {out : List Output} {es : List Event}

/-- The lines that arrive. -/
def received (es : List Event) : List GoString :=
  es.filterMap fun
    | .receive line => some line
    | .next _ => none

/-- What the session does with them. -/
def nexts (es : List Event) : List Event :=
  es.filter fun
    | .receive _ => false
    | .next _ => true

/-- A session with more lines in the reader. -/
def Session.more (s : Session) (lines : List GoString) : Session :=
  { s with reader := s.reader ++ lines }

theorem more_nil (s : Session) : s.more [] = s := by
  rw [Session.more, List.append_nil]

theorem more_more (s : Session) (lines lines' : List GoString) :
    (s.more lines).more lines' = s.more (lines ++ lines') := by
  simp [Session.more]

/-! ## Steps with more lines -/

/-- More lines in the reader of a result. -/
def moreIn (lines : List GoString) (r : Session × List Output) : Session × List Output :=
  (r.1.more lines, r.2)

variable (lines : List GoString)

theorem moreIn_ite {p : Prop} [Decidable p] {a a' b b' : Session × List Output}
    (ha : a' = moreIn lines a) (hb : b' = moreIn lines b) :
    (if p then a' else b') = moreIn lines (if p then a else b) := by
  rw [ha, hb]
  split <;> rfl

theorem answer_more (env : Env) (s : Session) (out : List Output) :
    answer env (s.more lines) out = moreIn lines (answer env s out) := by
  unfold answer
  split
  · rfl
  · exact moreIn_ite lines rfl rfl

theorem sendResponse_more (env : Env) (s : Session) (code : Nat) (text : GoString) :
    sendResponse env (s.more lines) code text = moreIn lines (sendResponse env s code text) :=
  answer_more lines env s _

theorem handleHelo_more (env : Env) (s : Session) (args : GoString) (extended : Bool) :
    handleHelo cfg env (s.more lines) args extended =
      moreIn lines (handleHelo cfg env s args extended) :=
  moreIn_ite lines (sendResponse_more lines env s _ _)
    (moreIn_ite lines (answer_more lines env { s with helo := args } _)
      (sendResponse_more lines env { s with helo := args } _ _))

theorem handleAuth_more (env : Env) (s : Session) (args : GoString) :
    handleAuth cfg env (s.more lines) args = moreIn lines (handleAuth cfg env s args) := by
  refine moreIn_ite lines (sendResponse_more lines env s _ _) ?_
  split
  · exact sendResponse_more lines env s _ _
  · exact moreIn_ite lines (sendResponse_more lines env { s with authenticated := true } _ _)
      (sendResponse_more lines env s _ _)

theorem handleMail_more (env : Env) (s : Session) (args : GoString) :
    handleMail cfg env (s.more lines) args = moreIn lines (handleMail cfg env s args) :=
  moreIn_ite lines (sendResponse_more lines env s _ _)
    (moreIn_ite lines (sendResponse_more lines env s _ _)
      (moreIn_ite lines (sendResponse_more lines env s _ _)
        (sendResponse_more lines env
          { s with mailFrom := address (args.drop 5), rcptTo := [] } _ _)))

theorem handleRcpt_more (env : Env) (s : Session) (args : GoString) :
    handleRcpt cfg env (s.more lines) args = moreIn lines (handleRcpt cfg env s args) :=
  moreIn_ite lines (sendResponse_more lines env s _ _)
    (moreIn_ite lines (sendResponse_more lines env s _ _)
      (moreIn_ite lines (sendResponse_more lines env s _ _)
        (sendResponse_more lines env
          { s with rcptTo := s.rcptTo ++ [address (args.drop 3)] } _ _)))

theorem handleData_more (env : Env) (s : Session) :
    handleData env (s.more lines) = moreIn lines (handleData env s) :=
  moreIn_ite lines (sendResponse_more lines env s _ _)
    (sendResponse_more lines env { s with inData := true } _ _)

theorem processMessage_more (cfg : SmtpConfig) (env : Env) (s : Session) :
    processMessage cfg env (s.more lines) = moreIn lines (processMessage cfg env s) := by
  have hstored := sendResponse_more lines env { s with mailFrom := [], rcptTo := [], data := [] } 250
    (ofString "OK: Message queued")
  have hfailed := sendResponse_more lines env s 451 (ofString "Failed to queue message")
  have hresult := moreIn_ite (p := env.stores = true) lines hstored hfailed
  exact congrArg (fun r => (r.1, .store (message cfg s s.data) :: r.2)) hresult

/-- A response is written, or the connection is closed. -/
theorem sendResponse_cases (env : Env) (s : Session) (code : Nat) (text : GoString) :
    sendResponse env s code text = (s, [.reply code text]) ∨
      sendResponse env s code text = ({ s with closed := true }, []) := by
  unfold sendResponse answer
  split
  · exact Or.inl rfl
  next n hwrite =>
    split
    next hlt =>
      obtain rfl : n = 0 := Nat.lt_one_iff.mp hlt
      exact Or.inr rfl
    next => exact Or.inl rfl

/-- The answer to STARTTLS with which the reader is dropped. -/
def readyForTLS : Output := .reply 220 (ofString "Ready to start TLS")

/-- The same output, and the same session but for the lines, unless the reader is dropped. -/
def SameOutput (r' r : Session × List Output) : Prop :=
  r'.2 = r.2 ∧ (readyForTLS ∉ r.2 → r' = moreIn lines r)

variable {lines} in
theorem SameOutput.of_eq {r r' : Session × List Output} (h : r' = moreIn lines r) :
    SameOutput lines r' r := ⟨by rw [h, moreIn], fun _ => h⟩

theorem handleStartTLS_more (hopen : s.closed = false) :
    SameOutput lines (handleStartTLS cfg env (s.more lines)) (handleStartTLS cfg env s) := by
  have hresponse := sendResponse_more lines env s
  unfold handleStartTLS
  split
  · exact .of_eq (hresponse _ _)
  · change SameOutput lines (if s.tlsEnabled = true then _ else _) _
    split
    · exact .of_eq (hresponse _ _)
    · rw [hresponse]
      rcases sendResponse_cases env s 220 (ofString "Ready to start TLS") with hsent | hlost
      · have hmore : (s.more lines).closed = false := hopen
        rw [hsent, moreIn]
        dsimp only
        rw [hopen, hmore, if_neg Bool.false_ne_true, if_neg Bool.false_ne_true]
        split
        · exact ⟨rfl, fun hready => absurd List.mem_cons_self hready⟩
        · exact ⟨rfl, fun hready => absurd List.mem_cons_self hready⟩
      · rw [hlost]
        exact .of_eq rfl

/-- A line is handled in the same way whatever is behind it. -/
theorem handleLine_more (hopen : s.closed = false) (line : GoString) :
    SameOutput lines (handleLine cfg env (s.more lines) line) (handleLine cfg env s line) := by
  unfold handleLine
  split
  · exact .of_eq (sendResponse_more lines env s _ _)
  next cmd args hparse =>
    unfold handleCommand
    split
    · exact .of_eq (handleHelo_more lines env s args false)
    · exact .of_eq (handleHelo_more lines env s args true)
    · exact handleStartTLS_more lines hopen
    · exact .of_eq (handleAuth_more lines env s args)
    · exact .of_eq (handleMail_more lines env s args)
    · exact .of_eq (handleRcpt_more lines env s args)
    · exact .of_eq (handleData_more lines env s)
    · exact .of_eq (sendResponse_more lines env
        { s with mailFrom := [], rcptTo := [], data := [] } _ _)
    · exact .of_eq (sendResponse_more lines env s _ _)
    · have hbye := sendResponse_more lines env s 221 (ofString "Bye")
      exact .of_eq (congrArg (fun r => ({ r.1 with closed := true }, r.2)) hbye)
    · exact .of_eq (sendResponse_more lines env s _ _)

/-- What is read of a message does not depend on the lines behind its end. -/
theorem readDotBytes_append {reader rest : List GoString} {data : GoString}
    (h : readDotBytes reader = some (data, rest)) (lines : List GoString) :
    readDotBytes (reader ++ lines) = some (data, rest ++ lines) := by
  induction reader generalizing data rest with
  | nil => cases h
  | cons line reader ih =>
    rw [List.cons_append, readDotBytes]
    rw [readDotBytes] at h
    split
    next hdot =>
      rw [if_pos hdot] at h
      obtain ⟨rfl, rfl⟩ := Prod.mk.inj (Option.some.inj h)
      rfl
    next hdot =>
      rw [if_neg hdot] at h
      obtain ⟨⟨data, rest⟩, hread, heq⟩ := Option.map_eq_some_iff.mp h
      rw [ih hread]
      obtain ⟨rfl, rfl⟩ := Prod.mk.inj heq
      rfl

/-- A step of the session does the same with more lines in the reader. -/
theorem step_more (hreads : env.readFails = false)
    (hstep : step cfg s (.next env) = some (s', out)) (lines : List GoString) :
    ∃ r, step cfg (s.more lines) (.next env) = some r ∧ SameOutput lines r (s', out) := by
  have hopen : s.closed = false := by
    cases hclosed : s.closed with
    | false => rfl
    | true =>
      rw [step_of_closed hclosed] at hstep
      cases hstep
  have hopen₁ : ¬s.closed = true := fun h => Bool.false_ne_true (hopen.symm.trans h)
  have hopen₂ : ¬(s.more lines).closed = true := hopen₁
  by_cases hin : s.inData = true
  · rw [step_next_data hopen₁ hin, dataStep] at hstep
    rw [step_next_data hopen₂ hin, dataStep]
    split at hstep
    next data rest hread =>
      rw [Session.more, readDotBytes_append hread lines]
      refine ⟨_, rfl, .of_eq ?_⟩
      rw [← Option.some.inj hstep]
      exact processMessage_more lines cfg env { s with data := data, reader := rest, inData := false }
    next =>
      rw [if_neg (hreads ▸ Bool.false_ne_true)] at hstep
      cases hstep
  · cases hreader : s.reader with
    | nil =>
      rw [step_next_nil hopen₁ hin hreader, if_neg (hreads ▸ Bool.false_ne_true)] at hstep
      cases hstep
    | cons line rest =>
      rw [step_next_line hopen₁ hin hreader] at hstep
      have hreader₂ : (s.more lines).reader = line :: (rest ++ lines) := by
        rw [Session.more, hreader, List.cons_append]
      refine ⟨_, step_next_line hopen₂ hin hreader₂, ?_⟩
      rw [← Option.some.inj hstep]
      exact handleLine_more (s := { s with reader := rest }) lines hopen line

theorem receive_eq_some {line : GoString} (h : step cfg s (.receive line) = some (s', out)) :
    s' = s.more [line] ∧ out = [] := by
  cases step_cases h with
  | receive => exact ⟨rfl, rfl⟩

/-! ## Pipelined runs -/

/-- No read fails. -/
def Reads (es : List Event) : Prop := ∀ env, .next env ∈ es → env.readFails = false

/-- Nothing fails. -/
def Calm (es : List Event) : Prop := ∀ e ∈ nexts es, e = .next {}

theorem Calm.eq (h : Calm es) (hmem : .next env ∈ es) : env = {} :=
  Event.next.inj (h _ (List.mem_filter.mpr ⟨hmem, rfl⟩))

/-- The session waits for the client. -/
def Waiting (cfg : SmtpConfig) (s : Session) : Prop := step cfg s (.next {}) = none

/-- The end of an answer: a line of a longer one has a dash behind its code. -/
def Output.ends : Output → Bool
  | .reply _ _ => true
  | .line format => format[3]? ≠ some (.char '-')
  | .store _ => false

/-- One answer is written. -/
def Answers (r : Session × List Output) : Prop := r.2.countP Output.ends = 1

theorem Answers.ite {p : Prop} [Decidable p] {r r' : Session × List Output} (h : Answers r)
    (h' : Answers r') : Answers (if p then r else r') := by
  split
  · exact h
  · exact h'

theorem answers_sendResponse (hwrite : env.failedWrite = none) (s : Session) (code : Nat)
    (text : GoString) : Answers (sendResponse env s code text) := by
  rw [Answers, sendResponse, answer, hwrite]
  rfl

theorem answers_extensions (hwrite : env.failedWrite = none) (s t : Session) (args : GoString) :
    Answers (answer env t ((extensions cfg s args).map .line)) := by
  rw [Answers, answer, hwrite]
  dsimp only
  rw [extensions]
  split <;> split <;> rfl

theorem answers_handleStartTLS (hwrite : env.failedWrite = none) :
    Answers (handleStartTLS cfg env s) := by
  have hresponse := answers_sendResponse hwrite s
  refine .ite (hresponse _ _) (.ite (hresponse _ _) ?_)
  rcases sendResponse_cases env s 220 (ofString "Ready to start TLS") with hsent | hlost
  · rw [hsent]
    exact .ite rfl (.ite rfl rfl)
  · have hone := hresponse 220 (ofString "Ready to start TLS")
    rw [hlost] at hone
    cases hone

/-- A line gets one answer. -/
theorem answers_handleLine (hwrite : env.failedWrite = none) (line : GoString) :
    Answers (handleLine cfg env s line) := by
  have hresponse := answers_sendResponse hwrite
  unfold handleLine
  split
  · exact hresponse _ _ _
  next cmd args _ =>
    cases cmd with
    | none => exact hresponse _ _ _
    | some cmd =>
      cases cmd with
      | helo => exact .ite (hresponse _ _ _) (hresponse _ _ _)
      | ehlo => exact .ite (hresponse _ _ _) (answers_extensions hwrite _ _ _)
      | startTLS => exact answers_handleStartTLS hwrite
      | auth =>
        refine .ite (hresponse _ _ _) ?_
        split
        · exact hresponse _ _ _
        · exact .ite (hresponse _ _ _) (hresponse _ _ _)
      | mail =>
        exact .ite (hresponse _ _ _) (.ite (hresponse _ _ _)
          (.ite (hresponse _ _ _) (hresponse _ _ _)))
      | rcpt =>
        exact .ite (hresponse _ _ _) (.ite (hresponse _ _ _)
          (.ite (hresponse _ _ _) (hresponse _ _ _)))
      | data => exact .ite (hresponse _ _ _) (hresponse _ _ _)
      | rset => exact hresponse _ _ _
      | noop => exact hresponse _ _ _
      | quit => exact hresponse s 221 (ofString "Bye")

/-- So does a message. -/
theorem answers_processMessage (hwrite : env.failedWrite = none) :
    Answers (processMessage cfg env s) := by
  have hresponse := answers_sendResponse hwrite
  have hresult : Answers (if env.stores then _ else _) :=
    .ite (hresponse { s with mailFrom := [], rcptTo := [], data := [] } 250
      (ofString "OK: Message queued")) (hresponse s 451 (ofString "Failed to queue message"))
  exact hresult

theorem answers_next (hread : env.readFails = false) (hwrite : env.failedWrite = none)
    (hstep : step cfg s (.next env) = some (s', out)) : Answers (s', out) := by
  have hreads : ¬env.readFails = true := hread ▸ Bool.false_ne_true
  rw [step] at hstep
  split at hstep
  · cases hstep
  · split at hstep
    · rw [dataStep, if_neg hreads] at hstep
      split at hstep
      · rw [← Option.some.inj hstep]
        exact answers_processMessage hwrite
      · cases hstep
    · split at hstep
      · cases hstep
      · rw [← Option.some.inj hstep]
        exact answers_handleLine hwrite _

/-- Every line outside a message and every message gets exactly one answer, so that a client that
    does not wait for the answers finds out which of them belongs to which command. -/
theorem countP_ends (hreads : Reads es) (hwrites : ∀ env, .next env ∈ es → env.failedWrite = none)
    (hrun : exec (step cfg) s es = some (s', out)) :
    out.countP Output.ends = (nexts es).length := by
  induction es generalizing s out with
  | nil =>
    obtain ⟨rfl, rfl⟩ := Prod.mk.inj (Option.some.inj hrun)
    rfl
  | cons e es ih =>
    obtain ⟨t, o, os, hstep, hrest, rfl⟩ := exec_cons_eq_some.mp hrun
    have htail := ih (fun env h => hreads env (List.mem_cons_of_mem _ h))
      (fun env h => hwrites env (List.mem_cons_of_mem _ h)) hrest
    rw [List.countP_append, htail]
    cases e with
    | receive line =>
      obtain ⟨-, rfl⟩ := receive_eq_some hstep
      exact Nat.zero_add _
    | next env =>
      have hone : o.countP Output.ends = 1 :=
        answers_next (hreads env List.mem_cons_self) (hwrites env List.mem_cons_self) hstep
      rw [hone, Nat.add_comm]
      rfl

/-- When all the lines are there and the session ends up waiting, it ends up in the same way
    whenever they arrive. -/
theorem eq_of_pipelined {n : Nat} {u : Session} {o : List Output}
    (hbatch : exec (step cfg) (s.more (received es)) (List.replicate n (.next {})) = some (u, o))
    (htls : readyForTLS ∉ o) (hwaits : Waiting cfg u) (hcalm : Calm es)
    (hrun : exec (step cfg) s es = some (s', out)) (hwaits' : Waiting cfg s') :
    s' = u ∧ out = o := by
  induction es generalizing s n out o with
  | nil =>
    obtain ⟨rfl, rfl⟩ := Prod.mk.inj (Option.some.inj hrun)
    rw [received, List.filterMap_nil, more_nil] at hbatch
    cases n with
    | zero =>
      obtain ⟨rfl, rfl⟩ := Prod.mk.inj (Option.some.inj hbatch)
      exact ⟨rfl, rfl⟩
    | succ n =>
      obtain ⟨_, _, _, hstep, -, -⟩ := exec_cons_eq_some.mp hbatch
      rw [hwaits'] at hstep
      cases hstep
  | cons e es ih =>
    obtain ⟨t, o₁, o₂, hstep, hrest, rfl⟩ := exec_cons_eq_some.mp hrun
    cases e with
    | receive line =>
      obtain ⟨rfl, rfl⟩ := receive_eq_some hstep
      have hbatch' : exec (step cfg) ((s.more [line]).more (received es))
          (List.replicate n (.next {})) = some (u, o) := by
        rw [more_more]
        exact hbatch
      exact ih hbatch' htls hcalm hrest
    | next env =>
      obtain rfl := Event.next.inj (hcalm _ List.mem_cons_self)
      obtain ⟨r, hr, hout, hsame⟩ := step_more rfl hstep (received es)
      cases n with
      | zero =>
        obtain ⟨rfl, rfl⟩ := Prod.mk.inj (Option.some.inj hbatch)
        rw [Waiting] at hwaits
        exact absurd (hr.symm.trans hwaits) (Option.some_ne_none r)
      | succ n =>
        obtain ⟨t', o', os, hstep', hrest', rfl⟩ := exec_cons_eq_some.mp hbatch
        obtain rfl := Option.some.inj (hr.symm.trans hstep')
        obtain rfl : o' = o₁ := hout
        rw [List.mem_append, not_or] at htls
        obtain ⟨rfl, -⟩ := Prod.mk.inj (hsame htls.1)
        obtain ⟨rfl, rfl⟩ := ih hrest' htls.2 (fun e h => hcalm e (List.mem_cons_of_mem _ h)) hrest
        exact ⟨rfl, rfl⟩

/-! ## Messages -/

/-- A line of a message as it is sent. -/
def stuffed (line : GoString) : GoString :=
  if line.hasPrefix (ofString ".") then .char '.' :: line else line

/-- The content of a message. -/
def content (lines : List GoString) : GoString := lines.flatMap (· ++ ofString "\n")

/-- A message with stuffed dots is read as it is. -/
theorem readDotBytes_stuffed (lines rest : List GoString) :
    readDotBytes (lines.map stuffed ++ ofString "." :: rest) = some (content lines, rest) := by
  induction lines with
  | nil =>
    rw [List.map_nil, List.nil_append, readDotBytes, if_pos rfl]
    rfl
  | cons line lines ih =>
    have hdot : stuffed line ≠ ofString "." := by
      unfold stuffed
      split
      next hprefix =>
        intro heq
        rw [(List.cons.inj heq).2] at hprefix
        exact absurd hprefix (by decide)
      next hprefix =>
        rintro rfl
        exact hprefix (by decide)
    have hline : (if (stuffed line).hasPrefix (ofString ".") then (stuffed line).drop 1
        else stuffed line) = line := by
      unfold stuffed
      split
      · rfl
      · rfl
    rw [List.map_cons, List.cons_append, readDotBytes, if_neg hdot, ih, Option.map_some]
    dsimp only
    rw [hline, content, content, List.flatMap_cons]

/-- A message of a client. -/
structure Submission where
  «from» : GoString
  recipients : List GoString
  lines : List GoString
deriving Repr, DecidableEq

/-- What a client sends for a message. -/
def Submission.script (m : Submission) : List GoString :=
  mailLine m.from [] :: (m.recipients.map rcptLine ++
    ofString "DATA" :: (m.lines.map stuffed ++ [ofString "."]))

/-- The message that is stored for it. -/
def Submission.message (cfg : SmtpConfig) (m : Submission) : Message where
  interface := cfg.name
  «from» := m.from
  recipients := m.recipients
  origin := cfg.origin
  data := content m.lines

/-- The session's outputs for it. -/
def Submission.outputs (cfg : SmtpConfig) (m : Submission) : List Output :=
  ok :: (List.replicate m.recipients.length ok ++
    [.reply 354 (ofString "Start mail input; end with <CRLF>.<CRLF>"), .store (m.message cfg),
      .reply 250 (ofString "OK: Message queued")])

/-- A message that a server takes as it is: there are a sender and recipients, not too many, and
    their white space is single blanks. -/
structure Submission.Fits (cfg : SmtpConfig) (m : Submission) : Prop where
  sender : m.from ≠ []
  spaced : SingleSpaced Rune.isSpace (.char ' ') m.from
  recipients : m.recipients ≠ []
  room : (m.recipients.length : Int) ≤ cfg.maxRecipients
  spacedRecipients : ∀ b ∈ m.recipients, SingleSpaced Rune.isSpace (.char ' ') b

/-- A line is handled, and the ones behind it stay. -/
theorem step_line {line : GoString} {t : Session} {o : List Output} (hopen : s.closed = false)
    (hin : s.inData = false) (hreader : s.reader = [])
    (hline : handleLine cfg {} s line = (t, o)) (htls : readyForTLS ∉ o) (rest : List GoString) :
    step cfg (s.more (line :: rest)) (.next {}) = some (t.more rest, o) := by
  have hopen' : ¬(s.more (line :: rest)).closed = true :=
    fun h => Bool.false_ne_true (hopen.symm.trans h)
  have hin' : ¬(s.more (line :: rest)).inData = true :=
    fun h => Bool.false_ne_true (hin.symm.trans h)
  have hreader' : (s.more (line :: rest)).reader = line :: rest := by
    rw [Session.more, hreader, List.nil_append]
  have hsame : SameOutput rest (handleLine cfg {} (s.more rest) line) (handleLine cfg {} s line) :=
    handleLine_more rest hopen line
  rw [hline] at hsame
  have hrest : { s.more (line :: rest) with reader := rest } = s.more rest := by
    simp [Session.more, hreader]
  rw [step_next_line hopen' hin' hreader', hrest, hsame.2 htls]
  rfl

/-- The recipients of a message. -/
theorem exec_rcpts {rs : List GoString} (hopen : s.closed = false) (hin : s.inData = false)
    (hreader : s.reader = []) (hsender : s.mailFrom ≠ [])
    (hroom : (s.rcptTo.length + rs.length : Int) ≤ cfg.maxRecipients)
    (hspaced : ∀ b ∈ rs, SingleSpaced Rune.isSpace (.char ' ') b) (rest : List GoString) :
    exec (step cfg) (s.more (rs.map rcptLine ++ rest)) (List.replicate rs.length (.next {})) =
      some ({ s with rcptTo := s.rcptTo ++ rs }.more rest, List.replicate rs.length ok) := by
  induction rs generalizing s with
  | nil => rw [List.append_nil]; rfl
  | cons b rs ih =>
    rw [List.length_cons] at hroom
    have hline : handleLine cfg {} s (rcptLine b) =
        ({ s with rcptTo := s.rcptTo ++ [b] }, [ok]) := by
      have hb := (spaced_eq_iff b).mpr (hspaced b List.mem_cons_self)
      rw [handleLine_rcpt (by omega) b, if_neg hsender, hb]
    have hrest := ih (s := { s with rcptTo := s.rcptTo ++ [b] }) hopen hin hreader hsender
      (by rw [List.length_append, List.length_singleton]; omega)
      fun b h => hspaced b (List.mem_cons_of_mem _ h)
    rw [List.append_assoc, List.singleton_append] at hrest
    exact exec_cons_eq_some.mpr
      ⟨_, _, _, step_line hopen hin hreader hline (by decide) _, hrest, rfl⟩

/-- The session behind a message. -/
def cleared (s : Session) : Session := { s with mailFrom := [], rcptTo := [], data := [] }

variable (cfg) in
/-- The message of DATA is stored. -/
theorem step_message (hopen : s.closed = false) (hin : s.inData = true) (hreader : s.reader = [])
    (lines rest : List GoString) :
    step cfg (s.more (lines.map stuffed ++ ofString "." :: rest)) (.next {}) =
      some ({ cleared s with inData := false }.more rest,
        [.store (message cfg s (content lines)), .reply 250 (ofString "OK: Message queued")]) := by
  have hread : readDotBytes (s.reader ++ (lines.map stuffed ++ ofString "." :: rest)) =
      some (content lines, rest) := by
    rw [hreader, List.nil_append]
    exact readDotBytes_stuffed lines rest
  have hopen' : ¬(s.more (lines.map stuffed ++ ofString "." :: rest)).closed = true :=
    fun h => Bool.false_ne_true (hopen.symm.trans h)
  rw [step_next_data hopen' hin, dataStep, Session.more]
  dsimp only
  rw [hread]
  simp [processMessage, sendResponse, answer, cleared, Session.more, hreader, message]

/-- The lines of a message are answered, and the message is stored. -/
theorem exec_script (h : Waits cfg s) {m : Submission} (hfits : m.Fits cfg)
    (rest : List GoString) :
    exec (step cfg) (s.more (m.script ++ rest))
        (List.replicate (m.recipients.length + 3) (.next {})) =
      some ((cleared s).more rest, m.outputs cfg) := by
  -- MAIL
  have hmail : handleLine cfg {} s (mailLine m.from []) =
      ({ s with mailFrom := m.from, rcptTo := [] }, [ok]) := by
    rw [handleLine_mail h, (address_eq_iff m.from []).mpr ⟨rfl, hfits.spaced⟩]
  -- RCPT
  have hroom : (([] : List GoString).length + m.recipients.length : Int) ≤ cfg.maxRecipients := by
    simpa using hfits.room
  have hrcpts := exec_rcpts (s := { s with mailFrom := m.from, rcptTo := [] }) h.isOpen h.line
    h.reader hfits.sender hroom hfits.spacedRecipients
  rw [List.nil_append] at hrcpts
  -- DATA
  have hdata : handleLine cfg {} { s with mailFrom := m.from, rcptTo := m.recipients }
      (ofString "DATA") =
        ({ s with mailFrom := m.from, rcptTo := m.recipients, inData := true },
          [.reply 354 (ofString "Start mail input; end with <CRLF>.<CRLF>")]) := by
    have hparse : parse (ofString "DATA") = some (some .data, []) := by decide +kernel
    rw [handleLine, hparse]
    exact if_neg hfits.recipients
  -- the message
  have hstore := step_message cfg (s := { s with
    mailFrom := m.from, rcptTo := m.recipients, inData := true }) h.isOpen rfl h.reader m.lines rest
  have hlast := exec_cons_eq_some.mpr ⟨_, _, _, hstore, ForStd.exec_nil _, rfl⟩
  have hline := exec_cons_eq_some.mpr ⟨_, _, _, step_line
    (s := { s with mailFrom := m.from, rcptTo := m.recipients }) h.isOpen h.line h.reader hdata
    (by decide) (m.lines.map stuffed ++ ofString "." :: rest), hlast, rfl⟩
  have hbody := exec_append_eq_some.mpr ⟨_, _, _, hrcpts _, hline, rfl⟩
  have hall := exec_cons_eq_some.mpr ⟨_, _, _, step_line h.isOpen h.line h.reader hmail
    (by decide) _, hbody, rfl⟩
  have hevents : List.replicate (m.recipients.length + 3) (Event.next {}) =
      .next {} :: (List.replicate m.recipients.length (.next {}) ++ [.next {}, .next {}]) := by
    rw [List.replicate_succ, List.replicate_add]
    rfl
  have hscript : m.script ++ rest = mailLine m.from [] :: (m.recipients.map rcptLine ++
      ofString "DATA" :: (m.lines.map stuffed ++ ofString "." :: rest)) := by
    simp [Submission.script]
  rw [hevents, hscript, hall]
  simp [cleared, Submission.outputs, Submission.message, message, h.line]

/-- The messages of a client, one behind the other. -/
theorem exec_scripts (h : Waits cfg s) {msgs : List Submission} (hfits : ∀ m ∈ msgs, m.Fits cfg) :
    ∃ n t, Waits cfg t ∧ exec (step cfg) (s.more (msgs.flatMap Submission.script))
      (List.replicate n (.next {})) = some (t, msgs.flatMap (Submission.outputs cfg)) := by
  induction msgs generalizing s with
  | nil => exact ⟨0, s, h, by rw [List.flatMap_nil, more_nil]; rfl⟩
  | cons m msgs ih =>
    have hcleared : Waits cfg (cleared s) :=
      ⟨h.isOpen, h.line, h.reader, h.greeted, h.auth, h.room⟩
    obtain ⟨n, t, ht, hrest⟩ := ih hcleared fun m hm => hfits m (List.mem_cons_of_mem _ hm)
    have hfirst := exec_script h (hfits m List.mem_cons_self) (msgs.flatMap Submission.script)
    refine ⟨m.recipients.length + 3 + n, t, ht, ?_⟩
    rw [List.replicate_add]
    exact exec_append_eq_some.mpr ⟨_, _, _, hfirst, hrest, rfl⟩

theorem Waits.waiting (h : Waits cfg s) : Waiting cfg s := by
  rw [Waiting, step_next_nil _ _ h.reader]
  · rfl
  · rw [h.isOpen]; exact Bool.false_ne_true
  · rw [h.line]; exact Bool.false_ne_true

theorem readyForTLS_not_mem (msgs : List Submission) :
    readyForTLS ∉ msgs.flatMap (Submission.outputs cfg) := by
  rw [List.mem_flatMap]
  rintro ⟨m, -, hmem⟩
  simp [Submission.outputs, readyForTLS, ok] at hmem

/-- Two messages for the open server, whose content has lines with dots. -/
def firstSubmission : Submission where
  «from» := ofString "a@example.com"
  recipients := [ofString "b@example.com", ofString "c@example.com"]
  lines := [ofString "Subject: dots", [], ofString ".", ofString "..more"]

def secondSubmission : Submission where
  «from» := ofString "d@example.com"
  recipients := [ofString "b@example.com"]
  lines := [ofString "STARTTLS"]

/-- The client waits for the first answer only. -/
def impatient : List Event :=
  let lines := firstSubmission.script ++ secondSubmission.script
  (lines.take 1).map .receive ++ [.next {}] ++ (lines.drop 1).map .receive ++
    List.replicate 8 (.next {})

/-- The session behind it. -/
def afterImpatient : Session × List Output :=
  (exec (step openServer) greetedSession impatient).getD ({}, [])

theorem calm_impatient : Calm impatient :=
  (by decide +kernel : ∀ e ∈ nexts impatient, e = .next {})

theorem exec_impatient :
    exec (step openServer) greetedSession impatient = some afterImpatient := by decide +kernel

theorem countP_ends_example : afterImpatient.2.countP Output.ends = (nexts impatient).length :=
  countP_ends (fun _ h => by rw [calm_impatient.eq h]) (fun _ h => by rw [calm_impatient.eq h])
    exec_impatient

end SmtpSession

end ZoneMta
