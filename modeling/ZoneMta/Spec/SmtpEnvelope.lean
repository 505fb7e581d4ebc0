import ZoneMta.ForStd.Squeeze
import ZoneMta.Spec.SmtpSessionCorrect

/-!
# The envelope of a message

`Handle` splits a line at white space and joins the words again, and `handleMail` and `handleRcpt`
take the brackets away only if they are around all that is left. So the sender and a recipient get
into the next message as the client has sent them only without parameters, and only if their white
space is single blanks; an empty sender is taken for a missing one.

## Key results

- `parse_command`: the command and the arguments of a line
- `address_eq_iff`: the addresses that are read back
- `taken_iff`: the senders and recipients that get into the next message
-/

namespace ZoneMta

open ForStd (GoString Rune exec history squeeze SingleSpaced)
open ForStd.GoString (ofString)

namespace SmtpSession

/-! ## The commands of a client -/

/-- A parameter of an extension in the response to EHLO. -/
inductive Param where
  | size (n : Nat)
  | body8BitMime
deriving Repr, DecidableEq

/-- A parameter as it is sent. -/
def Param.text : Param → GoString
  | .size n => ofString "SIZE=" ++ (Nat.toDigits 10 n).map .char
  | .body8BitMime => ofString "BODY=8BITMIME"

/-- The parameters behind an address. -/
def paramsText (params : List Param) : GoString :=
  params.flatMap fun param => .char ' ' :: param.text

/-- The arguments of MAIL. -/
def mailArgs (a : GoString) (params : List Param) : GoString :=
  ofString "FROM:<" ++ a ++ .char '>' :: paramsText params

/-- The arguments of RCPT. -/
def rcptArgs (b : GoString) : GoString := ofString "TO:<" ++ b ++ [.char '>']

/-- A MAIL command. -/
def mailLine (a : GoString) (params : List Param) : GoString :=
  ofString "MAIL" ++ .char ' ' :: mailArgs a params

/-- A RCPT command. -/
def rcptLine (b : GoString) : GoString := ofString "RCPT" ++ .char ' ' :: rcptArgs b

/-! ## Lines -/

/-- White space of a text becomes single blanks. -/
def spaced (a : GoString) : GoString := squeeze Rune.isSpace (.char ' ') a

/-- The command and the arguments of a line. -/
theorem parse_command (cmd : GoString) (hcmd : ∀ x ∈ cmd, x.isSpace = false) (hne : cmd ≠ [])
    (args : GoString) (hhead : args.head?.any Rune.isSpace = false)
    (hlast : args.getLast?.any Rune.isSpace = false) :
    parse (cmd ++ .char ' ' :: args) = some (Command.ofName cmd.toUpper, spaced args) := by
  have hjoin := ForStd.GoString.squeeze_eq_join_fields hlast
  rw [hhead, if_neg Bool.false_ne_true, List.nil_append] at hjoin
  rw [parse, ForStd.GoString.fields_append_cons hcmd hne (by decide), spaced, hjoin]
  rfl

theorem isSpace_of_isDigit {c : Char} (h : c.isDigit = true) : (Rune.char c).isSpace = false := by
  have hle : c ≤ '9' := by
    rw [Char.isDigit, Bool.and_eq_true, decide_eq_true_eq, decide_eq_true_eq] at h
    exact h.2
  rw [Rune.isSpace, Bool.or_eq_false_iff, decide_eq_false_iff_not, Bool.and_eq_false_iff]
  constructor
  · intro hmem
    have hlist : ['\t', '\n', '\x0b', '\x0c', '\r', ' ', '\u0085', '\u00a0', '\u1680', '\u2028',
        '\u2029', '\u202f', '\u205f', '\u3000'].all (!·.isDigit) = true := by
      decide
    have hnot := List.all_eq_true.mp hlist c hmem
    rw [h] at hnot
    exact nomatch hnot
  · exact Or.inl (decide_eq_false fun hge => absurd (Char.le_trans hge hle) (by decide))

/-- Parameters have no white space and no bracket. -/
theorem param_text (param : Param) :
    param.text ≠ [] ∧ ∀ x ∈ param.text, x.isSpace = false ∧ x ≠ .char '>' := by
  cases param with
  | body8BitMime => decide
  | size n =>
    refine ⟨List.cons_ne_nil _ _, fun x hx => ?_⟩
    cases List.mem_append.mp hx with
    | inl hconstant =>
      clear hx
      revert x
      decide
    | inr hdigits =>
      obtain ⟨c, hc, rfl⟩ := List.mem_map.mp hdigits
      have hdigit := Nat.isDigit_of_mem_toDigits (by decide) (by decide) hc
      refine ⟨isSpace_of_isDigit hdigit, ?_⟩
      rintro heq
      obtain rfl := Rune.char.inj heq
      exact absurd hdigit (by decide)

/-- Parameters end like one of them. -/
theorem getLast?_paramsText (params : List Param) :
    ∀ x ∈ (paramsText params).getLast?, x.isSpace = false ∧ x ≠ .char '>' := by
  induction params with
  | nil => exact fun _ hx => nomatch hx
  | cons param params ih =>
    intro x hx
    obtain ⟨hne, htext⟩ := param_text param
    rw [paramsText, List.flatMap_cons, List.getLast?_append, Option.mem_def,
      Option.or_eq_some_iff] at hx
    cases hx with
    | inl hx => exact ih x hx
    | inr hx =>
      obtain ⟨y, l, hl⟩ := List.exists_cons_of_ne_nil hne
      rw [hl, List.getLast?_cons_cons, ← hl] at hx
      exact htext x (List.mem_of_getLast? hx.2)

theorem spaced_paramsText (params : List Param) :
    spaced (paramsText params) = paramsText params := by
  induction params with
  | nil => rfl
  | cons param params ih =>
    obtain ⟨hne, htext⟩ := param_text param
    obtain ⟨y, l, hl⟩ := List.exists_cons_of_ne_nil hne
    have hhead : (param.text ++ paramsText params).head?.any Rune.isSpace = false := by
      rw [hl]
      exact (htext y (hl ▸ List.mem_cons_self)).1
    have hrest := ForStd.squeeze_append_of_not (b := .char ' ') (fun x hx => (htext x hx).1)
      (paramsText params)
    have hcons : paramsText (param :: params) =
        .char ' ' :: (param.text ++ paramsText params) := rfl
    rw [spaced, hcons, squeeze, if_pos (by decide), hhead, if_neg Bool.false_ne_true, hrest]
    exact congrArg (fun l => Rune.char ' ' :: (param.text ++ l)) ih

/-- The arguments of MAIL, as they are read. -/
theorem parse_mailLine (a : GoString) (params : List Param) :
    parse (mailLine a params) = some (some .mail, mailArgs (spaced a) params) := by
  have hlast : (mailArgs a params).getLast?.any Rune.isSpace = false := by
    rw [mailArgs, List.getLast?_append, List.getLast?_cons]
    cases hparams : (paramsText params).getLast? with
    | none => rfl
    | some x => exact (getLast?_paramsText params x hparams).1
  have hspaced : spaced (mailArgs a params) = mailArgs (spaced a) params := by
    have hstart : ∀ x ∈ ofString "FROM:<", x.isSpace = false := by decide
    rw [spaced, mailArgs, List.append_assoc, ForStd.squeeze_append_of_not hstart,
      ForStd.squeeze_append_cons (by decide), ← spaced, ← spaced, spaced_paramsText, mailArgs,
      List.append_assoc]
  have hparse := parse_command (ofString "MAIL") (by decide) (by decide) (mailArgs a params)
    (by rfl) hlast
  rw [mailLine, hparse, hspaced]
  rfl

theorem parse_rcptLine (b : GoString) :
    parse (rcptLine b) = some (some .rcpt, rcptArgs (spaced b)) := by
  have hlast : (rcptArgs b).getLast?.any Rune.isSpace = false := by
    rw [rcptArgs, List.getLast?_append]
    rfl
  have hspaced : spaced (rcptArgs b) = rcptArgs (spaced b) := by
    have hstart : ∀ x ∈ ofString "TO:<", x.isSpace = false := by decide
    rw [spaced, rcptArgs, List.append_assoc, ForStd.squeeze_append_of_not hstart,
      ForStd.squeeze_append_cons (by decide), ← spaced, rcptArgs, List.append_assoc]
    rfl
  have hparse := parse_command (ofString "RCPT") (by decide) (by decide) (rcptArgs b) (by rfl) hlast
  rw [rcptLine, hparse, hspaced]
  rfl

/-! ## Addresses -/

theorem dropWhile_eq_self {p : Rune → Bool} {s : GoString} (h : s.head?.any p = false) :
    s.dropWhile p = s := by
  cases s with
  | nil => rfl
  | cons x l => exact List.dropWhile_cons_of_neg (by simpa using h)

theorem trimSpace_eq_self {s : GoString} (hhead : s.head?.any Rune.isSpace = false)
    (hlast : s.getLast?.any Rune.isSpace = false) : s.trimSpace = s := by
  rw [← List.head?_reverse] at hlast
  rw [GoString.trimSpace, dropWhile_eq_self hhead, dropWhile_eq_self hlast, List.reverse_reverse]

theorem hasSuffix_singleton (s : GoString) (x : Rune) :
    s.hasSuffix [x] = true ↔ s.getLast? = some x := by
  rw [GoString.hasSuffix, List.isSuffixOf_iff_suffix]
  constructor
  · rintro ⟨t, rfl⟩
    exact List.getLast?_concat
  · intro h
    obtain ⟨l, rfl⟩ := List.getLast?_eq_some_iff.mp h
    exact List.suffix_append l [x]

/-- What is left of an address that begins with a bracket and ends without white space. -/
theorem address_cons {part : GoString} {x : Rune} (hlast : part.getLast? = some x)
    (hspace : x.isSpace = false) :
    address (.char '<' :: part) = if x = .char '>' then part.dropLast else .char '<' :: part := by
  have hlast' : (.char '<' :: part : GoString).getLast? = some x := by
    rw [List.getLast?_cons, hlast]
    rfl
  have htrim := trimSpace_eq_self (s := .char '<' :: part) (by rfl) (by rw [hlast']; exact hspace)
  have hstart : GoString.hasPrefix (.char '<' :: part) (ofString "<") = true := rfl
  rw [address, htrim, hstart, Bool.true_and]
  by_cases hx : x = .char '>'
  · rw [if_pos hx, if_pos]
    · rfl
    · exact (hasSuffix_singleton _ _).mpr (hx ▸ hlast')
  · rw [if_neg hx, if_neg]
    intro hsuffix
    have hsome := (hasSuffix_singleton _ _).mp hsuffix
    rw [hlast'] at hsome
    exact hx (Option.some.inj hsome)

/-- The address in the arguments of MAIL. -/
theorem address_mailArgs (a : GoString) (params : List Param) :
    address ((mailArgs a params).drop 5) =
      if params = [] then a else .char '<' :: a ++ .char '>' :: paramsText params := by
  have hdrop : (mailArgs a params).drop 5 = .char '<' :: (a ++ .char '>' :: paramsText params) :=
    rfl
  rw [hdrop]
  by_cases hparams : params = []
  · rw [if_pos hparams, hparams, address_cons (x := .char '>') (by simp [paramsText]) (by decide)]
    simp [paramsText]
  · obtain ⟨x, hx⟩ := Option.ne_none_iff_exists'.mp
      (show (paramsText params).getLast? ≠ none by
        rw [ne_eq, List.getLast?_eq_none_iff]
        obtain ⟨param, rest, rfl⟩ := List.exists_cons_of_ne_nil hparams
        exact List.cons_ne_nil _ _)
    obtain ⟨hspace, hne⟩ := getLast?_paramsText params x hx
    have hlast : (a ++ .char '>' :: paramsText params).getLast? = some x := by
      rw [List.getLast?_append, List.getLast?_cons, hx]
      rfl
    rw [address_cons hlast hspace, if_neg hne, if_neg hparams]
    rfl

theorem address_rcptArgs (b : GoString) : address ((rcptArgs b).drop 3) = b := by
  have hdrop : (rcptArgs b).drop 3 = .char '<' :: (b ++ [.char '>']) := rfl
  rw [hdrop, address_cons (x := .char '>') List.getLast?_concat (by decide)]
  simp

theorem spaced_eq_iff (a : GoString) : spaced a = a ↔ SingleSpaced Rune.isSpace (.char ' ') a :=
  ForStd.squeeze_eq_self

/-- The sender that is read is the one that was sent if it has no parameters and only single
    blanks. -/
theorem address_eq_iff (a : GoString) (params : List Param) :
    address ((mailArgs (spaced a) params).drop 5) = a ↔
      params = [] ∧ SingleSpaced Rune.isSpace (.char ' ') a := by
  rw [address_mailArgs, ← spaced_eq_iff]
  by_cases hparams : params = []
  · rw [if_pos hparams, and_iff_right hparams]
  · rw [if_neg hparams]
    apply iff_of_false
    · intro h
      -- the brackets are no white space
      have hfilter := congrArg (List.filter (!Rune.isSpace ·)) h
      rw [List.cons_append, List.filter_cons_of_pos (by decide), List.filter_append,
        List.filter_cons_of_pos (by decide), spaced, ForStd.filter_squeeze (by decide)] at hfilter
      have hlength := congrArg List.length hfilter
      rw [List.length_cons, List.length_append] at hlength
      omega
    · exact fun h => hparams h.1

/-! ## Sessions -/

/-- The session waits for a command after the greeting, and after AUTH if that is required, and
    allows recipients. -/
structure Waits (cfg : SmtpConfig) (s : Session) : Prop where
  isOpen : s.closed = false
  line : s.inData = false
  reader : s.reader = []
  greeted : s.helo ≠ []
  auth : cfg.authentication = true → s.authenticated = true
  room : 0 < cfg.maxRecipients

/-- A line arrives and is handled. -/
def sends (line : GoString) : List Event := [.receive line, .next {}]

/-- The positive reply. -/
def ok : Output := .reply 250 (ofString "OK")

/-- Both commands are accepted, and the next message that is stored has the sender and the
    recipient. -/
def Taken (cfg : SmtpConfig) (s : Session) (a : GoString) (params : List Param) (b : GoString) :
    Prop :=
  ∃ s₁ s₂, exec (step cfg) s (sends (mailLine a params)) = some (s₁, [ok]) ∧
    exec (step cfg) s₁ (sends (rcptLine b)) = some (s₂, [ok]) ∧
      ∀ es t out, exec (step cfg) s₂ es = some (t, out) →
        (∀ c ∈ history (step cfg) (accepted cfg) s₂ es, c.clears = false) →
          ∀ e t' o msg, step cfg t e = some (t', o) → .store msg ∈ o →
            msg.from = a ∧ b ∈ msg.recipients

variable {cfg : SmtpConfig} {s : Session}

theorem exec_sends (hopen : s.closed = false) (hline : s.inData = false) (hreader : s.reader = [])
    (line : GoString) : exec (step cfg) s (sends line) = some (handleLine cfg {} s line) := by
  cases s
  cases hopen
  cases hline
  cases hreader
  simp [exec, sends, step]

/-- MAIL is accepted. -/
theorem handleLine_mail (h : Waits cfg s) (a : GoString) (params : List Param) :
    handleLine cfg {} s (mailLine a params) =
      ({ s with mailFrom := address ((mailArgs (spaced a) params).drop 5), rcptTo := [] },
        [ok]) := by
  have hauth : (cfg.authentication && !s.authenticated) = false := by
    cases hrequired : cfg.authentication with
    | false => rfl
    | true => rw [h.auth hrequired]; rfl
  have hstart : (mailArgs (spaced a) params).toUpper.hasPrefix (ofString "FROM:") = true := rfl
  rw [handleLine, parse_mailLine]
  show handleMail cfg {} s _ = _
  rw [handleMail, if_neg h.greeted, hauth, if_neg Bool.false_ne_true, hstart]
  rfl

/-- RCPT is accepted behind a sender. -/
theorem handleLine_rcpt (hroom : (s.rcptTo.length : Int) < cfg.maxRecipients) (b : GoString) :
    handleLine cfg {} s (rcptLine b) =
      if s.mailFrom = [] then (s, [.reply 503 (ofString "Send MAIL FROM first")])
      else ({ s with rcptTo := s.rcptTo ++ [spaced b] }, [ok]) := by
  have hstart : (rcptArgs (spaced b)).toUpper.hasPrefix (ofString "TO:") = true := rfl
  rw [handleLine, parse_rcptLine]
  show handleRcpt cfg {} s _ = _
  rw [handleRcpt, hstart, Bool.not_true, if_neg Bool.false_ne_true, address_rcptArgs,
    if_neg (Int.not_le.mpr hroom)]
  rfl

/-- The sender and a recipient are there as long as nothing clears them. -/
structure Kept (a b : GoString) (s : Session) (past : List Accepted) : Prop where
  data : s.inData = true → s.rcptTo ≠ []
  kept : (∀ c ∈ past, c.clears = false) → s.mailFrom = a ∧ b ∈ s.rcptTo

variable {a b : GoString} {past : List Accepted} {s' : Session} {out : List Output}

/-- An accepted command that clears something. -/
theorem Kept.of_clears {c : Accepted} (hc : c.clears = true) (hdata : s'.inData = false) :
    Kept a b s' (past ++ [c]) := by
  refine ⟨fun hin => absurd (hdata.symm.trans hin) Bool.false_ne_true, fun hclears => ?_⟩
  have hmem : c ∈ past ++ [c] := List.mem_append_right _ (List.mem_singleton.mpr rfl)
  exact nomatch hc.symm.trans (hclears c hmem)

theorem Kept.change {l : List Accepted} (h : Kept a b s past) (hchange : Change cfg s s' l) :
    Kept a b s' (past ++ l) := by
  have hpast (hclears : ∀ c ∈ past ++ l, c.clears = false) : s.mailFrom = a ∧ b ∈ s.rcptTo :=
    h.kept fun c hc => hclears c (List.mem_append_left _ hc)
  cases hchange with
  | quiet helo mail rcpt auth data =>
    refine ⟨rcpt ▸ data, fun hclears => ?_⟩
    rw [mail, rcpt]
    exact hpast hclears
  | greeting mail rcpt auth data | auth enabled helo mail rcpt auth data =>
    refine ⟨fun hin => absurd (data.symm.trans hin) Bool.false_ne_true, fun hclears => ?_⟩
    rw [mail, rcpt]
    exact hpast hclears
  | rcpt «to» named room helo mail rcpt auth data =>
    refine ⟨fun hin => absurd (data.symm.trans hin) Bool.false_ne_true, fun hclears => ?_⟩
    rw [mail, rcpt]
    exact ⟨(hpast hclears).1, List.mem_append_left _ (hpast hclears).2⟩
  | startTLS helo mail rcpt auth data => exact .of_clears rfl data
  | mail greeted allowed helo rcpt auth data => exact .of_clears rfl data
  | reset hc helo mail rcpt auth data =>
    apply Kept.of_clears _ data
    cases hc with
    | inl h => rw [h]; rfl
    | inr h => rw [h]; rfl

theorem kept_step {e : Event} (h : s.closed = true ∨ Kept a b s past)
    (hstep : step cfg s e = some (s', out)) :
    s'.closed = true ∨ Kept a b s' (past ++ accepted cfg s e) := by
  cases hopen : s'.closed with
  | true => exact Or.inl rfl
  | false =>
    cases h with
    | inl hclosed => cases e <;> simp [step, hclosed] at hstep
    | inr h => exact Or.inr (h.change (change_step hstep hopen h.data))

/-- The message at the end of a session in which nothing clears them. -/
theorem stored_of_kept (h : Kept a b s []) {es : List Event} {t t' : Session} {e : Event}
    {o : List Output} {msg : Message} (hrun : exec (step cfg) s es = some (t, out))
    (hclears : ∀ c ∈ history (step cfg) (accepted cfg) s es, c.clears = false)
    (hstep : step cfg t e = some (t', o)) (hmsg : .store msg ∈ o) :
    msg.from = a ∧ b ∈ msg.recipients := by
  obtain ⟨hopen, -, hfrom, hrcpt⟩ := stored_step hstep hmsg
  have hkept := ForStd.exec_invariant (I := fun s past => s.closed = true ∨ Kept a b s past)
    (fun _ _ _ _ _ h hstep => kept_step h hstep) (Or.inr h) hrun
  rw [hfrom, hrcpt]
  exact (hkept.resolve_left (by rw [hopen]; exact Bool.false_ne_true)).kept hclears

/-- Nothing is accepted when a line arrives. -/
theorem accepted_receive (line : GoString) : accepted cfg s (.receive line) = [] := by
  rw [accepted, step]
  cases s.closed <;> rfl

theorem accepted_of_offers (hline : s.inData = false) {line : GoString} {rest : List GoString}
    (hreader : s.reader = line :: rest) (hoffers : offers line = []) (env : Env) :
    accepted cfg s (.next env) = [] := by
  have hpending : pending s = [] := by
    rw [pending, hline, hreader]
    exact hoffers
  rw [accepted, hpending]
  split
  · exact ite_self []
  · rfl

/-- DATA with an empty message. -/
def emptyData : List Event := sends (ofString "DATA") ++ [.receive (ofString ".")]

/-- The message of a session that has a recipient. -/
theorem exec_emptyData (cfg : SmtpConfig) (hopen : s.closed = false) (hin : s.inData = false)
    (hreader : s.reader = []) (hrcpt : s.rcptTo ≠ []) :
    ∃ t out t' o msg, exec (step cfg) s emptyData = some (t, out) ∧
      history (step cfg) (accepted cfg) s emptyData = [] ∧
        step cfg t (.next {}) = some (t', o) ∧ .store msg ∈ o ∧
          msg.from = s.mailFrom ∧ msg.recipients = s.rcptTo := by
  have hdata : handleLine cfg {} s (ofString "DATA") =
      ({ s with inData := true },
        [.reply 354 (ofString "Start mail input; end with <CRLF>.<CRLF>")]) := by
    have hparse : parse (ofString "DATA") = some (some .data, []) := by decide +kernel
    rw [handleLine, hparse]
    show handleData {} s = _
    rw [handleData, if_neg hrcpt]
    rfl
  have hsends := (exec_sends hopen hin hreader (ofString "DATA")).trans
    (congrArg some hdata)
  have hreceive : step cfg { s with inData := true } (.receive (ofString ".")) =
      some ({ s with inData := true, reader := [ofString "."] }, []) := by
    simp [step, hopen, hreader]
  have hoffers : offers (ofString "DATA") = [] := by decide +kernel
  have hstore : step cfg { s with inData := true, reader := [ofString "."] } (.next {}) =
      some (processMessage cfg {} { s with data := [], reader := [], inData := false }) := by
    simp [step, hopen, dataStep, readDotBytes]
  refine ⟨_, _, _, _, message cfg s [], ForStd.exec_append_eq_some.mpr ⟨_, _, _, hsends,
    ForStd.exec_cons_eq_some.mpr ⟨_, _, _, hreceive, rfl, rfl⟩, rfl⟩, ?_, hstore, ?_, rfl, rfl⟩
  · have hline : step cfg s (.receive (ofString "DATA")) =
        some ({ s with reader := [ofString "DATA"] }, []) := by
      simp [step, hopen, hreader]
    have hdata : accepted cfg { s with reader := [ofString "DATA"] } (.next {}) = [] :=
      accepted_of_offers (s := { s with reader := [ofString "DATA"] }) hin rfl hoffers {}
    rw [emptyData, ForStd.history_append hsends, sends]
    simp only [history, hline, hdata, accepted_receive, List.nil_append]
    split <;> split <;> rfl
  · exact List.mem_cons_self

/-- The sender and the recipient get into the next message if and only if there is a sender, it has
    no parameters, and the white space of both is single blanks. -/
theorem taken_iff (h : Waits cfg s) (a : GoString) (params : List Param) (b : GoString) :
    Taken cfg s a params b ↔ a ≠ [] ∧ params = [] ∧
      SingleSpaced Rune.isSpace (.char ' ') a ∧ SingleSpaced Rune.isSpace (.char ' ') b := by
  have haddress := address_eq_iff a params
  have hmail : exec (step cfg) s (sends (mailLine a params)) = _ :=
    (exec_sends h.isOpen h.line h.reader _).trans (congrArg some (handleLine_mail h a params))
  generalize address ((mailArgs (spaced a) params).drop 5) = sender at haddress hmail
  have hrcpt : exec (step cfg) { s with mailFrom := sender, rcptTo := [] } (sends (rcptLine b)) =
      _ :=
    (exec_sends (s := { s with mailFrom := sender, rcptTo := [] }) h.isOpen h.line h.reader _).trans
      (congrArg some (handleLine_rcpt (s := { s with mailFrom := sender, rcptTo := [] }) h.room b))
  rw [← and_assoc, ← and_assoc, and_assoc (a := a ≠ []), ← haddress, ← spaced_eq_iff b]
  constructor
  · rintro ⟨s₁, s₂, hs₁, hs₂, hstored⟩
    obtain ⟨rfl, -⟩ := Prod.mk.inj (Option.some.inj (hmail.symm.trans hs₁))
    have hs₂ := Option.some.inj (hrcpt.symm.trans hs₂)
    dsimp only at hs₂
    split at hs₂
    next hempty => exact absurd (Prod.mk.inj hs₂).2 (by decide)
    next hsender =>
      obtain ⟨rfl, -⟩ := Prod.mk.inj hs₂
      obtain ⟨t, out, t', o, msg, hrun, hhistory, hstep, hmsg, hfrom, hrecipients⟩ :=
        exec_emptyData (s := { s with mailFrom := sender, rcptTo := [spaced b] }) cfg
          h.isOpen h.line h.reader (List.cons_ne_nil _ _)
      obtain ⟨hsent, hmem⟩ := hstored _ t out hrun (by simp [hhistory]) _ t' o msg hstep hmsg
      rw [hfrom] at hsent
      rw [hrecipients, List.mem_singleton] at hmem
      exact ⟨⟨hsent ▸ hsender, hsent⟩, hmem.symm⟩
  · rintro ⟨⟨hne, rfl⟩, hb⟩
    dsimp only at hrcpt
    rw [if_neg hne] at hrcpt
    refine ⟨_, _, hmail, hrcpt, fun es t out hrun hclears e t' o msg hstep hmsg => ?_⟩
    refine stored_of_kept ⟨fun _ => List.cons_ne_nil _ _, fun _ => ⟨rfl, ?_⟩⟩ hrun hclears hstep
      hmsg
    rw [hb]
    exact List.mem_singleton.mpr rfl

/-- A session with the open server after EHLO. -/
def greetedSession : Session where
  helo := ofString "client.example"

theorem waits_greetedSession : Waits openServer greetedSession :=
  ⟨rfl, rfl, rfl, by decide, nofun, by decide⟩

/-- A sender without parameters gets into the message. -/
theorem taken_iff_example :
    Taken openServer greetedSession (ofString "a@example.com") [] (ofString "b@example.com") :=
  (taken_iff waits_greetedSession _ _ _).mpr (by decide +kernel)

/-- The empty sender of a bounce is taken for a missing one. -/
theorem not_taken :
    ¬∀ (cfg : SmtpConfig) (s : Session) (a : GoString) (params : List Param) (b : GoString),
      Waits cfg s → Taken cfg s a params b := by
  intro h
  obtain ⟨s₁, s₂, hs₁, hs₂, -⟩ := h openServer greetedSession [] [] (ofString "b@example.com")
    waits_greetedSession
  have hout : ((exec (step openServer) greetedSession (sends (mailLine [] []))).bind fun r =>
      (exec (step openServer) r.1 (sends (rcptLine (ofString "b@example.com")))).map Prod.snd) =
        some [.reply 503 (ofString "Send MAIL FROM first")] := by decide +kernel
  rw [hs₁, Option.bind_some, hs₂] at hout
  have hreply : [ok] = [Output.reply 503 (ofString "Send MAIL FROM first")] :=
    Option.some.inj hout
  exact absurd hreply (by decide)

end SmtpSession

end ZoneMta
