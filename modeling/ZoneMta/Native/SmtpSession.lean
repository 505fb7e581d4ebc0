import ZoneMta.ForStd.GoString

/-!
# SMTP session

The session of `zone-mta-go/internal/smtp/server.go`: one connection, from the greeting to the
return of `Handle`. The lines of the client arrive at any time and wait in the reader; `Handle`
takes one after another, and the handler of DATA waits for the lines of the message. What the
network, the TLS library and the queue do while a line is handled is given by an `Env`.
Logs are left out, and so are the deadline of the connection, which ends it like an error does,
and the greeting.
-/

namespace ZoneMta

open ForStd (GoString)
open ForStd.GoString (ofString)

/-- What a session reads of its server and its connection: `tlsConfig` says whether
    `SetTLSConfig` has set one, `origin` is the address of the client. -/
structure SmtpConfig where
  name : GoString
  origin : GoString
  secure : Bool
  authentication : Bool
  maxRecipients : Int
  disableSTARTTLS : Bool
  tlsConfig : Bool
deriving Repr, DecidableEq

namespace SmtpSession

/-- The `QueuedMessage` that `processMessage` stores, and its content. -/
structure Message where
  interface : GoString
  «from» : GoString
  recipients : List GoString
  origin : GoString
  data : GoString
deriving Repr, DecidableEq

/-- What a session does that can be seen from outside. -/
inductive Output where
  /-- `sendResponse` -/
  | reply (code : Nat) (message : GoString)
  /-- a line of `sendMultilineResponse`, which `PrintfLine` takes as its format -/
  | line (format : GoString)
  /-- `queue.Store` -/
  | store (message : Message)
deriving Repr, DecidableEq

/-- `Session`. `reader` has the lines that have arrived and are not read yet, `inData` says that
    the handler of DATA waits for the message, `closed` that `Handle` has returned. -/
structure Session where
  helo : GoString := []
  mailFrom : GoString := []
  rcptTo : List GoString := []
  data : GoString := []
  authenticated : Bool := false
  tlsEnabled : Bool := false
  reader : List GoString := []
  inData : Bool := false
  closed : Bool := false
deriving Repr, DecidableEq

/-- How the calls of a handler end: the number of the write that fails, whether the TLS handshake
    succeeds, whether a read that finds nothing fails, and whether the message is stored. -/
structure Env where
  failedWrite : Option Nat := none
  handshake : Bool := true
  readFails : Bool := false
  stores : Bool := true
deriving Repr, DecidableEq

/-- The writes at the end of a handler. The first one that fails is the last one, and makes
    `Handle` return. -/
def answer (env : Env) (s : Session) (out : List Output) : Session × List Output :=
  match env.failedWrite with
  | none => (s, out)
  | some n => if n < out.length then ({ s with closed := true }, out.take n) else (s, out)

/-- `sendResponse` -/
def sendResponse (env : Env) (s : Session) (code : Nat) (message : GoString) :
    Session × List Output :=
  answer env s [.reply code message]

variable (cfg : SmtpConfig) (env : Env) (s : Session)

/-- The lines of the response to EHLO. -/
def extensions (args : GoString) : List GoString :=
  [ofString "250-" ++ cfg.name ++ ofString " Hello " ++ args, ofString "250-SIZE 35651584",
    ofString "250-8BITMIME", ofString "250-PIPELINING"] ++
  (if !cfg.secure && !s.tlsEnabled && cfg.tlsConfig && !cfg.disableSTARTTLS then
    [ofString "250-STARTTLS"] else []) ++
  (if cfg.authentication then [ofString "250-AUTH PLAIN LOGIN"] else []) ++
  [ofString "250 HELP"]

/-- `handleHelo` -/
def handleHelo (args : GoString) (extended : Bool) : Session × List Output :=
  if args = [] then sendResponse env s 501 (ofString "Syntax: HELO hostname")
  else
    let s := { s with helo := args }
    if extended then answer env s ((extensions cfg s args).map .line)
    else sendResponse env s 250 (cfg.name ++ ofString " Hello " ++ args)

/-- `handleStartTLS`. The new reader starts empty. -/
def handleStartTLS : Session × List Output :=
  if cfg.disableSTARTTLS || !cfg.tlsConfig then
    sendResponse env s 502 (ofString "STARTTLS not available")
  else if s.tlsEnabled then sendResponse env s 503 (ofString "Already running in TLS")
  else
    let (s, out) := sendResponse env s 220 (ofString "Ready to start TLS")
    -- the answer is not written, or the handshake fails: the connection is closed
    if s.closed then (s, out)
    else if !env.handshake then ({ s with closed := true }, out)
    else ({ s with reader := [], tlsEnabled := true, helo := [], mailFrom := [], rcptTo := [] }, out)

/-- `handleAuth` -/
def handleAuth (args : GoString) : Session × List Output :=
  if !cfg.authentication then sendResponse env s 502 (ofString "Authentication not enabled")
  else
    match args.fields with
    | [] => sendResponse env s 501 (ofString "Syntax: AUTH mechanism")
    | mechanism :: _ =>
      if mechanism.toUpper = ofString "PLAIN" ∨ mechanism.toUpper = ofString "LOGIN" then
        sendResponse env { s with authenticated := true } 235
          (ofString "Authentication successful")
      else sendResponse env s 504 (ofString "Authentication mechanism not supported")

/-- The address in the arguments of MAIL and RCPT, behind the keyword. -/
def address (part : GoString) : GoString :=
  let part := part.trimSpace
  if part.hasPrefix (ofString "<") && part.hasSuffix (ofString ">") then
    (part.drop 1).dropLast
  else part

/-- `handleMail` -/
def handleMail (args : GoString) : Session × List Output :=
  if s.helo = [] then sendResponse env s 503 (ofString "Send HELO/EHLO first")
  else if cfg.authentication && !s.authenticated then
    sendResponse env s 530 (ofString "Authentication required")
  else if !args.toUpper.hasPrefix (ofString "FROM:") then
    sendResponse env s 501 (ofString "Syntax: MAIL FROM:<address>")
  else
    sendResponse env { s with mailFrom := address (args.drop 5), rcptTo := [] } 250 (ofString "OK")

/-- `handleRcpt` -/
def handleRcpt (args : GoString) : Session × List Output :=
  if s.mailFrom = [] then sendResponse env s 503 (ofString "Send MAIL FROM first")
  else if !args.toUpper.hasPrefix (ofString "TO:") then
    sendResponse env s 501 (ofString "Syntax: RCPT TO:<address>")
  else if cfg.maxRecipients ≤ s.rcptTo.length then
    sendResponse env s 452 (ofString "Too many recipients")
  else
    sendResponse env { s with rcptTo := s.rcptTo ++ [address (args.drop 3)] } 250 (ofString "OK")

/-- `handleData` up to `ReadDotBytes` -/
def handleData : Session × List Output :=
  if s.rcptTo = [] then sendResponse env s 503 (ofString "Send RCPT TO first")
  else sendResponse env { s with inData := true } 354
    (ofString "Start mail input; end with <CRLF>.<CRLF>")

/-- `ReadDotBytes`, once the last line of the message has arrived: the message, and the lines
    behind it. -/
def readDotBytes : List GoString → Option (GoString × List GoString)
  | [] => none
  | line :: rest =>
    if line = ofString "." then some ([], rest)
    else
      (readDotBytes rest).map fun (data, rest) =>
        -- a dot that was added at the start of a line
        let line := if line.hasPrefix (ofString ".") then line.drop 1 else line
        (line ++ ofString "\n" ++ data, rest)

/-- The message that is stored. -/
def message (data : GoString) : Message where
  interface := cfg.name
  «from» := s.mailFrom
  recipients := s.rcptTo
  origin := cfg.origin
  data := data

/-- `processMessage` -/
def processMessage : Session × List Output :=
  -- the message is handed to the store before its result is known
  let store := Output.store (message cfg s s.data)
  let (s, out) :=
    if env.stores then
      sendResponse env { s with mailFrom := [], rcptTo := [], data := [] } 250
        (ofString "OK: Message queued")
    else sendResponse env s 451 (ofString "Failed to queue message")
  (s, store :: out)

/-- `handleRset` -/
def handleRset : Session × List Output :=
  sendResponse env { s with mailFrom := [], rcptTo := [], data := [] } 250 (ofString "OK")

/-- QUIT -/
def handleQuit : Session × List Output :=
  let (s, out) := sendResponse env s 221 (ofString "Bye")
  ({ s with closed := true }, out)

/-- The commands. -/
inductive Command where
  | helo
  | ehlo
  | startTLS
  | auth
  | mail
  | rcpt
  | data
  | rset
  | noop
  | quit
deriving Repr, DecidableEq

/-- The cases of `handleCommand`. -/
def Command.ofName (cmd : GoString) : Option Command :=
  [(ofString "HELO", .helo), (ofString "EHLO", .ehlo), (ofString "STARTTLS", .startTLS),
    (ofString "AUTH", .auth), (ofString "MAIL", .mail), (ofString "RCPT", .rcpt),
    (ofString "DATA", .data), (ofString "RSET", .rset), (ofString "NOOP", .noop),
    (ofString "QUIT", .quit)].lookup cmd

/-- `handleCommand` -/
def handleCommand (cmd : Option Command) (args : GoString) : Session × List Output :=
  match cmd with
  | some .helo => handleHelo cfg env s args false
  | some .ehlo => handleHelo cfg env s args true
  | some .startTLS => handleStartTLS cfg env s
  | some .auth => handleAuth cfg env s args
  | some .mail => handleMail cfg env s args
  | some .rcpt => handleRcpt cfg env s args
  | some .data => handleData env s
  | some .rset => handleRset env s
  | some .noop => sendResponse env s 250 (ofString "OK")
  | some .quit => handleQuit env s
  | none => sendResponse env s 502 (ofString "Command not implemented")

/-- The command and the arguments of a line, `none` for a line without words. -/
def parse (line : GoString) : Option (Option Command × GoString) :=
  match line.fields with
  | [] => none
  | cmd :: args => some (Command.ofName cmd.toUpper, .join (ofString " ") args)

/-- The body of the loop of `Handle`, for a line. -/
def handleLine (line : GoString) : Session × List Output :=
  match parse line with
  | none => sendResponse env s 500 (ofString "Syntax error")
  | some (cmd, args) => handleCommand cfg env s cmd args

/-- What can happen in a session. -/
inductive Event where
  /-- a line arrives -/
  | receive (line : GoString)
  /-- the session goes on with what it has read -/
  | next (env : Env)
deriving Repr, DecidableEq

/-- The rest of `handleData`. -/
def dataStep : Option (Session × List Output) :=
  match readDotBytes s.reader with
  | some (data, reader) =>
    some (processMessage cfg env { s with data := data, reader := reader, inData := false })
  | none =>
    if env.readFails then
      some (sendResponse env { s with reader := [], inData := false } 451
        (ofString "Failed to read message"))
    else none

/-- The state after an event and what was put out, `none` where the session waits. -/
def step : Event → Option (Session × List Output)
  | .receive line => if s.closed then none else some ({ s with reader := s.reader ++ [line] }, [])
  | .next env =>
    if s.closed then none
    else if s.inData then dataStep cfg env s
    else
      match s.reader with
      -- the loop ends with the error, or waits for a line
      | [] => if env.readFails then some ({ s with closed := true }, []) else none
      | line :: reader => some (handleLine cfg env { s with reader := reader } line)

end SmtpSession

end ZoneMta
