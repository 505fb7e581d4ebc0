import ZoneMta.Native.GoQueue

/-!
# Go delivery

What `deliverToRecipient` and `deliverViaMX` of `zone-mta-go/internal/sender/sender.go` return: the
errors, with what they wrap, and their texts. The name service and the mail servers are given by
the results of the calls. A failed STARTTLS is only logged.
-/

namespace ZoneMta

namespace GoDelivery

/-- The code of a reply, as `textproto` reads it: three digits, and not less than 100. -/
abbrev Code := { n : Nat // 100 ≤ n ∧ n < 1000 }

/-- An error of `net/smtp`: a reply that is not the expected one, or another error of the
    connection. -/
inductive SmtpError where
  | reply (code : Code) (msg : String)
  | other (err : String)
deriving Repr, DecidableEq

/-- The calls of `deliverViaMX` after the connection. -/
inductive Call where
  | newClient
  | mail
  | rcpt
  | data
  | write
  | close
deriving Repr, DecidableEq

/-- The error of `deliverViaMX`. -/
inductive MxError where
  | connect (mxHost err : String)
  | call (name : Call) (err : SmtpError)
deriving Repr, DecidableEq

/-- The error of `deliverToRecipient`. -/
inductive DeliveryError where
  | invalidRecipient (recipient : String)
  | lookup (domain err : String)
  | noRecords (domain : String)
  | allFailed (lastErr : MxError)
deriving Repr, DecidableEq

/-! ## Texts -/

/-- `Error`: a reply is written as `%03d %s`. -/
def SmtpError.error : SmtpError → String
  | .reply code msg => toString code.val ++ " " ++ msg
  | .other err => err

/-- What is put in front of the error of a call. -/
def Call.text : Call → String
  | .newClient => "failed to create SMTP client: "
  | .mail => "MAIL FROM failed: "
  | .rcpt => "RCPT TO failed: "
  | .data => "DATA command failed: "
  | .write => "failed to write message data: "
  | .close => "failed to close data writer: "

/-- `Error` -/
def MxError.error : MxError → String
  | .connect mxHost err => "failed to connect to " ++ mxHost ++ ": " ++ err
  | .call name err => name.text ++ err.error

/-- `Error` -/
def DeliveryError.error : DeliveryError → String
  | .invalidRecipient recipient => "invalid recipient address: " ++ recipient
  | .lookup domain err => "MX lookup failed for " ++ domain ++ ": " ++ err
  | .noRecords domain => "no MX records found for " ++ domain
  | .allFailed lastErr => "delivery failed to all MX servers: " ++ lastErr.error

/-! ## Deliveries -/

/-- A mail server, and the errors of the calls; those that succeed have none. -/
structure Mx where
  host : String
  connect : Option String := none
  newClient : Option SmtpError := none
  mail : Option SmtpError := none
  rcpt : Option SmtpError := none
  data : Option SmtpError := none
  write : Option SmtpError := none
  close : Option SmtpError := none
deriving Repr, DecidableEq

/-- `deliverViaMX`: the first call that fails ends it. -/
def deliverViaMX (mx : Mx) : Option MxError :=
  mx.connect.map (.connect mx.host) <|>
  mx.newClient.map (.call .newClient) <|>
  mx.mail.map (.call .mail) <|>
  mx.rcpt.map (.call .rcpt) <|>
  mx.data.map (.call .data) <|>
  mx.write.map (.call .write) <|>
  mx.close.map (.call .close)

/-- The loop of `deliverToRecipient`, with the error of the server before: the error of the last
    server, unless one of them takes the message. -/
def tryAll (lastErr : Option MxError) : List Mx → Option MxError
  | [] => lastErr
  | mx :: mxRecords =>
    match deliverViaMX mx with
    | none => none
    | some err => tryAll (some err) mxRecords

/-- `deliverToRecipient`; `lookupMX` is the name service. -/
def deliverToRecipient (lookupMX : String → Except String (List Mx)) (recipient : String) :
    Option DeliveryError :=
  match recipient.toList.splitOn '@' with
  | [_, domain] =>
    let domain := String.ofList domain
    match lookupMX domain with
    | .error err => some (.lookup domain err)
    | .ok [] => some (.noRecords domain)
    | .ok (mx :: mxRecords) => (tryAll none (mx :: mxRecords)).map .allFailed
  | _ => some (.invalidRecipient recipient)

end GoDelivery

end ZoneMta
