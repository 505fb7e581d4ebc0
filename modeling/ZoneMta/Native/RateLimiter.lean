import ZoneMta.ForStd.Calendar
import ZoneMta.ForStd.Expiring

/-!
# Go rate limiter

`checkRateLimit` and `updateCounters` of `zone-mta-go/plugins/rate-limiter/plugin.go`, over the
counters in Redis, and the messages of a sender one after another. Times are milliseconds of a
clock that is not set back, since 1970-01-01 of its zone. The calls of Redis succeed; a counter is
a number.
-/

namespace ZoneMta

namespace RateLimiter

open ForStd (Expiring Date pad)

/-- The counters. -/
abbrev Redis := Expiring String

/-- `Config`, with the defaults of `Initialize`. -/
structure Config where
  limits : List (String × String) := [("sender", "100/hour"), ("ip", "1000/hour")]
  whitelistIP : List String := []
  action : String := "defer"
  message : String := "Rate limit exceeded, please try again later"
deriving Repr, DecidableEq

/-- `HookData`: the sender of the message, if there is one, and where it comes from. -/
structure HookData where
  «from» : Option String
  remoteIP : String
  interface : String
deriving Repr, DecidableEq

/-- `HookResult` -/
structure HookResult where
  accept : Bool
  reject : Bool
  message : String
deriving Repr, DecidableEq

/-! ## Limits -/

/-- `time.Second` -/
def second : Nat := 1000

/-- `time.Minute` -/
def minute : Nat := 60 * second

/-- `time.Hour` -/
def hour : Nat := 60 * minute

/-- 24 hours -/
def day : Nat := 24 * hour

/-- `strconv.ParseInt` for 64 bits. -/
def parseInt (s : List Char) : Option Int :=
  let (negative, digits) :=
    match s with
    | '+' :: digits => (false, digits)
    | '-' :: digits => (true, digits)
    | digits => (false, digits)
  if digits = [] ∨ digits.all Char.isDigit = false then none
  else
    let value : Int := Nat.ofDigitChars 10 digits 0
    let value := if negative then -value else value
    if -2 ^ 63 ≤ value ∧ value < 2 ^ 63 then some value else none

/-- `getLimitValue` -/
def getLimitValue (limitStr : String) : Int :=
  match limitStr.toList.splitOn '/' with
  | [limit, _] => (parseInt limit).getD 0
  | _ => 0

/-- `getLimitDuration` -/
def getLimitDuration (limitStr : String) : Nat :=
  match limitStr.toList.splitOn '/' with
  | [_, period] =>
    let period := String.ofList period
    if period = "second" ∨ period = "sec" then second
    else if period = "minute" ∨ period = "min" then minute
    else if period = "hour" ∨ period = "hr" then hour
    else if period = "day" then day
    else 0
  | _ => 0

/-! ## Keys -/

/-- `getTimeWindow`: the date and the hour. -/
def getTimeWindow (t : Nat) : String :=
  let date := Date.ofDays (t / day)
  String.ofList (pad 4 date.year ++ pad 2 date.month ++ pad 2 date.day ++ pad 2 (t / hour % 24))

/-- `getCounterKey`, empty where there is no counter. -/
def getCounterKey (limitType : String) (data : HookData) (now : Nat) : String :=
  if limitType = "sender" then
    match data.from with
    | some sender => "rate_limit:sender:" ++ sender ++ ":" ++ getTimeWindow now
    | none => ""
  else if limitType = "ip" ∧ data.remoteIP ≠ "" then
    "rate_limit:ip:" ++ data.remoteIP ++ ":" ++ getTimeWindow now
  else if limitType = "interface" ∧ data.interface ≠ "" then
    "rate_limit:interface:" ++ data.interface ++ ":" ++ getTimeWindow now
  else ""

/-! ## Hooks -/

/-- `checkLimit`: a counter that is missing exceeds nothing, and a limit of 0 is none. -/
def checkLimit (redis : Redis) (now : Nat) (data : HookData) (limitType limitStr : String) : Bool :=
  let key := getCounterKey limitType data now
  if key = "" then false
  else
    match redis.get now key with
    | none => false
    | some count =>
      let limit := getLimitValue limitStr
      if limit = 0 then false else limit ≤ count

/-- `checkRateLimit`: the result for a message that is flagged. -/
def checkRateLimit (config : Config) (redis : Redis) (now : Nat) (data : HookData) :
    Option HookResult :=
  if data.from = none then none
  else if data.remoteIP ∈ config.whitelistIP then none
  else if config.limits.any fun (limitType, limitStr) =>
      checkLimit redis now data limitType limitStr then
    some { accept := false, reject := config.action == "reject", message := config.message }
  else none

/-- The body of the loop of `updateCounters`. -/
def updateCounter (redis : Redis) (now : Nat) (data : HookData) (limitType limitStr : String) :
    Redis :=
  let key := getCounterKey limitType data now
  if key = "" then redis
  else
    let duration := getLimitDuration limitStr
    -- `IncrementWithExpire`, which restarts the lifetime also of a key that is there
    if duration = 0 then redis else redis.incr now key duration

/-- `updateCounters` -/
def updateCounters (config : Config) (redis : Redis) (now : Nat) (data : HookData) : Redis :=
  if data.from = none then redis
  else config.limits.foldl (fun redis (limitType, limitStr) =>
    updateCounter redis now data limitType limitStr) redis

/-! ## Messages of a sender -/

/-- What has happened to a message: it has passed, and was counted at the second time, or it was
    flagged. -/
inductive Entry where
  | passed (checked counted : Nat)
  | flagged (checked : Nat)
deriving Repr, DecidableEq

/-- The counters, the time of the last call, and the messages of the sender, the last one first. -/
structure System where
  redis : Redis := fun _ => none
  now : Nat := 0
  log : List Entry := []

/-- The next message: where it comes from, and the times of `checkRateLimit` and of
    `updateCounters`. -/
structure Message where
  remoteIP : String := ""
  interface : String := ""
  checked : Nat
  counted : Nat
deriving Repr, DecidableEq

/-- The next message of the sender goes through `checkRateLimit` and, if it is not flagged,
    `updateCounters`. -/
def step (config : Config) (sender : String) (s : System) (m : Message) : Option System :=
  if s.now ≤ m.checked ∧ m.checked ≤ m.counted then
    let data : HookData := ⟨some sender, m.remoteIP, m.interface⟩
    match checkRateLimit config s.redis m.checked data with
    | some _ => some { s with now := m.checked, log := .flagged m.checked :: s.log }
    | none =>
      some {
        redis := updateCounters config s.redis m.counted data
        now := m.counted
        log := .passed m.checked m.counted :: s.log }
  else none

end RateLimiter

end ZoneMta
