import Mathlib
import ZoneMta.ForStd.Text

/-!
# Speedometer

The throttling of a zone in `lib/sending-zone.js`: what `update` reads of the setting, and
`speedometer`, which holds back the callback of a connection that is too fast. Times are
milliseconds; what `Date.now()` returns is an argument.
-/

namespace ZoneMta

open ForStd (Text)

/-- `this.throttling`, but for the timers. -/
structure Throttling where
  messages : Nat
  time : Nat
  messages_pos : 0 < messages
  time_pos : 0 < time
deriving DecidableEq

namespace Throttling

/-- `this.throttling.minTime` -/
def minTime (throttling : Throttling) : ℚ := throttling.time * 1000 / throttling.messages

/-- `parseInt(s, 10) || 0` -/
def parseInt (s : List Char) : Int :=
  let s := s.dropWhile (·.isWhitespace)
  let digits (s : List Char) : Nat := Nat.ofDigitChars 10 (s.takeWhile (·.isDigit)) 0
  match s with
  | '-' :: rest => -(digits rest : Int)
  | '+' :: rest => digits rest
  | _ => digits s

/-- The seconds of a unit, by its first letter. -/
def unit (s : List Char) : Nat :=
  match s.head?.map (·.toLower) with
  | some 's' => 1
  | some 'm' => 60
  | some 'h' => 3600
  | _ => 3600

theorem unit_pos (s : List Char) : 0 < unit s := by
  unfold unit
  split <;> decide

/-- The part of `update` about `zone.throttling`: `this.throttling`, none for `false`. It throws
    where there is no unit. -/
def update (text : Text) (setting : String) : Option (Option Throttling) :=
  if setting = "" then some none
  else
    match setting.toList.splitOn '/' with
    | first :: rest =>
      rest.getLast?.map fun last =>
        let messages := parseInt first
        if h : 0 < messages then
          some {
            messages := messages.toNat
            time := unit (text.trim (String.ofList last)).toList
            messages_pos := by omega
            time_pos := unit_pos _ }
        else none
    | [] => none

example : (update .ascii "100 messages / Second").map (·.map (·.minTime)) = some (some 10) := by
  decide +kernel

/-- What becomes of the callback `next`. -/
inductive Next where
  | now
  | timeout (delay : ℚ)
deriving DecidableEq

/-- `speedometer`: what `timers` holds for the connection after the call, and the callback. -/
def speedometer (throttling : Option Throttling) (timer : Option ℚ) (curTime : ℚ) :
    Option ℚ × Next :=
  match throttling with
  | none => (timer, .now)
  | some throttling =>
    match timer with
    | none => (some curTime, .now)
    | some last =>
      if throttling.minTime ≤ curTime - last then (some curTime, .now)
      else
        -- the time of the call, not of the callback
        (some curTime, .timeout (last + throttling.minTime - curTime + 1))

/-! ## Connections -/

/-- A connection that calls `speedometer`: its timer, when the callback is due that it waits for,
    the time of the last event and the times of the callbacks. -/
structure Ref where
  timer : Option ℚ := none
  due : Option ℚ := none
  now : ℚ := 0
  released : List ℚ := []
deriving DecidableEq

/-- What happens next: a call of `speedometer`, or the timeout of the last one. -/
inductive Event where
  | call (curTime : ℚ)
  | timeout (curTime : ℚ)
deriving DecidableEq

namespace Ref

/-- One event: there is one call at a time, and a timeout is not early. -/
def step (throttling : Option Throttling) (s : Ref) : Event → Option Ref
  | .call curTime =>
    if s.due = none ∧ s.now ≤ curTime then
      let (timer, next) := speedometer throttling s.timer curTime
      match next with
      | .now =>
        some { timer := timer, due := none, now := curTime, released := s.released ++ [curTime] }
      | .timeout delay =>
        some { timer := timer, due := some (curTime + delay), now := curTime, released := s.released }
    else none
  | .timeout curTime =>
    s.due.bind fun due =>
      if due ≤ curTime then
        some { s with due := none, now := curTime, released := s.released ++ [curTime] }
      else none

end Ref

end Throttling

end ZoneMta
