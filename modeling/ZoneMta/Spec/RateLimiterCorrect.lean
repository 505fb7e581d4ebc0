import ZoneMta.ForStd.Transition
import ZoneMta.Native.RateLimiter

/-!
# Limits of a sender

The counter of a sender has the hour in its key, and its lifetime is the period of the limit,
restarted by every message. So it has the messages of the hour that came each within a period of
the one before: for an hour that is right, for a second or a minute it goes back further than the
period, and for a day not beyond the hour.

## Key results

- `getTimeWindow_inj`: the windows are the hours
- `checkRateLimit_limiter`: which messages are flagged
- `correct_iff`: the runs in which a limit does what it says
-/

namespace ZoneMta

namespace RateLimiter

open ForStd (Expiring Date pad burst Counts Passing run Along Throughout throughout_iff_along)

/-- The periods of a limit. -/
inductive Period where
  | second
  | minute
  | hour
  | day
deriving Repr, DecidableEq

/-- A period as it is written. -/
def Period.text : Period → String
  | .second => "second"
  | .minute => "minute"
  | .hour => "hour"
  | .day => "day"

/-- The duration of a period. -/
def Period.duration : Period → Nat
  | .second => RateLimiter.second
  | .minute => RateLimiter.minute
  | .hour => RateLimiter.hour
  | .day => RateLimiter.day

/-- A limit as it is written. -/
def limit (n : Nat) (p : Period) : String := toString n ++ "/" ++ p.text

/-- The configuration with a limit for senders. -/
def limiter (n : Nat) (p : Period) : Config where
  limits := [("sender", limit n p)]

/-! ## What a limit says -/

/-- The messages that have passed: when they were checked and counted, the last one first. -/
def passes (log : List Entry) : List (Nat × Nat) :=
  log.filterMap fun
    | .passed checked counted => some (checked, counted)
    | .flagged _ => none

/-- When messages were counted, the last one first. -/
def countedTimes (log : List Entry) : List Nat := (passes log).map (·.2)

/-- No more messages than the limit pass in a window of the clock, and no message is flagged unless
    as many were counted during the period before it. -/
structure Correct (n : Nat) (p : Period) (s : System) : Prop where
  passed : ∀ w, (passes s.log).countP (fun x => x.1 / p.duration == w) ≤ n
  flagged : ∀ later t earlier, s.log = later ++ .flagged t :: earlier →
    n ≤ (countedTimes earlier).countP (fun u => t < u + p.duration)

@[simp] theorem passes_passed (checked counted : Nat) (log : List Entry) :
    passes (.passed checked counted :: log) = (checked, counted) :: passes log := rfl

@[simp] theorem passes_flagged (t : Nat) (log : List Entry) :
    passes (.flagged t :: log) = passes log := rfl

/-- The messages in the counter at a time, the last one first. -/
def counter (p : Period) (s : System) (t : Nat) : List Nat :=
  burst (· / hour) p.duration t (countedTimes s.log)

/-- The limit is one for `getLimitValue` and `checkLimit`. -/
def Limits (n : Nat) : Prop := n ≠ 0 ∧ n < 2 ^ 63

instance (n : Nat) : Decidable (Limits n) := inferInstanceAs (Decidable (_ ∧ _))

/-- With a limit of a second or a minute, the first message in a full counter is not older than
    that. With a limit of a day, the messages that have passed in a day are less than the limit, or
    were all counted in the same hour. A number that is no limit is not reached in a window. -/
def Fits (n : Nat) (p : Period) (s : System) (m : Message) : Prop :=
  if Limits n then
    match p with
    | .second | .minute => n ≤ (counter p s m.checked).length →
        ∀ u ∈ (counter p s m.checked).getLast?, m.checked < u + p.duration
    | .hour => True
    | .day => n ≤ (passes s.log).countP (fun x => x.1 / day == m.checked / day) →
        ∀ x ∈ passes s.log, x.1 / day = m.checked / day → x.2 / hour = m.checked / hour
  else (passes s.log).countP (fun x => x.1 / p.duration == m.checked / p.duration) < n

instance (n : Nat) (p : Period) (s : System) (m : Message) : Decidable (Fits n p s m) := by
  unfold Fits
  cases p <;> infer_instance

/-! ## The limit -/

theorem splitOn_limit (n : Nat) (p : Period) :
    (limit n p).toList.splitOn '/' = [Nat.toDigits 10 n, p.text.toList] := by
  have hlist : (limit n p).toList = Nat.toDigits 10 n ++ '/' :: p.text.toList := by
    simp [limit]
  have hdigits : ∀ c ∈ Nat.toDigits 10 n, (c == '/') = false := by
    intro c hc
    have hdigit := Nat.isDigit_of_mem_toDigits (by decide) (by decide) hc
    rw [beq_eq_false_iff_ne]
    rintro rfl
    exact absurd hdigit (by decide)
  have hperiod : p.text.toList.all (· != '/') = true := by cases p <;> decide
  rw [hlist, List.splitOn, List.splitOnP_append_cons_of_forall_mem hdigits '/' (by decide),
    List.splitOnP_eq_singleton (by simpa using hperiod)]

theorem parseInt_toDigits (n : Nat) :
    parseInt (Nat.toDigits 10 n) = if n < 2 ^ 63 then some (n : Int) else none := by
  have hdigits : ∀ c ∈ Nat.toDigits 10 n, c.isDigit = true :=
    fun c hc => Nat.isDigit_of_mem_toDigits (by decide) (by decide) hc
  have hall : (Nat.toDigits 10 n).all Char.isDigit = true := List.all_eq_true.mpr hdigits
  have hvalue := Nat.ofDigitChars_ten_toDigits (n := n)
  have hne : Nat.toDigits 10 n ≠ [] := Nat.toDigits_ne_nil
  generalize Nat.toDigits 10 n = digits at hdigits hall hvalue hne
  have hplus : ∀ rest, digits = '+' :: rest → False := by
    rintro rest rfl
    exact absurd (hdigits '+' List.mem_cons_self) (by decide)
  have hminus : ∀ rest, digits = '-' :: rest → False := by
    rintro rest rfl
    exact absurd (hdigits '-' List.mem_cons_self) (by decide)
  -- a digit is no sign
  simp only [parseInt]
  rw [if_neg (by simp [hne, hall]), if_neg Bool.false_ne_true, hvalue]
  by_cases hn : n < 2 ^ 63
  · rw [if_pos hn, if_pos]
    omega
  · rw [if_neg hn, if_neg]
    omega

theorem getLimitValue_limit (n : Nat) (p : Period) :
    getLimitValue (limit n p) = if n < 2 ^ 63 then (n : Int) else 0 := by
  rw [getLimitValue, splitOn_limit]
  dsimp only
  rw [parseInt_toDigits]
  split <;> rfl

theorem getLimitDuration_limit (n : Nat) (p : Period) :
    getLimitDuration (limit n p) = p.duration := by
  rw [getLimitDuration, splitOn_limit]
  cases p <;> rfl

/-! ## Keys -/

theorem div_day (t : Nat) : t / day = t / hour / 24 := by
  rw [Nat.div_div_eq_div_mul, day, Nat.mul_comm]

/-- The windows are the hours. -/
theorem getTimeWindow_inj {t t' : Nat} :
    getTimeWindow t = getTimeWindow t' ↔ t / hour = t' / hour := by
  have hlength {n : Nat} (h : n < 100) : (pad 2 n).length = 2 := ForStd.length_pad (by decide) h
  constructor
  · intro h
    -- the parts of a window have fixed widths
    have hhourLength (t : Nat) : (pad 2 (t / hour % 24)).length = 2 :=
      hlength (Nat.lt_trans (Nat.mod_lt _ (by decide)) (by decide))
    have hdayLength (d : Date) : (pad 2 d.day).length = 2 :=
      hlength (Nat.lt_of_le_of_lt d.day_le (by decide))
    have hmonthLength (d : Date) : (pad 2 d.month).length = 2 :=
      hlength (Nat.lt_of_le_of_lt d.month_le (by decide))
    rw [getTimeWindow, getTimeWindow, String.ofList_inj] at h
    obtain ⟨h, hhour⟩ := List.append_inj' h (by rw [hhourLength, hhourLength])
    obtain ⟨h, hd⟩ := List.append_inj' h (by rw [hdayLength, hdayLength])
    obtain ⟨hy, hm⟩ := List.append_inj' h (by rw [hmonthLength, hmonthLength])
    have hdays : t / day = t' / day :=
      Date.ofDays_injective (Date.ext (ForStd.pad_injective 4 hy) (ForStd.pad_injective 2 hm)
        (ForStd.pad_injective 2 hd))
    have hhours := ForStd.pad_injective 2 hhour
    rw [div_day, div_day] at hdays
    omega
  · intro h
    rw [getTimeWindow, getTimeWindow, div_day, div_day, h]

/-- The key of the counter of a sender. -/
def key (sender : String) (t : Nat) : String :=
  "rate_limit:sender:" ++ sender ++ ":" ++ getTimeWindow t

theorem key_inj {sender : String} {t t' : Nat} :
    key sender t = key sender t' ↔ t / hour = t' / hour := by
  rw [← getTimeWindow_inj]
  unfold key
  generalize getTimeWindow t = w, getTimeWindow t' = w'
  rw [String.append_right_inj]

theorem key_ne_empty (sender : String) (t : Nat) : key sender t ≠ "" := by
  unfold key
  generalize getTimeWindow t = w
  intro h
  have hlength := congrArg String.length h
  simp at hlength

theorem div_eq_of_between {d x y z : Nat} (hxy : x ≤ y) (hyz : y ≤ z) (h : x / d = z / d) :
    y / d = z / d := by
  have hxy := Nat.div_le_div_right (c := d) hxy
  have hyz := Nat.div_le_div_right (c := d) hyz
  omega

theorem hour_passing : Passing (· / hour) := fun _ _ _ => div_eq_of_between

theorem key_passing (sender : String) : Passing (key sender) := by
  intro a b c hab hbc hac
  rw [key_inj] at hac ⊢
  exact hour_passing a b c hab hbc hac

theorem getCounterKey_sender (sender : String) (ip interface : String) (t : Nat) :
    getCounterKey "sender" ⟨some sender, ip, interface⟩ t = key sender t := by
  unfold getCounterKey key
  generalize getTimeWindow t = w
  rw [if_pos rfl]

/-! ## Hooks -/

section

variable {n : Nat} {p : Period} {sender : String}

/-- Which messages are flagged. -/
theorem checkRateLimit_limiter (r : Redis) (t : Nat) (ip interface : String) :
    (checkRateLimit (limiter n p) r t ⟨some sender, ip, interface⟩).isSome = true ↔
      Limits n ∧ ∃ count, r.get t (key sender t) = some count ∧ n ≤ count := by
  have hcheck : (checkRateLimit (limiter n p) r t ⟨some sender, ip, interface⟩).isSome =
      checkLimit r t ⟨some sender, ip, interface⟩ "sender" (limit n p) := by
    simp [checkRateLimit, limiter]
    split <;> simp_all
  rw [hcheck, checkLimit, getCounterKey_sender]
  dsimp only
  rw [if_neg (key_ne_empty sender t), getLimitValue_limit, Limits]
  generalize 2 ^ 63 = bound
  cases hget : r.get t (key sender t) with
  | none => simp
  | some count =>
    by_cases hn : n < bound
    · simp [hn]
    · simp [hn]

theorem updateCounters_limiter (r : Redis) (t : Nat) (ip interface : String) :
    updateCounters (limiter n p) r t ⟨some sender, ip, interface⟩ =
      r.incr t (key sender t) p.duration := by
  have hduration : p.duration ≠ 0 := by cases p <;> decide
  simp [updateCounters, updateCounter, limiter, getCounterKey_sender, key_ne_empty,
    getLimitDuration_limit, hduration]

/-! ## The messages of a sender -/

/-- What holds after every message: the counter in Redis, the order of the messages, and that the
    counter does not exceed a limit. -/
structure Inv (n : Nat) (p : Period) (sender : String) (s : System) : Prop where
  counts : Counts (key sender) p.duration s.redis s.now (countedTimes s.log)
  sorted : (passes s.log).Pairwise fun later earlier => earlier.2 ≤ later.1
  ordered : ∀ x ∈ passes s.log, x.1 ≤ x.2 ∧ x.2 ≤ s.now
  full : Limits n → ∀ t, s.now ≤ t → (counter p s t).length ≤ n
  correct : Correct n p s

theorem inv_init (n : Nat) (p : Period) (sender : String) : Inv n p sender {} where
  counts := ForStd.counts_empty
  sorted := List.Pairwise.nil
  ordered := fun _ hx => nomatch hx
  full := fun _ _ _ => Nat.zero_le n
  correct := {
    passed := fun _ => Nat.zero_le n
    flagged := fun later t earlier h => by simp at h }

/-- A message is flagged if the counter has reached the limit. -/
theorem step_cases {s s' : System} {m : Message}
    (hcounts : Counts (key sender) p.duration s.redis s.now (countedTimes s.log))
    (h : step (limiter n p) sender s m = some s') :
    s.now ≤ m.checked ∧ m.checked ≤ m.counted ∧
      if Limits n ∧ n ≤ (counter p s m.checked).length then
        s' = { s with now := m.checked, log := .flagged m.checked :: s.log }
      else
        s' = {
          redis := s.redis.incr m.counted (key sender m.counted) p.duration
          now := m.counted
          log := .passed m.checked m.counted :: s.log } := by
  rw [step] at h
  split at h
  next htimes =>
    refine ⟨htimes.1, htimes.2, ?_⟩
    have hflagged : (checkRateLimit (limiter n p) s.redis m.checked
        ⟨some sender, m.remoteIP, m.interface⟩).isSome = true ↔ _ :=
      checkRateLimit_limiter s.redis m.checked m.remoteIP m.interface
    have hburst : burst (key sender) p.duration m.checked (countedTimes s.log) =
        counter p s m.checked := ForStd.burst_congr (fun _ _ => key_inj) _ _
    rw [hcounts m.checked htimes.1, hburst] at hflagged
    dsimp only at h
    rw [updateCounters_limiter] at h
    by_cases hfull : Limits n ∧ n ≤ (counter p s m.checked).length
    · rw [if_pos hfull]
      have hne : counter p s m.checked ≠ [] := by
        intro hnil
        rw [hnil] at hfull
        exact hfull.1.1 (Nat.le_zero.mp hfull.2)
      rw [if_neg hne] at hflagged
      obtain ⟨result, hresult⟩ :=
        Option.isSome_iff_exists.mp (hflagged.mpr ⟨hfull.1, _, rfl, hfull.2⟩)
      rw [hresult] at h
      exact (Option.some.inj h).symm
    · -- there is no counter, or it has not reached the limit
      rw [if_neg hfull]
      have hnone : checkRateLimit (limiter n p) s.redis m.checked
          ⟨some sender, m.remoteIP, m.interface⟩ = none := by
        rw [← Option.not_isSome_iff_eq_none, hflagged]
        rintro ⟨hlimits, count, hcount, hle⟩
        split at hcount
        next => exact nomatch hcount
        next => exact hfull ⟨hlimits, Option.some.inj hcount ▸ hle⟩
      rw [hnone] at h
      exact (Option.some.inj h).symm
  next => exact nomatch h

/-! ## Windows -/

theorem counter_isPrefix (p : Period) (s : System) (t : Nat) :
    counter p s t <+: countedTimes s.log := ForStd.burst_isPrefix t _

theorem hour_eq_of_mem_counter {s : System} {t u : Nat} (h : u ∈ counter p s t) :
    u / hour = t / hour := by
  rw [counter] at h
  exact ForStd.key_of_mem_burst h

theorem duration_pos (p : Period) : 0 < p.duration := by cases p <;> decide

theorem lt_add_of_div_eq {d x y : Nat} (hd : 0 < d) (h : x / d = y / d) : y < x + d := by
  have hx := Nat.div_add_mod x d
  have hy := Nat.div_add_mod y d
  have hmod := Nat.mod_lt y hd
  rw [h] at hx
  omega

/-- Seconds, minutes and hours are parts of an hour. -/
theorem hour_eq_of_duration {p : Period} (hday : p ≠ .day) {x y : Nat}
    (h : x / p.duration = y / p.duration) : x / hour = y / hour := by
  have hparts : ∀ t, t / hour = t / p.duration / (hour / p.duration) := by
    intro t
    rw [Nat.div_div_eq_div_mul]
    congr 1
    cases p with
    | second => rfl
    | minute => rfl
    | hour => rfl
    | day => exact absurd rfl hday
  rw [hparts x, hparts y, h]

section

variable {s : System}

theorem Inv.counted_le (h : Inv n p sender s) {u : Nat} (hu : u ∈ countedTimes s.log) :
    u ≤ s.now := by
  obtain ⟨x, hx, rfl⟩ := List.mem_map.mp hu
  exact (h.ordered x hx).2

theorem Inv.sorted_counted (h : Inv n p sender s) :
    (countedTimes s.log).Pairwise (· ≥ ·) := by
  rw [countedTimes, List.pairwise_map]
  refine h.sorted.imp_of_mem fun hx _ hle => ?_
  exact Nat.le_trans hle (h.ordered _ hx).1

/-- The counter has the messages that were counted in a part of the hour that is not longer than
    the period. -/
theorem Inv.countP_le_counter (h : Inv n p sender s) {d t : Nat} (hd : 0 < d)
    (hle : d ≤ p.duration) (hhour : ∀ x y : Nat, x / d = y / d → x / hour = y / hour)
    (ht : s.now ≤ t) :
    (countedTimes s.log).countP (fun u => u / d == t / d) ≤ (counter p s t).length := by
  apply ForStd.countP_le_length_burst h.sorted_counted
  · exact fun u hu => Nat.le_trans (h.counted_le hu) ht
  · exact beq_self_eq_true _
  · intro x _ hx y hy _
    rw [beq_iff_eq] at hx hy
    have hlt := lt_add_of_div_eq hd (hx.trans hy.symm)
    exact ⟨hhour x y (hx.trans hy.symm), by omega⟩
  · intro x hx hwindow y hy
    rw [beq_eq_false_iff_ne] at hwindow ⊢
    intro hyt
    exact hwindow (div_eq_of_between hy (Nat.le_trans (h.counted_le hx) ht) hyt)

/-- A message that passed in the window of a later time was counted in it. -/
theorem Inv.counted_window (h : Inv n p sender s) {d t : Nat} (ht : s.now ≤ t) {x : Nat × Nat}
    (hx : x ∈ passes s.log) (hwindow : x.1 / d = t / d) : x.2 / d = t / d :=
  div_eq_of_between (h.ordered x hx).1 (Nat.le_trans (h.ordered x hx).2 ht) hwindow

theorem countP_passes_le (q : Nat × Nat → Bool) (q' : Nat → Bool) {log : List Entry}
    (h : ∀ x ∈ passes log, q x = true → q' x.2 = true) :
    (passes log).countP q ≤ (countedTimes log).countP q' := by
  rw [countedTimes, List.countP_map]
  exact List.countP_mono_left h

/-! ## Steps -/

/-- A message that passes is one more in its window. -/
theorem correct_passed {s' : System} {checked counted : Nat} (h : Correct n p s)
    (hlog : s'.log = .passed checked counted :: s.log) :
    Correct n p s' ↔
      (passes s.log).countP (fun x => x.1 / p.duration == checked / p.duration) < n := by
  constructor
  · intro hcorrect
    have hpassed := hcorrect.passed (checked / p.duration)
    rw [hlog, passes_passed, List.countP_cons, if_pos (beq_self_eq_true _)] at hpassed
    omega
  · intro hlt
    refine ⟨fun w => ?_, fun later t earlier heq => ?_⟩
    · -- the window of the message has one more, the others are as before
      rw [hlog, passes_passed, List.countP_cons]
      have hw := h.passed w
      split
      next hchecked =>
        rw [← beq_iff_eq.mp hchecked]
        exact hlt
      next => omega
    · rw [hlog] at heq
      cases later with
      | nil => exact nomatch heq
      | cons _ later => exact h.flagged later t earlier (List.cons.inj heq).2

/-- A message that is flagged has to have enough before it. -/
theorem correct_flagged {s' : System} {t : Nat} (h : Correct n p s)
    (hlog : s'.log = .flagged t :: s.log) :
    Correct n p s' ↔ n ≤ (countedTimes s.log).countP (fun u => t < u + p.duration) := by
  constructor
  · exact fun hcorrect => hcorrect.flagged [] t s.log hlog
  · intro hle
    refine ⟨fun w => ?_, fun later t' earlier heq => ?_⟩
    · rw [hlog, passes_flagged]
      exact h.passed w
    · rw [hlog] at heq
      cases later with
      | nil =>
        cases heq
        exact hle
      | cons _ later => exact h.flagged later t' earlier (List.cons.inj heq).2

/-- When a message passes rightly. -/
theorem Inv.fits_iff_of_passed (h : Inv n p sender s) {m : Message} (ht : s.now ≤ m.checked)
    (hpassed : ¬(Limits n ∧ n ≤ (counter p s m.checked).length)) :
    Fits n p s m ↔
      (passes s.log).countP (fun x => x.1 / p.duration == m.checked / p.duration) < n := by
  by_cases hlimits : Limits n
  · have hlt : (counter p s m.checked).length < n := by
      by_contra hge
      exact hpassed ⟨hlimits, by omega⟩
    by_cases hday : p = .day
    · subst hday
      rw [Fits, if_pos hlimits]
      show (n ≤ _ → _) ↔ _ < n
      constructor
      · intro hfits
        by_contra hge
        -- all messages of the day are of this hour, so the counter has them
        have hhours := hfits (by simpa [Period.duration] using hge)
        have hcounted := countP_passes_le (fun x => x.1 / day == m.checked / day)
          (fun u => u / hour == m.checked / hour) fun x hx hx' =>
            beq_iff_eq.mpr (hhours x hx (beq_iff_eq.mp hx'))
        have hcounter := h.countP_le_counter (d := hour) (by decide) (by decide)
          (fun _ _ => id) ht
        exact hge (Nat.lt_of_le_of_lt hcounted (Nat.lt_of_le_of_lt hcounter hlt))
      · intro hlt hge
        exact absurd hlt (Nat.not_lt.mpr hge)
    · have hcounted := countP_passes_le (fun x => x.1 / p.duration == m.checked / p.duration)
        (fun u => u / p.duration == m.checked / p.duration) fun x hx hx' =>
          beq_iff_eq.mpr (h.counted_window ht hx (beq_iff_eq.mp hx'))
      have hcounter := h.countP_le_counter (duration_pos p) (Nat.le_refl _)
        (fun _ _ => hour_eq_of_duration hday) ht
      have hfits : Fits n p s m := by
        unfold Fits
        rw [if_pos hlimits]
        cases p with
        | second => exact fun hge => absurd hlt (Nat.not_lt.mpr hge)
        | minute => exact fun hge => absurd hlt (Nat.not_lt.mpr hge)
        | hour => trivial
        | day => exact absurd rfl hday
      simp only [hfits, true_iff]
      omega
  · unfold Fits
    rw [if_neg hlimits]

/-- The messages that were counted in an hour are fewer than the ones that have passed on its day,
    if one of these was counted before. -/
theorem Inv.countP_hour_lt (h : Inv n p sender s) {t : Nat} (ht : s.now ≤ t) {x : Nat × Nat}
    (hx : x ∈ passes s.log) (hday : x.1 / day = t / day) (hhour : x.2 / hour ≠ t / hour) :
    (countedTimes s.log).countP (fun u => u / hour == t / hour) <
      (passes s.log).countP (fun y => y.1 / day == t / day) := by
  have hsorted := h.sorted
  have hle : ∀ y ∈ passes s.log, y.1 ≤ y.2 ∧ y.2 ≤ t := fun y hy =>
    ⟨(h.ordered y hy).1, Nat.le_trans (h.ordered y hy).2 ht⟩
  rw [countedTimes, List.countP_map]
  obtain ⟨later, earlier, heq⟩ := List.append_of_mem hx
  rw [heq] at hsorted hle ⊢
  obtain ⟨-, hearlier, hlater⟩ := List.pairwise_append.mp hsorted
  rw [List.pairwise_cons] at hearlier
  have hxle := hle x (by simp)
  -- what came after `x` has passed on the day
  have hcountLater : later.countP (fun y => y.2 / hour == t / hour) ≤
      later.countP (fun y => y.1 / day == t / day) := by
    apply List.countP_mono_left
    intro y hy _
    have hyle := hle y (by simp [hy])
    have hxy := hlater y hy x List.mem_cons_self
    exact beq_iff_eq.mpr (div_eq_of_between (Nat.le_trans hxle.1 hxy)
      (Nat.le_trans hyle.1 hyle.2) hday)
  -- what came before it was counted before the hour
  have hcountEarlier : earlier.countP (fun y => y.2 / hour == t / hour) = 0 := by
    rw [List.countP_eq_zero]
    intro y hy hyhour
    have hyx := Nat.le_trans (hearlier.1 y hy) hxle.1
    exact hhour (div_eq_of_between hyx hxle.2 (beq_iff_eq.mp hyhour))
  have hxhour : (x.2 / hour == t / hour) = false := beq_eq_false_iff_ne.mpr hhour
  have hxday : (x.1 / day == t / day) = true := beq_iff_eq.mpr hday
  show (later ++ x :: earlier).countP (fun y => y.2 / hour == t / hour) < _
  rw [List.countP_append, List.countP_append, List.countP_cons, List.countP_cons, hcountEarlier,
    hxhour, if_neg Bool.false_ne_true, if_pos hxday]
  omega

/-- With a full counter, enough messages are recent if the first one in it is. -/
theorem Inv.le_countP_recent_iff (h : Inv n p sender s) (hlimits : Limits n) {t : Nat}
    (ht : s.now ≤ t) (hfull : n ≤ (counter p s t).length) :
    n ≤ (countedTimes s.log).countP (fun u => t < u + p.duration) ↔
      ∀ u ∈ (counter p s t).getLast?, t < u + p.duration := by
  have hlength : (counter p s t).length = n := Nat.le_antisymm (h.full hlimits t ht) hfull
  have hn := hlimits.1
  -- the counter is a part of the messages, with the first one at its end
  obtain ⟨rest, hrest⟩ := counter_isPrefix p s t
  cases List.eq_nil_or_concat (counter p s t) with
  | inl hnil => exact absurd (by rw [← hlength, hnil, List.length_nil]) hn
  | inr hconcat =>
    obtain ⟨later, u, hcounter⟩ := hconcat
    rw [List.concat_eq_append] at hcounter
    have hsorted := h.sorted_counted
    rw [← hrest, hcounter, List.append_assoc, List.singleton_append] at hsorted
    have hrecent := ForStd.length_lt_countP_iff (q := fun u => t < u + p.duration)
      (fun x y hxy hx => by
        have := of_decide_eq_true hx
        exact decide_eq_true (by omega)) hsorted
    rw [decide_eq_true_eq] at hrecent
    rw [hcounter, List.length_append, List.length_singleton] at hlength
    rw [← hrest, hcounter, List.append_assoc, List.singleton_append, ← hlength,
      Nat.succ_le_iff, hrecent]
    simp

/-- The messages in the counter of an hour or a day are recent. -/
theorem recent_of_mem_counter (hp : hour ≤ p.duration) {t u : Nat} (hu : u ∈ counter p s t) :
    t < u + p.duration := by
  have hlt := lt_add_of_div_eq (by decide) (hour_eq_of_mem_counter hu)
  omega

/-- When a message is flagged rightly. -/
theorem Inv.fits_iff_of_flagged (h : Inv n p sender s) {m : Message} (ht : s.now ≤ m.checked)
    (hlimits : Limits n) (hfull : n ≤ (counter p s m.checked).length) :
    Fits n p s m ↔ n ≤ (countedTimes s.log).countP (fun u => m.checked < u + p.duration) := by
  have hfits := h.le_countP_recent_iff hlimits ht hfull
  have hrecent (hp : hour ≤ p.duration) :
      n ≤ (countedTimes s.log).countP (fun u => m.checked < u + p.duration) :=
    hfits.mpr fun u hu => recent_of_mem_counter hp (List.mem_of_getLast? hu)
  unfold Fits
  rw [if_pos hlimits, hfits]
  cases p with
  | second => exact ⟨fun hlast => hlast hfull, fun hlast _ => hlast⟩
  | minute => exact ⟨fun hlast => hlast hfull, fun hlast _ => hlast⟩
  | hour => exact ⟨fun _ => hfits.mp (hrecent (Nat.le_refl _)), fun _ => trivial⟩
  | day =>
    constructor
    · exact fun _ => hfits.mp (hrecent (by decide))
    · intro _ _ x hx hday
      by_contra hhour
      -- with the ones in the counter, `x` is one too many on the day
      have hpassed := h.correct.passed (m.checked / day)
      have hlt := h.countP_hour_lt ht hx hday hhour
      have hall : (counter .day s m.checked).countP (fun u => u / hour == m.checked / hour) =
          (counter .day s m.checked).length := by
        rw [List.countP_eq_length]
        exact fun u hu => beq_iff_eq.mpr (hour_eq_of_mem_counter hu)
      have hcounted := List.Sublist.countP_le (p := fun u => u / hour == m.checked / hour)
        (counter_isPrefix .day s m.checked).sublist
      change List.countP (fun x : Nat × Nat => x.1 / day == m.checked / day) _ ≤ n at hpassed
      omega

/-- A step is right if and only if it is under the condition. -/
theorem Inv.correct_step (h : Inv n p sender s) {s' : System} {m : Message}
    (hstep : step (limiter n p) sender s m = some s') : Correct n p s' ↔ Fits n p s m := by
  obtain ⟨ht, -, heq⟩ := step_cases h.counts hstep
  split at heq
  next hfull =>
    rw [heq, h.fits_iff_of_flagged ht hfull.1 hfull.2]
    exact correct_flagged h.correct rfl
  next hpassed =>
    rw [heq, h.fits_iff_of_passed ht hpassed]
    exact correct_passed h.correct rfl

/-- The counter does not exceed the limit after a message that has passed. -/
theorem Inv.full_passed (h : Inv n p sender s) {m : Message} (ht : s.now ≤ m.checked)
    (htimes : m.checked ≤ m.counted)
    (hpassed : ¬(Limits n ∧ n ≤ (counter p s m.checked).length)) (hlimits : Limits n) (t : Nat) :
    (burst (· / hour) p.duration t (m.counted :: countedTimes s.log)).length ≤ n := by
  have hle : ∀ u ∈ countedTimes s.log, u ≤ m.checked := fun u hu =>
    Nat.le_trans (h.counted_le hu) ht
  have hlt : (counter p s m.checked).length < n := by
    by_contra hge
    exact hpassed ⟨hlimits, by omega⟩
  have hcounted : (counter p s m.counted).length < n := by
    have hlater : counter p s m.counted = counter p s m.checked ∨ counter p s m.counted = [] :=
      ForStd.burst_of_le hour_passing hle htimes
    cases hlater with
    | inl heq => rwa [heq]
    | inr hnil =>
      rw [hnil]
      exact Nat.pos_of_ne_zero hlimits.1
  rw [burst]
  split
  · exact hcounted
  · exact Nat.zero_le n

theorem inv_step (h : Inv n p sender s) {s' : System} {m : Message} (hfits : Fits n p s m)
    (hstep : step (limiter n p) sender s m = some s') : Inv n p sender s' := by
  have hcorrect := (h.correct_step hstep).mpr hfits
  obtain ⟨ht, htimes, heq⟩ := step_cases h.counts hstep
  split at heq
  next =>
    subst heq
    exact {
      counts := fun t hle => h.counts t (Nat.le_trans ht hle)
      sorted := h.sorted
      ordered := fun x hx => ⟨(h.ordered x hx).1, Nat.le_trans (h.ordered x hx).2 ht⟩
      full := fun hlimits t hle => h.full hlimits t (Nat.le_trans ht hle)
      correct := hcorrect }
  next hpassed =>
    subst heq
    have hnow := Nat.le_trans ht htimes
    exact {
      counts := h.counts.incr (key_passing sender) hnow fun u hu =>
        Nat.le_trans (h.counted_le hu) hnow
      sorted := List.pairwise_cons.mpr
        ⟨fun x hx => Nat.le_trans (h.ordered x hx).2 ht, h.sorted⟩
      ordered := by
        intro x hx
        cases List.mem_cons.mp hx with
        | inl heq => exact heq ▸ ⟨htimes, Nat.le_refl _⟩
        | inr hmem => exact ⟨(h.ordered x hmem).1, Nat.le_trans (h.ordered x hmem).2 hnow⟩
      full := fun hlimits t _ => h.full_passed ht htimes hpassed hlimits t
      correct := hcorrect }

end

/-- A limit of a sender does what it says in a run if and only if the steps are under the
    condition. -/
theorem correct_iff (n : Nat) (p : Period) (sender : String) (ms : List Message) (s : System)
    (hrun : run (step (limiter n p) sender) {} ms = some s) :
    Throughout (step (limiter n p) sender) (Correct n p) {} ms ↔
      Along (step (limiter n p) sender) (Fits n p) {} ms :=
  throughout_iff_along (I := Inv n p sender) (fun _ _ _ h hfits => inv_step h hfits)
    (fun _ _ _ h hfits hstep hcorrect => hfits ((h.correct_step hstep).mp hcorrect))
    (fun _ h => h.correct) (inv_init n p sender) hrun

/-- Two messages in a minute of which the third one is flagged, and one in the next hour. -/
theorem correct_iff_example :
    Throughout (step (limiter 2 .minute) "a@example.com") (Correct 2 .minute) {}
      [{ checked := 0, counted := 1 }, { checked := 100, counted := 101 },
        { checked := 200, counted := 201 }, { checked := hour, counted := hour }] := by
  have hrun : (run (step (limiter 2 .minute) "a@example.com") {}
      [{ checked := 0, counted := 1 }, { checked := 100, counted := 101 },
        { checked := 200, counted := 201 },
        { checked := hour, counted := hour }]).isSome = true := by
    decide +kernel
  obtain ⟨s, hs⟩ := Option.isSome_iff_exists.mp hrun
  exact (correct_iff 2 .minute _ _ s hs).mpr (by decide +kernel)

/-- With a limit of two in a second, a message 900 ms after the last one is flagged. -/
theorem not_correct : ¬∀ (n : Nat) (p : Period) (sender : String) (ms : List Message) (s : System),
    run (step (limiter n p) sender) {} ms = some s →
      Throughout (step (limiter n p) sender) (Correct n p) {} ms := by
  intro h
  have hlog : (run (step (limiter 2 .second) "a@example.com") {}
      [{ checked := 0, counted := 0 }, { checked := 900, counted := 900 },
        { checked := 1800, counted := 1800 }]).map (·.log) =
      some [.flagged 1800, .passed 900 900, .passed 0 0] := by
    decide +kernel
  obtain ⟨s, hs, hlog⟩ := Option.map_eq_some_iff.mp hlog
  have hflagged := ((h 2 .second _ _ s hs).last hs).flagged [] 1800 _ hlog
  exact absurd hflagged (by decide)

end

end RateLimiter

end ZoneMta
