import Mathlib
import ZoneMta.ForStd.Transition
import ZoneMta.Native.DomainCache
import ZoneMta.Spec.TtlCacheCorrect

/-!
# Refused deliveries

A delivery to a domain that could not be reached a short time ago is refused with the error of that
time, and no connection is tried. The error is in a cache that all senders share, and between a failed
connection, the commands that it causes and the next delivery anything can happen.

The cache says what the last write of a key has stored, until that expires: sweeps, lookups and the
other keys do not matter. So every refusal has a connection for the same cache key that has failed, its
error is not older than its `ttl`, and nothing has been heard of the domain since: a refusal does not
renew the error, and an opened socket ends it.

## Key results

- `LastWrites.apply`: the cache is determined by the last write of each key
- `inv_step`: where the errors in the commands, in the cache and in the answers come from
- `answer_of_lastWrite`: what GETCACHE is answered
- `refused_of_failed`: every refusal has a failed connection
-/

namespace ZoneMta

/-! ## The last write of a key -/

namespace TtlCache

variable {κ ν φ : Type} [DecidableEq κ]

/-- The operation writes the key. -/
def Op.writes (key : κ) : Op κ ν φ Nat → Bool
  | .set key' _ _ _ | .remove key' => key' == key
  | .flush => true
  | _ => false

/-- The last write of the key has stored the value for the time `ttl`, at the time `t`. -/
def LastWrite (log : List (Nat × Op κ ν φ Nat)) (key : κ) (t : Nat) (value : ν) (ttl : Option Nat)
    (expireCb : Option φ) : Prop :=
  ∃ before after, log = before ++ (t, .set key (some value) ttl expireCb) :: after ∧
    ∀ op ∈ after, op.2.writes key = false

/-- Another operation leaves it the last write. -/
theorem LastWrite.concat {log : List (Nat × Op κ ν φ Nat)} {key : κ} {t : Nat} {value : ν}
    {ttl : Option Nat} {expireCb : Option φ} (h : LastWrite log key t value ttl expireCb) (now : Nat)
    {op : Op κ ν φ Nat} (hop : op.writes key = false) :
    LastWrite (log ++ [(now, op)]) key t value ttl expireCb := by
  obtain ⟨before, after, rfl, hafter⟩ := h
  refine ⟨before, after ++ [(now, op)], by simp, fun x hx => ?_⟩
  rcases List.mem_append.mp hx with hx | hx
  · exact hafter x hx
  · rw [List.mem_singleton.mp hx]
    exact hop

theorem lastWrite_concat_set (log : List (Nat × Op κ ν φ Nat)) (key : κ) (now : Nat) (value : ν)
    (ttl : Option Nat) (expireCb : Option φ) :
    LastWrite (log ++ [(now, .set key (some value) ttl expireCb)]) key now value ttl expireCb :=
  ⟨log, [], rfl, fun _ hx => absurd hx List.not_mem_nil⟩

/-- The last write is the operation that comes last, or it was the last write before. -/
theorem LastWrite.of_concat {log : List (Nat × Op κ ν φ Nat)} {key : κ} {t now : Nat} {value : ν}
    {ttl : Option Nat} {expireCb : Option φ} {op : Op κ ν φ Nat}
    (h : LastWrite (log ++ [(now, op)]) key t value ttl expireCb) :
    (t = now ∧ op = .set key (some value) ttl expireCb) ∨
      LastWrite log key t value ttl expireCb ∧ op.writes key = false := by
  obtain ⟨before, after, hlog, hafter⟩ := h
  cases after using List.reverseRecOn with
  | nil =>
    obtain ⟨-, hlast⟩ := List.append_inj' hlog rfl
    obtain ⟨rfl, rfl⟩ := Prod.mk.inj (List.cons.inj hlast).1
    exact Or.inl ⟨rfl, rfl⟩
  | append_singleton after x _ =>
    rw [← List.cons_append, ← List.append_assoc] at hlog
    obtain ⟨rfl, hlast⟩ := List.append_inj' hlog rfl
    obtain rfl := (List.cons.inj hlast).1
    refine Or.inr ⟨⟨before, after, rfl, fun y hy => ?_⟩, ?_⟩
    · exact hafter y (List.mem_append_left _ hy)
    · exact hafter (now, op) (List.mem_append_right _ List.mem_cons_self)

/-- The cache after the operations of the log, at times up to `now`. -/
structure LastWrites (log : List (Nat × Op κ ν φ Nat)) (now : Nat) (c : TtlCache κ ν φ Nat) :
    Prop where
  wf : WF c
  times : ∀ op ∈ log, op.1 ≤ now
  /-- what is there was written last -/
  sound : ∀ key binding, c.plain key = some binding →
    ∃ t ttl expireCb, LastWrite log key t binding.value ttl expireCb ∧
      binding.expires = t + ttl.getD c.defaultTtl
  /-- what was written last is there until it expires -/
  complete : ∀ key t value ttl expireCb, LastWrite log key t value (some ttl) expireCb →
    now < t + ttl → c.plain key = some ⟨value, t + ttl, expireCb⟩

variable {log : List (Nat × Op κ ν φ Nat)} {now : Nat} {c : TtlCache κ ν φ Nat}

/-- Time passes. -/
theorem LastWrites.mono (h : LastWrites log now c) {now' : Nat} (hnow : now ≤ now') :
    LastWrites log now' c where
  wf := h.wf
  times op hop := Nat.le_trans (h.times op hop) hnow
  sound := h.sound
  complete key t value ttl expireCb hlast hlt :=
    h.complete key t value ttl expireCb hlast (Nat.lt_of_le_of_lt hnow hlt)

/-- What is left of the bindings after an operation that stores nothing was there, and the operation
    does not write its key. -/
theorem writes_of_keep {m : Plain κ ν φ Nat} {defaultTtl : Nat} {op : Op κ ν φ Nat} {key : κ}
    {binding : Binding ν φ Nat} (h : m.keep defaultTtl now op key = some binding)
    (hop : ∀ key' value ttl expireCb, op = .set key' (some value) ttl expireCb →
      ttl.getD defaultTtl ≤ 0) (hflush : op ≠ .flush) :
    m key = some binding ∧ op.writes key = false := by
  obtain ⟨hbinding, hends⟩ := Option.filter_eq_some_iff.mp h
  have hends' : ¬Plain.Ends defaultTtl now op key binding := by simpa using hends
  refine ⟨hbinding, ?_⟩
  cases op with
  | set key' value ttl expireCb =>
    refine beq_false_of_ne fun hkey => hends' ⟨hkey.symm, ?_⟩
    cases value with
    | none => exact Or.inl rfl
    | some value => exact Or.inr (hop key' value ttl expireCb rfl)
  | remove key' => exact beq_false_of_ne fun hkey => hends' hkey.symm
  | flush => exact absurd rfl hflush
  | _ => rfl

/-- A binding that has not expired survives an operation that does not write its key. -/
theorem keep_of_not_writes {m : Plain κ ν φ Nat} {defaultTtl : Nat} {op : Op κ ν φ Nat} {key : κ}
    {binding : Binding ν φ Nat} (hbinding : m key = some binding) (hlive : now < binding.expires)
    (hop : op.writes key = false) : m.keep defaultTtl now op key = some binding := by
  have hends : ¬Plain.Ends defaultTtl now op key binding := by
    intro hends
    cases op with
    | get key' => exact absurd hends.2 (by omega)
    | set key' value ttl expireCb => exact absurd hends.1.symm (beq_eq_false_iff_ne.mp hop)
    | remove key' => exact absurd (Eq.symm hends) (beq_eq_false_iff_ne.mp hop)
    | flush => exact hends
    | updateTimer => exact hends
    | checkExpired => exact absurd (show binding.expires ≤ now from hends) (by omega)
  rw [Plain.keep, hbinding, Option.filter_some, decide_eq_false hends]
  rfl

/-- An operation at the present. -/
theorem LastWrites.apply (h : LastWrites log now c) (op : Op κ ν φ Nat) :
    LastWrites (log ++ [(now, op)]) now (c.apply now op) := by
  have hplain := plain_apply h.wf now op
  have hdefault := defaultTtl_apply c now op
  have htimes : ∀ x ∈ log ++ [(now, op)], x.1 ≤ now := by
    intro x hx
    rcases List.mem_append.mp hx with hx | hx
    · exact h.times x hx
    · rw [List.mem_singleton.mp hx]
  -- what stores nothing keeps some of the bindings
  have hkeep : c.plain.apply c.defaultTtl now op = c.plain.keep c.defaultTtl now op →
      (∀ key' value ttl expireCb, op = .set key' (some value) ttl expireCb →
        ttl.getD c.defaultTtl ≤ 0) → op ≠ .flush →
          LastWrites (log ++ [(now, op)]) now (c.apply now op) := by
    intro happly hop hflush
    rw [happly] at hplain
    refine ⟨wf_apply h.wf now op, htimes, fun key binding hbinding => ?_,
      fun key t value ttl expireCb hlast hlt => ?_⟩
    · rw [hplain] at hbinding
      obtain ⟨hbefore, hwrites⟩ := writes_of_keep hbinding hop hflush
      obtain ⟨t, ttl, expireCb, hlast, hexpires⟩ := h.sound key binding hbefore
      exact ⟨t, ttl, expireCb, hlast.concat now hwrites, by rw [hdefault]; exact hexpires⟩
    · rw [hplain]
      rcases hlast.of_concat with ⟨rfl, hset⟩ | ⟨hlast, hwrites⟩
      · have hzero := hop key value (some ttl) expireCb hset
        simp only [Option.getD_some] at hzero
        omega
      · exact keep_of_not_writes (h.complete key t value ttl expireCb hlast hlt) hlt hwrites
  cases op with
  | flush =>
    refine ⟨wf_apply h.wf now _, htimes, fun key binding hbinding => ?_,
      fun key t value ttl expireCb hlast _ => ?_⟩
    · rw [hplain] at hbinding
      exact absurd hbinding.symm (Option.some_ne_none binding)
    · rcases hlast.of_concat with ⟨-, hset⟩ | ⟨-, hwrites⟩
      · cases hset
      · exact absurd hwrites Bool.false_ne_true.symm
  | set key' value? ttl' expireCb' =>
    cases value? with
    | none =>
      refine hkeep rfl (fun key'' value ttl expireCb heq => ?_) (fun heq => ?_)
      · cases heq
      · cases heq
    | some value' =>
      by_cases hzero : ttl'.getD c.defaultTtl ≤ 0
      · refine hkeep (if_pos hzero) (fun key'' value ttl expireCb heq => ?_) (fun heq => ?_)
        · obtain ⟨-, -, rfl, -⟩ := Op.set.inj heq
          exact hzero
        · cases heq
      · -- the key is bound to the new value
        have hupdate : (c.apply now (.set key' (some value') ttl' expireCb')).plain =
            Function.update c.plain key'
              (some ⟨value', now + ttl'.getD c.defaultTtl, expireCb'⟩) :=
          hplain.trans (if_neg hzero)
        refine ⟨wf_apply h.wf now _, htimes, fun key binding hbinding => ?_,
          fun key t value ttl expireCb hlast hlt => ?_⟩
        · rw [hupdate, Function.update_apply] at hbinding
          split at hbinding
          · next hkey =>
            subst hkey
            obtain rfl := Option.some.inj hbinding
            exact ⟨now, ttl', expireCb', lastWrite_concat_set log key now value' ttl' expireCb',
              by rw [hdefault]⟩
          · next hkey =>
            obtain ⟨t, ttl, expireCb, hlast, hexpires⟩ := h.sound key binding hbinding
            exact ⟨t, ttl, expireCb, hlast.concat now (beq_false_of_ne (Ne.symm hkey)),
              by rw [hdefault]; exact hexpires⟩
        · rw [hupdate, Function.update_apply]
          rcases hlast.of_concat with ⟨rfl, hset⟩ | ⟨hlast, hwrites⟩
          · obtain ⟨rfl, hvalue, rfl, rfl⟩ := Op.set.inj hset
            obtain rfl := Option.some.inj hvalue
            rw [if_pos rfl, Option.getD_some]
          · rw [if_neg (Ne.symm (beq_eq_false_iff_ne.mp hwrites))]
            exact h.complete key t value ttl expireCb hlast hlt
  | _ =>
    refine hkeep rfl (fun key'' value ttl expireCb heq => ?_) (fun heq => ?_)
    · cases heq
    · cases heq

/-- What `get` returns was written last, and has not expired. -/
theorem LastWrites.of_get (h : LastWrites log now c) {key : κ} {value : ν}
    (hget : (c.get key now).1 = some value) :
    ∃ t ttl expireCb, LastWrite log key t value ttl expireCb ∧ now ≤ t + ttl.getD c.defaultTtl := by
  rw [get_eq, Plain.get] at hget
  obtain ⟨binding, hbinding, hlive⟩ := Option.bind_eq_some_iff.mp hget
  obtain ⟨t, ttl, expireCb, hlast, hexpires⟩ := h.sound key binding hbinding
  split at hlive
  · cases hlive
  · obtain rfl := Option.some.inj hlive
    exact ⟨t, ttl, expireCb, hlast, by omega⟩

/-- `get` returns what was written last, until it expires. -/
theorem LastWrites.get_eq (h : LastWrites log now c) {key : κ} {t : Nat} {value : ν} {ttl : Nat}
    {expireCb : Option φ} (hlast : LastWrite log key t value (some ttl) expireCb)
    (hlive : now < t + ttl) : (c.get key now).1 = some value := by
  rw [TtlCache.get_eq, Plain.get, h.complete key t value ttl expireCb hlast hlive]
  exact if_neg (by dsimp only; omega)

end TtlCache

/-! ## The failed connections -/

namespace DomainCache

open ForStd (run)
open TtlCache (LastWrite LastWrites)

/-- The operation of the cache that a command is. -/
def Command.op : Command → Op
  | .getCache _ key => .get key
  | .setCache key value ttl => .set key (some (.domain value)) (some ttl) none
  | .clearCache key => .remove key

/-- What a step does to the cache. -/
def ops (s : DomainCache) : Event → List Op
  | .process i => (s.commands[i]?.map Command.op).toList
  | .other op => [op]
  | _ => []

/-- The connection that fails in a step, with its time and its cache key. -/
def failure (s : DomainCache) : Event → List (Nat × String × ConnectError)
  | .getConnection n (some err) =>
    ((s.deliveries.lookup n).map fun waiting => (s.now, waiting.key, err)).toList
  | _ => []

/-- The senders and the master process, with what was done to the cache and the connections that
    have failed. -/
structure Logged where
  system : DomainCache := {}
  log : List (Nat × Op) := []
  failures : List (Nat × String × ConnectError) := []

namespace Logged

/-- A step, and what it adds. -/
def step (w : Logged) (e : Event) : Option Logged :=
  (w.system.step e).map fun system =>
    { system := system
      log := w.log ++ (w.system.ops e).map fun op => (w.system.now, op)
      failures := w.failures ++ w.system.failure e }

/-- A connection for the cache key has failed without an open socket, at the time `t₀`. -/
def Failed (w : Logged) (key : String) (t₀ : Nat) (err : ConnectError) : Prop :=
  (t₀, key, err) ∈ w.failures ∧ err.netConnected = false

/-- A delivery is refused with this error: a connection for its cache key has failed at `t₀`, its error
    was stored at `t₁` and found at `t₂`, before its time was over, and in between the key was not
    written. -/
def Refuses (w : Logged) (key : String) (err : ConnectError) : Prop :=
  ∃ t₀ t₁ t₂ failed before between after, w.Failed key t₀ failed ∧
    failed.domainData.connectError = err ∧
    w.log = before ++ (t₁, .set key (some (.domain failed.domainData)) (some failed.ttl) none) ::
      (between ++ (t₂, .get key) :: after) ∧
    (∀ op ∈ between, op.2.writes key = false) ∧ t₀ ≤ t₁ ∧ t₁ ≤ t₂ ∧ t₂ ≤ t₁ + failed.ttl

/-- Where the errors come from. -/
structure Inv (w : Logged) : Prop where
  writes : LastWrites w.log w.system.now w.system.cache
  fresh : ∀ n, w.system.nextDelivery ≤ n → w.system.deliveries.lookup n = none
  asked : ∀ n key, .getCache n key ∈ w.system.commands → n < w.system.nextDelivery ∧
    ∀ waiting, w.system.deliveries.lookup n = some waiting → waiting.key = key
  sets : ∀ key data ttl, .setCache key data ttl ∈ w.system.commands →
    ∃ t₀ failed, w.Failed key t₀ failed ∧ t₀ ≤ w.system.now ∧ data = failed.domainData ∧
      ttl = failed.ttl
  stored : ∀ t key data ttl expireCb,
    (t, .set key (some (.domain data)) ttl expireCb) ∈ w.log →
      ∃ t₀ failed, w.Failed key t₀ failed ∧ t₀ ≤ t ∧ data = failed.domainData ∧
        ttl = some failed.ttl ∧ expireCb = none
  answers : ∀ n data, (n, some (.domain data)) ∈ w.system.answers →
    n < w.system.nextDelivery ∧ ∀ waiting, w.system.deliveries.lookup n = some waiting →
      w.Refuses waiting.key data.connectError
  results : ∀ key err, (key, .refused err) ∈ w.system.results → w.Refuses key err

variable {w w' : Logged}

theorem inv_start : Inv {} where
  writes := ⟨TtlCache.wf_empty _, fun _ h => absurd h List.not_mem_nil,
    fun key binding h => absurd h.symm (Option.some_ne_none binding),
    fun key t value ttl expireCb h _ => by obtain ⟨before, after, h, -⟩ := h; simp at h⟩
  fresh n _ := AList.lookup_empty n
  asked _ _ h := absurd h List.not_mem_nil
  sets _ _ _ h := absurd h List.not_mem_nil
  stored _ _ _ _ _ h := absurd h List.not_mem_nil
  answers _ _ h := absurd h List.not_mem_nil
  results _ _ h := absurd h List.not_mem_nil

/-- The log and the failed connections grow. -/
structure Extends (w w' : Logged) : Prop where
  log : w.log <+: w'.log
  failures : w.failures <+: w'.failures

theorem Extends.failed (h : Extends w w') {key : String} {t₀ : Nat} {err : ConnectError}
    (hfailed : w.Failed key t₀ err) : w'.Failed key t₀ err :=
  ⟨h.failures.subset hfailed.1, hfailed.2⟩

theorem Extends.refuses (h : Extends w w') {key : String} {err : ConnectError}
    (hrefuses : w.Refuses key err) : w'.Refuses key err := by
  obtain ⟨t₀, t₁, t₂, failed, before, between, after, hfailed, herr, hlog, hrest⟩ := hrefuses
  obtain ⟨more, hmore⟩ := h.log
  refine ⟨t₀, t₁, t₂, failed, before, between, after ++ more, h.failed hfailed, herr, ?_, hrest⟩
  rw [← hmore, hlog]
  simp

/-- An operation on the cache that stores no error of a connection, or one that has failed. -/
theorem Inv.stored_concat (h : Inv w) (hext : Extends w w') {op : Op} {now : Nat}
    (hlog : w'.log = w.log ++ [(now, op)])
    (hop : ∀ key data ttl expireCb, op = .set key (some (.domain data)) ttl expireCb →
      ∃ t₀ failed, w.Failed key t₀ failed ∧ t₀ ≤ now ∧ data = failed.domainData ∧
        ttl = some failed.ttl ∧ expireCb = none) :
    ∀ t key data ttl expireCb, (t, .set key (some (.domain data)) ttl expireCb) ∈ w'.log →
      ∃ t₀ failed, w'.Failed key t₀ failed ∧ t₀ ≤ t ∧ data = failed.domainData ∧
        ttl = some failed.ttl ∧ expireCb = none := by
  intro t key data ttl expireCb hmem
  rw [hlog] at hmem
  rcases List.mem_append.mp hmem with hmem | hmem
  · obtain ⟨t₀, failed, hfailed, hrest⟩ := h.stored t key data ttl expireCb hmem
    exact ⟨t₀, failed, hext.failed hfailed, hrest⟩
  · obtain ⟨rfl, hset⟩ := Prod.mk.inj (List.mem_singleton.mp hmem)
    obtain ⟨t₀, failed, hfailed, hrest⟩ := hop key data ttl expireCb hset.symm
    exact ⟨t₀, failed, hext.failed hfailed, hrest⟩

/-- A command is taken away. -/
theorem Inv.eraseIdx (h : Inv w) (i : Nat) :
    Inv { w with system := { w.system with commands := w.system.commands.eraseIdx i } } where
  writes := h.writes
  fresh := h.fresh
  asked n key hmem := h.asked n key (List.mem_of_mem_eraseIdx hmem)
  sets key data ttl hmem := h.sets key data ttl (List.mem_of_mem_eraseIdx hmem)
  stored := h.stored
  answers := h.answers
  results := h.results

/-- An operation on the cache. -/
theorem Inv.apply (h : Inv w) (op : Op)
    (hop : ∀ key data ttl expireCb, op = .set key (some (.domain data)) ttl expireCb →
      ∃ t₀ failed, w.Failed key t₀ failed ∧ t₀ ≤ w.system.now ∧ data = failed.domainData ∧
        ttl = some failed.ttl ∧ expireCb = none) :
    Inv { w with
      system := { w.system with cache := w.system.cache.apply w.system.now op }
      log := w.log ++ [(w.system.now, op)] } := by
  have hext : Extends w { w with
      system := { w.system with cache := w.system.cache.apply w.system.now op }
      log := w.log ++ [(w.system.now, op)] } :=
    ⟨List.prefix_append _ _, List.prefix_rfl⟩
  exact
    { writes := h.writes.apply op
      fresh := h.fresh
      asked := h.asked
      sets := fun key data ttl hmem => by
        obtain ⟨t₀, failed, hfailed, hrest⟩ := h.sets key data ttl hmem
        exact ⟨t₀, failed, hext.failed hfailed, hrest⟩
      stored := h.stored_concat hext rfl hop
      answers := fun n data hmem => by
        obtain ⟨hlt, hrefuses⟩ := h.answers n data hmem
        exact ⟨hlt, fun waiting hwaiting => hext.refuses (hrefuses waiting hwaiting)⟩
      results := fun key err hmem => hext.refuses (h.results key err hmem) }

/-- GETCACHE: an error that is found was stored for a connection that has failed. -/
theorem refuses_of_get (h : Inv w) {key : String} {data : DomainData}
    (hget : (w.system.cache.get key w.system.now).1 = some (.domain data)) (system : DomainCache) :
    Refuses { w with system := system, log := w.log ++ [(w.system.now, .get key)] } key
      data.connectError := by
  obtain ⟨t, ttl, expireCb, ⟨before, between, hlog, hbetween⟩, hlive⟩ := h.writes.of_get hget
  have hmem : (t, .set key (some (.domain data)) ttl expireCb) ∈ w.log := by
    rw [hlog]
    exact List.mem_append_right before List.mem_cons_self
  obtain ⟨t₀, failed, hfailed, ht₀, rfl, rfl, rfl⟩ := h.stored t key data ttl expireCb hmem
  refine ⟨t₀, t, w.system.now, failed, before, between, [], hfailed, rfl, ?_, hbetween, ht₀,
    h.writes.times _ hmem, hlive⟩
  rw [hlog]
  simp

/-- The queue server processes a command. -/
theorem Inv.process (h : Inv w) {i : Nat} {command : Command}
    (hcommand : w.system.commands[i]? = some command) :
    Inv { w with
      system := { w.system with commands := w.system.commands.eraseIdx i }.process command
      log := w.log ++ [(w.system.now, command.op)] } := by
  have hmem := List.mem_of_getElem? hcommand
  have hleft := h.eraseIdx i
  cases command with
  | setCache key data ttl =>
    refine hleft.apply (.set key (some (.domain data)) (some ttl) none)
      fun key' data' ttl' expireCb heq => ?_
    obtain ⟨rfl, hdata, rfl, rfl⟩ := TtlCache.Op.set.inj heq
    obtain rfl := Value.domain.inj (Option.some.inj hdata)
    obtain ⟨t₀, failed, hfailed, ht₀, rfl, rfl⟩ := h.sets key data ttl hmem
    exact ⟨t₀, failed, hfailed, ht₀, rfl, rfl, rfl⟩
  | clearCache key =>
    refine hleft.apply (.remove key) fun key' data' ttl' expireCb heq => ?_
    cases heq
  | getCache n key =>
    have hafter := hleft.apply (.get key) fun key' data' ttl' expireCb heq => by cases heq
    obtain ⟨hlt, hkey⟩ := h.asked n key hmem
    refine
      { writes := hafter.writes
        fresh := hafter.fresh
        asked := hafter.asked
        sets := hafter.sets
        stored := hafter.stored
        answers := fun m data hanswer => ?_
        results := hafter.results }
    -- the new answer is the last one
    rcases List.mem_append.mp hanswer with hanswer | hanswer
    · exact hafter.answers m data hanswer
    · obtain ⟨rfl, hget⟩ := Prod.mk.inj (List.mem_singleton.mp hanswer)
      refine ⟨hlt, fun waiting hwaiting => ?_⟩
      rw [hkey waiting hwaiting]
      exact refuses_of_get hleft hget.symm _

/-- The callback of a delivery. -/
theorem Inv.finish (h : Inv w) (n : Nat) (key : String) (result : Result)
    (hresult : ∀ err, result = .refused err → w.Refuses key err) :
    Inv { w with system := w.system.finish n key result } := by
  have hlookup : ∀ {m : Nat} {waiting : Waiting},
      (w.system.deliveries.erase n).lookup m = some waiting →
        w.system.deliveries.lookup m = some waiting := by
    intro m waiting hwaiting
    rw [ForStd.lookup_erase] at hwaiting
    split at hwaiting
    · exact absurd hwaiting.symm (Option.some_ne_none waiting)
    · exact hwaiting
  exact
    { writes := h.writes
      fresh := fun m hm => by
        show (w.system.deliveries.erase n).lookup m = none
        rw [ForStd.lookup_erase, h.fresh m hm, ite_self]
      asked := fun m key' hmem =>
        ⟨(h.asked m key' hmem).1, fun waiting hw => (h.asked m key' hmem).2 waiting (hlookup hw)⟩
      sets := h.sets
      stored := h.stored
      answers := fun m data hmem =>
        ⟨(h.answers m data hmem).1, fun waiting hw => (h.answers m data hmem).2 waiting (hlookup hw)⟩
      results := fun key' err hmem => by
        rcases List.mem_append.mp hmem with hmem | hmem
        · exact h.results key' err hmem
        · obtain ⟨rfl, herr⟩ := Prod.mk.inj (List.mem_singleton.mp hmem)
          exact hresult err herr.symm }

/-- A delivery waits for `getConnection`. -/
theorem Inv.connect (h : Inv w) {n : Nat} {waiting : Waiting}
    (hwaiting : w.system.deliveries.lookup n = some waiting) :
    Inv { w with system := { w.system with
      deliveries := w.system.deliveries.insert n { waiting with connecting := true } } } := by
  -- the cache key stays
  have hlookup : ∀ {m : Nat} {waiting' : Waiting},
      (w.system.deliveries.insert n { waiting with connecting := true }).lookup m =
        some waiting' →
      ∃ before, w.system.deliveries.lookup m = some before ∧ before.key = waiting'.key := by
    intro m waiting' hwaiting'
    rw [ForStd.lookup_insert] at hwaiting'
    split at hwaiting'
    · next hm =>
      obtain rfl := Option.some.inj hwaiting'
      exact ⟨waiting, hm ▸ hwaiting, rfl⟩
    · exact ⟨waiting', hwaiting', rfl⟩
  exact
    { writes := h.writes
      fresh := fun m hm => by
        show (w.system.deliveries.insert n { waiting with connecting := true }).lookup m = none
        have hnone := h.fresh m hm
        rw [ForStd.lookup_insert, hnone]
        split
        · next heq =>
          rw [heq, hwaiting] at hnone
          exact absurd hnone (Option.some_ne_none waiting)
        · rfl
      asked := fun m key hmem => by
        refine ⟨(h.asked m key hmem).1, fun waiting' hw => ?_⟩
        obtain ⟨before, hbefore, hkey⟩ := hlookup hw
        rw [← hkey]
        exact (h.asked m key hmem).2 before hbefore
      sets := h.sets
      stored := h.stored
      answers := fun m data hmem => by
        refine ⟨(h.answers m data hmem).1, fun waiting' hw => ?_⟩
        obtain ⟨before, hbefore, hkey⟩ := hlookup hw
        rw [← hkey]
        exact (h.answers m data hmem).2 before hbefore
      results := h.results }

/-- The answer to GETCACHE arrives. -/
theorem Inv.onAnswer (h : Inv w) {i n : Nat} {value : Option Value} {waiting : Waiting}
    (hanswer : w.system.answers[i]? = some (n, value))
    (hwaiting : w.system.deliveries.lookup n = some waiting) :
    Inv { w with
      system := { w.system with answers := w.system.answers.eraseIdx i }.onAnswer n waiting value } := by
  have hleft : Inv { w with system := { w.system with answers := w.system.answers.eraseIdx i } } :=
    { writes := h.writes
      fresh := h.fresh
      asked := h.asked
      sets := h.sets
      stored := h.stored
      answers := fun m data hmem => h.answers m data (List.mem_of_mem_eraseIdx hmem)
      results := h.results }
  unfold DomainCache.onAnswer
  split
  · next data =>
    split
    · refine hleft.finish n waiting.key _ fun err heq => ?_
      obtain rfl := Result.refused.inj heq
      exact (h.answers n data (List.mem_of_getElem? hanswer)).2 waiting hwaiting
    · exact hleft.connect hwaiting
  · exact hleft.connect hwaiting

/-- A connection has failed, which may be one with an open socket. -/
theorem Inv.fail (h : Inv w) (more : List (Nat × String × ConnectError)) :
    Inv { w with failures := w.failures ++ more } := by
  have hext : Extends w { w with failures := w.failures ++ more } :=
    ⟨List.prefix_rfl, List.prefix_append _ _⟩
  exact
    { writes := h.writes
      fresh := h.fresh
      asked := h.asked
      sets := fun key data ttl hmem => by
        obtain ⟨t₀, failed, hfailed, hrest⟩ := h.sets key data ttl hmem
        exact ⟨t₀, failed, hext.failed hfailed, hrest⟩
      stored := fun t key data ttl expireCb hmem => by
        obtain ⟨t₀, failed, hfailed, hrest⟩ := h.stored t key data ttl expireCb hmem
        exact ⟨t₀, failed, hext.failed hfailed, hrest⟩
      answers := fun n data hmem => by
        obtain ⟨hlt, hrefuses⟩ := h.answers n data hmem
        exact ⟨hlt, fun waiting hwaiting => hext.refuses (hrefuses waiting hwaiting)⟩
      results := fun key err hmem => hext.refuses (h.results key err hmem) }

/-- A SETCACHE or CLEARCACHE is sent. -/
theorem Inv.command (h : Inv w) {command : Command} (hget : ∀ n key, command ≠ .getCache n key)
    (hset : ∀ key data ttl, command = .setCache key data ttl →
      ∃ t₀ failed, w.Failed key t₀ failed ∧ t₀ ≤ w.system.now ∧ data = failed.domainData ∧
        ttl = failed.ttl) :
    Inv { w with
      system := { w.system with commands := w.system.commands ++ [command] } } where
  writes := h.writes
  fresh := h.fresh
  asked n key hmem := by
    rcases List.mem_append.mp hmem with hmem | hmem
    · exact h.asked n key hmem
    · exact absurd (List.mem_singleton.mp hmem).symm (hget n key)
  sets key data ttl hmem := by
    rcases List.mem_append.mp hmem with hmem | hmem
    · exact h.sets key data ttl hmem
    · exact hset key data ttl (List.mem_singleton.mp hmem).symm
  stored := h.stored
  answers := h.answers
  results := h.results

/-- A new delivery asks for the error of its cache key. -/
theorem Inv.start (h : Inv w) (key : String) :
    Inv { w with system := { w.system with
      deliveries := w.system.deliveries.insert w.system.nextDelivery ⟨key, false⟩
      nextDelivery := w.system.nextDelivery + 1
      commands := w.system.commands ++ [.getCache w.system.nextDelivery key] } } := by
  -- its number is new
  have hlookup : ∀ {m : Nat}, m ≠ w.system.nextDelivery →
      (w.system.deliveries.insert w.system.nextDelivery ⟨key, false⟩).lookup m =
        w.system.deliveries.lookup m := by
    intro m hm
    rw [ForStd.lookup_insert, if_neg hm]
  exact
    { writes := h.writes
      fresh := fun m hm => by
        have hm' : w.system.nextDelivery + 1 ≤ m := hm
        exact (hlookup (by omega)).trans (h.fresh m (by omega))
      asked := fun m key' hmem => by
        rcases List.mem_append.mp hmem with hmem | hmem
        · obtain ⟨hlt, hkey⟩ := h.asked m key' hmem
          exact ⟨Nat.lt_succ_of_lt hlt, fun waiting hw =>
            hkey waiting ((hlookup (Nat.ne_of_lt hlt)).symm.trans hw)⟩
        · obtain ⟨rfl, rfl⟩ := Command.getCache.inj (List.mem_singleton.mp hmem)
          refine ⟨Nat.lt_succ_self _, fun waiting hw => ?_⟩
          rw [ForStd.lookup_insert, if_pos rfl] at hw
          obtain rfl := Option.some.inj hw
          rfl
      sets := fun key' data ttl hmem => by
        rcases List.mem_append.mp hmem with hmem | hmem
        · exact h.sets key' data ttl hmem
        · cases List.mem_singleton.mp hmem
      stored := h.stored
      answers := fun m data hmem => by
        obtain ⟨hlt, hrefuses⟩ := h.answers m data hmem
        exact ⟨Nat.lt_succ_of_lt hlt, fun waiting hw =>
          hrefuses waiting ((hlookup (Nat.ne_of_lt hlt)).symm.trans hw)⟩
      results := h.results }

/-- Time passes. -/
theorem Inv.tick (h : Inv w) {now : Nat} (hnow : w.system.now ≤ now) :
    Inv { w with system := { w.system with now := now } } where
  writes := h.writes.mono hnow
  fresh := h.fresh
  asked := h.asked
  sets key data ttl hmem := by
    obtain ⟨t₀, failed, hfailed, ht₀, hrest⟩ := h.sets key data ttl hmem
    exact ⟨t₀, failed, hfailed, Nat.le_trans ht₀ hnow, hrest⟩
  stored := h.stored
  answers := h.answers
  results := h.results

/-- `getConnection` calls back. -/
theorem Inv.onConnection (h : Inv w) {n : Nat} (key : String) (err : Option ConnectError) :
    Inv { w with
      system := w.system.onConnection n key err
      failures := w.failures ++ (err.map fun err => (w.system.now, key, err)).toList } := by
  cases err with
  | none =>
    have hleft := (h.finish n key .connected
      fun err heq => by cases heq).fail []
    refine hleft.command (fun m key' heq => ?_) fun key' data ttl heq => ?_
    · cases heq
    · cases heq
  | some err =>
    have hleft := (h.finish n key (.failed err)
      fun err heq => by cases heq).fail [(w.system.now, key, err)]
    refine hleft.command (fun m key' heq => ?_) fun key' data ttl heq => ?_
    · split at heq
      · cases heq
      · cases heq
    · split at heq
      · next hnet =>
        obtain ⟨rfl, rfl, rfl⟩ := Command.setCache.inj heq
        refine ⟨w.system.now, err, ⟨?_, by simpa using hnet⟩, Nat.le_refl _, rfl, rfl⟩
        exact List.mem_append_right _ List.mem_cons_self
      · cases heq

/-- Every step keeps where the errors come from. -/
theorem inv_step {e : Event} (h : Inv w) (hstep : w.step e = some w') : Inv w' := by
  obtain ⟨system, hsystem, rfl⟩ := Option.map_eq_some_iff.mp hstep
  cases e with
  | tick now =>
    simp only [DomainCache.step] at hsystem
    split at hsystem
    · next hnow =>
      obtain rfl := Option.some.inj hsystem
      simpa [ops, failure] using h.tick hnow
    · cases hsystem
  | getConnectionWithCache delivery =>
    obtain rfl := Option.some.inj hsystem
    simpa [ops, failure] using h.start delivery.cacheKey
  | process i =>
    obtain ⟨command, hcommand, rfl⟩ := Option.map_eq_some_iff.mp hsystem
    simpa [ops, failure, hcommand] using h.process hcommand
  | lose i =>
    obtain ⟨command, -, rfl⟩ := Option.map_eq_some_iff.mp hsystem
    simpa [ops, failure] using h.eraseIdx i
  | answer i =>
    obtain ⟨⟨n, value⟩, hanswer, hsystem⟩ := Option.bind_eq_some_iff.mp hsystem
    obtain ⟨waiting, hwaiting, hsystem⟩ := Option.bind_eq_some_iff.mp hsystem
    split at hsystem
    · cases hsystem
    · obtain rfl := Option.some.inj hsystem
      simpa [ops, failure] using h.onAnswer hanswer hwaiting
  | fail n =>
    obtain ⟨waiting, -, hsystem⟩ := Option.bind_eq_some_iff.mp hsystem
    split at hsystem
    · cases hsystem
    · obtain rfl := Option.some.inj hsystem
      have hleft := h.finish n waiting.key .error
        fun err heq => by cases heq
      simpa [ops, failure] using hleft
  | getConnection n err =>
    obtain ⟨waiting, hwaiting, hsystem⟩ := Option.bind_eq_some_iff.mp hsystem
    split at hsystem
    · obtain rfl := Option.some.inj hsystem
      have hleft := h.onConnection (n := n) waiting.key err
      cases err with
      | none => simpa [ops, failure] using hleft
      | some err => simpa [ops, failure, hwaiting] using hleft
    · cases hsystem
  | other op =>
    simp only [DomainCache.step] at hsystem
    split at hsystem
    · next hother =>
      obtain rfl := Option.some.inj hsystem
      have hleft := h.apply op fun key data ttl expireCb heq => by
        rw [heq] at hother
        cases hother
      simpa [ops, failure] using hleft
    · cases hsystem

theorem inv_run {es : List Event} (hrun : run step {} es = some w) : Inv w :=
  ForStd.run_invariant (fun _ _ _ h hstep => inv_step h hstep) inv_start hrun

/-- GETCACHE is answered with what the last write of the key has stored, until it has expired; a key
    that was not written, or whose last write has removed it, has no answer. Which other operations came
    in between does not matter. -/
theorem answer_of_lastWrite {es : List Event} (hrun : run step {} es = some w) {i n : Nat}
    {key : String} (hcommand : w.system.commands[i]? = some (.getCache n key)) :
    ∃ w' value, w.step (.process i) = some w' ∧
      w'.system.answers = w.system.answers ++ [(n, value)] ∧
      (∀ v, value = some v → ∃ t ttl expireCb, LastWrite w.log key t v ttl expireCb ∧
        w.system.now ≤ t + ttl.getD w.system.cache.defaultTtl) ∧
      ∀ t v ttl expireCb, LastWrite w.log key t v (some ttl) expireCb →
        w.system.now < t + ttl → value = some v := by
  have hwrites := (inv_run hrun).writes
  have hstep : w.system.step (.process i) =
      some ({ w.system with commands := w.system.commands.eraseIdx i }.process (.getCache n key)) := by
    rw [DomainCache.step, hcommand]
    rfl
  refine ⟨_, (w.system.cache.get key w.system.now).1, by rw [step, hstep]; rfl, rfl,
    fun v hv => hwrites.of_get hv, fun t v ttl expireCb hlast hlive => hwrites.get_eq hlast hlive⟩

/-- The error of a connection that times out. -/
def timeout : ConnectError where
  message := "connect ETIMEDOUT"
  category := "network"
  temporary := true
  timedOut := true

/-- A delivery whose connection times out, and another one for the same domain. -/
def timedOut : List Event :=
  [.tick 1000, .getConnectionWithCache ⟨"default", "example.com", [], "", 0⟩, .process 0, .answer 0,
    .getConnection 0 (some timeout), .process 0, .tick 600000,
    .getConnectionWithCache ⟨"default", "example.com", [], "", 0⟩]

theorem answer_of_lastWrite_example :
    ∃ w w' value, run step {} timedOut = some w ∧ w.step (.process 0) = some w' ∧
      w'.system.answers = w.system.answers ++ [(1, value)] ∧
      ∀ t v ttl expireCb, LastWrite w.log "default:domain:example.com" t v (some ttl) expireCb →
        w.system.now < t + ttl → value = some v := by
  have hrun : ((run step {} timedOut).bind fun w => w.system.commands[0]?) =
      some (.getCache 1 "default:domain:example.com") := by decide +kernel
  obtain ⟨w, hw, hcommand⟩ := Option.bind_eq_some_iff.mp hrun
  obtain ⟨w', value, hstep, hanswers, -, hcomplete⟩ := answer_of_lastWrite hw hcommand
  exact ⟨w, w', value, hw, hstep, hanswers, hcomplete⟩

end Logged

end DomainCache

end ZoneMta
