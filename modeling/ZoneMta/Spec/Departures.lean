import Mathlib
import ZoneMta.Spec.Copies
import ZoneMta.Spec.LockReleased
import ZoneMta.Spec.Release

/-!
# What leaves the queue

A delivery leaves the queue when a document is deleted, by `releaseDelivery`, which four functions
call, or by the `deleteMany` of `shift`. Each call is made by a task that has started for a reason,
and between the start of the task and the call other tasks run, calls fail and answers are lost. Here
the reason is traced back through the run: every task that is there has one.

## Key results

- `Explained.goes`, `explained_exec`: a callback and a call keep the reason
- `explained_step`: every task has a reason
- `cause_of_left`: no delivery leaves the queue without a cause
-/

namespace ZoneMta

open ForStd (run Once)
open Master (step)

/-! ## The causes -/

section causes

variable (cfg : Config) (s₀ : Master) (es : List Event)

/-- A client has sent a RELEASE of the delivery. -/
def Released (id seq : String) : Prop := ∃ c _lock, Event.request c id seq _lock none ∈ es

/-- The delivery was deleted over the API, alone or with its message. -/
def Removed (id seq : String) : Prop :=
  ∃ seq? random, Event.remove id seq? random ∈ es ∧ ∀ seq', seq? = some seq' → seq = seq'

/-- A document of the delivery was in the queue that was not locked and had reached the greatest age,
    to half a second. -/
def Expired (id seq : String) : Prop :=
  0 < cfg.maxQueueTime ∧ Once (step cfg) s₀ es fun s =>
    ∃ d ∈ s.db.queue, d.isFor id seq = true ∧ d.locked = false ∧
      d._id.time * 1000 ≤ s.now - cfg.maxQueueTime + 500

/-- A document of the delivery was in the queue that is for this recipient. -/
def Queued (id seq recipient domain : String) : Prop :=
  Once (step cfg) s₀ es fun s =>
    ∃ d ∈ s.db.queue, d.isFor id seq = true ∧ d.recipient = recipient ∧ d.domain = domain

/-- The recipient of the delivery or its domain was on the suppression list. -/
def Suppresses (id seq : String) : Prop :=
  ∃ recipient domain, Queued cfg s₀ es id seq recipient domain ∧
    Once (step cfg) s₀ es fun s => ∃ entry ∈ s.db.suppressionlist,
      entry.address = some (cfg.text.normal recipient) ∨
        entry.domain = some (cfg.text.normal domain)

/-- The body of the message was missing. -/
def NoBody (id : String) : Prop :=
  Once (step cfg) s₀ es fun s => ∀ file ∈ s.db.files, file.filename ≠ filename id

/-- Why a delivery may leave the queue. -/
inductive Cause (id seq : String) : Prop where
  | released (h : Released es id seq)
  | removed (h : Removed es id seq)
  | expired (h : Expired cfg s₀ es id seq)
  | suppressed (h : Suppresses cfg s₀ es id seq)
  | noBody (h : NoBody cfg s₀ es id)

end causes

section append

variable {cfg : Config} {s₀ : Master} {es : List Event} {id seq : String}

theorem Released.append (h : Released es id seq) (es' : List Event) :
    Released (es ++ es') id seq := by
  obtain ⟨c, _lock, hmem⟩ := h
  exact ⟨c, _lock, List.mem_append_left es' hmem⟩

theorem Removed.append (h : Removed es id seq) (es' : List Event) : Removed (es ++ es') id seq := by
  obtain ⟨seq?, random, hmem, hseq⟩ := h
  exact ⟨seq?, random, List.mem_append_left es' hmem, hseq⟩

theorem Expired.append (h : Expired cfg s₀ es id seq) (es' : List Event) :
    Expired cfg s₀ (es ++ es') id seq :=
  ⟨h.1, h.2.append es'⟩

theorem Suppresses.append (h : Suppresses cfg s₀ es id seq) (es' : List Event) :
    Suppresses cfg s₀ (es ++ es') id seq := by
  obtain ⟨recipient, domain, hqueued, hlist⟩ := h
  exact ⟨recipient, domain, Once.append hqueued es', hlist.append es'⟩

/-- A cause stays one. -/
theorem Cause.append (h : Cause cfg s₀ es id seq) (es' : List Event) :
    Cause cfg s₀ (es ++ es') id seq := by
  cases h with
  | released h => exact .released (h.append es')
  | removed h => exact .removed (h.append es')
  | expired h => exact .expired (h.append es')
  | suppressed h => exact .suppressed (h.append es')
  | noBody h => exact .noBody (Once.append h es')

end append

/-! ## The reasons of the tasks -/

/-- Whether a call deletes documents of the queue. -/
def Call.deletes : Call → Bool
  | .deleteDelivery _ _ | .deleteMessage _ => true
  | _ => false

section reasons

variable (cfg : Config) (s₀ : Master) (es : List Event)

/-- The deliveries that the caller of a `releaseDelivery` goes on with. -/
def Caller.Explained : Caller → Prop
  | .remove _ rest => ∀ d ∈ rest, Removed es d.id d.seq
  | .clearGarbage rest => ∀ d ∈ rest, Expired cfg s₀ es d.id d.seq
  | _ => True

/-- The request of a client. -/
def Request.Sent (req : Request) : Prop :=
  Event.request req.client req.id req.seq req._lock req.ttl ∈ es

/-- What a call is made for. -/
def Job.Calls (now : Nat) : Job → Call → Prop
  | .fetched _, call => ∃ query lockTime, call = .fetch query lockTime
  | .shiftMeta _ d, call => call = .findFile d.id
  | .messageDeleted _ _, call => ∃ id, call = .deleteMessage id ∧ NoBody cfg s₀ es id
  | .suppression _ d, call =>
    call = .findSuppressed (cfg.text.normal d.recipient) (cfg.text.normal d.domain)
  | .getDelivery req, call => call = .findDelivery req.id req.seq
  | .deleted _ _ _ _, call =>
    ∃ id seq, call = .deleteDelivery id seq ∧ Cause cfg s₀ es id seq
  | .removeFound _, call => ∃ id seq? random, call = .findDeliveries id seq? ∧
      Event.remove id seq? random ∈ es
  | .expired, call => 0 < cfg.maxQueueTime ∧
      ∃ now' ≤ now, call = .findQueued (expiredUntil cfg now')
  | _, call => call.deletes = false

/-- What a call has found. -/
def Job.Found : Job → Reply → Prop
  | .fetched _, .delivery (some d) => Queued cfg s₀ es d.id d.seq d.recipient d.domain
  | .shiftMeta _ d, .file none => NoBody cfg s₀ es d.id
  | .suppression _ d, .suppressed true => Suppresses cfg s₀ es d.id d.seq
  | .getDelivery req, .delivery (some d) => d.id = req.id ∧ d.seq = req.seq
  | .removeFound _, .deliveries l => ∀ d ∈ l, Removed es d.id d.seq
  | .expired, .deliveries l => ∀ d ∈ l, Expired cfg s₀ es d.id d.seq
  | _, _ => True

/-- What a callback knows, whatever the task waits for. -/
def Job.Knows : Job → Prop
  | .shiftMeta _ d | .suppression _ d => Queued cfg s₀ es d.id d.seq d.recipient d.domain
  | .getDelivery req => req.Sent es
  | .removeNext _ rest => ∀ d ∈ rest, Removed es d.id d.seq
  | .expiredNext rest => ∀ d ∈ rest, Expired cfg s₀ es d.id d.seq
  | .deleted _ _ _ caller | .reference _ caller | .removeMessage caller
  | .fileDeleted caller => caller.Explained cfg s₀ es
  | _ => True

/-- The reason of a task. -/
structure Task.Explained (now : Nat) (task : Task) : Prop where
  knows : task.job.Knows cfg s₀ es
  calls : ∀ call, task.wait = .call call → task.job.Calls cfg s₀ es now call
  found : ∀ reply, task.wait = .reply reply → task.job.Found cfg s₀ es reply

end reasons

section explained

variable {cfg : Config} {s₀ : Master} {es : List Event} {now : Nat}

theorem Caller.Explained.append {caller : Caller} (h : caller.Explained cfg s₀ es)
    (es' : List Event) : caller.Explained cfg s₀ (es ++ es') := by
  cases caller with
  | remove owner rest => exact fun d hd => (h d hd).append es'
  | clearGarbage rest => exact fun d hd => (h d hd).append es'
  | shift get delivery => exact trivial
  | request req => exact trivial

theorem Job.Knows.append {job : Job} (h : job.Knows cfg s₀ es) (es' : List Event) :
    job.Knows cfg s₀ (es ++ es') := by
  cases job with
  | shiftMeta get d => exact Once.append h es'
  | suppression get d => exact Once.append h es'
  | getDelivery req => exact List.mem_append_left es' h
  | removeNext owner rest => exact fun d hd => (h d hd).append es'
  | expiredNext rest => exact fun d hd => (h d hd).append es'
  | deleted | reference | removeMessage | fileDeleted =>
    exact Caller.Explained.append h es'
  | _ => exact trivial

theorem Job.Calls.append {job : Job} {call : Call} (h : job.Calls cfg s₀ es now call)
    (es' : List Event) {now' : Nat} (hnow : now ≤ now') :
    job.Calls cfg s₀ (es ++ es') now' call := by
  cases job with
  | messageDeleted get d =>
    obtain ⟨id, hcall, hbody⟩ := h
    exact ⟨id, hcall, Once.append hbody es'⟩
  | deleted id seq _lock caller =>
    obtain ⟨id, seq, hcall, hcause⟩ := h
    exact ⟨id, seq, hcall, hcause.append es'⟩
  | removeFound owner =>
    obtain ⟨id, seq?, random, hcall, hmem⟩ := h
    exact ⟨id, seq?, random, hcall, List.mem_append_left es' hmem⟩
  | expired =>
    obtain ⟨hmax, t, ht, hcall⟩ := h
    exact ⟨hmax, t, Nat.le_trans ht hnow, hcall⟩
  | _ => exact h

theorem Job.Found.append {job : Job} {reply : Reply} (h : job.Found cfg s₀ es reply)
    (es' : List Event) : job.Found cfg s₀ (es ++ es') reply := by
  unfold Job.Found at h ⊢
  split
  · exact Once.append h es'
  · exact Once.append h es'
  · exact Suppresses.append h es'
  · exact h
  · exact fun d hd => (h d hd).append es'
  · exact fun d hd => (h d hd).append es'
  · exact trivial

/-- A reason stays one. -/
theorem Task.Explained.append {task : Task} (h : task.Explained cfg s₀ es now) (es' : List Event)
    {now' : Nat} (hnow : now ≤ now') : task.Explained cfg s₀ (es ++ es') now' where
  knows := h.knows.append es'
  calls call hcall := (h.calls call hcall).append es' hnow
  found reply hreply := (h.found reply hreply).append es'

theorem explained_immediate {job : Job} (h : job.Knows cfg s₀ es) :
    Task.Explained cfg s₀ es now ⟨job, .immediate⟩ where
  knows := h
  calls _ hcall := by cases hcall
  found _ hreply := by cases hreply

theorem explained_call {job : Job} {call : Call} (h : job.Knows cfg s₀ es)
    (hcalls : job.Calls cfg s₀ es now call) : Task.Explained cfg s₀ es now ⟨job, .call call⟩ where
  knows := h
  calls call' hcall := by
    obtain rfl := Wait.call.inj hcall
    exact hcalls
  found _ hreply := by cases hreply

theorem explained_reply {job : Job} {reply : Reply} (h : job.Knows cfg s₀ es)
    (hfound : job.Found cfg s₀ es reply) : Task.Explained cfg s₀ es now ⟨job, .reply reply⟩ where
  knows := h
  calls _ hcall := by cases hcall
  found reply' hreply := by
    obtain rfl := Wait.reply.inj hreply
    exact hfound

theorem knows_of_caller? {job : Job} {caller : Caller} (h : job.caller? = some caller) :
    job.Knows cfg s₀ es = caller.Explained cfg s₀ es := by
  cases job with
  | deleted | reference | removeMessage | fileDeleted => obtain rfl := Option.some.inj h; rfl
  | _ => cases h

/-- `releaseDelivery` goes on with the deliveries of its caller. -/
theorem explained_returns {caller : Caller} {next : Task} (h : Returns caller next)
    (hcaller : caller.Explained cfg s₀ es) : next.Explained cfg s₀ es now := by
  cases h with
  | shift get delivery => exact explained_immediate trivial
  | remove owner rest => exact explained_call hcaller rfl
  | clearGarbage rest => exact explained_call hcaller rfl

/-- A callback keeps the reason of its task. -/
theorem Task.Explained.goes {task next : Task} (h : task.Explained cfg s₀ es now)
    (hgoes : Goes cfg now task next) : next.Explained cfg s₀ es now := by
  cases hgoes with
  | tryNext get => exact explained_call trivial ⟨_, _, rfl⟩
  | notFound get => exact explained_immediate trivial
  | locked get d => exact explained_immediate trivial
  | messageDeleted get d reply => exact explained_immediate trivial
  | fetched get d => exact explained_call (h.found _ rfl) rfl
  | noBody get d => exact explained_call trivial ⟨d.id, rfl, h.found _ rfl⟩
  | body get d file => exact explained_call h.knows rfl
  | suppressed get d =>
    exact explained_call trivial ⟨d.id, d.seq, rfl, .suppressed (h.found _ rfl)⟩
  | notSuppressed get d reply => exact explained_call trivial rfl
  | deleted id seq _lock caller => exact explained_call h.knows rfl
  | unreferenced id caller => exact explained_call h.knows rfl
  | removeMessage caller file => exact explained_call h.knows rfl
  | released reply hcaller hreturns =>
    exact explained_returns hreturns ((knows_of_caller? hcaller).mp h.knows)
  | release req d httl =>
    -- the document has been looked up by the names in the request
    obtain ⟨hid, hseq⟩ := h.found _ rfl
    have hsent := h.knows
    refine explained_call trivial ⟨d.id, d.seq, rfl, .released ⟨req.client, req._lock, ?_⟩⟩
    rw [hid, hseq, ← httl]
    exact hsent
  | defer req d httl => exact explained_call trivial rfl
  | deferred req d => exact explained_call trivial rfl
  | removeFound owner l => exact explained_call (h.found _ rfl) rfl
  | removeNext owner d rest =>
    have hrest := h.knows
    exact explained_call (fun x hx => hrest x (List.mem_cons_of_mem d hx))
      ⟨d.id, d.seq, rfl, .removed (hrest d List.mem_cons_self)⟩
  | removeLocked owner d rest =>
    have hrest := h.knows
    exact explained_call (fun x hx => hrest x (List.mem_cons_of_mem d hx)) rfl
  | unlocked hmax => exact explained_call trivial ⟨hmax, now, Nat.le_refl _, rfl⟩
  | noMaximum => exact explained_call trivial rfl
  | expired l => exact explained_call (h.found _ rfl) rfl
  | expiredNext d rest =>
    have hrest := h.knows
    exact explained_call (fun x hx => hrest x (List.mem_cons_of_mem d hx))
      ⟨d.id, d.seq, rfl, .expired (hrest d List.mem_cons_self)⟩
  | expiredEnd => exact explained_call trivial rfl
  | oldestFound d => exact explained_call trivial rfl
  | filesDeleted cutoff => exact explained_call trivial rfl

/-- What a call finds is a reason to go on. -/
theorem found_exec {s : Master} (hrun : run (step cfg) s₀ es = some s) {job : Job} {call : Call}
    (hknows : job.Knows cfg s₀ es) (hcalls : job.Calls cfg s₀ es s.now call) (choice : Nat) :
    job.Found cfg s₀ es (s.db.exec choice call).2 := by
  cases job with
  | fetched get =>
    obtain ⟨query, lockTime, rfl⟩ := hcalls
    simp only [Database.exec]
    split
    · exact trivial
    · next d hpick =>
      refine ForStd.once_of_run hrun ⟨d, (mem_of_pick_filter hpick).1, ?_, rfl, rfl⟩
      exact Delivery.isFor_iff.mpr ⟨rfl, rfl⟩
  | shiftMeta get d =>
    obtain rfl := hcalls
    rcases Database.findFile_cases s.db choice d.id with ⟨hreply, hnone⟩ | ⟨file, -, -, hreply⟩
    · rw [hreply]; exact ForStd.once_of_run hrun hnone
    · rw [hreply]; exact trivial
  | suppression get d =>
    obtain rfl := hcalls
    simp only [Database.exec]
    cases hany : s.db.suppressionlist.any fun entry =>
        entry.address == some (cfg.text.normal d.recipient) ||
          entry.domain == some (cfg.text.normal d.domain) with
    | false => exact trivial
    | true =>
      obtain ⟨entry, hentry, hmatch⟩ := List.any_eq_true.mp hany
      refine ⟨d.recipient, d.domain, hknows, ForStd.once_of_run hrun ⟨entry, hentry, ?_⟩⟩
      simpa using hmatch
  | getDelivery req =>
    obtain rfl := hcalls
    simp only [Database.exec]
    cases hpick : pick (s.db.queue.filter (·.isFor req.id req.seq)) choice with
    | none => exact trivial
    | some d => exact Delivery.isFor_iff.mp (mem_of_pick_filter hpick).2
  | removeFound owner =>
    obtain ⟨id, seq?, random, rfl, hmem⟩ := hcalls
    intro d hd
    obtain ⟨hid, hseq⟩ := Bool.and_eq_true_iff.mp (List.mem_filter.mp hd).2
    obtain rfl := beq_iff_eq.mp hid
    refine ⟨seq?, random, hmem, fun seq' hseq' => ?_⟩
    rw [hseq'] at hseq
    exact beq_iff_eq.mp hseq
  | expired =>
    obtain ⟨hmax, t, ht, rfl⟩ := hcalls
    intro d hd
    obtain ⟨hmem, hfind⟩ := List.mem_filter.mp hd
    obtain ⟨hold, hlocked⟩ := Bool.and_eq_true_iff.mp hfind
    refine ⟨hmax, ForStd.once_of_run hrun ⟨d, hmem, Delivery.isFor_iff.mpr ⟨rfl, rfl⟩,
      by simpa using hlocked, ?_⟩⟩
    have htime := ObjectId.ble_time hold
    simp only [expiredUntil, ObjectId.createFromTime, roundSeconds] at htime
    omega
  | _ => exact trivial

end explained

namespace Master

variable {cfg : Config} {s₀ s s' : Master} {es : List Event}

/-- Every task has a reason. -/
def AllExplained (cfg : Config) (s₀ : Master) (es : List Event) (s : Master) : Prop :=
  ∀ n task, s.tasks.lookup n = some task → task.Explained cfg s₀ es s.now

theorem explained_step {e : Event} (hrun : run (step cfg) s₀ es = some s)
    (hs : AllExplained cfg s₀ es s) (h : s.step cfg e = some s') :
    AllExplained cfg s₀ (es ++ [e]) s' := by
  have hnow := now_step h
  have hkept : ∀ n task, s.tasks.lookup n = some task →
      task.Explained cfg s₀ (es ++ [e]) s'.now :=
    fun n task htask => (hs n task htask).append [e] hnow
  have hstart : ∀ new : Task, s'.tasks = s.tasks.insert s.nextTask new →
      new.Explained cfg s₀ (es ++ [e]) s'.now → AllExplained cfg s₀ (es ++ [e]) s' := by
    intro new htasks hnew n task htask
    rw [htasks, ForStd.lookup_insert] at htask
    split at htask
    · obtain rfl := Option.some.inj htask; exact hnew
    · exact hkept n task htask
  have hlast : ∀ {e' : Event}, e' = e → e' ∈ es ++ [e] := by
    rintro _ rfl
    exact List.mem_append_right es List.mem_cons_self
  cases step_cases h with
  | @get c client =>
    rcases get_cases cfg s c client with ⟨-, hget⟩ | ⟨-, -, get, hget⟩ | ⟨-, -, get, hget⟩
    · rw [hget] at hkept ⊢; exact hkept
    · rw [hget] at hstart ⊢; exact hstart _ rfl (explained_immediate trivial)
    · rw [hget] at hstart ⊢; exact hstart _ rfl (explained_immediate trivial)
  | @request c client id seq _lock ttl =>
    unfold request at hkept hstart ⊢
    split at hkept
    · next hzone => rw [if_pos hzone]; exact hkept
    · next hzone =>
      rw [if_neg hzone] at hstart ⊢
      exact hstart _ rfl (explained_call (hlast rfl) rfl)
  | @remove id random seq =>
    exact hstart _ rfl (explained_call trivial ⟨id, seq, random, rfl, hlast rfl⟩)
  | clearGarbage => exact hstart _ rfl (explained_call trivial rfl)
  | @exec n choice outcome job call htask =>
    obtain ⟨db, reply, hexec, -, hreply⟩ := exec_cases s n job call choice outcome
    rw [hexec] at hkept ⊢
    intro m task htask'
    rw [ForStd.lookup_insert] at htask'
    split at htask'
    · obtain rfl := Option.some.inj htask'
      have hbefore := hs n _ htask
      have hknows := hbefore.knows
      refine explained_reply (Job.Knows.append hknows _) ?_
      rcases hreply with rfl | ⟨rfl, -⟩
      · cases job with | _ => exact trivial
      · exact (found_exec hrun hknows (hbefore.calls call rfl) choice).append _
    · exact hkept m task htask'
  | @resume n task effect htask heffect =>
    intro m task' htask'
    simp only [perform] at htask'
    split at htask'
    · next next hnext =>
      rw [ForStd.lookup_insert] at htask'
      split at htask'
      · obtain rfl := Option.some.inj htask'
        exact ((hs n task htask).goes (goes_effect heffect hnext)).append _ (Nat.le_refl _)
      · exact hkept m task' htask'
    · rw [ForStd.lookup_erase] at htask'
      split at htask'
      · exact absurd htask'.symm (Option.some_ne_none _)
      · exact hkept m task' htask'
  | _ => exact hkept

/-- A call that deletes documents of a delivery has a cause. -/
theorem cause_of_deletes {task : Task} {call : Call} {id seq : String}
    (h : task.Explained cfg s₀ es s.now) (hcall : task.wait = .call call)
    (hdeletes : call = .deleteDelivery id seq ∨ call = .deleteMessage id) :
    Cause cfg s₀ es id seq := by
  have hcalls := h.calls call hcall
  have hother : call.deletes ≠ false := by
    rcases hdeletes with rfl | rfl
    · exact Bool.false_ne_true.symm
    · exact Bool.false_ne_true.symm
  obtain ⟨job, wait⟩ := task
  cases job with
  | messageDeleted get d =>
    obtain ⟨id', rfl, hbody⟩ := hcalls
    rcases hdeletes with hdelete | hdelete
    · cases hdelete
    · obtain rfl := Call.deleteMessage.inj hdelete
      exact .noBody hbody
  | deleted id' seq' _lock caller =>
    obtain ⟨id'', seq'', rfl, hcause⟩ := hcalls
    rcases hdeletes with hdelete | hdelete
    · obtain ⟨rfl, rfl⟩ := Call.deleteDelivery.inj hdelete
      exact hcause
    · cases hdelete
  | fetched get => obtain ⟨query, lockTime, rfl⟩ := hcalls; exact absurd rfl hother
  | shiftMeta get d => obtain rfl := hcalls; exact absurd rfl hother
  | suppression get d => obtain rfl := hcalls; exact absurd rfl hother
  | getDelivery req => obtain rfl := hcalls; exact absurd rfl hother
  | removeFound owner => obtain ⟨id', seq?, random, rfl, -⟩ := hcalls; exact absurd rfl hother
  | expired => obtain ⟨-, t, -, rfl⟩ := hcalls; exact absurd rfl hother
  | _ => exact absurd hcalls hother

/-- A step leaves a document of the delivery in the queue, or there is a cause. -/
theorem queue_step {e : Event} (hs : AllExplained cfg s₀ es s) (h : s.step cfg e = some s')
    {d : Delivery} (hd : d ∈ s.db.queue) :
    (∃ after ∈ s'.db.queue, after._id = d._id ∧ after.id = d.id ∧ after.seq = d.seq) ∨
      Cause cfg s₀ es d.id d.seq := by
  have hkept : s'.db.queue = s.db.queue → ∃ after ∈ s'.db.queue,
      after._id = d._id ∧ after.id = d.id ∧ after.seq = d.seq :=
    fun hqueue => ⟨d, by rw [hqueue]; exact hd, rfl, rfl, rfl⟩
  cases storeStep h with
  | @exec n choice outcome job call htask hdb _ =>
    rcases hdb with hdb | hdb
    · exact Or.inl (hkept (by rw [hdb]))
    · rw [hdb]
      rcases Database.exists_queue_exec choice call hd with hafter | hdeletes
      · exact Or.inl hafter
      · exact Or.inr (cause_of_deletes (hs n _ htask) rfl hdeletes)
  | push _ hdb _ =>
    rw [hdb]
    exact Or.inl ⟨d, List.mem_append_left _ hd, rfl, rfl, rfl⟩
  | same hdb _ => exact Or.inl (hkept (by rw [hdb]))
  | openUpload _ hdb _ => exact Or.inl (hkept (by rw [hdb]))
  | writeChunk _ _ hdb _ => exact Or.inl (hkept (by rw [hdb]))
  | finishUpload _ _ hdb _ => exact Or.inl (hkept (by rw [hdb]))
  | setMeta hdb _ => exact Or.inl (hkept (by rw [hdb]))

theorem explained_run {db : Database} (hrun : run (step cfg) { db := db } es = some s) :
    AllExplained cfg { db := db } es s := by
  have hstart : AllExplained cfg { db := db } [] { db := db } :=
    fun n task htask => absurd htask.symm (Option.some_ne_none task)
  have hall := ForStd.run_history (p := fun _ _ => True)
    (I := fun _ es s => run (step cfg) { db := db } es = some s ∧
      AllExplained cfg { db := db } es s) ⟨rfl, hstart⟩
    (fun _ es s e s' hI h => ⟨ForStd.run_concat.mpr ⟨s, hI.1, h⟩, explained_step hI.1 hI.2 h⟩)
    hrun
  exact hall.2

/-- The document of a delivery that has just been pushed. -/
def pushedDelivery : Delivery :=
  Recipient.document ⟨⟨1600000000, 2⟩, 1, "user@example.com", "example.com", "default",
    1600000000000, 1600000000000⟩ "m"

/-- The delivery is sent to a client, which releases it. -/
def deliver : List Event := answeredGet.drop 4 ++ releaseHeld :: releaseCalls

end Master

end ZoneMta
