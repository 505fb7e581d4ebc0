import ZoneMta.Native.Shift
import ZoneMta.Spec.ShiftReturns

/-!
# What shift returns

Every try of the loop that does not return has locked a document in the database that the query
finds, so that it is not found again. What is deleted on the way are the documents of messages that
are missing and of suppressed deliveries, by the `id` and the `seq` they have in memory.

## Key results

- `tryNext_cases`: what a try does
- `Tried.shrinks`, `Tried.length_lt`, `Tried.stays`: what it leaves
- `Wanted.available`: the documents of a queue as `push` makes it
- `shift_correct`: the loop terminates, the delivery it returns, and what there is not if it returns
  none
- `shift_misses`: messages that are missing, and deliveries deleted in the place of others
-/

namespace ZoneMta

open ForStd (Text retry retry_isSome retry_last)

variable {cfg : Config} {parse : String → Metadata} {query : Query} {lockOwner : String}

/-! ## Documents -/

namespace Database

variable {db : Database}

/-- The document that `shift` has fetched is not found again. -/
theorem filter_update_fetched (hids : (db.queue.map (·._id)).Nodup) (delivery : Delivery)
    (lockTime : Nat) :
    (db.update delivery (·.fetched lockTime query.instanceId)).queue.filter query.matches =
      (db.queue.filter query.matches).filter (·._id ≠ delivery._id) := by
  have hmap : (db.update delivery (·.fetched lockTime query.instanceId)).queue =
      db.queue.map fun d =>
        if d._id = delivery._id then d.fetched lockTime query.instanceId else d :=
    ForStd.updateOne_eq_map hids delivery._id _
  rw [hmap, List.filter_map, List.filter_filter]
  -- a fetched document is locked, and the query asks for those that are not
  have hlocked : ∀ d : Delivery, query.matches (d.fetched lockTime query.instanceId) = false := by
    intro d
    simp [Query.matches, Query.due, Delivery.fetched]
  have hfilter : db.queue.filter (query.matches ∘ fun d =>
        if d._id = delivery._id then d.fetched lockTime query.instanceId else d) =
      db.queue.filter fun d => decide (d._id ≠ delivery._id) && query.matches d := by
    refine List.filter_congr fun d _ => ?_
    simp only [Function.comp]
    split
    · next hid => simp [hlocked, hid]
    · next hid => simp [hid]
  rw [hfilter]
  -- what is left is unchanged
  refine (List.map_congr_left fun d hd => ?_).trans (List.map_id' _)
  have hid := (Bool.and_eq_true_iff.mp (List.mem_filter.mp hd).2).1
  exact if_neg (of_decide_eq_true hid)

/-- Another document stays. -/
theorem mem_update_of_ne {delivery d : Delivery} {f : Delivery → Delivery} (hd : d ∈ db.queue)
    (hne : d._id ≠ delivery._id) : d ∈ (db.update delivery f).queue :=
  ForStd.mem_updateOne_of_not hd (by simpa using hne)

end Database

theorem Shifted.findSuppressed (text : Text) (delivery : Shifted) (db : Database) :
    (db.exec 0 (.findSuppressed (text.normal delivery.recipient)
      (text.normal delivery.domain))).2 = .suppressed (delivery.suppressed text db) := by
  unfold suppressed
  simp only [Database.exec]
  generalize db.suppressionlist.any _ = found
  cases found with
  | false => rfl
  | true => rfl

/-- What the suppression list has to say does not depend on the rest. -/
theorem Shifted.suppressed_congr (text : Text) (delivery : Shifted) {db db' : Database}
    (h : db'.suppressionlist = db.suppressionlist) :
    delivery.suppressed text db' = delivery.suppressed text db := by
  simp only [suppressed, Database.exec, h]

namespace MailQueue

/-! ## A try -/

/-- The state in which the document is fetched. -/
def fetch (q : MailQueue) (query : Query) (round : Round) (delivery : Delivery) : Database :=
  q.db.update delivery (·.fetched round.now query.instanceId)

/-- The state of the locker in which the delivery is locked. -/
def lockFor (q : MailQueue) (cfg : Config) (query : Query) (lockOwner : String) (round : Round)
    (delivery : Delivery) : QueueLocker :=
  (q.locks.lock (lockKey delivery.id delivery.seq) query.sendingZone delivery.domain lockOwner
    (cfg.limit delivery.domain) (60 * 60 * 1000) round.now).2

/-- What a try does that has fetched the document. -/
inductive Tried (cfg : Config) (parse : String → Metadata) (query : Query) (lockOwner : String)
    (round : Round) (q : MailQueue) (e : Delivery) :
    Option (Option Shifted) → MailQueue → Prop where
  | locked (h : q.locks.lockExists (lockKey e.id e.seq) = true) :
      Tried cfg parse query lockOwner round q e none { q with db := q.fetch query round e }
  | missing (h : q.locks.lockExists (lockKey e.id e.seq) = false)
      (hfile : ∀ file ∈ q.db.files, file.filename ≠ filename e.id) :
      Tried cfg parse query lockOwner round q e none
        { q with
          db := ((q.fetch query round e).exec 0 (.deleteMessage e.id)).1
          locks := (q.lockFor cfg query lockOwner round e).release (lockKey e.id e.seq) }
  | suppressed (h : q.locks.lockExists (lockKey e.id e.seq) = false) {file : File}
      (hfile : file ∈ q.db.files) (hname : file.filename = filename e.id)
      (hsuppressed : (e.withMetadata (file.metadata parse)).suppressed cfg.text q.db = true) :
      Tried cfg parse query lockOwner round q e none
        ({ q with
          db := q.fetch query round e
          locks := q.lockFor cfg query lockOwner round e }.releaseDelivery round
            (e.withMetadata (file.metadata parse)))
  | returned (h : q.locks.lockExists (lockKey e.id e.seq) = false) {file : File}
      (hfile : file ∈ q.db.files) (hname : file.filename = filename e.id)
      (hallowed : (e.withMetadata (file.metadata parse)).suppressed cfg.text q.db = false) :
      Tried cfg parse query lockOwner round q e (some (some (e.withMetadata (file.metadata parse))))
        { q with
          db := q.fetch query round e
          locks := q.lockFor cfg query lockOwner round e }

/-- The part behind the lock. -/
theorem shiftLocked_cases {q q' : MailQueue} {round : Round} {delivery : Delivery}
    {r : Option (Option Shifted)} (h : shiftLocked cfg parse q round delivery = (r, q')) :
    ((∀ file ∈ q.db.files, file.filename ≠ filename delivery.id) ∧ r = none ∧
      q' = { q with
        db := (q.db.exec 0 (.deleteMessage delivery.id)).1
        locks := q.locks.release (lockKey delivery.id delivery.seq) }) ∨
    ∃ file ∈ q.db.files, file.filename = filename delivery.id ∧
      ((delivery.withMetadata (file.metadata parse)).suppressed cfg.text q.db = true ∧ r = none ∧
          q' = q.releaseDelivery round (delivery.withMetadata (file.metadata parse)) ∨
        (delivery.withMetadata (file.metadata parse)).suppressed cfg.text q.db = false ∧
          r = some (some (delivery.withMetadata (file.metadata parse))) ∧ q' = q) := by
  rw [shiftLocked] at h
  rcases q.db.findFile_cases round.file delivery.id with ⟨hreply, hmissing⟩ |
    ⟨file, hfile, hname, hreply⟩
  · rw [hreply] at h
    obtain ⟨rfl, rfl⟩ := Prod.mk.inj h
    exact Or.inl ⟨hmissing, rfl, rfl⟩
  · refine Or.inr ⟨file, hfile, hname, ?_⟩
    rw [hreply] at h
    dsimp only at h
    split at h
    · next hsuppressed =>
      obtain ⟨rfl, rfl⟩ := Prod.mk.inj h
      exact Or.inl ⟨hsuppressed, rfl, rfl⟩
    · next hallowed =>
      obtain ⟨rfl, rfl⟩ := Prod.mk.inj h
      exact Or.inr ⟨Bool.not_eq_true _ ▸ hallowed, rfl, rfl⟩

/-- A try that fetches a document. -/
theorem tryNext_of_pick {q : MailQueue} {round : Round} {e : Delivery}
    (hpick : pick (q.db.queue.filter query.matches) round.fetched = some e) :
    tryNext cfg parse query lockOwner round q =
      if q.locks.lockExists (lockKey e.id e.seq) then (none, { q with db := q.fetch query round e })
      else
        shiftLocked cfg parse
          { q with
            db := q.fetch query round e
            locks := q.lockFor cfg query lockOwner round e }
          round (e.fetched round.now query.instanceId) := by
  have hexec : q.db.exec round.fetched (.fetch query round.now) =
      (q.fetch query round e, .delivery (some (e.fetched round.now query.instanceId))) := by
    simp only [Database.exec, hpick]
    rfl
  rw [tryNext, hexec]
  have hlock : q.locks.lock (lockKey e.id e.seq) query.sendingZone e.domain lockOwner
      (cfg.limit e.domain) (60 * 60 * 1000) round.now =
        (!q.locks.lockExists (lockKey e.id e.seq), q.lockFor cfg query lockOwner round e) :=
    Prod.ext (QueueLocker.fst_lock ..) rfl
  -- a lock that is refused changes nothing
  have hsame : q.locks.lockExists (lockKey e.id e.seq) = true →
      q.lockFor cfg query lockOwner round e = q.locks := by
    intro hexists
    rw [lockFor, QueueLocker.lock_of_exists hexists]
  simp only [Delivery.fetched, hlock]
  cases hexists : q.locks.lockExists (lockKey e.id e.seq) with
  | true =>
    rw [hsame hexists]
    rfl
  | false => rfl

/-- A try returns where there is nothing to find, or it fetches a document. -/
theorem tryNext_cases {round : Round} {q q' : MailQueue} {r : Option (Option Shifted)}
    (h : tryNext cfg parse query lockOwner round q = (r, q')) :
    (q.db.queue.filter query.matches = [] ∧ r = some none) ∨
      ∃ e ∈ q.db.queue.filter query.matches, Tried cfg parse query lockOwner round q e r q' := by
  cases hpick : pick (q.db.queue.filter query.matches) round.fetched with
  | none =>
    refine Or.inl ⟨List.eq_nil_iff_forall_not_mem.mpr fun e he => pick_ne_none he hpick, ?_⟩
    simp only [tryNext, Database.exec, hpick] at h
    exact (Prod.mk.inj h).1.symm
  | some e =>
    refine Or.inr ⟨e, mem_of_pick hpick, ?_⟩
    -- the branches of the source, in their order
    rw [tryNext_of_pick hpick] at h
    split at h
    · next hexists =>
      obtain ⟨rfl, rfl⟩ := Prod.mk.inj h
      exact .locked hexists
    · next hfree =>
      rw [Bool.not_eq_true] at hfree
      rcases shiftLocked_cases h with ⟨hmissing, rfl, rfl⟩ | ⟨file, hfile, hname,
        ⟨hsuppressed, rfl, rfl⟩ | ⟨hallowed, rfl, rfl⟩⟩
      · exact .missing hfree hmissing
      · exact .suppressed hfree hfile hname hsuppressed
      · exact .returned hfree hfile hname hallowed

/-! ## What is left after a try -/

/-- The documents that the query finds, the files and the suppression list, after some tries. -/
structure Shrinks (query : Query) (q q' : MailQueue) : Prop where
  ids : (q.db.queue.map (·._id)).Nodup → (q'.db.queue.map (·._id)).Nodup
  matching : (q'.db.queue.filter query.matches).Sublist (q.db.queue.filter query.matches)
  files : q'.db.files.Sublist q.db.files
  suppressionlist : q'.db.suppressionlist = q.db.suppressionlist

/-- The locks do not matter. -/
theorem shrinks_of_db_eq {q q' : MailQueue} (h : q'.db = q.db) : Shrinks query q q' where
  ids hids := h ▸ hids
  matching := h ▸ List.Sublist.refl _
  files := h ▸ List.Sublist.refl _
  suppressionlist := h ▸ rfl

theorem Shrinks.trans {q q₁ q' : MailQueue} (h : Shrinks query q q₁) (h' : Shrinks query q₁ q') :
    Shrinks query q q' where
  ids := h'.ids ∘ h.ids
  matching := h'.matching.trans h.matching
  files := h'.files.trans h.files
  suppressionlist := h'.suppressionlist.trans h.suppressionlist

/-- The document that a try fetches is not found any more. -/
theorem shrinks_fetch {q : MailQueue} (hids : (q.db.queue.map (·._id)).Nodup) (round : Round)
    (e : Delivery) (locks : QueueLocker) :
    Shrinks query q { q with db := q.fetch query round e, locks := locks } where
  ids hids := by
    show ((q.db.update e _).queue.map (·._id)).Nodup
    rw [Database.ids_update e (f := (·.fetched round.now query.instanceId)) fun _ => rfl]
    exact hids
  matching := by
    show ((q.db.update e _).queue.filter query.matches).Sublist _
    rw [Database.filter_update_fetched hids]
    exact List.filter_sublist
  files := List.Sublist.refl _
  suppressionlist := rfl

theorem shrinks_deleteMessage (q : MailQueue) (id : String) (locks : QueueLocker) :
    Shrinks query q { q with db := (q.db.exec 0 (.deleteMessage id)).1, locks := locks } where
  ids hids := hids.sublist (List.filter_sublist.map _)
  matching := List.filter_sublist.filter _
  files := List.Sublist.refl _
  suppressionlist := rfl

/-- The document of a suppressed delivery is deleted, and the file of the message where no document
    is left. -/
theorem releaseDelivery_cases (q : MailQueue) (round : Round) (shifted : Shifted) :
    ∃ q₁ : MailQueue,
      q₁.db = (q.db.exec round.deleted (.deleteDelivery shifted.id shifted.seq)).1 ∧
      q₁.locks = q.locks.release shifted._lock ∧
      (q.releaseDelivery round shifted = q₁ ∨
        (∀ d ∈ q₁.db.queue, d.id ≠ shifted.id) ∧
          ∃ file ∈ q₁.db.files, file.filename = filename shifted.id ∧
            q.releaseDelivery round shifted =
              { q₁ with db := (q₁.db.exec 0 (.deleteFile file._id)).1 }) := by
  refine ⟨{ q with
    db := (q.db.exec round.deleted (.deleteDelivery shifted.id shifted.seq)).1
    locks := q.locks.release shifted._lock }, rfl, rfl, ?_⟩
  rw [releaseDelivery]
  dsimp only
  generalize (q.db.exec round.deleted (.deleteDelivery shifted.id shifted.seq)).1 = db
  rcases db.findReference_cases round.reference shifted.id with ⟨hreply, hnone⟩ | ⟨d, -, -, hreply⟩
  · rw [hreply]
    dsimp only
    rw [removeMessage]
    rcases db.findFile_cases round.message shifted.id with ⟨hfind, -⟩ | ⟨file, hfile, hname, hfind⟩
    · rw [hfind]
      exact Or.inl rfl
    · rw [hfind]
      exact Or.inr ⟨hnone, file, hfile, hname, rfl⟩
  · rw [hreply]
    exact Or.inl rfl

theorem shrinks_releaseDelivery (q : MailQueue) (round : Round) (shifted : Shifted) :
    Shrinks query q (q.releaseDelivery round shifted) := by
  obtain ⟨q₁, hdb, -, hcases⟩ := releaseDelivery_cases q round shifted
  have hfirst : Shrinks query q q₁ := by
    have hdelete : (q₁.db.queue).Sublist q.db.queue ∧ q₁.db.files = q.db.files ∧
        q₁.db.suppressionlist = q.db.suppressionlist := by
      rw [hdb]
      simp only [Database.exec]
      split
      · exact ⟨List.Sublist.refl _, rfl, rfl⟩
      · exact ⟨List.erase_sublist, rfl, rfl⟩
    exact ⟨fun hids => hids.sublist (hdelete.1.map _), hdelete.1.filter _,
      hdelete.2.1 ▸ List.Sublist.refl _, hdelete.2.2⟩
  rcases hcases with heq | ⟨-, file, -, -, heq⟩
  · rw [heq]
    exact hfirst
  · rw [heq]
    exact hfirst.trans ⟨id, List.Sublist.refl _, List.filter_sublist, rfl⟩

section Tried

variable {q q' : MailQueue} {round : Round} {e : Delivery} {r : Option (Option Shifted)}
  (h : Tried cfg parse query lockOwner round q e r q')
include h

/-- What a try does after it has fetched the document. -/
theorem Tried.shrinks_fetched (locks : QueueLocker) :
    Shrinks query { q with db := q.fetch query round e, locks := locks } q' := by
  cases h with
  | locked => exact shrinks_of_db_eq rfl
  | missing => exact shrinks_deleteMessage _ e.id _
  | suppressed =>
    -- `releaseDelivery` starts from the locks of the try
    have hlocked : Shrinks query { q with db := q.fetch query round e, locks := locks }
        { q with
          db := q.fetch query round e
          locks := q.lockFor cfg query lockOwner round e } := shrinks_of_db_eq rfl
    exact hlocked.trans (shrinks_releaseDelivery _ round _)
  | returned => exact shrinks_of_db_eq rfl

theorem Tried.shrinks (hids : (q.db.queue.map (·._id)).Nodup) : Shrinks query q q' :=
  (shrinks_fetch hids round e q.locks).trans (h.shrinks_fetched q.locks)

/-- A try makes the documents that the query finds fewer. -/
theorem Tried.length_lt (hids : (q.db.queue.map (·._id)).Nodup)
    (he : e ∈ q.db.queue.filter query.matches) :
    (q'.db.queue.filter query.matches).length < (q.db.queue.filter query.matches).length := by
  -- what follows the fetch adds no document, and the fetch takes one away
  have hle := (h.shrinks_fetched q.locks).matching.length_le
  refine Nat.lt_of_le_of_lt hle ?_
  show ((q.db.update e _).queue.filter query.matches).length < _
  rw [Database.filter_update_fetched hids, List.length_filter_lt_length_iff_exists]
  exact ⟨e, he, by simp⟩

end Tried

/-! ## A document that can be returned -/

/-- The document is found, its lock is free, and the delivery is not suppressed. -/
structure Wanted (text : Text) (parse : String → Metadata) (query : Query) (q : MailQueue)
    (d : Delivery) : Prop where
  mem : d ∈ q.db.queue
  found : query.matches d = true
  free : q.locks.lockExists (lockKey d.id d.seq) = false
  allowed : ∀ file ∈ q.db.files, file.filename = filename d.id →
    (d.withMetadata (file.metadata parse)).suppressed text q.db = false

/-- The message is stored as well, and no suppressed delivery has the `id` and the `seq` in memory,
    or keeps the lock. -/
structure Available (text : Text) (parse : String → Metadata) (query : Query) (q : MailQueue)
    (d : Delivery) : Prop extends Wanted text parse query q d where
  stored : ∃ file ∈ q.db.files, file.filename = filename d.id
  unnamed : ∀ e ∈ q.db.queue, query.matches e = true → ∀ file ∈ q.db.files,
    file.filename = filename e.id →
    (e.withMetadata (file.metadata parse)).suppressed text q.db = true →
    ¬d.isFor (e.withMetadata (file.metadata parse)).id (e.withMetadata (file.metadata parse)).seq ∧
    ((e.withMetadata (file.metadata parse))._lock = lockKey e.id e.seq ∨
      lockKey e.id e.seq ≠ lockKey d.id d.seq)

/-- Where no two documents have the same `id` and `seq`, and the metadata have no other ones and no
    key of a lock, it is enough that the message is stored. -/
theorem Wanted.available {q : MailQueue} {d : Delivery} (h : Wanted cfg.text parse query q d)
    (hstored : ∃ file ∈ q.db.files, file.filename = filename d.id)
    (hdistinct : ∀ e ∈ q.db.queue, e.id = d.id → e.seq = d.seq → e = d)
    (hkeys : ∀ e ∈ q.db.queue, ∀ file ∈ q.db.files, file.filename = filename e.id →
      (e.withMetadata (file.metadata parse)).id = e.id ∧
      (e.withMetadata (file.metadata parse)).seq = e.seq ∧
      (e.withMetadata (file.metadata parse))._lock = lockKey e.id e.seq) :
    Available cfg.text parse query q d where
  toWanted := h
  stored := hstored
  unnamed := by
    intro e he _ file hfile hname hsuppressed
    -- a delivery with the same keys would be this one, which is not suppressed
    obtain ⟨hid, hseq, hlock⟩ := hkeys e he file hfile hname
    refine ⟨fun hfor => ?_, Or.inl hlock⟩
    rw [hid, hseq, Delivery.isFor, Bool.and_eq_true, beq_iff_eq, beq_iff_eq] at hfor
    obtain rfl := hdistinct e he hfor.1.symm hfor.2.symm
    exact Bool.false_ne_true ((h.allowed file hfile hname).symm.trans hsuppressed)

/-- What a document that can be returned keeps. -/
structure Stays (q₀ q : MailQueue) (d : Delivery) : Prop where
  mem : d ∈ q.db.queue
  free : q.locks.lockExists (lockKey d.id d.seq) = false
  stored : ∀ file ∈ q₀.db.files, file.filename = filename d.id → file ∈ q.db.files

/-- The lock of another delivery. -/
theorem lockExists_lockFor {q : MailQueue} {round : Round} {e : Delivery} {key : String}
    (hne : lockKey e.id e.seq ≠ key) (h : q.locks.lockExists key = false) :
    (q.lockFor cfg query lockOwner round e).lockExists key = false := by
  rw [← Bool.not_eq_true, QueueLocker.lockExists_iff] at h ⊢
  rintro ⟨lock, hlock, hkey⟩
  rw [lockFor, QueueLocker.locks_lock] at hlock
  refine h ⟨lock, ?_, hkey⟩
  split at hlock
  · exact hlock
  · rcases List.mem_append.mp hlock with hold | hnew
    · exact hold
    · obtain rfl := List.mem_singleton.mp hnew
      exact absurd hkey hne

/-- The lock that a try has taken and released. -/
theorem lockExists_release_lockFor {q : MailQueue} {round : Round} {e : Delivery} {key : String}
    (h : q.locks.lockExists key = false) :
    ((q.lockFor cfg query lockOwner round e).release (lockKey e.id e.seq)).lockExists key =
      false := by
  by_cases hkey : lockKey e.id e.seq = key
  · rw [← hkey]
    exact QueueLocker.lockExists_release_self (lockKey_ne e.id e.seq)
  · exact QueueLocker.lockExists_release _ (lockExists_lockFor hkey h)

/-- A suppressed delivery takes nothing from a document that it does not name. -/
theorem stays_releaseDelivery {q₀ q : MailQueue} {d : Delivery} {shifted : Shifted}
    (hfiles : (q₀.db.files.map (·._id)).Nodup) (hsub : q.db.files ⊆ q₀.db.files) (round : Round)
    (hmem : d ∈ q.db.queue)
    (hfree : (q.locks.release shifted._lock).lockExists (lockKey d.id d.seq) = false)
    (hstored : ∀ file ∈ q₀.db.files, file.filename = filename d.id → file ∈ q.db.files)
    (hfor : ¬d.isFor shifted.id shifted.seq = true) :
    Stays q₀ (q.releaseDelivery round shifted) d := by
  obtain ⟨q₁, hdb, hlocks, hcases⟩ := releaseDelivery_cases q round shifted
  have hfilesDelete : q₁.db.files = q.db.files := by
    rw [hdb]
    exact Database.files_exec (fun _ => nofun) (fun _ => nofun)
  -- the document itself, before the message is looked for
  have hfirst : Stays q₀ q₁ d := by
    refine ⟨?_, ?_, ?_⟩
    · rw [hdb]
      exact Database.mem_deleteDelivery round.deleted hmem hfor
    · rw [hlocks]
      exact hfree
    · rw [hfilesDelete]
      exact hstored
  rcases hcases with heq | ⟨hnone, file, hfile, hname, heq⟩
  · rw [heq]
    exact hfirst
  · rw [heq]
    refine ⟨hfirst.mem, hfirst.free, fun f hf hfname => ?_⟩
    refine List.mem_filter.mpr ⟨hfirst.stored f hf hfname, bne_iff_ne.mpr fun hid => ?_⟩
    -- no document has the id of the message whose file is deleted
    have hsame : f = file :=
      List.inj_on_of_nodup_map hfiles hf (hsub (hfilesDelete ▸ hfile)) hid
    rw [hsame, hname] at hfname
    exact hnone d hfirst.mem (filename_inj hfname).symm

/-- A document that can be returned stays, until it is the one that is fetched. -/
theorem Tried.stays {q₀ q q' : MailQueue} {round : Round} {d e : Delivery}
    (hd : Available cfg.text parse query q₀ d) (hfiles : (q₀.db.files.map (·._id)).Nodup)
    (hids : (q.db.queue.map (·._id)).Nodup) (hq : Shrinks query q₀ q) (hstays : Stays q₀ q d)
    (he : e ∈ q.db.queue.filter query.matches)
    (h : Tried cfg parse query lockOwner round q e none q') : Stays q₀ q' d := by
  -- the fetch changes one document
  have hfetch : e ≠ d → d ∈ (q.fetch query round e).queue := by
    intro hne
    refine Database.mem_update_of_ne hstays.mem fun hid => hne ?_
    exact List.inj_on_of_nodup_map hids (List.mem_of_mem_filter he) hstays.mem hid.symm
  have he₀ : e ∈ q₀.db.queue ∧ query.matches e = true := List.mem_filter.mp (hq.matching.subset he)
  cases h with
  | locked hexists =>
    -- its lock is free, so it is another one that is locked
    refine ⟨hfetch ?_, hstays.free, hstays.stored⟩
    rintro rfl
    exact Bool.false_ne_true (hstays.free.symm.trans hexists)
  | missing hfree hmissing =>
    -- its message is stored, so it is that of another one that is missing
    have hne : d.id ≠ e.id := by
      intro hid
      obtain ⟨file, hfile, hname⟩ := hd.stored
      exact hmissing file (hstays.stored file hfile hname) (hid ▸ hname)
    refine ⟨List.mem_filter.mpr ⟨hfetch ?_, bne_iff_ne.mpr hne⟩, ?_, hstays.stored⟩
    · rintro rfl
      exact hne rfl
    · exact lockExists_release_lockFor hstays.free
  | @suppressed hfree file hfile hname hsuppressed =>
    -- a suppressed delivery of the queue as it was at the start
    have hfile₀ := hq.files.subset hfile
    have hsuppressed₀ := (Shifted.suppressed_congr _ _ hq.suppressionlist).symm.trans hsuppressed
    obtain ⟨hfor, hlock⟩ := hd.unnamed e he₀.1 he₀.2 file hfile₀ hname hsuppressed₀
    have hne : e ≠ d := by
      rintro rfl
      exact Bool.false_ne_true ((hd.allowed file hfile₀ hname).symm.trans hsuppressed₀)
    refine stays_releaseDelivery (q := { q with
      db := q.fetch query round e
      locks := q.lockFor cfg query lockOwner round e }) hfiles hq.files.subset round (hfetch hne) ?_
      hstays.stored hfor
    rcases hlock with hlock | hlock
    · rw [hlock]
      exact lockExists_release_lockFor hstays.free
    · exact QueueLocker.lockExists_release _ (lockExists_lockFor hlock hstays.free)

/-! ## The loop -/

/-- What holds before every try. -/
def Before (query : Query) (q₀ q : MailQueue) : Prop :=
  (q.db.queue.map (·._id)).Nodup ∧ Shrinks query q₀ q

/-- A try that does not return. -/
theorem Before.tryNext {q₀ q q' : MailQueue} {round : Round} (h : Before query q₀ q)
    (htry : tryNext cfg parse query lockOwner round q = (none, q')) :
    ∃ e ∈ q.db.queue.filter query.matches,
      Tried cfg parse query lockOwner round q e none q' ∧ Before query q₀ q' := by
  rcases tryNext_cases htry with ⟨-, hnone⟩ | ⟨e, he, htried⟩
  · exact nomatch hnone
  · have hshrinks := htried.shrinks h.1
    exact ⟨e, he, htried, hshrinks.ids h.1, h.2.trans hshrinks⟩

/-- What the delivery that the loop returns is made of. -/
structure Returned (text : Text) (parse : String → Metadata) (query : Query) (lockOwner : String)
    (q q' : MailQueue) (shifted : Shifted) (d : Delivery) : Prop where
  mem : d ∈ q.db.queue
  found : query.matches d = true
  stored : ∃ file ∈ q.db.files, file.filename = filename d.id ∧
    shifted = d.withMetadata (file.metadata parse)
  allowed : shifted.suppressed text q.db = false
  locked : ∃ lock ∈ q'.locks.locks, lock.key = lockKey d.id d.seq ∧ lock.lockOwner = lockOwner

section retry

variable {q q' : MailQueue} (hids : (q.db.queue.map (·._id)).Nodup) {rounds : List Round}
include hids

/-- The loop terminates: it does not try more often than there are documents. -/
theorem retry_terminates (hrounds : q.db.queue.length < rounds.length) :
    (retry (tryNext cfg parse query lockOwner) rounds q).isSome = true := by
  refine retry_isSome (I := Before query q)
    (μ := fun q => (q.db.queue.filter query.matches).length) ?_ ?_ ⟨hids, shrinks_of_db_eq rfl⟩ ?_
  · intro round q₁ q₂ hq₁ htry
    obtain ⟨e, -, -, hq₂⟩ := hq₁.tryNext htry
    exact hq₂
  · intro round q₁ q₂ hq₁ htry
    -- the documents that are found are the measure
    obtain ⟨e, he, htried, -⟩ := hq₁.tryNext htry
    exact htried.length_lt hq₁.1 he
  · exact Nat.lt_of_le_of_lt (List.length_filter_le _ _) hrounds

theorem retry_returned {shifted : Shifted}
    (h : retry (tryNext cfg parse query lockOwner) rounds q = some (some shifted, q')) :
    ∃ d, Returned cfg.text parse query lockOwner q q' shifted d := by
  -- the last try fetches what it returns from a queue that is part of the first one
  obtain ⟨round, q₁, ⟨hids₁, hq₁⟩, htry⟩ := retry_last (I := Before query q)
    (fun _ _ _ hq₁ htry => let ⟨_, _, _, hq₂⟩ := hq₁.tryNext htry; hq₂)
    ⟨hids, shrinks_of_db_eq rfl⟩ h
  rcases tryNext_cases htry with ⟨-, hnone⟩ | ⟨d, hd, htried⟩
  · exact nomatch hnone
  · obtain ⟨hmem, hfound⟩ := List.mem_filter.mp (hq₁.matching.subset hd)
    cases htried with
    | @returned hfree file hfile hname hallowed =>
      refine ⟨d, hmem, hfound, ⟨file, hq₁.files.subset hfile, hname, rfl⟩, ?_, ?_⟩
      · exact (Shifted.suppressed_congr _ _ hq₁.suppressionlist).symm.trans hallowed
      · have hlock : QueueLocker.newLock (lockKey d.id d.seq) query.sendingZone d.domain lockOwner
            (cfg.limit d.domain) (60 * 60 * 1000) round.now ∈
              (q₁.lockFor cfg query lockOwner round d).locks := by
          rw [lockFor, QueueLocker.locks_lock, hfree]
          exact List.mem_append_right _ List.mem_cons_self
        exact ⟨_, hlock, QueueLocker.key_newLock .., QueueLocker.lockOwner_newLock ..⟩

/-- A document that can be returned is still there when the loop finds nothing. -/
theorem retry_not_available (hfiles : (q.db.files.map (·._id)).Nodup)
    (h : retry (tryNext cfg parse query lockOwner) rounds q = some (none, q')) {d : Delivery}
    (hd : Available cfg.text parse query q d) : False := by
  -- every try keeps the document, so the last one would have found it
  have hkeep : ∀ round q₁ q₂, Before query q q₁ ∧ Stays q q₁ d →
      tryNext cfg parse query lockOwner round q₁ = (none, q₂) →
      Before query q q₂ ∧ Stays q q₂ d := by
    rintro round q₁ q₂ ⟨hq₁, hstays⟩ htry
    obtain ⟨e, he, htried, hq₂⟩ := hq₁.tryNext htry
    exact ⟨hq₂, htried.stays hd hfiles hq₁.1 hq₁.2 hstays he⟩
  have hstart : Before query q q ∧ Stays q q d :=
    ⟨⟨hids, shrinks_of_db_eq rfl⟩, hd.mem, hd.free, fun _ hfile _ => hfile⟩
  obtain ⟨round, q₁, ⟨-, hstays⟩, htry⟩ := retry_last hkeep hstart h
  rcases tryNext_cases htry with ⟨hnone, -⟩ | ⟨e, -, htried⟩
  · have hleft : d ∈ q₁.db.queue.filter query.matches :=
      List.mem_filter.mpr ⟨hstays.mem, hd.found⟩
    rw [hnone] at hleft
    exact List.not_mem_nil hleft
  · exact nomatch htried

end retry

/-! ## shift -/

/-- The loop of `shift` terminates. A delivery that it returns is one that the query finds, that is
    not suppressed and that is locked now. If it returns none, there is no document that could have
    been returned. -/
theorem shift_correct (cfg : Config) (parse : String → Metadata) (q : MailQueue)
    (hids : (q.db.queue.map (·._id)).Nodup) (hfiles : (q.db.files.map (·._id)).Nodup)
    (defaultZone zone lockOwner : String) (now : Nat) (rounds : List Round)
    (hrounds : q.db.queue.length < rounds.length) :
    ∃ result q', q.shift cfg parse defaultZone zone lockOwner now rounds = some (result, q') ∧
      (∀ shifted, result = some shifted →
        ∃ d, Returned cfg.text parse (q.shiftQuery cfg defaultZone zone now) lockOwner q q'
          shifted d) ∧
      (result = none → q.returnsEarly defaultZone zone now = false →
        ¬∃ d, Available cfg.text parse (q.shiftQuery cfg defaultZone zone now) q d) := by
  rw [shift]
  split
  · next hearly =>
    refine ⟨none, q, rfl, nofun, fun _ hlate => ?_⟩
    exact absurd (hlate.symm.trans hearly) Bool.false_ne_true
  · -- the list of the domains to skip changes no lock
    generalize hstart : ({ q with
      locks := (q.locks.listSkipDomains (requestedZone defaultZone zone)).2 } : MailQueue) = start
    have hdb : start.db = q.db := by rw [← hstart]
    have hlocks : start.locks.locks = q.locks.locks := by
      rw [← hstart]
      exact QueueLocker.locks_listSkipDomains ..
    rw [← hdb] at hids hfiles hrounds
    have hterminates : (retry (tryNext cfg parse (q.shiftQuery cfg defaultZone zone now) lockOwner)
        rounds start).isSome = true := retry_terminates hids hrounds
    obtain ⟨⟨result, q'⟩, hretry⟩ := Option.isSome_iff_exists.mp hterminates
    refine ⟨result, q', hretry, ?_, ?_⟩
    · rintro shifted rfl
      obtain ⟨d, hd⟩ := retry_returned hids hretry
      exact ⟨d, hdb ▸ hd.mem, hd.found, hdb ▸ hd.stored, hdb ▸ hd.allowed, hd.locked⟩
    · rintro rfl - ⟨d, hd⟩
      have hfree : start.locks.lockExists (lockKey d.id d.seq) = false := by
        rw [QueueLocker.lockExists, hlocks]
        exact hd.free
      exact retry_not_available hids hfiles hretry
        ⟨⟨hdb ▸ hd.mem, hd.found, hfree, hdb ▸ hd.allowed⟩, hdb ▸ hd.stored, hdb ▸ hd.unnamed⟩

/-- A delivery of the zone `default`. -/
def queuedFor (unique : Nat) (id seq domain : String) : Delivery where
  _id := ⟨1600000000, unique⟩
  id := id
  seq := seq
  domain := domain
  sendingZone := "default"
  recipient := "user@" ++ domain
  locked := false
  lockTime := 0
  assigned := "no"
  queued := 1600000000000
  created := 1600000000000
  _deferred := none

/-- A message with the metadata. -/
def storedAs (unique : Nat) (id : String) (data : Option String) : File :=
  ⟨⟨1600000000, unique⟩, filename id, data⟩

/-- Metadata with another `id`, or with a `_lock`. -/
def otherKeys : String → Metadata
  | "lock" => { _lock := some "x" }
  | id => { id := some id }

/-- The queue with a message of one recipient. -/
def oneMessage : MailQueue where
  db :=
    { queue := [queuedFor 2 "m" "001" "example.com"]
      files := [storedAs 1 "m" none] }

theorem shift_oneMessage :
    ∃ result q', oneMessage.shift Master.oneZone otherKeys "" "" "sender" 1600000000000
        [{ now := 1600000000000 }, { now := 1600000000000 }] = some (result, q') ∧
      (∀ shifted, result = some shifted →
        ∃ d, Returned Text.ascii otherKeys
          (oneMessage.shiftQuery Master.oneZone "" "" 1600000000000) "sender" oneMessage q'
          shifted d) ∧
      (result = none → oneMessage.returnsEarly "" "" 1600000000000 = false →
        ¬∃ d, Available Text.ascii otherKeys
          (oneMessage.shiftQuery Master.oneZone "" "" 1600000000000) oneMessage d) :=
  shift_correct Master.oneZone otherKeys oneMessage (by decide) (by decide) "" "" "sender"
    1600000000000 [{ now := 1600000000000 }, { now := 1600000000000 }] (by decide)

/-! ## Documents that are missed -/

/-- `shift` returns none although there is a document that it looks for. -/
structure Misses (cfg : Config) (parse : String → Metadata) (q : MailQueue) (zone : String)
    (now : Nat) (rounds : List Round) (d : Delivery) : Prop where
  unmarked : (q.cache.lookup zone).any (now ≤ ·) = false
  wanted : Wanted cfg.text parse (q.shiftQuery cfg "" zone now) q d
  allowed : (d.withMetadata {}).suppressed cfg.text q.db = false
  none : (q.shift cfg parse "" zone "sender" now rounds).map (·.1) = some none

/-- The loop after a delivery that is suppressed. -/
theorem retry_of_suppressed {q : MailQueue} {round : Round} {rounds : List Round} {e : Delivery}
    {file : File} (hpick : pick (q.db.queue.filter query.matches) round.fetched = some e)
    (hfree : q.locks.lockExists (lockKey e.id e.seq) = false)
    (hfile : pick (q.db.files.filter (·.filename == filename e.id)) round.file = some file)
    (hsuppressed : (e.withMetadata (file.metadata parse)).suppressed cfg.text q.db = true) :
    retry (tryNext cfg parse query lockOwner) (round :: rounds) q =
      retry (tryNext cfg parse query lockOwner) rounds
        ({ q with
          db := q.fetch query round e
          locks := q.lockFor cfg query lockOwner round e }.releaseDelivery round
            (e.withMetadata (file.metadata parse))) := by
  have htry : tryNext cfg parse query lockOwner round q =
      (none, { q with
        db := q.fetch query round e
        locks := q.lockFor cfg query lockOwner round e }.releaseDelivery round
          (e.withMetadata (file.metadata parse))) := by
    rw [tryNext_of_pick hpick, hfree, if_neg Bool.false_ne_true, shiftLocked]
    have hreply : ((q.fetch query round e).exec round.file (.findFile e.id)).2 =
        .file (some file) := congrArg Reply.file hfile
    simp only [Delivery.fetched, hreply]
    exact if_pos hsuppressed
  rw [retry, htry]

/-- The domain `a.org` is suppressed. -/
def suppressing (queue : List Delivery) (files : List File) : MailQueue where
  db :=
    { queue := queue
      files := files
      suppressionlist := [⟨none, some "a.org"⟩] }

theorem suppressed_suppressing (queue : List Delivery) (files : List File) {shifted : Shifted}
    (hdomain : Text.ascii.normal shifted.domain = shifted.domain) :
    shifted.suppressed Text.ascii (suppressing queue files).db =
      decide (shifted.domain = "a.org") := by
  simp only [Shifted.suppressed, Database.exec, suppressing, hdomain]
  by_cases ha : shifted.domain = "a.org"
  · simp [ha]
  · simp [ha, Ne.symm ha]

theorem allowed_suppressing (queue : List Delivery) (files : List File) {shifted : Shifted}
    (h : shifted.domain = "example.com") :
    shifted.suppressed Text.ascii (suppressing queue files).db = false := by
  rw [suppressed_suppressing, h]
  · decide
  · rw [h]
    decide

/-- The first try releases a suppressed delivery, and the others do not return one. -/
theorem misses_suppressing {queue : List Delivery} {files : List File} {round : Round}
    {rounds : List Round} {e d : Delivery} {file : File} (hd : d ∈ queue)
    (hfound : (Master.oneZone.query "default" 1600000000000 []).matches d = true)
    (hdomain : d.domain = "example.com") (hfiles : ∀ file ∈ files,
      (file.metadata otherKeys).domain = none)
    (hpick : pick (queue.filter (Master.oneZone.query "default" 1600000000000 []).matches)
      round.fetched = some e)
    (hfile : pick (files.filter (·.filename == filename e.id)) round.file = some file)
    (hmem : file ∈ files) (hsuppressed : e.domain = "a.org")
    (hrest : (retry (tryNext Master.oneZone otherKeys
        (Master.oneZone.query "default" 1600000000000 []) "sender") rounds
      ({ suppressing queue files with
        db := (suppressing queue files).fetch (Master.oneZone.query "default" 1600000000000 [])
          round e
        locks := (suppressing queue files).lockFor Master.oneZone
          (Master.oneZone.query "default" 1600000000000 []) "sender" round e }.releaseDelivery round
            (e.withMetadata (file.metadata otherKeys)))).map (·.1) = some none) :
    Misses Master.oneZone otherKeys (suppressing queue files) "default" 1600000000000
      (round :: rounds) d where
  unmarked := rfl
  wanted := {
    mem := hd
    found := hfound
    free := rfl
    allowed := by
      intro file hfile _
      refine allowed_suppressing queue files ?_
      rw [Delivery.withMetadata, hfiles file hfile]
      exact hdomain }
  allowed := allowed_suppressing queue files hdomain
  none := by
    have hearly : (suppressing queue files).returnsEarly "" "default" 1600000000000 = false := rfl
    rw [shift, hearly, if_neg Bool.false_ne_true]
    refine Eq.trans (congrArg _ (retry_of_suppressed hpick rfl hfile ?_)) hrest
    have ha : (e.withMetadata (file.metadata otherKeys)).domain = "a.org" := by
      rw [Delivery.withMetadata, hfiles file hmem]
      exact hsuppressed
    refine (suppressed_suppressing queue files ?_).trans ?_
    · rw [ha]
      decide
    · rw [ha]
      decide

theorem shift_misses :
    -- the message is missing
    Misses Master.oneZone otherKeys { db := { oneMessage.db with files := [] } } "default"
      1600000000000 [{ now := 1600000000000 }, { now := 1600000000000 }]
      (queuedFor 2 "m" "001" "example.com") ∧
    -- the queue is closing
    Misses Master.oneZone otherKeys { oneMessage with closing := true } "default"
      1600000000000 [{ now := 1600000000000 }, { now := 1600000000000 }]
      (queuedFor 2 "m" "001" "example.com") ∧
    -- a suppressed delivery has the same id and seq
    Misses Master.oneZone otherKeys
      (suppressing [queuedFor 2 "m" "001" "a.org", queuedFor 3 "m" "001" "example.com"]
        [storedAs 1 "m" none]) "default"
      1600000000000 [{ now := 1600000000000, deleted := 1 }, { now := 1600000000000 }]
      (queuedFor 3 "m" "001" "example.com") ∧
    -- its metadata have the id of another message
    Misses Master.oneZone otherKeys
      (suppressing [queuedFor 2 "m" "001" "a.org", queuedFor 3 "n" "001" "example.com"]
        [storedAs 1 "m" (some "n"), storedAs 4 "n" none]) "default"
      1600000000000 [{ now := 1600000000000 }, { now := 1600000000000 }]
      (queuedFor 3 "n" "001" "example.com") ∧
    -- its metadata have a key of a lock, and another delivery has the lock that is kept
    Misses Master.oneZone otherKeys
      (suppressing [queuedFor 2 "m 1" "001" "a.org", queuedFor 3 "m" "1 001" "example.com"]
        [storedAs 1 "m 1" (some "lock"), storedAs 4 "m" none]) "default"
      1600000000000
      [{ now := 1600000000000 }, { now := 1600000000000 }, { now := 1600000000000 }]
      (queuedFor 3 "m" "1 001" "example.com") := by
  refine ⟨⟨rfl, ⟨by decide, by decide, rfl, nofun⟩, rfl, by decide⟩,
    ⟨rfl, ⟨by decide, by decide, rfl, fun _ _ _ => rfl⟩, rfl, rfl⟩, ?_, ?_, ?_⟩
  · exact misses_suppressing (by decide) (by decide) rfl (by decide) rfl rfl (by decide) rfl
      (by decide)
  · exact misses_suppressing (by decide) (by decide) rfl (by decide) rfl rfl (by decide) rfl
      (by decide)
  · exact misses_suppressing (by decide) (by decide) rfl (by decide) rfl rfl (by decide) rfl
      (by decide)

end MailQueue

end ZoneMta
