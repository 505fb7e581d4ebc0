import Mathlib
import ZoneMta.Spec.Copies
import ZoneMta.Spec.Disconnect

/-!
# Deliveries of clients that are gone

When a connection ends, the locks of the client are released, but the queue documents of its
deliveries stay as they are. So a delivery can be fetched again only if something else has
unlocked its document: `clearGarbage`, or a DEFER. What was done to a document last is read off
the events of the run.

## Key results

- `leaves_exec`, `leaves_step`: what was done last decides what the document is like
- `history_step`: a delivery that a client was sent has been fetched
- `eligible_iff`: which deliveries can be fetched again after the end of a connection
- `eligible_held`: a delivery that the client holds and that cannot
-/

namespace ZoneMta

open ForStd (run)

/-! ## What is done to a document -/

/-- What is done to a document; `queued` is its time after that. -/
inductive Touch where
  | locked
  | unlocked (queued : Nat)
  | deleted
deriving Repr, DecidableEq

/-- What a call does to the document with the id, if anything. -/
def Call.touch (db : Database) (choice : Nat) (docId : ObjectId) : Call → Option Touch
  | .fetch query _ =>
    if (pick (db.queue.filter query.matches) choice).any (·._id == docId) then some .locked
    else none
  | .defer id seq now ttl _ =>
    if (pick (db.queue.filter (·.isFor id seq)) choice).any (·._id == docId) then
      some (.unlocked (now + ttl))
    else none
  | .unlock instanceId now =>
    (db.queue.find? fun d => d._id == docId && d.stale instanceId now).map
      fun d => .unlocked d.queued
  | .deleteDelivery id seq =>
    if (pick (db.queue.filter (·.isFor id seq)) choice).any (·._id == docId) then some .deleted
    else none
  | .deleteMessage id =>
    if db.queue.any fun d => d._id == docId && d.id == id then some .deleted else none
  | _ => none

/-- What the document is like after that. -/
def Leaves (docId : ObjectId) (queue : List Delivery) : Option Touch → Prop
  | none => True
  | some .locked => ∀ d ∈ queue, d._id = docId → d.locked = true
  | some (.unlocked queued) =>
    (∃ d ∈ queue, d._id = docId) ∧
      ∀ d ∈ queue, d._id = docId → d.locked = false ∧ d.queued = queued
  | some .deleted => ∀ d ∈ queue, d._id ≠ docId

/-- The documents with the id are assigned to nobody, or to the instance. -/
def Assigned (cfg : Config) (docId : ObjectId) (queue : List Delivery) : Prop :=
  ∀ d ∈ queue, d._id = docId → d.assigned = "no" ∨ d.assigned = cfg.instanceId

namespace Database

variable {db : Database} {docId : ObjectId}

/-- The documents after an update of one of them. -/
theorem mem_update (hids : (db.queue.map (·._id)).Nodup) (delivery : Delivery)
    (f : Delivery → Delivery) {d : Delivery} :
    d ∈ (db.update delivery f).queue ↔
      ∃ before ∈ db.queue, (if before._id = delivery._id then f before else before) = d := by
  rw [update, ForStd.updateOne_eq_map hids, List.mem_map]

theorem same_update (hids : (db.queue.map (·._id)).Nodup) {delivery : Delivery}
    {f : Delivery → Delivery} (hf : ∀ d, (f d)._id = d._id) (hne : delivery._id ≠ docId)
    {d : Delivery} (hd : d._id = docId) : d ∈ (db.update delivery f).queue ↔ d ∈ db.queue := by
  rw [mem_update hids]
  constructor
  · rintro ⟨before, hbefore, rfl⟩
    split at hd
    · next h => exact absurd (h.symm.trans ((hf before).symm.trans hd)) hne
    · next h => rwa [if_neg h]
  · intro h
    exact ⟨d, h, if_neg fun heq => hne (heq.symm.trans hd)⟩

theorem of_mem_update (hids : (db.queue.map (·._id)).Nodup) {delivery : Delivery}
    {f : Delivery → Delivery} {d : Delivery} (hmem : d ∈ (db.update delivery f).queue)
    (hd : d._id = delivery._id) :
    ∃ before ∈ db.queue, d = f before := by
  obtain ⟨before, hbefore, rfl⟩ := (mem_update hids delivery f).mp hmem
  split at hd
  · next h => exact ⟨before, hbefore, by rw [if_pos h]⟩
  · next h => exact absurd hd h

/-- A call that does nothing to the document. -/
theorem same_exec (hids : (db.queue.map (·._id)).Nodup) {choice : Nat} {call : Call}
    (htouch : call.touch db choice docId = none) {d : Delivery} (hd : d._id = docId) :
    d ∈ (db.exec choice call).1.queue ↔ d ∈ db.queue := by
  cases call with
  | fetch query lockTime =>
    simp only [exec]
    split
    · exact Iff.rfl
    · next delivery hpick =>
      refine same_update hids (f := (·.fetched lockTime query.instanceId)) (fun _ => rfl) ?_ hd
      rintro rfl
      simp [Call.touch, hpick] at htouch
  | defer id seq now ttl first =>
    simp only [exec]
    split
    · exact Iff.rfl
    · next delivery hpick =>
      refine same_update hids (f := (·.deferred now ttl first)) (fun _ => rfl) ?_ hd
      rintro rfl
      simp [Call.touch, hpick] at htouch
  | unlock instanceId now =>
    simp only [Call.touch, Option.map_eq_none_iff, List.find?_eq_none, Bool.and_eq_true,
      beq_iff_eq, not_and] at htouch
    show d ∈ db.queue.map _ ↔ _
    rw [List.mem_map]
    constructor
    · rintro ⟨before, hbefore, rfl⟩
      have hsame : before._id = docId := by
        split at hd <;> exact hd
      rw [if_neg (htouch before hbefore hsame)]
      exact hbefore
    · intro h
      exact ⟨d, h, if_neg (htouch d h hd)⟩
  | deleteDelivery id seq =>
    simp only [exec]
    split
    · exact Iff.rfl
    · next delivery hpick =>
      refine List.mem_erase_of_ne ?_
      rintro rfl
      simp [Call.touch, hpick, hd] at htouch
  | deleteMessage id =>
    show d ∈ db.queue.filter _ ↔ _
    rw [List.mem_filter, and_iff_left_iff_imp, bne_iff_ne]
    rintro h rfl
    simp only [Call.touch, ite_eq_right_iff, reduceCtorEq, imp_false, List.any_eq_true, not_exists,
      not_and, Bool.and_eq_true, beq_iff_eq] at htouch
    exact htouch d h hd rfl
  | _ => exact Iff.rfl

/-- What a call does to the document decides what it is like. -/
theorem leaves_exec (hids : (db.queue.map (·._id)).Nodup) (choice : Nat) (call : Call) :
    Leaves docId (db.exec choice call).1.queue (call.touch db choice docId) := by
  -- the document with the id of one that is picked
  have hone : ∀ {d d' : Delivery}, d ∈ db.queue → d' ∈ db.queue → d._id = d'._id → d = d' :=
    fun hd hd' h => List.inj_on_of_nodup_map hids hd hd' h
  cases htouch : call.touch db choice docId with
  | none => exact trivial
  | some touch =>
    cases call with
    | fetch query lockTime =>
      simp only [Call.touch, Option.any_eq_true, beq_iff_eq] at htouch
      obtain ⟨⟨delivery, hpick, rfl⟩, heq⟩ := Option.ite_none_right_eq_some.mp htouch
      obtain rfl := Option.some.inj heq
      intro d hd h_id
      simp only [exec, hpick] at hd
      obtain ⟨before, -, rfl⟩ := of_mem_update hids hd h_id
      rfl
    | defer id seq now ttl first =>
      simp only [Call.touch, Option.any_eq_true, beq_iff_eq] at htouch
      obtain ⟨⟨delivery, hpick, rfl⟩, heq⟩ := Option.ite_none_right_eq_some.mp htouch
      obtain rfl := Option.some.inj heq
      simp only [exec, hpick]
      refine ⟨⟨delivery.deferred now ttl first, (mem_update hids _ _).mpr
        ⟨delivery, (mem_of_pick_filter hpick).1, if_pos rfl⟩, rfl⟩, fun d hd h_id => ?_⟩
      obtain ⟨before, -, rfl⟩ := of_mem_update hids hd h_id
      exact ⟨rfl, rfl⟩
    | unlock instanceId now =>
      obtain ⟨delivery, hfind, rfl⟩ := Option.map_eq_some_iff.mp htouch
      have hmem := List.mem_of_find?_eq_some hfind
      have hfound := List.find?_some hfind
      simp only [Bool.and_eq_true, beq_iff_eq] at hfound
      obtain ⟨rfl, hstale⟩ := hfound
      refine ⟨⟨delivery.unlocked, List.mem_map.mpr ⟨delivery, hmem, if_pos hstale⟩, rfl⟩,
        fun d hd h_id => ?_⟩
      obtain ⟨before, hbefore, rfl⟩ := List.mem_map.mp hd
      have hsame : before._id = delivery._id := by
        split at h_id <;> exact h_id
      obtain rfl := hone hbefore hmem hsame
      rw [if_pos hstale]
      exact ⟨rfl, rfl⟩
    | deleteDelivery id seq =>
      simp only [Call.touch, Option.any_eq_true, beq_iff_eq] at htouch
      obtain ⟨⟨delivery, hpick, rfl⟩, heq⟩ := Option.ite_none_right_eq_some.mp htouch
      obtain rfl := Option.some.inj heq
      intro d hd h_id
      simp only [exec, hpick] at hd
      have hne := (List.Nodup.mem_erase_iff (hids.of_map _)).mp hd
      exact hne.1 (hone hne.2 (mem_of_pick_filter hpick).1 h_id)
    | deleteMessage id =>
      simp only [Call.touch, List.any_eq_true, Bool.and_eq_true, beq_iff_eq] at htouch
      obtain ⟨⟨delivery, hmem, rfl, rfl⟩, heq⟩ := Option.ite_none_right_eq_some.mp htouch
      obtain rfl := Option.some.inj heq
      intro d hd h_id
      obtain ⟨hd, hne⟩ := List.mem_filter.mp hd
      obtain rfl := hone hd hmem h_id
      exact bne_iff_ne.mp hne rfl
    | _ => exact nomatch htouch

/-- A call of the instance assigns no document to another one. -/
theorem assigned_exec {cfg : Config} {choice : Nat} {call : Call}
    (hinstance : ∀ query lockTime, call = .fetch query lockTime →
      query.instanceId = cfg.instanceId) (h : Assigned cfg docId db.queue) :
    Assigned cfg docId (db.exec choice call).1.queue := by
  intro d hd h_id
  cases call with
  | fetch query lockTime =>
    simp only [exec] at hd
    split at hd
    · exact h d hd h_id
    · rcases ForStd.mem_updateOne hd with hd | ⟨before, -, -, rfl⟩
      · exact h d hd h_id
      · exact Or.inr (hinstance query lockTime rfl)
  | defer id seq now ttl first =>
    simp only [exec] at hd
    split at hd
    · exact h d hd h_id
    · rcases ForStd.mem_updateOne hd with hd | ⟨before, hbefore, -, rfl⟩
      · exact h d hd h_id
      · exact h before hbefore h_id
  | unlock instanceId now =>
    obtain ⟨before, hbefore, rfl⟩ := List.mem_map.mp hd
    have hbefore := h before hbefore
    split at h_id <;> split <;> exact hbefore h_id
  | deleteDelivery id seq =>
    simp only [exec] at hd
    split at hd
    · exact h d hd h_id
    · exact h d (List.mem_of_mem_erase hd) h_id
  | deleteMessage id => exact h d (List.mem_filter.mp hd).1 h_id
  | _ => exact h d hd h_id

/-- What is fetched has been locked, and is assigned to the instance. -/
theorem fetched_exec {cfg : Config} (hids : (db.queue.map (·._id)).Nodup) {choice : Nat}
    {query : Query} {lockTime : Nat} (hinstance : query.instanceId = cfg.instanceId)
    {delivery : Delivery}
    (hreply : (db.exec choice (.fetch query lockTime)).2 = .delivery (some delivery)) :
    (Call.fetch query lockTime).touch db choice delivery._id = some .locked ∧
      Assigned cfg delivery._id (db.exec choice (.fetch query lockTime)).1.queue := by
  simp only [exec] at hreply ⊢
  split at hreply
  · exact nomatch hreply
  · next doc hpick =>
    obtain rfl := Option.some.inj (Reply.delivery.inj hreply)
    refine ⟨?_, fun d hd h_id => ?_⟩
    · simp [Call.touch, hpick, Delivery.fetched]
    · obtain ⟨before, -, rfl⟩ := of_mem_update hids hd h_id
      exact Or.inr hinstance

end Database

/-! ## What was done last in a run -/

namespace Master

variable {cfg : Config} {s s' : Master} {docId : ObjectId}

/-- What a step does to the document with the id, if anything. -/
def touch (docId : ObjectId) (s : Master) : Event → Option Touch
  | .exec n choice outcome =>
    if outcome = .failed then none
    else
      match s.tasks.lookup n with
      | some ⟨_, .call call⟩ => call.touch s.db choice docId
      | _ => none
  | .push _ recipients =>
    (recipients.find? (·._id == docId)).map fun recipient => .unlocked recipient.queued
  | _ => none

/-- What was done last to the document with the id in a run. -/
def lastTouch (cfg : Config) (docId : ObjectId) : Master → List Event → Option Touch
  | _, [] => none
  | s, e :: es => ((s.step cfg e).bind fun s' => lastTouch cfg docId s' es).or (s.touch docId e)

theorem lastTouch_concat {s₀ : Master} {es : List Event} (hrun : run (step cfg) s₀ es = some s)
    {e : Event} (h : s.step cfg e = some s') :
    lastTouch cfg docId s₀ (es ++ [e]) = (s.touch docId e).or (lastTouch cfg docId s₀ es) := by
  induction es generalizing s₀ with
  | nil =>
    obtain rfl := Option.some.inj hrun
    simp [lastTouch, h]
  | cons e' es ih =>
    obtain ⟨t, ht, hrun⟩ := ForStd.run_cons_eq_some.mp hrun
    simp only [List.cons_append, lastTouch, ht, Option.bind_some, ih hrun, Option.or_assoc]

/-- What a step does to the document decides what it is like. -/
theorem leaves_step (hids : (s.db.queue.map (·._id)).Nodup) {e : Event}
    (h : s.step cfg e = some s') {touch : Option Touch} (hleaves : Leaves docId s.db.queue touch) :
    Leaves docId s'.db.queue ((s.touch docId e).or touch) := by
  -- a step that does nothing to the document leaves it as it was
  have hsame : ∀ {queue : List Delivery}, (∀ d, d._id = docId → (d ∈ queue ↔ d ∈ s.db.queue)) →
      Leaves docId queue touch := by
    intro queue hqueue
    cases touch with
    | none => exact trivial
    | some touch =>
      cases touch with
      | locked => exact fun d hd h_id => hleaves d ((hqueue d h_id).mp hd) h_id
      | unlocked queued =>
        obtain ⟨⟨d, hd, h_id⟩, hall⟩ := hleaves
        exact ⟨⟨d, (hqueue d h_id).mpr hd, h_id⟩,
          fun d hd h_id => hall d ((hqueue d h_id).mp hd) h_id⟩
      | deleted => exact fun d hd h_id => hleaves d ((hqueue d h_id).mp hd) h_id
  cases step_cases h with
  | @get c client =>
    rcases get_cases cfg s c client with ⟨-, hget⟩ | ⟨-, -, get, hget⟩ | ⟨-, -, get, hget⟩
    · rw [hget]; exact hsame fun _ _ => Iff.rfl
    · rw [hget]; exact hsame fun _ _ => Iff.rfl
    · rw [hget]; exact hsame fun _ _ => Iff.rfl
  | @request c client id seq _lock ttl =>
    rcases request_cases s c client id seq _lock ttl with hreq | ⟨req, -, hreq⟩
    · rw [hreq]; exact hsame fun _ _ => Iff.rfl
    · rw [hreq]; exact hsame fun _ _ => Iff.rfl
  | @exec n choice outcome job call htask =>
    have hcall :
        Leaves docId (s.db.exec choice call).1.queue ((call.touch s.db choice docId).or touch) := by
      cases htouch : call.touch s.db choice docId with
      | none => exact hsame fun _ => Database.same_exec hids htouch
      | some found =>
        have hfound :
            Leaves docId (s.db.exec choice call).1.queue (call.touch s.db choice docId) :=
          Database.leaves_exec hids choice call
        rw [htouch] at hfound
        exact hfound
    cases outcome with
    | failed => exact hsame fun _ _ => Iff.rfl
    | ok =>
      simp only [Master.touch, htask, reduceCtorEq, if_false]
      exact hcall
    | lost =>
      simp only [Master.touch, htask, reduceCtorEq, if_false]
      exact hcall
  | @push id recipients hpush =>
    have hfresh : ∀ recipient ∈ recipients, ∀ d ∈ s.db.queue, d._id ≠ recipient._id := by
      intro recipient hrecipient d hd
      have hall := List.all_eq_true.mp (Bool.and_eq_true_iff.mp hpush).2 recipient hrecipient
      exact bne_iff_ne.mp (List.all_eq_true.mp (Bool.and_eq_true_iff.mp hall).2 d hd)
    have hnodup := of_decide_eq_true (Bool.and_eq_true_iff.mp hpush).1
    cases hfind : recipients.find? (·._id == docId) with
    | none =>
      have hnone := List.find?_eq_none.mp hfind
      have htouch : s.touch docId (.push id recipients) = none := by
        rw [Master.touch, hfind]
        rfl
      rw [htouch]
      refine hsame fun d h_id => ?_
      rw [List.mem_append, or_iff_left]
      intro hd
      obtain ⟨recipient, hrecipient, rfl⟩ := List.mem_map.mp hd
      exact hnone recipient hrecipient (beq_iff_eq.mpr h_id)
    | some recipient =>
      have hrecipient := List.mem_of_find?_eq_some hfind
      have hfound := List.find?_some hfind
      rw [beq_iff_eq] at hfound
      subst hfound
      have htouch : s.touch recipient._id (.push id recipients) =
          some (.unlocked recipient.queued) := by
        rw [Master.touch, hfind]
        rfl
      rw [htouch]
      have hmem := List.mem_append_right s.db.queue
        (List.mem_map_of_mem (f := (·.document id)) hrecipient)
      refine ⟨⟨recipient.document id, hmem, rfl⟩, fun d hd h_id => ?_⟩
      rcases List.mem_append.mp hd with hd | hd
      · exact absurd h_id (hfresh recipient hrecipient d hd)
      · obtain ⟨other, hother, rfl⟩ := List.mem_map.mp hd
        obtain rfl := List.inj_on_of_nodup_map hnodup hother hrecipient h_id
        exact ⟨rfl, rfl⟩
  | _ => exact hsame fun _ _ => Iff.rfl

end Master

/-! ## What the tasks know -/

/-- A GET asks for its own instance, and what it has found was fetched. -/
structure Task.Sound (cfg : Config) (known : Delivery → Prop) (task : Task) : Prop where
  get : ∀ get, task.job.get? = some get → get.query.instanceId = cfg.instanceId
  fetch : ∀ query lockTime, task.wait = .call (.fetch query lockTime) →
    query.instanceId = cfg.instanceId
  asks : task.asks = true
  copy : ∀ delivery, task.copy? delivery.id delivery.seq = some delivery → known delivery

section sound

variable {cfg : Config} {now : Nat} {known known' : Delivery → Prop} {task next : Task}

theorem Task.Sound.mono (h : task.Sound cfg known)
    (hknown : ∀ delivery, known delivery → known' delivery) : task.Sound cfg known' where
  get := h.get
  fetch := h.fetch
  asks := h.asks
  copy delivery hcopy := hknown delivery (h.copy delivery hcopy)

theorem Task.Sound.goes (h : task.Sound cfg known) (hgoes : Goes cfg now task next) :
    next.Sound cfg known where
  get get hget := h.get get (hgoes.get? hget)
  fetch query lockTime hcall := by
    cases hgoes with
    | tryNext get =>
      obtain ⟨rfl, -⟩ := Call.fetch.inj (Wait.call.inj hcall)
      exact h.get get rfl
    | released _ _ hreturns => cases hreturns <;> exact nomatch hcall
    | _ => exact nomatch hcall
  asks := hgoes.asks
  copy delivery hcopy := h.copy delivery (hgoes.copy? hcopy)

/-- A task that has found nothing yet. -/
theorem Task.sound_of_job {task : Task} (hget : task.job.get? = none)
    (hfetch : ∀ query lockTime, task.wait ≠ .call (.fetch query lockTime))
    (hasks : task.asks = true) (hcopy : ∀ id seq, task.copy? id seq = none) :
    task.Sound cfg known where
  get _ h := nomatch hget.symm.trans h
  fetch query lockTime h := absurd h (hfetch query lockTime)
  asks := hasks
  copy _ h := nomatch (hcopy _ _).symm.trans h

/-- The answer to a call brings a copy of a delivery only to `shift`. -/
theorem Task.Sound.reply {job : Job} {call : Call} {reply : Reply}
    (h : Task.Sound cfg known ⟨job, .call call⟩)
    (hreply : ∀ query lockTime delivery, call = .fetch query lockTime →
      reply = .delivery (some delivery) → known delivery) :
    Task.Sound cfg known ⟨job, .reply reply⟩ where
  get := h.get
  fetch _ _ hcall := nomatch hcall
  asks := by cases job <;> rfl
  copy delivery hcopy := by
    rcases copy?_exec h.asks hcopy with hbefore | ⟨-, hdelivery, get, query, lockTime, -, hcall⟩
    · exact h.copy delivery hbefore
    · exact hreply query lockTime delivery hcall hdelivery

end sound

namespace Master

variable {cfg : Config} {s s' : Master}

/-- Something was done to the document of the delivery, and no other instance has it. -/
structure Fetched (cfg : Config) (s₀ : Master) (es : List Event) (s : Master)
    (delivery : Delivery) : Prop where
  touched : lastTouch cfg delivery._id s₀ es ≠ none
  assigned : Assigned cfg delivery._id s.db.queue

/-- What holds after a run: what was done to the documents last, and which deliveries the tasks
    and the clients have. -/
structure History (cfg : Config) (s₀ : Master) (es : List Event) (s : Master) : Prop where
  run : run (step cfg) s₀ es = some s
  ids : (s.db.queue.map (·._id)).Nodup
  leaves : ∀ docId, Leaves docId s.db.queue (lastTouch cfg docId s₀ es)
  tasks : ∀ n task, s.tasks.lookup n = some task → task.Sound cfg (Fetched cfg s₀ es s)
  sent : ∀ c delivery _lock data, (c, .delivery delivery _lock data) ∈ s.sent →
    Fetched cfg s₀ es s delivery

section history

variable {s₀ : Master} {es : List Event}

/-- The documents of the deliveries stay with the instance. -/
theorem History.fetched (hs : History cfg s₀ es s) {e : Event} (h : s.step cfg e = some s')
    {delivery : Delivery} (hdelivery : Fetched cfg s₀ es s delivery) :
    Fetched cfg s₀ (es ++ [e]) s' delivery where
  touched := by
    rw [lastTouch_concat hs.run h]
    intro hnone
    exact hdelivery.touched (Option.or_eq_none_iff.mp hnone).2
  assigned := by
    have hassigned := hdelivery.assigned
    cases step_cases h with
    | @get c client =>
      rcases get_cases cfg s c client with ⟨-, hget⟩ | ⟨-, -, get, hget⟩ | ⟨-, -, get, hget⟩
      · rw [hget]; exact hassigned
      · rw [hget]; exact hassigned
      · rw [hget]; exact hassigned
    | @request c client id seq _lock ttl =>
      rcases request_cases s c client id seq _lock ttl with hreq | ⟨req, -, hreq⟩
      · rw [hreq]; exact hassigned
      · rw [hreq]; exact hassigned
    | @exec n choice outcome job call htask =>
      have hcall : Assigned cfg delivery._id (s.db.exec choice call).1.queue :=
        Database.assigned_exec (fun query lockTime hcall =>
          (hs.tasks n _ htask).fetch query lockTime (congrArg Wait.call hcall)) hassigned
      cases outcome with
      | failed => exact hassigned
      | ok => exact hcall
      | lost => exact hcall
    | @push id recipients hpush =>
      intro d hd h_id
      rcases List.mem_append.mp hd with hd | hd
      · exact hassigned d hd h_id
      · obtain ⟨recipient, -, rfl⟩ := List.mem_map.mp hd
        exact Or.inl rfl
    | _ => exact hassigned

/-- A GET starts with the query of the instance. -/
theorem History.get (hs : History cfg s₀ es s) (c : Nat) (client : Client) {n : Nat} {task : Task}
    (htask : (s.get cfg c client).tasks.lookup n = some task) :
    task.Sound cfg (Fetched cfg s₀ es s) := by
  have hnew : ∀ {job : Job} {get : Get}, job.get? = some get →
      get.query.instanceId = cfg.instanceId →
        (∀ id seq, Task.copy? id seq ⟨job, .immediate⟩ = none) →
          Task.Sound cfg (Fetched cfg s₀ es s) ⟨job, .immediate⟩ := by
    intro job get hget hquery hcopy
    refine ⟨fun get' hget' => ?_, nofun, by cases job <;> rfl, fun delivery h => ?_⟩
    · obtain rfl := Option.some.inj (hget.symm.trans hget')
      exact hquery
    · exact nomatch (hcopy _ _).symm.trans h
  unfold Master.get at htask
  split at htask
  · exact hs.tasks n task htask
  · dsimp only at htask
    split at htask
    · rw [start, ForStd.lookup_insert] at htask
      split at htask
      · obtain rfl := Option.some.inj htask
        exact hnew rfl rfl fun _ _ => rfl
      · exact hs.tasks n task htask
    · rw [start, ForStd.lookup_insert] at htask
      split at htask
      · obtain rfl := Option.some.inj htask
        exact hnew rfl rfl fun _ _ => rfl
      · exact hs.tasks n task htask

/-- What a call of `shift` has found was fetched. -/
theorem History.reply (hs : History cfg s₀ es s) {n choice : Nat} {outcome : Outcome} {job : Job}
    {call : Call} (htask : s.tasks.lookup n = some ⟨job, .call call⟩)
    (h : s.step cfg (.exec n choice outcome) = some s') {m : Nat} {task : Task}
    (htask' : s'.tasks.lookup m = some task) :
    task.Sound cfg (Fetched cfg s₀ (es ++ [.exec n choice outcome]) s') := by
  have hmono : ∀ m task, s.tasks.lookup m = some task →
      task.Sound cfg (Fetched cfg s₀ (es ++ [.exec n choice outcome]) s') :=
    fun m task htask => (hs.tasks m task htask).mono fun _ => hs.fetched h
  have hstep : s' = s.exec n ⟨job, .call call⟩ call choice outcome := by
    rw [step, htask] at h
    exact (Option.some.inj h).symm
  -- the answer of the task
  have hreply : ∃ reply, s'.tasks = s.tasks.insert n ⟨job, .reply reply⟩ ∧
      (reply = .error ∨ outcome = .ok ∧ reply = (s.db.exec choice call).2) := by
    rw [hstep]
    cases outcome with
    | ok => exact ⟨_, rfl, Or.inr ⟨rfl, rfl⟩⟩
    | failed => exact ⟨_, rfl, Or.inl rfl⟩
    | lost => exact ⟨_, rfl, Or.inl rfl⟩
  obtain ⟨reply, htasks, hreply⟩ := hreply
  rw [htasks, ForStd.lookup_insert] at htask'
  split at htask'
  · obtain rfl := Option.some.inj htask'
    refine (hmono n _ htask).reply fun query lockTime delivery hcall hdelivery => ?_
    subst hcall
    rcases hreply with hreply | ⟨rfl, hreply⟩
    · exact nomatch hreply.symm.trans hdelivery
    · have hinstance := (hs.tasks n _ htask).fetch query lockTime rfl
      obtain ⟨htouch, hassigned⟩ :=
        Database.fetched_exec hs.ids hinstance (hreply.symm.trans hdelivery)
      refine ⟨?_, by rw [hstep]; exact hassigned⟩
      rw [lastTouch_concat hs.run h]
      simp only [Master.touch, htask, reduceCtorEq, if_false, htouch, Option.some_or, ne_eq,
        not_false_eq_true]
  · exact hmono m task htask'

theorem History.tasks_step (hs : History cfg s₀ es s) {e : Event} (h : s.step cfg e = some s')
    {m : Nat} {task : Task} (htask : s'.tasks.lookup m = some task) :
    task.Sound cfg (Fetched cfg s₀ (es ++ [e]) s') := by
  have hknown : ∀ delivery, Fetched cfg s₀ es s delivery →
      Fetched cfg s₀ (es ++ [e]) s' delivery := fun _ => hs.fetched h
  have hmono : ∀ m task, s.tasks.lookup m = some task →
      task.Sound cfg (Fetched cfg s₀ (es ++ [e]) s') :=
    fun m task htask => (hs.tasks m task htask).mono hknown
  -- a task that is started
  have hstart : ∀ {new : Task}, (s.tasks.insert s.nextTask new).lookup m = some task →
      new.Sound cfg (Fetched cfg s₀ (es ++ [e]) s') →
        task.Sound cfg (Fetched cfg s₀ (es ++ [e]) s') := by
    intro new hlookup hnew
    rw [ForStd.lookup_insert] at hlookup
    split at hlookup
    · obtain rfl := Option.some.inj hlookup
      exact hnew
    · exact hmono m task hlookup
  cases step_cases h with
  | @get c client => exact (hs.get c client htask).mono hknown
  | @request c client id seq _lock ttl =>
    rcases request_cases s c client id seq _lock ttl with hreq | ⟨req, -, hreq⟩
    · rw [hreq] at htask
      exact hmono m task htask
    · rw [hreq] at htask
      exact hstart htask (Task.sound_of_job rfl (fun _ _ h => by cases h) rfl fun _ _ => rfl)
  | exec hbefore => exact hs.reply hbefore h htask
  | @resume n before effect hbefore heffect =>
    simp only [perform] at htask
    cases hnext : effect.next with
    | some next =>
      rw [hnext, ForStd.lookup_insert] at htask
      split at htask
      · obtain rfl := Option.some.inj htask
        exact (hmono n before hbefore).goes (goes_effect heffect hnext)
      · exact hmono m task htask
    | none =>
      rw [hnext, ForStd.lookup_erase] at htask
      split at htask
      · cases htask
      · exact hmono m task htask
  | remove =>
    exact hstart htask (Task.sound_of_job rfl (fun _ _ h => by cases h) rfl fun _ _ => rfl)
  | clearGarbage =>
    exact hstart htask (Task.sound_of_job rfl (fun _ _ h => by cases h) rfl fun _ _ => rfl)
  | _ => exact hmono m task htask

/-- A client is sent what a task has fetched. -/
theorem History.sent_step (hs : History cfg s₀ es s) {e : Event} (h : s.step cfg e = some s')
    {c : Nat} {delivery : Delivery} {_lock : String} {data : Option String}
    (hsent : (c, .delivery delivery _lock data) ∈ s'.sent) :
    Fetched cfg s₀ (es ++ [e]) s' delivery := by
  have hknown : Fetched cfg s₀ es s delivery → Fetched cfg s₀ (es ++ [e]) s' delivery :=
    hs.fetched h
  have hsend : ∀ {c' : Nat} {response : Response},
      (c, .delivery delivery _lock data) ∈ (s.send c' response).sent →
        (c, .delivery delivery _lock data) ∈ s.sent ∨ response = .delivery delivery _lock data := by
    intro c' response hmem
    unfold send at hmem
    dsimp only at hmem
    split at hmem
    · rw [List.mem_append, List.mem_singleton, Prod.mk.injEq] at hmem
      exact hmem.imp_right fun heq => heq.2.symm
    · exact Or.inl hmem
  have herror : ∀ {c' : Nat}, (c, .delivery delivery _lock data) ∈ (s.send c' .error).sent →
      Fetched cfg s₀ (es ++ [e]) s' delivery := fun hmem =>
    hknown (hs.sent c delivery _lock data ((hsend hmem).resolve_right nofun))
  cases step_cases h with
  | @get c' client =>
    rcases get_cases cfg s c' client with ⟨-, hget⟩ | ⟨-, -, get, hget⟩ | ⟨-, -, get, hget⟩
    · rw [hget] at hsent; exact herror hsent
    · rw [hget] at hsent; exact hknown (hs.sent c delivery _lock data hsent)
    · rw [hget] at hsent; exact hknown (hs.sent c delivery _lock data hsent)
  | @request c' client id seq _lock' ttl =>
    rcases request_cases s c' client id seq _lock' ttl with hreq | ⟨req, -, hreq⟩
    · rw [hreq] at hsent; exact herror hsent
    · rw [hreq] at hsent; exact hknown (hs.sent c delivery _lock data hsent)
  | @exec n choice outcome job call =>
    obtain ⟨db, reply, hexec, -⟩ := exec_cases s n job call choice outcome
    rw [hexec] at hsent
    exact hknown (hs.sent c delivery _lock data hsent)
  | refuse => exact herror hsent
  | @resume n before effect hbefore heffect =>
    cases heffectSend : effect.send with
    | none =>
      simp only [perform, heffectSend] at hsent
      exact hknown (hs.sent c delivery _lock data hsent)
    | some sent =>
      obtain ⟨c', response⟩ := sent
      simp only [perform, heffectSend] at hsent
      rcases hsend hsent with hbeforeSent | rfl
      · exact hknown (hs.sent c delivery _lock data hbeforeSent)
      · -- the task has the copy that it sends
        obtain ⟨-, get, file, rfl, -⟩ := delivery_of_effect heffect heffectSend
        refine hknown ((hs.tasks n _ hbefore).copy delivery ?_)
        exact if_pos (Delivery.isFor_iff.mpr ⟨rfl, rfl⟩)
  | _ => exact hknown (hs.sent c delivery _lock data hsent)

theorem history_step (hs : History cfg s₀ es s) {e : Event} (h : s.step cfg e = some s') :
    History cfg s₀ (es ++ [e]) s' where
  run := ForStd.run_concat.mpr ⟨s, hs.run, h⟩
  ids := nodup_step hs.ids h
  leaves docId := by
    rw [lastTouch_concat hs.run h]
    exact leaves_step hs.ids h (hs.leaves docId)
  tasks _ _ := hs.tasks_step h
  sent _ _ _ _ := hs.sent_step h

theorem history_run {db : Database} (hids : (db.queue.map (·._id)).Nodup)
    (hrun : ForStd.run (step cfg) { db := db } es = some s) :
    History cfg { db := db } es s := by
  have hstart : History cfg { db := db } [] { db := db } :=
    { run := rfl
      ids := hids
      leaves := fun _ => trivial
      tasks := fun n _ h => nomatch (AList.lookup_empty n).symm.trans h
      sent := fun _ _ _ _ h => absurd h List.not_mem_nil }
  exact ForStd.run_history (p := fun _ _ => True) (I := fun _ es s => History cfg { db := db } es s)
    hstart (fun _ _ _ _ _ hs h => history_step hs h) hrun

end history

/-! ## The end of a connection -/

/-- `shift` can fetch the delivery: its lock is gone, and its document matches the query, apart
    from the domains to skip. -/
def Eligible (cfg : Config) (s : Master) (delivery : Delivery) : Prop :=
  (∀ lock ∈ s.locks.locks, lock.key ≠ lockKey delivery.id delivery.seq) ∧
    ∃ d ∈ s.db.queue, d._id = delivery._id ∧
      (cfg.query d.sendingZone s.now []).due d = true

/-- In every run, when a client goes that was sent a delivery, the delivery can be fetched again
    after it if and only if its document has been unlocked, for a time that has come, and not
    locked or deleted since then, and its lock, if there was one, was the client's: the end of
    the connection does nothing to the document. -/
theorem eligible_iff {db : Database} (hids : (db.queue.map (·._id)).Nodup) {es : List Event}
    (hrun : run (step cfg) { db := db } es = some s) {c : Nat} {client : Client}
    (hclient : s.clients.lookup c = some client) {delivery : Delivery} {_lock : String}
    {data : Option String} (hsent : (c, .delivery delivery _lock data) ∈ s.sent)
    (hclose : s.step cfg (.close c) = some s') :
    Eligible cfg s' delivery ↔
      (∃ queued ≤ s.now,
        lastTouch cfg delivery._id { db := db } es = some (.unlocked queued)) ∧
          ∀ lock ∈ s.locks.locks, lock.key = lockKey delivery.id delivery.seq →
            client.id ≠ "" ∧ lock.lockOwner = client.id := by
  have hhistory := history_run hids hrun
  have hleaves := hhistory.leaves delivery._id
  obtain ⟨htouched, hassigned⟩ := hhistory.sent c delivery _lock data hsent
  -- the document stays as it is
  have hsame : s'.db = s.db ∧ s'.now = s.now := by
    cases step_cases hclose with
    | close _ => exact ⟨rfl, rfl⟩
  have hdue : (∃ d ∈ s'.db.queue, d._id = delivery._id ∧
      (cfg.query d.sendingZone s'.now []).due d = true) ↔
        ∃ queued ≤ s.now, lastTouch cfg delivery._id { db := db } es = some (.unlocked queued) := by
    rw [hsame.1, hsame.2]
    simp only [Query.due, Config.query, beq_self_eq_true, Bool.true_and, Bool.and_eq_true,
      Bool.or_eq_true, Bool.not_eq_true', beq_iff_eq]
    constructor
    · rintro ⟨d, hd, h_id, ⟨hqueued, hlocked⟩, -⟩
      cases htouch : lastTouch cfg delivery._id { db := db } es with
      | none => exact absurd htouch htouched
      | some touch =>
        rw [htouch] at hleaves
        cases touch with
        | locked => exact nomatch hlocked.symm.trans (hleaves d hd h_id)
        | unlocked queued =>
          exact ⟨queued, (hleaves.2 d hd h_id).2 ▸ of_decide_eq_true hqueued, rfl⟩
        | deleted => exact absurd h_id (hleaves d hd)
    · rintro ⟨queued, hqueued, htouch⟩
      rw [htouch] at hleaves
      obtain ⟨⟨d, hd, h_id⟩, hall⟩ := hleaves
      obtain ⟨hlocked, rfl⟩ := hall d hd h_id
      exact ⟨d, hd, h_id, ⟨decide_eq_true hqueued, hlocked⟩, hassigned d hd h_id⟩
  rw [Eligible, hdue, and_comm]
  refine and_congr_right fun _ => ?_
  simp only [mem_locks_close (wf_run hrun) hclient hclose]
  constructor
  · intro hgone lock hlock hkey
    by_contra hother
    refine hgone lock ⟨hlock, ?_⟩ hkey
    by_cases hid : client.id = ""
    · exact Or.inl hid
    · exact Or.inr fun howner => hother ⟨hid, howner⟩
  · rintro hown lock ⟨hlock, hleft⟩ hkey
    have hclientLock := hown lock hlock hkey
    exact hleft.elim hclientLock.1 fun hne => hne hclientLock.2

/-- The sender has been sent the delivery, and `clearGarbage` unlocks its document, which has been
    locked for 61 minutes. -/
def unlockedGet : List Event :=
  answeredGet ++ [.tick (1600000000000 + 61 * 60 * 1000), .clearGarbage, .exec 1 0 .ok]

/-- The sender goes after that. -/
theorem eligible_iff_example : ∃ s s', run (step oneZone) { db := {} } unlockedGet = some s ∧
    (1, .delivery heldDelivery "lock m 001" none) ∈ s.sent ∧
      s.step oneZone (.close 1) = some s' ∧ Eligible oneZone s' heldDelivery := by
  have hrun : (run (step oneZone) { db := {} } (unlockedGet ++ [.close 1])).isSome = true := by
    decide +kernel
  have hstate : (run (step oneZone) { db := {} } unlockedGet).map (fun s =>
      (s.clients.lookup 1, s.sent, s.now, s.locks.locks.map (·.lockOwner))) =
        some (some ⟨"c1", "default", true⟩, [(1, .delivery heldDelivery "lock m 001" none)],
          1600003660000, ["c1"]) := by
    decide +kernel
  obtain ⟨s', hs'⟩ := Option.isSome_iff_exists.mp hrun
  obtain ⟨s, hs, hclose⟩ := ForStd.run_concat.mp hs'
  obtain ⟨s₀, hs₀, hfields⟩ := Option.map_eq_some_iff.mp hstate
  obtain rfl := Option.some.inj (hs.symm.trans hs₀)
  obtain ⟨hclient, hfields⟩ := Prod.mk.inj hfields
  obtain ⟨hsent, hfields⟩ := Prod.mk.inj hfields
  obtain ⟨hnow, hlocks⟩ := Prod.mk.inj hfields
  have hheld : (1, .delivery heldDelivery "lock m 001" none) ∈ s.sent := by
    rw [hsent]
    exact List.mem_cons_self
  have hids : ((({} : Database).queue).map (·._id)).Nodup := List.nodup_nil
  refine ⟨s, s', hs, hheld, hclose,
    (eligible_iff hids hs hclient hheld hclose).mpr ⟨⟨1600000000000, ?_, ?_⟩, ?_⟩⟩
  · rw [hnow]
    decide
  · decide +kernel
  · intro lock hlock _
    have hmem := List.mem_map_of_mem (f := (·.lockOwner)) hlock
    rw [hlocks, List.mem_singleton] at hmem
    exact ⟨by decide, hmem⟩

theorem eligible_held :
    ¬∀ (cfg : Config) (es : List Event) (s s' : Master) (c : Nat) (delivery : Delivery)
      (_lock : String) (data : Option String), run (step cfg) {} es = some s →
        (c, .delivery delivery _lock data) ∈ s.sent →
          (∀ id seq _lock ttl, .request c id seq _lock ttl ∉ es) →
            s.step cfg (.close c) = some s' → Eligible cfg s' delivery := by
  intro h
  have hrun : ((run (step oneZone) {} (answeredGet ++ [.close 1])).isSome ∧
      (run (step oneZone) {} answeredGet).map (fun s => (s.sent, s.db.queue)) =
        some ([(1, .delivery heldDelivery "lock m 001" none)], [heldDelivery])) := by
    decide +kernel
  obtain ⟨s', hs'⟩ := Option.isSome_iff_exists.mp hrun.1
  obtain ⟨s, hs, hclose⟩ := ForStd.run_concat.mp hs'
  obtain ⟨s₀, hs₀, hfields⟩ := Option.map_eq_some_iff.mp hrun.2
  obtain rfl := Option.some.inj (hs.symm.trans hs₀)
  obtain ⟨hsent, hqueue⟩ := Prod.mk.inj hfields
  have heligible := h oneZone answeredGet s s' 1 heldDelivery "lock m 001" none hs
    (by rw [hsent]; exact List.mem_cons_self) (by simp [answeredGet, oneGet]) hclose
  -- the document stays locked
  obtain ⟨delivery, hdelivery, -, hdue⟩ := heligible.2
  have hqueue' : s'.db.queue = [heldDelivery] := by
    cases step_cases hclose with
    | close _ => exact hqueue
  rw [hqueue', List.mem_singleton] at hdelivery
  subst hdelivery
  simp [Query.due, heldDelivery] at hdue

end Master

end ZoneMta
