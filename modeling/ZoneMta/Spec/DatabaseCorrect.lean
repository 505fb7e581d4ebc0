import ZoneMta.Native.Database

/-!
# The calls of the database

What the calls leave of the collections. No call stores a document: what is there after one
was there before, with the same ids.

## Key results

- `mem_queue_exec`, `exists_queue_exec`: the queue after a call
- `mem_files_exec`, `mem_chunks_exec`: the stored messages after a call
- `oldest_le`: no document is older than the oldest one
-/

namespace ZoneMta

namespace ObjectId

theorem ble_time {a b : ObjectId} (h : a.ble b = true) : a.time ≤ b.time := by
  simp only [ble, Bool.or_eq_true, Bool.and_eq_true, decide_eq_true_eq, beq_iff_eq] at h
  omega

theorem ble_of_not_ble {a b : ObjectId} (h : ¬a.ble b = true) : b.ble a = true := by
  simp only [ble, Bool.or_eq_true, Bool.and_eq_true, decide_eq_true_eq, beq_iff_eq] at h ⊢
  omega

/-- An id is behind the first one of a second if and only if it was made earlier. -/
theorem ble_createFromTime {a : ObjectId} (ha : a.unique ≠ 0) (time : Nat) :
    a.ble (createFromTime time) = true ↔ a.time < time := by
  simp only [ble, Bool.or_eq_true, Bool.and_eq_true, decide_eq_true_eq, beq_iff_eq]
  show a.time < time ∨ a.time = time ∧ a.unique ≤ 0 ↔ a.time < time
  omega

end ObjectId

theorem filename_inj {id id' : String} (h : filename id = filename id') : id = id' := by
  have hlist := congrArg String.toList h
  rw [filename, filename, String.toList_append, String.toList_append] at hlist
  exact String.toList_injective (List.append_cancel_left hlist)

theorem mem_of_pick {α : Type} {docs : List α} {choice : Nat} {doc : α}
    (h : pick docs choice = some doc) : doc ∈ docs :=
  List.mem_of_getElem? h

/-- One of the documents is picked, if there are any. -/
theorem pick_ne_none {α : Type} {docs : List α} {choice : Nat} {doc : α} (h : doc ∈ docs) :
    pick docs choice ≠ none := by
  intro hnone
  have hlength := List.length_pos_of_mem h
  have hmod := Nat.mod_lt choice hlength
  have hle := List.getElem?_eq_none_iff.mp hnone
  omega

theorem mem_of_pick_filter {α : Type} {p : α → Bool} {docs : List α} {choice : Nat} {doc : α}
    (h : pick (docs.filter p) choice = some doc) : doc ∈ docs ∧ p doc = true :=
  List.mem_filter.mp (mem_of_pick h)

theorem not_of_pick_filter {α : Type} {p : α → Bool} {docs : List α} {choice : Nat}
    (h : pick (docs.filter p) choice = none) {doc : α} (hdoc : doc ∈ docs) : ¬p doc = true :=
  fun hp => pick_ne_none (List.mem_filter.mpr ⟨hdoc, hp⟩) h

theorem oldest_eq_none {ds : List Delivery} (h : oldest ds = none) : ds = [] := by
  cases ds with
  | nil => rfl
  | cons d ds =>
    rw [oldest] at h
    split at h
    · exact nomatch h
    · split at h
      · exact nomatch h
      · exact nomatch h

/-- No document is older than the oldest one. -/
theorem oldest_le {ds : List Delivery} {o d : Delivery} (h : oldest ds = some o) (hd : d ∈ ds) :
    o._id.time ≤ d._id.time := by
  induction ds generalizing o with
  | nil => exact absurd hd List.not_mem_nil
  | cons a ds ih =>
    rw [oldest] at h
    -- `a` is compared with the oldest one of the rest
    cases ho : oldest ds with
    | none =>
      simp only [ho] at h
      obtain rfl := Option.some.inj h
      rw [oldest_eq_none ho, List.mem_singleton] at hd
      exact hd ▸ Nat.le_refl _
    | some o' =>
      simp only [ho] at h
      rcases List.mem_cons.mp hd with rfl | hd
      · split at h
        · obtain rfl := Option.some.inj h; exact Nat.le_refl _
        · next hle =>
          obtain rfl := Option.some.inj h
          exact ObjectId.ble_time (ObjectId.ble_of_not_ble hle)
      · have hmin := ih ho hd
        split at h
        · next hle =>
          obtain rfl := Option.some.inj h
          exact Nat.le_trans (ObjectId.ble_time hle) hmin
        · obtain rfl := Option.some.inj h; exact hmin

/-- The oldest document is one of them. -/
theorem oldest_mem {ds : List Delivery} {o : Delivery} (h : oldest ds = some o) : o ∈ ds := by
  induction ds generalizing o with
  | nil => exact nomatch h
  | cons a ds ih =>
    rw [oldest] at h
    split at h
    · obtain rfl := Option.some.inj h; exact List.mem_cons_self
    · next o' ho =>
      split at h
      · obtain rfl := Option.some.inj h; exact List.mem_cons_self
      · obtain rfl := Option.some.inj h; exact List.mem_cons_of_mem _ (ih ho)

namespace Database

-- the equations of `exec` are generated here, once for all the proofs below
attribute [local simp] exec

variable {db : Database} {choice : Nat} {call : Call}

/-- What `findOne` on the files returns. -/
theorem findFile_cases (db : Database) (choice : Nat) (id : String) :
    (db.exec choice (.findFile id)).2 = .file none ∧
        (∀ file ∈ db.files, file.filename ≠ filename id) ∨
      ∃ file ∈ db.files, file.filename = filename id ∧
        (db.exec choice (.findFile id)).2 = .file (some file) := by
  have hreply : (db.exec choice (.findFile id)).2 =
      .file (pick (db.files.filter (·.filename == filename id)) choice) := rfl
  rw [hreply]
  cases hpick : pick (db.files.filter (·.filename == filename id)) choice with
  | none =>
    exact Or.inl ⟨rfl, fun file hfile hname =>
      not_of_pick_filter hpick hfile (beq_iff_eq.mpr hname)⟩
  | some file =>
    obtain ⟨hfile, hname⟩ := mem_of_pick_filter hpick
    exact Or.inr ⟨file, hfile, beq_iff_eq.mp hname, rfl⟩

/-- What `findOne` of `releaseDelivery` returns. -/
theorem findReference_cases (db : Database) (choice : Nat) (id : String) :
    (db.exec choice (.findReference id)).2 = .delivery none ∧ (∀ d ∈ db.queue, d.id ≠ id) ∨
      ∃ d ∈ db.queue, d.id = id ∧ (db.exec choice (.findReference id)).2 = .delivery (some d) := by
  have hreply : (db.exec choice (.findReference id)).2 =
      .delivery (pick (db.queue.filter (·.id == id)) choice) := rfl
  rw [hreply]
  cases hpick : pick (db.queue.filter (·.id == id)) choice with
  | none =>
    exact Or.inl ⟨rfl, fun d hd hid => not_of_pick_filter hpick hd (beq_iff_eq.mpr hid)⟩
  | some d =>
    obtain ⟨hd, hid⟩ := mem_of_pick_filter hpick
    exact Or.inr ⟨d, hd, beq_iff_eq.mp hid, rfl⟩

/-- An update of a document that keeps its ids. -/
theorem mem_queue_update {delivery d : Delivery} {f : Delivery → Delivery}
    (hf : ∀ d, (f d)._id = d._id ∧ (f d).id = d.id ∧ (f d).seq = d.seq)
    (h : d ∈ (db.update delivery f).queue) :
    ∃ before ∈ db.queue, before._id = d._id ∧ before.id = d.id ∧ before.seq = d.seq := by
  rcases ForStd.mem_updateOne h with hd | ⟨before, hbefore, -, rfl⟩
  · exact ⟨d, hd, rfl, rfl, rfl⟩
  · obtain ⟨h_id, hid, hseq⟩ := hf before
    exact ⟨before, hbefore, h_id.symm, hid.symm, hseq.symm⟩

/-- The documents after a call were there before, with the same ids. -/
theorem mem_queue_exec {d : Delivery} (h : d ∈ (db.exec choice call).1.queue) :
    ∃ before ∈ db.queue, before._id = d._id ∧ before.id = d.id ∧ before.seq = d.seq := by
  cases call with
  | fetch query lockTime =>
    simp only [exec] at h
    split at h
    · exact ⟨d, h, rfl, rfl, rfl⟩
    · exact mem_queue_update (f := (·.fetched lockTime query.instanceId))
        (fun _ => ⟨rfl, rfl, rfl⟩) h
  | defer id seq now ttl first =>
    simp only [exec] at h
    split at h
    · exact ⟨d, h, rfl, rfl, rfl⟩
    · exact mem_queue_update (f := (·.deferred now ttl first)) (fun _ => ⟨rfl, rfl, rfl⟩) h
  | deleteDelivery id seq =>
    simp only [exec] at h
    split at h
    · exact ⟨d, h, rfl, rfl, rfl⟩
    · exact ⟨d, List.mem_of_mem_erase h, rfl, rfl, rfl⟩
  | deleteMessage id => exact ⟨d, (List.mem_filter.mp h).1, rfl, rfl, rfl⟩
  | unlock instanceId now =>
    obtain ⟨before, hbefore, rfl⟩ := List.mem_map.mp h
    refine ⟨before, hbefore, ?_⟩
    split <;> exact ⟨rfl, rfl, rfl⟩
  | _ => exact ⟨d, h, rfl, rfl, rfl⟩

/-- A document stays unless it is the one that is deleted. -/
theorem mem_deleteDelivery {d : Delivery} {id seq : String} (choice : Nat) (hd : d ∈ db.queue)
    (hfor : ¬d.isFor id seq = true) :
    d ∈ (db.exec choice (.deleteDelivery id seq)).1.queue := by
  simp only [exec]
  split
  · exact hd
  · next delivery hpick =>
    -- `deleteOne` picks a document with the `id` and the `seq`
    refine (List.mem_erase_of_ne ?_).mpr hd
    rintro rfl
    exact hfor (mem_of_pick_filter hpick).2

theorem exists_queue_update {delivery d : Delivery} {f : Delivery → Delivery}
    (hf : ∀ d, (f d)._id = d._id ∧ (f d).id = d.id ∧ (f d).seq = d.seq) (h : d ∈ db.queue) :
    ∃ after ∈ (db.update delivery f).queue,
      after._id = d._id ∧ after.id = d.id ∧ after.seq = d.seq := by
  rcases ForStd.mem_updateOne_of_mem h with hafter | hafter
  · exact ⟨d, hafter, rfl, rfl, rfl⟩
  · exact ⟨f d, hafter, hf d⟩

/-- The documents stay in the queue, except those of `deleteOne` and `deleteMany`. -/
theorem exists_queue_exec (choice : Nat) (call : Call) {d : Delivery} (h : d ∈ db.queue) :
    (∃ after ∈ (db.exec choice call).1.queue,
        after._id = d._id ∧ after.id = d.id ∧ after.seq = d.seq) ∨
      call = .deleteDelivery d.id d.seq ∨ call = .deleteMessage d.id := by
  cases call with
  | fetch query lockTime =>
    refine Or.inl ?_
    simp only [exec]
    split
    · exact ⟨d, h, rfl, rfl, rfl⟩
    · exact exists_queue_update (f := (·.fetched lockTime query.instanceId))
        (fun _ => ⟨rfl, rfl, rfl⟩) h
  | defer id seq now ttl first =>
    refine Or.inl ?_
    simp only [exec]
    split
    · exact ⟨d, h, rfl, rfl, rfl⟩
    · exact exists_queue_update (f := (·.deferred now ttl first)) (fun _ => ⟨rfl, rfl, rfl⟩) h
  | deleteDelivery id seq =>
    by_cases hfor : d.isFor id seq = true
    · simp only [Delivery.isFor, Bool.and_eq_true, beq_iff_eq] at hfor
      exact Or.inr (Or.inl (by rw [hfor.1, hfor.2]))
    · exact Or.inl ⟨d, mem_deleteDelivery choice h hfor, rfl, rfl, rfl⟩
  | deleteMessage id =>
    by_cases hid : d.id = id
    · exact Or.inr (Or.inr (by rw [hid]))
    · exact Or.inl ⟨d, List.mem_filter.mpr ⟨h, bne_iff_ne.mpr hid⟩, rfl, rfl, rfl⟩
  | unlock instanceId now =>
    refine Or.inl ⟨_, List.mem_map.mpr ⟨d, h, rfl⟩, ?_⟩
    split <;> exact ⟨rfl, rfl, rfl⟩
  | _ => exact Or.inl ⟨d, h, rfl, rfl, rfl⟩

theorem ids_update (delivery : Delivery) {f : Delivery → Delivery} (hf : ∀ d, (f d)._id = d._id) :
    (db.update delivery f).queue.map (·._id) = db.queue.map (·._id) :=
  ForStd.map_updateOne hf db.queue

/-- The ids of the documents stay different. -/
theorem nodup_exec (choice : Nat) (call : Call) (h : (db.queue.map (·._id)).Nodup) :
    ((db.exec choice call).1.queue.map (·._id)).Nodup := by
  have hupdate : ∀ (delivery : Delivery) (f : Delivery → Delivery), (∀ d, (f d)._id = d._id) →
      ((db.update delivery f).queue.map (·._id)).Nodup := by
    intro delivery f hf
    rwa [ids_update delivery hf]
  cases call with
  | fetch query lockTime =>
    simp only [exec]
    split
    · exact h
    · exact hupdate _ _ fun _ => rfl
  | defer id seq now ttl first =>
    simp only [exec]
    split
    · exact h
    · exact hupdate _ _ fun _ => rfl
  | deleteDelivery id seq =>
    simp only [exec]
    split
    · exact h
    · exact h.sublist (List.erase_sublist.map _)
  | deleteMessage id => exact h.sublist (List.filter_sublist.map _)
  | unlock instanceId now =>
    -- `unlocked` changes the lock fields only
    have hids : (db.queue.map fun delivery =>
        if delivery.stale instanceId now then delivery.unlocked else delivery).map (·._id) =
          db.queue.map (·._id) := by
      rw [List.map_map]
      refine List.map_congr_left fun delivery _ => ?_
      show (if delivery.stale instanceId now then delivery.unlocked else delivery)._id = _
      split <;> rfl
    exact (congrArg List.Nodup hids).mpr h
  | _ => exact h

/-- The files after a call were there before. -/
theorem mem_files_exec {file : File} (h : file ∈ (db.exec choice call).1.files) :
    file ∈ db.files := by
  cases call with
  | fetch query lockTime => simp only [exec] at h; split at h <;> exact h
  | defer id seq now ttl first => simp only [exec] at h; split at h <;> exact h
  | deleteDelivery id seq => simp only [exec] at h; split at h <;> exact h
  | deleteFile fileId => exact (List.mem_filter.mp h).1
  | deleteFiles cutoff => exact (List.mem_filter.mp h).1
  | _ => exact h

/-- The chunks after a call were there before. -/
theorem mem_chunks_exec {chunk : Chunk} (h : chunk ∈ (db.exec choice call).1.chunks) :
    chunk ∈ db.chunks := by
  cases call with
  | fetch query lockTime => simp only [exec] at h; split at h <;> exact h
  | defer id seq now ttl first => simp only [exec] at h; split at h <;> exact h
  | deleteDelivery id seq => simp only [exec] at h; split at h <;> exact h
  | deleteFile fileId => exact (List.mem_filter.mp h).1
  | deleteChunks cutoff => exact (List.mem_filter.mp h).1
  | _ => exact h

theorem files_exec (hfile : ∀ fileId, call ≠ .deleteFile fileId)
    (hfiles : ∀ cutoff, call ≠ .deleteFiles cutoff) :
    (db.exec choice call).1.files = db.files := by
  cases call with
  | fetch query lockTime => simp only [exec]; split <;> rfl
  | defer id seq now ttl first => simp only [exec]; split <;> rfl
  | deleteDelivery id seq => simp only [exec]; split <;> rfl
  | deleteFile fileId => exact absurd rfl (hfile fileId)
  | deleteFiles cutoff => exact absurd rfl (hfiles cutoff)
  | _ => rfl

theorem chunks_exec (hfile : ∀ fileId, call ≠ .deleteFile fileId)
    (hchunks : ∀ cutoff, call ≠ .deleteChunks cutoff) :
    (db.exec choice call).1.chunks = db.chunks := by
  cases call with
  | fetch query lockTime => simp only [exec]; split <;> rfl
  | defer id seq now ttl first => simp only [exec]; split <;> rfl
  | deleteDelivery id seq => simp only [exec]; split <;> rfl
  | deleteFile fileId => exact absurd rfl (hfile fileId)
  | deleteChunks cutoff => exact absurd rfl (hchunks cutoff)
  | _ => rfl

end Database

end ZoneMta
