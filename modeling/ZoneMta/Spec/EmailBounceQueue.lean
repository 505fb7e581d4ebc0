import Mathlib
import ZoneMta.Spec.EmailBounceCorrect
import ZoneMta.Spec.ShiftCorrect

/-!
# Notifications and the queue

The queue of `EmailBounce` is that of `MailQueue` with fewer keys: what `shift`, `releaseDelivery`
and `deferDelivery` do to the collections, while no one else calls the database, are events of
`EmailBounce`, and they go on with the same delivery.

## Key results

- `System.Mirrors`: the two queues are the same
- `exists_run_shift`: a call of `shift`
- `release_mirrors`: a RELEASE
- `deferDelivery_mirrors`: a DEFER, and whether the hooks of queue:delayed are asked
- `unlock_mirrors`: the garbage collection unlocks deliveries
-/

namespace ZoneMta

namespace EmailBounce

open ForStd (run retry)

variable {number : String → Nat} {envelope : String → Envelope}

/-! ## Documents -/

/-- The times of `_deferred`; 0 stands for one that is not set. -/
def times (deferred : ZoneMta.Deferred) : Deferred := ⟨deferred.first.getD 0, deferred.last⟩

/-- One of the times is not set, so that the hooks of queue:delayed are not asked. -/
theorem times_eq_zero (deferred : ZoneMta.Deferred) :
    (times deferred).first = 0 ∨ (times deferred).last = 0 ↔
      (deferred.first.any (· ≠ 0) && deferred.last != 0) = false := by
  cases hfirst : deferred.first with
  | none => simp [times, hfirst]
  | some first =>
    simp only [times, hfirst, Option.getD_some, Option.any_some, Bool.and_eq_false_iff,
      decide_eq_false_iff_not, not_not, bne_eq_false_iff_eq]

/-- Whether `deferDelivery` asks for the metadata, for the document as it was before. -/
def asked (d : ZoneMta.Delivery) : Bool :=
  d._deferred.any fun deferred => deferred.first.any (· ≠ 0) && deferred.last != 0

/-- The document has the keys that are kept, and is locked only if it is locked in the database. -/
structure Document.Mirrors (number : String → Nat) (d : ZoneMta.Delivery) (document : Document) :
    Prop where
  id : document.id = number d.id
  seq : document.seq = number d.seq
  recipient : document.recipient = d.recipient
  locked : document.locked = true → d.locked = true
  _deferred : document._deferred = d._deferred.map times

/-- The documents and the files are those of the database. -/
structure System.Mirrors (number : String → Nat) (envelope : String → Envelope) (db : Database)
    (s : System) : Prop where
  queue : List.Forall₂ (Document.Mirrors number) db.queue s.queue
  files : ∀ id, s.files.lookup (number id) =
    (db.files.find? (·.filename == filename id)).map (·.data.map envelope)
  ids : (db.queue.map (·._id)).Nodup
  keys : (db.queue.map fun d => (d.id, d.seq)).Nodup
  fileIds : (db.files.map (·._id)).Nodup
  filenames : (db.files.map (·.filename)).Nodup

variable {db : Database} {s : System} {c : Config}

/-- The document is the one of the delivery in both queues. -/
theorem Document.Mirrors.isFor {d : ZoneMta.Delivery} {document : Document}
    (h : document.Mirrors number d) (hnumber : number.Injective) (id seq : String) :
    d.isFor id seq = (document.id == number id && document.seq == number seq) := by
  rw [ZoneMta.Delivery.isFor, h.id, h.seq]
  simp only [Bool.beq_eq_decide_eq, hnumber.eq_iff]

namespace System.Mirrors

/-- Only the documents and the files matter. -/
theorem congr {db' : Database} {s' : System} (h : s.Mirrors number envelope db)
    (hqueue : db'.queue = db.queue) (hfiles : db'.files = db.files) (hs : s'.queue = s.queue)
    (hs' : s'.files = s.files) : s'.Mirrors number envelope db' where
  queue := by rw [hqueue, hs]; exact h.queue
  files := by rw [hfiles, hs']; exact h.files
  ids := by rw [hqueue]; exact h.ids
  keys := by rw [hqueue]; exact h.keys
  fileIds := by rw [hfiles]; exact h.fileIds
  filenames := by rw [hfiles]; exact h.filenames

/-- No two documents are for one delivery. -/
theorem eq_of_isFor (h : s.Mirrors number envelope db) {d d' : ZoneMta.Delivery}
    (hd : d ∈ db.queue) (hd' : d' ∈ db.queue) (hfor : d'.isFor d.id d.seq = true) : d' = d := by
  rw [ZoneMta.Delivery.isFor, Bool.and_eq_true, beq_iff_eq, beq_iff_eq] at hfor
  exact List.inj_on_of_nodup_map h.keys hd' hd (Prod.ext hfor.1 hfor.2)

/-- The document of a delivery is found. -/
theorem find (h : s.Mirrors number envelope db) (hnumber : number.Injective)
    {d : ZoneMta.Delivery} (hd : d ∈ db.queue) :
    ∃ document, s.find (number d.id) (number d.seq) = some document ∧
      document.Mirrors number d := by
  obtain ⟨d', document, hd', hdocument, hmirrors⟩ := ForStd.find?_of_forall₂ h.queue
    (fun _ _ hxy => hxy.isFor hnumber d.id d.seq) hd (by simp [ZoneMta.Delivery.isFor])
  have hfor : d'.isFor d.id d.seq = true := by simpa using List.find?_some hd'
  obtain rfl := h.eq_of_isFor hd (List.mem_of_find?_eq_some hd') hfor
  exact ⟨document, hdocument, hmirrors⟩

/-- A delivery without a document is not found. -/
theorem find_eq_none (h : s.Mirrors number envelope db) (hnumber : number.Injective)
    {id seq : String} (hnone : ∀ d ∈ db.queue, ¬d.isFor id seq = true) :
    s.find (number id) (number seq) = none := by
  -- the documents that are for it correspond as well, so there are none of them
  have hfilter := ForStd.filter_of_forall₂ h.queue fun _ _ hxy => hxy.isFor hnumber id seq
  rw [List.filter_eq_nil_iff.mpr hnone, List.forall₂_nil_left_iff] at hfilter
  rw [System.find, List.find?_eq_none]
  exact List.filter_eq_nil_iff.mp hfilter

/-- The file of a message is found where its metadata are. -/
theorem lookup (h : s.Mirrors number envelope db) {file : File}
    (hfile : file ∈ db.files) {id : String} (hname : file.filename = filename id) :
    s.files.lookup (number id) = some (file.data.map envelope) := by
  rw [h.files]
  cases hfind : db.files.find? (·.filename == filename id) with
  | none => simpa [hname] using List.find?_eq_none.mp hfind file hfile
  | some f =>
    have hf : f.filename = filename id := by simpa using List.find?_some hfind
    obtain rfl := List.inj_on_of_nodup_map h.filenames (List.mem_of_find?_eq_some hfind) hfile
      (hf.trans hname.symm)
    rfl

theorem lookup_eq_none (h : s.Mirrors number envelope db) {id : String}
    (hnone : ∀ file ∈ db.files, file.filename ≠ filename id) :
    s.files.lookup (number id) = none := by
  rw [h.files, Option.map_eq_none_iff, List.find?_eq_none]
  simpa using hnone

/-! ## Updates -/

/-- Some documents are deleted. -/
theorem filter (h : s.Mirrors number envelope db) {p : ZoneMta.Delivery → Bool}
    {q : Document → Bool} (hpq : ∀ d document, document.Mirrors number d → p d = q document) :
    { s with queue := s.queue.filter q }.Mirrors number envelope
      { db with queue := db.queue.filter p } where
  queue := ForStd.filter_of_forall₂ h.queue hpq
  files := h.files
  ids := h.ids.sublist (List.filter_sublist.map _)
  keys := h.keys.sublist (List.filter_sublist.map _)
  fileIds := h.fileIds
  filenames := h.filenames

/-- All documents are changed, but not what they are for. -/
theorem map (h : s.Mirrors number envelope db) {f : ZoneMta.Delivery → ZoneMta.Delivery}
    {g : Document → Document} (hid : ∀ d, (f d)._id = d._id)
    (hkey : ∀ d, ((f d).id, (f d).seq) = (d.id, d.seq))
    (hfg : ∀ d ∈ db.queue, ∀ document, document.Mirrors number d →
      (g document).Mirrors number (f d)) :
    { s with queue := s.queue.map g }.Mirrors number envelope
      { db with queue := db.queue.map f } where
  -- the documents are paired with their membership, which `hfg` asks for
  queue := List.rel_map (fun {d document} hmirrors => hfg d hmirrors.1 document hmirrors.2)
    ((List.forall₂_and_left _ _).mpr ⟨fun _ hd => hd, h.queue⟩)
  files := h.files
  ids := by
    rw [List.map_map]
    exact (List.map_congr_left fun d _ => hid d) ▸ h.ids
  keys := by
    rw [List.map_map]
    exact (List.map_congr_left fun d _ => hkey d) ▸ h.keys
  fileIds := h.fileIds
  filenames := h.filenames

/-- One document is changed. -/
theorem update (h : s.Mirrors number envelope db) (hnumber : number.Injective)
    {d : ZoneMta.Delivery} (hd : d ∈ db.queue) {f : ZoneMta.Delivery → ZoneMta.Delivery}
    {g : Document → Document} (hid : ∀ d, (f d)._id = d._id)
    (hkey : ∀ d, ((f d).id, (f d).seq) = (d.id, d.seq))
    (hfg : ∀ document, document.Mirrors number d → (g document).Mirrors number (f d)) :
    (s.update (number d.id) (number d.seq) g).Mirrors number envelope (db.update d f) := by
  -- the document with the `_id` is the one of the delivery
  have hqueue : (db.update d f).queue =
      db.queue.map fun x => if x.isFor d.id d.seq then f x else x := by
    refine (ForStd.updateOne_eq_map h.ids d._id f).trans (List.map_congr_left fun x hx => ?_)
    refine if_congr ⟨?_, fun hfor => congrArg _ (h.eq_of_isFor hd hx hfor)⟩ rfl rfl
    intro hx_id
    obtain rfl := List.inj_on_of_nodup_map h.ids hx hd hx_id
    simp [ZoneMta.Delivery.isFor]
  refine (h.map (f := fun x => if x.isFor d.id d.seq then f x else x)
    (g := fun document =>
      if document.id == number d.id && document.seq == number d.seq then g document else document)
    ?_ ?_ ?_).congr hqueue rfl rfl rfl
  · intro x
    split
    · exact hid x
    · rfl
  · intro x
    split
    · exact hkey x
    · rfl
  · intro x hx document hmirrors
    rw [← hmirrors.isFor hnumber]
    split
    · next hfor =>
      obtain rfl := h.eq_of_isFor hd hx hfor
      exact hfg document hmirrors
    · exact hmirrors

/-- The document of a delivery is deleted, if there is one. -/
theorem deleteDelivery (h : s.Mirrors number envelope db) (hnumber : number.Injective)
    (choice : Nat) (id seq : String) :
    { s with queue := s.queue.filter fun document =>
        !(document.id == number id && document.seq == number seq) }.Mirrors number envelope
      (db.exec choice (.deleteDelivery id seq)).1 := by
  have hqueue : (db.exec choice (.deleteDelivery id seq)).1.queue =
      db.queue.filter fun d => !d.isFor id seq := by
    simp only [Database.exec]
    split
    · next hpick =>
      refine (List.filter_eq_self.mpr fun d hd => ?_).symm
      simpa using not_of_pick_filter hpick hd
    · next d hpick =>
      obtain ⟨hd, hfor⟩ := mem_of_pick_filter hpick
      have hnodup : db.queue.Nodup := .of_map _ h.ids
      refine (hnodup.erase_eq_filter d).trans (List.filter_congr fun x hx => ?_)
      -- the document that is picked is the only one
      have hiff : x = d ↔ x.isFor id seq = true := by
        refine ⟨fun heq => heq ▸ hfor, fun hx' => h.eq_of_isFor hd hx ?_⟩
        simp only [ZoneMta.Delivery.isFor, Bool.and_eq_true, beq_iff_eq] at hfor hx' ⊢
        exact ⟨hx'.1.trans hfor.1.symm, hx'.2.trans hfor.2.symm⟩
      rw [Bool.eq_iff_iff, bne_iff_ne, Bool.not_eq_true', ← Bool.not_eq_true]
      exact not_congr hiff
  refine (h.filter (p := fun d => !d.isFor id seq) fun d document hmirrors => ?_).congr hqueue
    (Database.files_exec (fun _ h => by cases h) fun _ h => by cases h) rfl rfl
  rw [hmirrors.isFor hnumber]

/-- The file of a message is deleted. -/
theorem deleteFile (h : s.Mirrors number envelope db) (hnumber : number.Injective) {file : File}
    (hfile : file ∈ db.files) {id : String} (hname : file.filename = filename id) :
    { s with files := s.files.erase (number id) }.Mirrors number envelope
      (db.exec 0 (.deleteFile file._id)).1 where
  queue := h.queue
  files id' := by
    rw [ForStd.lookup_erase]
    show _ = ((db.files.filter (·._id != file._id)).find? _).map _
    rw [List.find?_filter]
    split
    · next hid =>
      obtain rfl := hnumber hid
      -- no other file has the name
      refine Eq.symm (Option.map_eq_none_iff.mpr (List.find?_eq_none.mpr fun f hf => ?_))
      rw [decide_eq_true_iff, bne_iff_ne, beq_iff_eq]
      rintro ⟨hne, hf'⟩
      exact hne (congrArg _ (List.inj_on_of_nodup_map h.filenames hf hfile (hf'.trans hname.symm)))
    · next hid =>
      rw [h.files id']
      refine congrArg _ (List.find?_congr fun f hf => ?_)
      -- a file with this name is another one
      cases hf' : f.filename == filename id' with
      | false => simp
      | true =>
        have hne : f._id ≠ file._id := by
          intro hfid
          obtain rfl := List.inj_on_of_nodup_map h.fileIds hf hfile hfid
          exact hid (congrArg number (filename_inj ((beq_iff_eq.mp hf').symm.trans hname)))
        simp [hne]
  ids := h.ids
  keys := h.keys
  fileIds := h.fileIds.sublist (List.filter_sublist.map _)
  filenames := h.filenames.sublist (List.filter_sublist.map _)

/-- A message without a file has no metadata to delete. -/
theorem eraseMissing (h : s.Mirrors number envelope db) (hnumber : number.Injective) {id : String}
    (hmissing : ∀ file ∈ db.files, file.filename ≠ filename id) :
    { s with files := s.files.erase (number id) }.Mirrors number envelope db :=
  { h with
    files := fun id' => by
      rw [ForStd.lookup_erase]
      split
      · next hid =>
        obtain rfl := hnumber hid
        rw [← h.files, h.lookup_eq_none hmissing]
      · exact h.files id' }

end System.Mirrors

/-- The update of a DEFER. -/
theorem Document.Mirrors.deferred {d : ZoneMta.Delivery} {document : Document}
    (h : document.Mirrors number d) (now ttl : Nat) :
    (System.deferDocument now document).Mirrors number
      (d.deferred now ttl d._deferred.isNone) where
  id := h.id
  seq := h.seq
  recipient := h.recipient
  locked := nofun
  _deferred := by
    simp only [System.deferDocument, h._deferred, ZoneMta.Delivery.deferred, Option.map_some, times]
    cases d._deferred with
    | none => rfl
    | some deferred => rfl

@[simp] theorem System.lookup_set (s : System) (n : Nat) (item : Item) :
    (s.set n item).items.lookup n = some item :=
  (ForStd.lookup_insert ..).trans (if_pos rfl)

/-- The event of a DEFER goes on where `deferDelivery` asks for the metadata. -/
theorem exists_step_deferDelivery {n : Nat} {item : Request} {d : ZoneMta.Delivery}
    {document : Document} (hitem : s.items.lookup n = some (.deferring item))
    (hfind : s.find item.id item.seq = some document) (hdocument : document.Mirrors number d)
    (now : Nat) :
    ∃ s', s.step c (.deferDelivery n now) = some s' ∧
      s'.queue = (s.update item.id item.seq (System.deferDocument now)).queue ∧
      s'.files = s.files ∧ (s'.items.lookup n).isSome = asked d := by
  simp only [System.step, hitem, hfind, hdocument._deferred, asked]
  cases d._deferred with
  | none => exact ⟨_, rfl, rfl, rfl, by simp [System.drop]⟩
  | some deferred =>
    by_cases hzero : (times deferred).first = 0 ∨ (times deferred).last = 0
    · refine ⟨_, if_pos hzero, rfl, rfl, ?_⟩
      rw [Option.any_some, (times_eq_zero deferred).mp hzero]
      simp [System.drop]
    · refine ⟨_, if_neg hzero, rfl, rfl, ?_⟩
      have hset := mt (times_eq_zero deferred).mpr hzero
      rw [Option.any_some, System.lookup_set, Bool.eq_true_of_not_eq_false hset]
      rfl

/-! ## shift -/

section

variable {n : Nat} {document : Document} {data : Option Envelope}

/-- A message that is missing. -/
theorem run_missing (hitem : s.items.lookup n = some (.shifted document))
    (hdata : s.files.lookup document.id = none) :
    run (System.step c) s [.shiftMeta n] =
      some ({ s with queue := s.queue.filter (·.id != document.id) }.drop n) := by
  simp only [run, System.step, hitem, hdata, Option.bind_some]

/-- A message that is stored, up to the lookup on the suppression list. -/
theorem run_suppression (hitem : s.items.lookup n = some (.shifted document))
    (hdata : s.files.lookup document.id = some data) (suppressed : Bool) :
    run (System.step c) s [.shiftMeta n, .suppression n suppressed] =
      some ((s.set n (.suppression (document.delivery.assign data))).set n
        (if suppressed then .releasing (document.delivery.assign data) false
          else .nextMeta (document.delivery.assign data))) := by
  simp only [run, System.step, hitem, hdata, Option.bind_some, System.lookup_set]

@[simp] theorem System.find_set (s : System) (n : Nat) (item : Item) (id seq : Nat) :
    (s.set n item).find id seq = s.find id seq := rfl

@[simp] theorem assign_seq (delivery : Delivery) (data : Option Envelope) :
    (delivery.assign data).seq = delivery.seq := by
  cases data with
  | none => rfl
  | some _ => rfl

/-- A suppressed delivery is released. -/
theorem exists_run_suppressed (hitem : s.items.lookup n = some (.shifted document))
    (hdata : s.files.lookup document.id = some data)
    (hfind : (s.find document.id document.seq).isSome = true) :
    ∃ s', run (System.step c) s [.shiftMeta n, .suppression n true, .release n] = some s' ∧
      s'.queue = (s.remove document.id document.seq).queue ∧
      s'.files = (s.remove document.id document.seq).files := by
  obtain ⟨found, hfound⟩ := Option.isSome_iff_exists.mp hfind
  -- the state before the release, in which the document is still found
  let s₂ := (s.set n (.suppression (document.delivery.assign data))).set n
    (.releasing (document.delivery.assign data) false)
  have hrelease : s₂.step c (.release n) =
      some ((s₂.remove document.id document.seq).drop n) := by
    simp only [System.step, s₂, System.lookup_set, System.find_set, assign_id, assign_seq,
      Document.delivery, hfound, Bool.false_eq_true, if_false]
  refine ⟨(s₂.remove document.id document.seq).drop n, ?_, rfl, rfl⟩
  have hrun : run (System.step c) s ([.shiftMeta n, .suppression n true] ++ [.release n]) =
      (some s₂).bind fun s₂ => run (System.step c) s₂ [.release n] := by
    rw [ForStd.run_append, run_suppression hitem hdata true]
    rfl
  exact hrun.trans (ForStd.run_cons_eq_some.mpr ⟨_, hrelease, rfl⟩)

end

/-- The metadata have no `id` of another message, and neither a `seq` nor a recipient. -/
def Plain (parse : String → Metadata) (file : File) : Prop :=
  ∀ text, file.data = some text →
    (∀ id, (parse text).id = some id → file.filename = filename id) ∧
      (parse text).seq = none ∧ (parse text).recipient = none

theorem Plain.withMetadata {parse : String → Metadata} {file : File} (h : Plain parse file)
    {d : ZoneMta.Delivery} (hname : file.filename = filename d.id) :
    (d.withMetadata (file.metadata parse)).id = d.id ∧
      (d.withMetadata (file.metadata parse)).seq = d.seq ∧
      (d.withMetadata (file.metadata parse)).recipient = d.recipient := by
  rw [File.metadata]
  cases hdata : file.data with
  | none => exact ⟨rfl, rfl, rfl⟩
  | some text =>
    obtain ⟨hid, hseq, hrecipient⟩ := h text hdata
    simp only [ZoneMta.Delivery.withMetadata, Option.map_some, Option.getD_some, hseq, hrecipient,
      Option.getD_none, and_true]
    cases hkey : (parse text).id with
    | none => rfl
    | some id => exact filename_inj ((hid id hkey).symm.trans hname)

/-- The delivery goes to the `getMeta` of `findNext`, with the metadata that are stored. -/
def System.HandsOut (number : String → Nat) (s : System) (shifted : Shifted) : Prop :=
  ∃ n data, s.files.lookup (number shifted.id) = some data ∧
    s.items.lookup n = some (.nextMeta (Delivery.assign
      { id := number shifted.id, seq := number shifted.seq, recipient := shifted.recipient } data))

section

variable (hnumber : number.Injective)
include hnumber

/-- The `findOneAndUpdate` of `shift`. -/
theorem exists_step_fetch (h : s.Mirrors number envelope db) {d : ZoneMta.Delivery}
    (hd : d ∈ db.queue) (hlocked : d.locked = false) (lockTime : Nat) (instanceId : String) :
    ∃ document s', s.step c (.fetch (number d.id) (number d.seq)) = some s' ∧
      document.Mirrors number d ∧ s'.items.lookup s.nextItem = some (.shifted document) ∧
      s'.Mirrors number envelope (db.update d (·.fetched lockTime instanceId)) := by
  obtain ⟨document, hfind, hmirrors⟩ := h.find hnumber hd
  -- what is locked here is locked in the database as well
  have hfree : document.locked = false := by
    rw [← Bool.not_eq_true]
    intro hdocument
    exact Bool.false_ne_true (hlocked.symm.trans (hmirrors.locked hdocument))
  have hstep : s.step c (.fetch (number d.id) (number d.seq)) =
      some ((s.update (number d.id) (number d.seq) fun document =>
        { document with locked := true }).new (.shifted document)) := by
    simp [System.step, hfind, hfree]
  refine ⟨document, _, hstep, hmirrors, ?_, ?_⟩
  · exact (ForStd.lookup_insert ..).trans (if_pos rfl)
  · refine (h.update hnumber hd (f := (·.fetched lockTime instanceId))
      (g := fun document => { document with locked := true }) (fun _ => rfl) (fun _ => rfl)
      fun document hx => ?_).congr rfl rfl rfl rfl
    exact { hx with locked := fun _ => rfl }

/-- `releaseDelivery` -/
theorem System.Mirrors.releaseDelivery {q : MailQueue} (h : s.Mirrors number envelope q.db)
    (round : Round) (shifted : Shifted) :
    (s.remove (number shifted.id) (number shifted.seq)).Mirrors number envelope
      (q.releaseDelivery round shifted).db := by
  have hdelete := h.deleteDelivery hnumber round.deleted shifted.id shifted.seq
  rw [MailQueue.releaseDelivery, System.remove]
  dsimp only
  generalize (q.db.exec round.deleted (.deleteDelivery shifted.id shifted.seq)).1 = db' at hdelete ⊢
  generalize s.queue.filter (fun document => !(document.id == number shifted.id &&
    document.seq == number shifted.seq)) = queue at hdelete ⊢
  -- whether there are deliveries left is the same in both
  have hany : db'.queue.any (·.id == shifted.id) = queue.any (·.id == number shifted.id) :=
    ForStd.any_of_forall₂ hdelete.queue fun x document hx => by
      rw [hx.id, Bool.eq_iff_iff, beq_iff_eq, beq_iff_eq, hnumber.eq_iff]
  rw [← hany]
  rcases db'.findReference_cases round.reference shifted.id with ⟨hreply, hnone⟩ |
    ⟨d, hd, hid, hreply⟩
  · have hleft : db'.queue.any (·.id == shifted.id) = false := by simpa using hnone
    rw [hreply, hleft]
    dsimp only
    rw [MailQueue.removeMessage]
    dsimp only
    rcases db'.findFile_cases round.message shifted.id with ⟨hfind, hmissing⟩ |
      ⟨file, hfile, hname, hfind⟩
    · rw [hfind]
      exact hdelete.eraseMissing hnumber hmissing
    · rw [hfind]
      exact hdelete.deleteFile hnumber hfile hname
  · have hleft : db'.queue.any (·.id == shifted.id) = true := by simpa using ⟨d, hd, hid⟩
    rw [hreply, hleft]
    exact hdelete

/-- A try that fetches a document: the events of the delivery. -/
theorem exists_run_tried {cfg : ZoneMta.Config} {parse : String → Metadata} {query : Query}
    {lockOwner : String} {round : Round} {q q' : MailQueue} {e : ZoneMta.Delivery}
    {r : Option (Option Shifted)} (h : s.Mirrors number envelope q.db)
    (hplain : ∀ file ∈ q.db.files, Plain parse file)
    (he : e ∈ q.db.queue.filter query.matches)
    (htried : MailQueue.Tried cfg parse query lockOwner round q e r q') :
    ∃ es s', run (System.step c) s es = some s' ∧ s'.Mirrors number envelope q'.db ∧
      ∀ shifted, r = some (some shifted) → s'.HandsOut number shifted := by
  obtain ⟨hmem, hmatches⟩ := List.mem_filter.mp he
  have hlocked : e.locked = false := by
    simp only [Query.matches, Query.due, Bool.and_eq_true, Bool.not_eq_true'] at hmatches
    exact hmatches.1.1.2
  obtain ⟨document, s₁, hstep, hdocument, hitem, h₁⟩ :=
    exists_step_fetch (c := c) hnumber h hmem hlocked round.now query.instanceId
  have hfetch : ∀ {es s'}, run (System.step c) s₁ es = some s' →
      run (System.step c) s (.fetch (number e.id) (number e.seq) :: es) = some s' :=
    fun hrun => ForStd.run_cons_eq_some.mpr ⟨s₁, hstep, hrun⟩
  cases htried with
  | locked =>
    -- it stays locked in the database, and is not handed out
    have hfail : run (System.step c) s₁ [.fail s.nextItem] = some (s₁.drop s.nextItem) := by
      simp [run, System.step, hitem]
    exact ⟨_, _, hfetch hfail, h₁.congr rfl rfl rfl rfl, fun _ h => by cases h⟩
  | missing hfree hmissing =>
    have hlookup : s₁.files.lookup document.id = none := by
      rw [hdocument.id]
      exact h₁.lookup_eq_none hmissing
    refine ⟨_, _, hfetch (run_missing hitem hlookup), ?_, fun _ h => by cases h⟩
    refine (h₁.filter (p := (·.id != e.id)) (q := (·.id != document.id)) ?_).congr rfl rfl rfl rfl
    intro x document' hx
    rw [hx.id, hdocument.id, Bool.eq_iff_iff, bne_iff_ne, bne_iff_ne, hnumber.ne_iff]
  | @suppressed hfree file hfile hname hsuppressed =>
    obtain ⟨hid, hseq, -⟩ := (hplain file hfile).withMetadata hname
    have hlookup : s₁.files.lookup document.id = some (file.data.map envelope) := by
      rw [hdocument.id]
      exact h₁.lookup hfile hname
    -- the document that was fetched is still there
    have hstays : ∃ after ∈ (q.fetch query round e).queue,
        after._id = e._id ∧ after.id = e.id ∧ after.seq = e.seq :=
      Database.exists_queue_update (fun _ => ⟨rfl, rfl, rfl⟩) hmem
    obtain ⟨after, hafter, -, hafterId, hafterSeq⟩ := hstays
    obtain ⟨found, hfind, -⟩ := h₁.find hnumber hafter
    rw [hafterId, hafterSeq, ← hdocument.id, ← hdocument.seq] at hfind
    have hrelease := h₁.releaseDelivery hnumber (q := { q with
      db := q.fetch query round e
      locks := q.lockFor cfg query lockOwner round e }) round (e.withMetadata (file.metadata parse))
    rw [hid, hseq, ← hdocument.id, ← hdocument.seq] at hrelease
    obtain ⟨s', hrun, hqueue, hfiles⟩ := exists_run_suppressed (c := c) hitem hlookup
      (Option.isSome_iff_exists.mpr ⟨found, hfind⟩)
    exact ⟨_, s', hfetch hrun, hrelease.congr rfl rfl hqueue hfiles, fun _ h => by cases h⟩
  | @returned hfree file hfile hname hallowed =>
    obtain ⟨hid, hseq, hrecipient⟩ := (hplain file hfile).withMetadata hname
    have hdata := h₁.lookup hfile hname
    have hlookup : s₁.files.lookup document.id = some (file.data.map envelope) := by
      rw [hdocument.id]
      exact hdata
    refine ⟨_, _, hfetch (run_suppression hitem hlookup false), h₁.congr rfl rfl rfl rfl, ?_⟩
    -- the metadata do not change which delivery it is
    rintro shifted hshifted
    obtain rfl := Option.some.inj (Option.some.inj hshifted)
    refine ⟨s.nextItem, file.data.map envelope, ?_, ?_⟩
    · rw [hid]
      exact hdata
    · rw [System.lookup_set, hid, hseq, hrecipient]
      simp only [Document.delivery, hdocument.id, hdocument.seq, hdocument.recipient]
      rfl

section

variable {cfg : ZoneMta.Config} {parse : String → Metadata} {lockOwner : String} {q q' : MailQueue}

/-- A try of the loop. -/
theorem exists_run_tryNext {query : Query} {round : Round} {r : Option (Option Shifted)}
    (h : s.Mirrors number envelope q.db) (hplain : ∀ file ∈ q.db.files, Plain parse file)
    (htry : MailQueue.tryNext cfg parse query lockOwner round q = (r, q')) :
    (∃ es s', run (System.step c) s es = some s' ∧ s'.Mirrors number envelope q'.db ∧
      ∀ shifted, r = some (some shifted) → s'.HandsOut number shifted) ∧
    ∀ file ∈ q'.db.files, Plain parse file := by
  rcases MailQueue.tryNext_cases htry with ⟨hnone, rfl⟩ | ⟨e, he, htried⟩
  · -- nothing is found, and the collections stay
    have hdb : q'.db = q.db := by
      have hpick : pick (q.db.queue.filter query.matches) round.fetched = none := by
        rw [hnone]
        rfl
      simp only [MailQueue.tryNext, Database.exec, hpick] at htry
      rw [← (Prod.mk.inj htry).2]
    rw [hdb]
    exact ⟨⟨[], s, rfl, h, fun _ h => by cases h⟩, hplain⟩
  · have hfiles := (htried.shrinks h.ids).files
    exact ⟨exists_run_tried hnumber h hplain he htried, fun file hfile =>
      hplain file (hfiles.subset hfile)⟩

/-- What `shift` does to the collections are events that can happen, and a delivery that it returns
    is handed out by them. -/
theorem exists_run_shift (h : s.Mirrors number envelope q.db)
    (hplain : ∀ file ∈ q.db.files, Plain parse file) {defaultZone zone : String} {now : Nat}
    {rounds : List Round} {result : Option Shifted}
    (hshift : q.shift cfg parse defaultZone zone lockOwner now rounds = some (result, q')) :
    ∃ es s', run (System.step c) s es = some s' ∧ s'.Mirrors number envelope q'.db ∧
      ∀ shifted, result = some shifted → s'.HandsOut number shifted := by
  rw [MailQueue.shift] at hshift
  split at hshift
  · obtain ⟨rfl, rfl⟩ := Prod.mk.inj (Option.some.inj hshift)
    exact ⟨[], s, rfl, h, fun _ h => by cases h⟩
  · -- the tries before the last one are events as well
    have hkeep : ∀ round q₁ q₂,
        ((∃ es s₁, run (System.step c) s es = some s₁ ∧ s₁.Mirrors number envelope q₁.db) ∧
          ∀ file ∈ q₁.db.files, Plain parse file) →
        MailQueue.tryNext cfg parse (q.shiftQuery cfg defaultZone zone now) lockOwner round q₁ =
          (none, q₂) →
        (∃ es s₂, run (System.step c) s es = some s₂ ∧ s₂.Mirrors number envelope q₂.db) ∧
          ∀ file ∈ q₂.db.files, Plain parse file := by
      rintro round q₁ q₂ ⟨⟨es₁, s₁, hrun₁, h₁⟩, hplain₁⟩ htry
      obtain ⟨⟨es, s₂, hrun, h₂, -⟩, hplain₂⟩ :=
        exists_run_tryNext (c := c) hnumber h₁ hplain₁ htry
      refine ⟨⟨es₁ ++ es, s₂, ?_, h₂⟩, hplain₂⟩
      rw [ForStd.run_append, hrun₁]
      exact hrun
    obtain ⟨round, q₁, ⟨⟨es₁, s₁, hrun₁, h₁⟩, hplain₁⟩, htry⟩ := ForStd.retry_last hkeep
      (s := { q with locks := (q.locks.listSkipDomains (requestedZone defaultZone zone)).2 })
      ⟨⟨[], s, rfl, h⟩, hplain⟩ hshift
    obtain ⟨⟨es, s', hrun, h', hout⟩, -⟩ := exists_run_tryNext (c := c) hnumber h₁ hplain₁ htry
    refine ⟨es₁ ++ es, s', ?_, h', fun shifted hshifted => hout shifted (congrArg some hshifted)⟩
    rw [ForStd.run_append, hrun₁]
    exact hrun

end

/-! ## RELEASE and DEFER -/

/-- A RELEASE: the server finds the delivery where the event does, and what it deletes is the
    same. -/
theorem release_mirrors {q : MailQueue} {n : Nat} {delivery : Delivery} {rejected : Bool}
    {request : ZoneMta.Request} (h : s.Mirrors number envelope q.db)
    (hitem : s.items.lookup n = some (.releasing delivery rejected))
    (hid : delivery.id = number request.id) (hseq : delivery.seq = number request.seq)
    (httl : request.ttl = none) (now choice : Nat) (round : Round) {shifted : Shifted}
    (hshifted : shifted.id = request.id ∧ shifted.seq = request.seq) :
    ∃ s', s.step c (.release n) = some s' ∧
      (serverDelivery now request
            (q.db.exec choice (.findDelivery request.id request.seq)).2 =
          some (.answer request.client .none) ∧ s' = s.drop n ∨
        serverDelivery now request
            (q.db.exec choice (.findDelivery request.id request.seq)).2 =
          some (ZoneMta.releaseDelivery request.id request.seq request._lock (.request request)) ∧
        s'.Mirrors number envelope (q.releaseDelivery round shifted).db) := by
  simp only [System.step, hitem, hid, hseq, Database.exec]
  cases hpick : pick (q.db.queue.filter (·.isFor request.id request.seq)) choice with
  | none =>
    rw [h.find_eq_none hnumber fun d hd => not_of_pick_filter hpick hd]
    exact ⟨_, rfl, Or.inl ⟨rfl, rfl⟩⟩
  | some d =>
    obtain ⟨hd, hfor⟩ := mem_of_pick_filter hpick
    simp only [ZoneMta.Delivery.isFor, Bool.and_eq_true, beq_iff_eq] at hfor
    obtain ⟨document, hfind, -⟩ := h.find hnumber hd
    rw [hfor.1, hfor.2] at hfind
    rw [hfind]
    -- a rejected delivery goes on to its bounce, which changes no document
    refine ⟨_, rfl, Or.inr ⟨?_, ?_⟩⟩
    · simp only [serverDelivery, httl, hfor.1, hfor.2]
    · have hrelease := h.releaseDelivery hnumber round shifted
      rw [hshifted.1, hshifted.2] at hrelease
      split
      · exact hrelease.congr rfl rfl rfl rfl
      · exact hrelease.congr rfl rfl rfl rfl

/-- The `findOneAndUpdate` of `deferDelivery` finds the document, and updates it like the event. -/
theorem System.Mirrors.defer (h : s.Mirrors number envelope db) {d : ZoneMta.Delivery}
    (hd : d ∈ db.queue) (now ttl choice : Nat) :
    (s.update (number d.id) (number d.seq) (System.deferDocument now)).Mirrors number envelope
        (db.exec choice (.defer d.id d.seq now ttl d._deferred.isNone)).1 ∧
      (db.exec choice (.defer d.id d.seq now ttl d._deferred.isNone)).2 = .delivery (some d) := by
  have hexec : db.exec choice (.defer d.id d.seq now ttl d._deferred.isNone) =
      (db.update d (·.deferred now ttl d._deferred.isNone), .delivery (some d)) := by
    cases hpick : pick (db.queue.filter (·.isFor d.id d.seq)) choice with
    | none => exact absurd (by simp [ZoneMta.Delivery.isFor]) (not_of_pick_filter hpick hd)
    | some d' =>
      obtain ⟨hd', hfor⟩ := mem_of_pick_filter hpick
      obtain rfl := h.eq_of_isFor hd hd' hfor
      simp only [Database.exec, hpick]
  rw [hexec]
  exact ⟨h.update hnumber hd (fun _ => rfl) (fun _ => rfl) fun document hx => hx.deferred now ttl,
    rfl⟩

/-- A DEFER: the delivery is found, the document is updated in the same way, and the metadata are
    read for the hooks of queue:delayed where the event goes on. -/
theorem deferDelivery_mirrors {n ttl : Nat} {item : Request} {request : ZoneMta.Request}
    (h : s.Mirrors number envelope db) (hitem : s.items.lookup n = some (.deferring item))
    (hid : item.id = number request.id) (hseq : item.seq = number request.seq)
    (httl : request.ttl = some ttl) (now choice choice' : Nat) :
    ∃ s', s.step c (.deferDelivery n now) = some s' ∧
      (serverDelivery now request (db.exec choice (.findDelivery request.id request.seq)).2 =
          some (.answer request.client .none) ∧ s' = s.drop n ∨
        ∃ call, serverDelivery now request
            (db.exec choice (.findDelivery request.id request.seq)).2 =
          some (.wait (.deferred request) call) ∧
        s'.Mirrors number envelope (db.exec choice' call).1 ∧
        deferDeferred request (db.exec choice' call).2 =
          some (.release request._lock
            (if (s'.items.lookup n).isSome then .wait (.deferredMeta request) (.findFile request.id)
              else .answer request.client (.done request.id request.seq)))) := by
  have hreply : (db.exec choice (.findDelivery request.id request.seq)).2 =
      .delivery (pick (db.queue.filter (·.isFor request.id request.seq)) choice) := rfl
  rw [hreply]
  cases hpick : pick (db.queue.filter (·.isFor request.id request.seq)) choice with
  | none =>
    have hnone := h.find_eq_none hnumber fun d hd => not_of_pick_filter hpick hd
    rw [← hid, ← hseq] at hnone
    exact ⟨s.drop n, by simp only [System.step, hitem, hnone], Or.inl ⟨rfl, rfl⟩⟩
  | some d =>
    obtain ⟨hd, hfor⟩ := mem_of_pick_filter hpick
    simp only [ZoneMta.Delivery.isFor, Bool.and_eq_true, beq_iff_eq] at hfor
    obtain ⟨document, hfind, hdocument⟩ := h.find hnumber hd
    rw [hfor.1, hfor.2, ← hid, ← hseq] at hfind
    obtain ⟨s', hstep, hqueue, hfiles, hasked⟩ :=
      exists_step_deferDelivery (c := c) hitem hfind hdocument now
    -- what the event does to the document is what the call does
    obtain ⟨hdefer, hreplied⟩ := h.defer hnumber hd now ttl choice'
    rw [hfor.1, hfor.2, ← hid, ← hseq] at hdefer
    rw [hfor.1, hfor.2] at hreplied
    refine ⟨s', hstep, Or.inr ⟨.defer request.id request.seq now ttl d._deferred.isNone, ?_,
      hdefer.congr rfl rfl hqueue hfiles, ?_⟩⟩
    · simp only [serverDelivery, httl, hfor.1, hfor.2]
    · rw [hreplied, hasked]
      rfl

end

/-- The garbage collection unlocks deliveries. -/
theorem unlock_mirrors (h : s.Mirrors number envelope db) (choice now : Nat) (instanceId : String) :
    ∃ s', s.step c .unlock = some s' ∧
      s'.Mirrors number envelope (db.exec choice (.unlock instanceId now)).1 := by
  -- the event unlocks all documents, the sweep only those of long ago
  refine ⟨_, rfl, h.map (f := fun d => if d.stale instanceId now then d.unlocked else d) ?_ ?_ ?_⟩
  · intro d
    split
    · rfl
    · rfl
  · intro d
    split
    · rfl
    · rfl
  · intro d _ document hdocument
    split
    · exact { hdocument with locked := nofun }
    · exact { hdocument with locked := nofun }

end EmailBounce

end ZoneMta
