import ZoneMta.ForStd.Transition
import ZoneMta.Native.EmailBounce

/-!
# No notification about a notification

A notification has an empty envelope sender. It keeps it through `add`, the metadata and the
copies of them in `shift`, `findNext` and `deferDelivery`, and `canSendBounce` and both hooks of
email-bounce ask for a sender. So no notification leads to another one.

## Key results

- `inv_step`: the messages that are notifications have no sender, wherever they are
- `isChain_length_le`: a chain of notifications has at most one link
- `sendBounceMessage_of_notice`: no BOUNCE is sent for a notification
-/

namespace ZoneMta

namespace EmailBounce

open ForStd (Map)

variable {cfg : Config}

/-! ## Messages without a sender -/

/-- The message. -/
def Item.id : Item → Nat
  | .headers id .. | .storing id _ | .settingMeta id _ | .pushing id _ => id
  | .shifted document | .deferred document .. => document.id
  | .suppression delivery | .nextMeta delivery | .sending delivery | .releasing delivery _
  | .rejected delivery => delivery.id
  | .bounce b | .delayed b _ => b.id
  | .deferring request => request.id

/-- There is no sender, and none will be taken from the headers. -/
def Item.Silent : Item → Prop
  | .headers _ envelope _ => envelope.from = "" ∧ envelope.envelopeFromHeader = false
  | .storing _ envelope | .settingMeta _ envelope | .pushing _ envelope => envelope.from = ""
  | .suppression delivery | .nextMeta delivery | .sending delivery | .releasing delivery _
  | .rejected delivery => delivery.from.getD "" = ""
  | .bounce b | .delayed b _ => b.from.getD "" = ""
  | .shifted _ | .deferring _ | .deferred .. => True

/-- A document is the one that was asked for. -/
def Item.Asked : Item → Prop
  | .deferred document request _ => document.id = request.id
  | _ => True

theorem canSendBounce_from {delivery : Delivery} (h : canSendBounce cfg delivery = true) :
    delivery.from.getD "" ≠ "" := by
  intro hfrom
  simp [canSendBounce, hfrom] at h

theorem queueBounce_from {bounce : Bounce} {notice : Envelope × List HeaderLine}
    (h : queueBounce cfg bounce = some notice) : bounce.from.getD "" ≠ "" := by
  intro hfrom
  simp [queueBounce, hfrom] at h

theorem queueDelayed_from {bounce : Bounce} {options : Checks}
    {notice : Envelope × List HeaderLine} (h : queueDelayed cfg bounce options = some notice) :
    bounce.from.getD "" ≠ "" := by
  intro hfrom
  simp [queueDelayed, hfrom] at h

theorem assign_silent {delivery : Delivery} {data : Option Envelope}
    (hdelivery : delivery.from.getD "" = "") (hdata : ∀ envelope, data = some envelope →
      envelope.from = "") : (delivery.assign data).from.getD "" = "" := by
  cases data with
  | none => exact hdelivery
  | some envelope => exact hdata envelope rfl

theorem assign_id (delivery : Delivery) (data : Option Envelope) :
    (delivery.assign data).id = delivery.id := by
  cases data <;> rfl

theorem item_id (c : Changes) (item : Item) : (c.item item).id = item.id := by
  cases item <;> rfl

theorem item_silent (c : Changes) {item : Item} (h : item.Silent) : (c.item item).Silent := by
  cases item <;> exact h

theorem item_asked (c : Changes) {item : Item} (h : item.Asked) : (c.item item).Asked := by
  cases item <;> exact h

/-! ## The invariant -/

/-- The messages that are notifications. -/
def System.notified (s : System) : List Nat := s.notices.map (·.2)

/-- What holds for whatever goes on. -/
structure System.Fine (s : System) (item : Item) : Prop where
  id_lt : item.id < s.nextId
  asked : item.Asked
  silent : item.id ∈ s.notified → item.Silent

/-- Notifications have no sender, and are about messages that are not. -/
structure Inv (s : System) : Prop where
  files : ∀ id envelope, s.files.lookup id = some (some envelope) → id ∈ s.notified →
    envelope.from = ""
  items : ∀ n item, s.items.lookup n = some item → s.Fine item
  fileIds : ∀ id data, s.files.lookup id = some data → id < s.nextId
  documentIds : ∀ document ∈ s.queue, document.id < s.nextId
  noticeIds : ∀ notice ∈ s.notices, notice.1 < s.nextId ∧ notice.2 < s.nextId
  causes : ∀ notice ∈ s.notices, notice.1 ∉ s.notified

theorem inv_init : Inv {} where
  files := fun _ _ h => nomatch h
  items := fun _ _ h => nomatch h
  fileIds := fun _ _ h => nomatch h
  documentIds := fun _ h => nomatch h
  noticeIds := fun _ h => nomatch h
  causes := fun _ h => nomatch h

namespace Inv

variable {s : System}

theorem set (h : Inv s) {n : Nat} {item : Item} (hitem : s.Fine item) : Inv (s.set n item) where
  files := h.files
  items := by
    intro m item' hm
    simp only [System.set, ForStd.lookup_insert] at hm
    -- only the item `n` is new; `Fine` looks at parts of the system that `set` keeps
    split at hm
    · obtain rfl := Option.some.inj hm
      exact ⟨hitem.1, hitem.2, hitem.3⟩
    · have hold := h.items m item' hm
      exact ⟨hold.1, hold.2, hold.3⟩
  fileIds := h.fileIds
  documentIds := h.documentIds
  noticeIds := h.noticeIds
  causes := h.causes

theorem drop (h : Inv s) (n : Nat) : Inv (s.drop n) where
  files := h.files
  items := by
    intro m item hm
    simp only [System.drop, ForStd.lookup_erase] at hm
    split at hm
    · exact nomatch hm
    · have hold := h.items m item hm
      exact ⟨hold.1, hold.2, hold.3⟩
  fileIds := h.fileIds
  documentIds := h.documentIds
  noticeIds := h.noticeIds
  causes := h.causes

theorem new (h : Inv s) {item : Item} (hitem : s.Fine item) : Inv (s.new item) := by
  have hset := h.set (n := s.nextItem) hitem
  exact ⟨hset.1, fun m item' hm => ⟨(hset.2 m item' hm).1, (hset.2 m item' hm).2,
    (hset.2 m item' hm).3⟩, hset.3, hset.4, hset.5, hset.6⟩

/-- The queue may change as long as no other messages appear in it. -/
theorem queue (h : Inv s) (queue : List Document)
    (hqueue : ∀ document ∈ queue, document.id < s.nextId) : Inv { s with queue := queue } :=
  ⟨h.files, fun n item hn => ⟨(h.items n item hn).1, (h.items n item hn).2, (h.items n item hn).3⟩,
    h.fileIds, hqueue, h.noticeIds, h.causes⟩

/-- Files may be removed, or get metadata without a sender. -/
theorem setFiles (h : Inv s) {files : Map Nat (Option Envelope)}
    (hfiles : ∀ id data, files.lookup id = some data → id < s.nextId ∧
      ∀ envelope, data = some envelope → id ∈ s.notified → envelope.from = "") :
    Inv { s with files := files } :=
  ⟨fun id envelope hid => (hfiles id _ hid).2 envelope rfl,
    fun n item hn => ⟨(h.items n item hn).1, (h.items n item hn).2, (h.items n item hn).3⟩,
    fun id data hid => (hfiles id data hid).1, h.documentIds, h.noticeIds, h.causes⟩

theorem file (h : Inv s) (id : Nat) (data : Option Envelope) (hid : s.files.lookup id = some data) :
    id < s.nextId ∧ ∀ envelope, data = some envelope → id ∈ s.notified → envelope.from = "" :=
  ⟨h.fileIds id data hid, fun envelope henvelope => h.files id envelope (henvelope ▸ hid)⟩

theorem erase (h : Inv s) (id : Nat) : Inv { s with files := s.files.erase id } := by
  refine h.setFiles fun id' data hid' => ?_
  rw [ForStd.lookup_erase] at hid'
  split at hid'
  · exact nomatch hid'
  · exact h.file id' data hid'

theorem nextId_not_mem (h : Inv s) : s.nextId ∉ s.notified := by
  intro hmem
  obtain ⟨notice, hnotice, hid⟩ := List.mem_map.mp hmem
  exact absurd (h.noticeIds notice hnotice).2 (by omega)

/-- A new message. -/
theorem add (h : Inv s) (envelope : Envelope) (source : List HeaderLine) :
    Inv (s.add envelope source) := by
  -- the ids that are given out stay below the next one
  have hnext : Inv { s with nextId := s.nextId + 1 } :=
    ⟨h.files, fun n item hn => ⟨Nat.lt_succ_of_lt (h.items n item hn).1, (h.items n item hn).2,
        (h.items n item hn).3⟩,
      fun id data hid => Nat.lt_succ_of_lt (h.fileIds id data hid),
      fun document hd => Nat.lt_succ_of_lt (h.documentIds document hd),
      fun notice hn => ⟨Nat.lt_succ_of_lt (h.noticeIds notice hn).1,
        Nat.lt_succ_of_lt (h.noticeIds notice hn).2⟩, h.causes⟩
  exact hnext.new ⟨Nat.lt_succ_self _, trivial, fun hmem => absurd hmem h.nextId_not_mem⟩

/-- A notification about a message that is none. -/
theorem notify (h : Inv s) (n : Nat) {bounce : Bounce}
    {notice : Option (Envelope × List HeaderLine)} (hid : bounce.id < s.nextId)
    (hcause : notice.isSome → bounce.id ∉ s.notified)
    (hfrom : ∀ envelope source, notice = some (envelope, source) →
      envelope.from = "" ∧ envelope.envelopeFromHeader = false) :
    Inv (s.notify n bounce notice) := by
  cases notice with
  | none => exact h.drop n
  | some notice =>
    obtain ⟨envelope, source⟩ := notice
    have hadd := (h.drop n).add envelope source
    have hnew : (s.notify n bounce (some (envelope, source))).notified =
        s.notified ++ [s.nextId] := by
      simp [System.notify, System.notified]
    -- only the new message has the new id
    have hmem : ∀ id, id < s.nextId →
        id ∈ (s.notify n bounce (some (envelope, source))).notified → id ∈ s.notified := by
      intro id hlt hid
      rw [hnew, List.mem_append, List.mem_singleton] at hid
      exact hid.resolve_right (by omega)
    refine ⟨fun id data hfile hid => ?_, fun m item hm => ?_, hadd.3, hadd.4, ?_, ?_⟩
    · exact h.files id data hfile (hmem id (h.fileIds id _ hfile) hid)
    · simp only [System.notify, System.add, System.new, ForStd.lookup_insert] at hm
      split at hm
      · obtain rfl := Option.some.inj hm
        exact ⟨Nat.lt_succ_self _, trivial, fun _ => hfrom envelope source rfl⟩
      · have hold := (h.drop n).items m item hm
        exact ⟨Nat.lt_succ_of_lt hold.1, hold.2, fun hid => hold.3 (hmem _ hold.1 hid)⟩
    · intro notice hnotice
      rcases List.mem_append.mp hnotice with hold | hnew
      · exact hadd.noticeIds notice hold
      · obtain rfl := List.mem_singleton.mp hnew
        exact ⟨Nat.lt_succ_of_lt hid, Nat.lt_succ_self _⟩
    · intro notice hnotice hid'
      -- the cause of an old notification is old, and that of the new one is no notification
      rcases List.mem_append.mp hnotice with hold | hnew
      · exact h.causes notice hold (hmem _ (h.noticeIds notice hold).1 hid')
      · obtain rfl := List.mem_singleton.mp hnew
        exact hcause rfl (hmem _ hid hid')

end Inv

theorem notice_of_queueBounce {bounce : Bounce} (envelope : Envelope) (source : List HeaderLine)
    (h : queueBounce cfg bounce = some (envelope, source)) :
    envelope.from = "" ∧ envelope.envelopeFromHeader = false := by
  unfold queueBounce at h
  split at h
  · exact nomatch h
  · split at h
    · exact nomatch h
    · split at h
      · exact nomatch h
      · obtain ⟨rfl, -⟩ := Prod.mk.inj (Option.some.inj h)
        exact ⟨rfl, rfl⟩

theorem notice_of_queueDelayed {bounce : Bounce} {options : Checks} (envelope : Envelope)
    (source : List HeaderLine) (h : queueDelayed cfg bounce options = some (envelope, source)) :
    envelope.from = "" ∧ envelope.envelopeFromHeader = false := by
  unfold queueDelayed at h
  split at h
  · exact nomatch h
  · split at h
    · exact nomatch h
    · split at h
      · exact nomatch h
      · split at h
        · exact nomatch h
        · split at h
          · exact nomatch h
          · obtain ⟨rfl, -⟩ := Prod.mk.inj (Option.some.inj h)
            exact ⟨rfl, rfl⟩

/-- The addresses of the headers are not asked for. -/
theorem messageHeaders_from {envelope : Envelope} (headers : List HeaderLine)
    (fromHeader sender : Option String) (toHeader : List String) (h : envelope.from = "")
    (hheader : envelope.envelopeFromHeader = false) :
    (messageHeaders envelope headers fromHeader sender toHeader).from = "" := by
  simp [messageHeaders, hheader, h]

/-! ## Steps -/

section

variable {s s' : System}

theorem update_inv (h : Inv s) (id seq : Nat) {f : Document → Document}
    (hf : ∀ document, (f document).id = document.id) : Inv (s.update id seq f) := by
  refine h.queue _ fun document hdocument => ?_
  obtain ⟨old, hold, rfl⟩ := List.mem_map.mp hdocument
  split
  · rw [hf]
    exact h.documentIds old hold
  · exact h.documentIds old hold

theorem remove_inv (h : Inv s) (id seq : Nat) : Inv (s.remove id seq) := by
  have hqueue := h.queue (s.queue.filter fun document =>
    !(document.id == id && document.seq == seq))
    (fun document hd => h.documentIds document (List.mem_of_mem_filter hd))
  unfold System.remove
  dsimp only
  split
  · exact hqueue
  · exact hqueue.erase id

theorem id_of_find {id seq : Nat} {document : Document} (h : s.find id seq = some document) :
    document.id = id ∧ document ∈ s.queue := by
  have hmem := List.mem_of_find?_eq_some h
  have hp := List.find?_some h
  simp only [Bool.and_eq_true, beq_iff_eq] at hp
  exact ⟨hp.1, hmem⟩

/-- The sender of a delivery after a `getMeta`. -/
theorem silent_of_getMeta (h : Inv s) {id : Nat} {delivery : Delivery} (hid : id ∈ s.notified)
    (hdelivery : delivery.from.getD "" = "") :
    (delivery.assign (s.files.lookup id).join).from.getD "" = "" := by
  refine assign_silent hdelivery fun envelope henvelope => ?_
  exact h.files id envelope (Option.join_eq_some_iff.mp henvelope) hid

theorem inv_step (e : Event) (h : Inv s) (hs : s.step cfg e = some s') : Inv s' := by
  unfold System.step at hs
  cases e with
  | submit envelope source =>
    obtain rfl := Option.some.inj hs
    exact h.add envelope source
  | hooks n changes =>
    obtain ⟨item, hn, rfl⟩ := Option.map_eq_some_iff.mp hs
    have hitem := h.items n item hn
    exact h.set ⟨item_id changes item ▸ hitem.1, item_asked changes hitem.2,
      fun hid => item_silent changes (hitem.3 (item_id changes item ▸ hid))⟩
  | headers n fromHeader sender toHeader =>
    dsimp only at hs
    split at hs
    · next id envelope source hn =>
      obtain rfl := Option.some.inj hs
      have hitem := h.items n _ hn
      refine h.set ⟨hitem.1, trivial, fun hid => ?_⟩
      obtain ⟨hfrom, hheader⟩ := hitem.3 hid
      exact messageHeaders_from source fromHeader sender toHeader hfrom hheader
    · exact nomatch hs
  | store n =>
    dsimp only at hs
    split at hs
    · next id envelope hn =>
      obtain rfl := Option.some.inj hs
      have hitem := h.items n _ hn
      have hfiles : Inv { s with files := s.files.insert id none } := by
        refine h.setFiles fun id' data hid' => ?_
        rw [ForStd.lookup_insert] at hid'
        split at hid'
        · next heq =>
          obtain rfl := Option.some.inj hid'
          exact ⟨heq ▸ hitem.1, fun envelope henvelope => nomatch henvelope⟩
        · exact h.file id' data hid'
      exact hfiles.set ⟨hitem.1, trivial, hitem.3⟩
    · exact nomatch hs
  | setMeta n =>
    dsimp only at hs
    split at hs
    · next id envelope hn =>
      have hitem := h.items n _ hn
      split at hs
      · obtain rfl := Option.some.inj hs
        exact h.set ⟨hitem.1, trivial, hitem.3⟩
      · obtain rfl := Option.some.inj hs
        have hfiles : Inv { s with files := s.files.insert id (some envelope) } := by
          refine h.setFiles fun id' data hid' => ?_
          rw [ForStd.lookup_insert] at hid'
          split at hid'
          · next heq =>
            obtain rfl := Option.some.inj hid'
            obtain rfl := heq
            exact ⟨hitem.1, fun env henv hid => Option.some.inj henv ▸ hitem.3 hid⟩
          · exact h.file id' data hid'
        exact hfiles.set ⟨hitem.1, trivial, hitem.3⟩
    · exact nomatch hs
  | push n recipients =>
    dsimp only at hs
    split at hs
    · next id envelope hn =>
      obtain rfl := Option.some.inj hs
      have hitem := h.items n _ hn
      refine Inv.drop (h.queue _ fun document hdocument => ?_) n
      rcases List.mem_append.mp hdocument with hold | hnew
      · exact h.documentIds document hold
      · obtain ⟨i, hi, rfl⟩ := List.mem_mapIdx.mp hnew
        exact hitem.1
    · exact nomatch hs
  | fail n =>
    obtain ⟨item, hn, rfl⟩ := Option.map_eq_some_iff.mp hs
    exact h.drop n
  | fetch id seq =>
    dsimp only at hs
    split at hs
    · next document hfind =>
      split at hs
      · exact nomatch hs
      · obtain rfl := Option.some.inj hs
        have hupdate := update_inv h id seq (f := fun document => { document with locked := true })
          (fun _ => rfl)
        exact hupdate.new ⟨h.documentIds document (id_of_find hfind).2, trivial, fun _ => trivial⟩
    · exact nomatch hs
  | shiftMeta n =>
    dsimp only at hs
    split at hs
    · next document hn =>
      have hitem := h.items n _ hn
      split at hs
      · obtain rfl := Option.some.inj hs
        exact Inv.drop (h.queue _ fun document hd =>
          h.documentIds document (List.mem_of_mem_filter hd)) n
      · next data hdata =>
        obtain rfl := Option.some.inj hs
        have hid : (Item.suppression (document.delivery.assign data)).id = document.id :=
          assign_id _ _
        refine h.set ⟨hid ▸ hitem.1, trivial, fun hmem => ?_⟩
        exact assign_silent rfl fun envelope henvelope =>
          h.files document.id envelope (henvelope ▸ hdata) (hid ▸ hmem)
    · exact nomatch hs
  | suppression n suppressed =>
    dsimp only at hs
    split at hs
    · next delivery hn =>
      obtain rfl := Option.some.inj hs
      have hitem := h.items n _ hn
      cases suppressed with
      | true => exact h.set ⟨hitem.1, trivial, hitem.3⟩
      | false => exact h.set ⟨hitem.1, trivial, hitem.3⟩
    · exact nomatch hs
  | nextMeta n =>
    dsimp only at hs
    split at hs
    · next delivery hn =>
      obtain rfl := Option.some.inj hs
      have hitem := h.items n _ hn
      have hid : (Item.sending (delivery.assign (s.files.lookup delivery.id).join)).id =
          delivery.id := assign_id _ _
      refine h.set ⟨by rw [hid]; exact hitem.1, trivial, fun hmem => ?_⟩
      rw [hid] at hmem
      exact silent_of_getMeta h hmem (hitem.3 hmem)
    · exact nomatch hs
  | deliver n | reject n =>
    dsimp only at hs
    split at hs
    · next delivery hn =>
      obtain rfl := Option.some.inj hs
      have hitem := h.items n _ hn
      exact h.set ⟨hitem.1, trivial, hitem.3⟩
    · exact nomatch hs
  | defer n response =>
    dsimp only at hs
    split at hs
    · next delivery hn =>
      obtain rfl := Option.some.inj hs
      exact h.set ⟨(h.items n _ hn).1, trivial, fun _ => trivial⟩
    · exact nomatch hs
  | release n =>
    dsimp only at hs
    split at hs
    · next delivery rejected hn =>
      split at hs
      · obtain rfl := Option.some.inj hs
        exact h.drop n
      · obtain rfl := Option.some.inj hs
        have hremove := remove_inv h delivery.id delivery.seq
        have hitem := h.items n _ hn
        split
        · exact hremove.set ⟨hitem.1, trivial, hitem.3⟩
        · exact hremove.drop n
    · exact nomatch hs
  | sendBounceMessage n response =>
    dsimp only at hs
    split at hs
    · next delivery hn =>
      obtain rfl := Option.some.inj hs
      have hitem := h.items n _ hn
      split
      · exact h.set ⟨hitem.1, trivial, hitem.3⟩
      · exact h.drop n
    · exact nomatch hs
  | queueBounce n =>
    dsimp only at hs
    split at hs
    · next bounce hn =>
      obtain rfl := Option.some.inj hs
      have hitem := h.items n _ hn
      refine h.notify n hitem.1 (fun hsome hmem => ?_) notice_of_queueBounce
      -- the plugin asks for a sender
      obtain ⟨notice, hnotice⟩ := Option.isSome_iff_exists.mp hsome
      exact queueBounce_from hnotice (hitem.3 hmem)
    · exact nomatch hs
  | deferDelivery n now =>
    dsimp only at hs
    split at hs
    · next request hn =>
      split at hs
      · obtain rfl := Option.some.inj hs
        exact h.drop n
      · next document hfind =>
        obtain ⟨hid, hmem⟩ := id_of_find hfind
        have hupdate := update_inv h request.id request.seq (f := System.deferDocument now)
          (fun _ => rfl)
        split at hs
        · obtain rfl := Option.some.inj hs
          exact hupdate.drop n
        · next deferred =>
          split at hs
          · obtain rfl := Option.some.inj hs
            exact hupdate.drop n
          · obtain rfl := Option.some.inj hs
            exact hupdate.set ⟨h.documentIds document hmem, hid, fun _ => trivial⟩
    · exact nomatch hs
  | deferMeta n =>
    dsimp only at hs
    split at hs
    · next document request options hn =>
      obtain rfl := Option.some.inj hs
      have hitem := h.items n _ hn
      have hid : document.id = request.id := hitem.2
      split
      · refine h.set ⟨?_, trivial, fun hmem => ?_⟩
        · show request.id < s.nextId
          exact hid ▸ hitem.1
        · have hmem : document.id ∈ s.notified := hid.symm ▸ hmem
          exact silent_of_getMeta h hmem rfl
      · exact h.drop n
    · exact nomatch hs
  | queueDelayed n =>
    dsimp only at hs
    split at hs
    · next bounce options hn =>
      obtain rfl := Option.some.inj hs
      have hitem := h.items n _ hn
      refine h.notify n hitem.1 (fun hsome hmem => ?_) notice_of_queueDelayed
      obtain ⟨notice, hnotice⟩ := Option.isSome_iff_exists.mp hsome
      exact queueDelayed_from hnotice (hitem.3 hmem)
    · exact nomatch hs
  | removeMessage id =>
    obtain rfl := Option.some.inj hs
    exact h.erase id
  | removeDelivery id seq =>
    obtain rfl := Option.some.inj hs
    exact h.queue _ fun document hd => h.documentIds document (List.mem_of_mem_filter hd)
  | unlock =>
    obtain rfl := Option.some.inj hs
    refine h.queue _ fun document hd => ?_
    obtain ⟨old, hold, rfl⟩ := List.mem_map.mp hd
    exact h.documentIds old hold

end

/-! ## Chains of notifications -/

/-- The second message was generated because of the first one. -/
def System.Caused (s : System) (m₁ m₂ : Nat) : Prop := (m₁, m₂) ∈ s.notices

theorem inv_run {es : List Event} {s : System}
    (hrun : ForStd.run (System.step cfg) {} es = some s) : Inv s :=
  ForStd.run_invariant (fun _ e _ h hs => inv_step e h hs) inv_init hrun

/-- No message is generated because of a notification: a chain of messages of which each was
    generated because of the one before has at most two. -/
theorem isChain_length_le (cfg : Config) (es : List Event) (s : System)
    (hrun : ForStd.run (System.step cfg) {} es = some s) (chain : List Nat)
    (hchain : chain.IsChain s.Caused) : chain.length ≤ 2 := by
  have hinv := inv_run hrun
  match chain, hchain with
  | [], _ | [_], _ | [_, _], _ => simp
  | m₁ :: m₂ :: m₃ :: rest, hchain =>
    obtain ⟨h₁₂, hchain⟩ := List.isChain_cons_cons.mp hchain
    obtain ⟨h₂₃, -⟩ := List.isChain_cons_cons.mp hchain
    have hnotified : m₂ ∈ s.notified := List.mem_map_of_mem h₁₂
    exact absurd hnotified (hinv.causes _ h₂₃)

/-- No BOUNCE is sent for a notification. -/
theorem sendBounceMessage_of_notice {es : List Event} {s : System}
    (hrun : ForStd.run (System.step cfg) {} es = some s) {n m : Nat} {delivery : Delivery}
    {response : String} (hn : s.items.lookup n = some (.rejected delivery))
    (hm : (m, delivery.id) ∈ s.notices) :
    s.step cfg (.sendBounceMessage n response) = some (s.drop n) := by
  have hitem := (inv_run hrun).items n _ hn
  have hfrom : delivery.from.getD "" = "" := hitem.3 (List.mem_map_of_mem hm)
  have hcan : canSendBounce cfg delivery = false := by
    by_contra hcan
    rw [Bool.not_eq_false] at hcan
    exact canSendBounce_from hcan hfrom
  simp [System.step, hn, hcan]

/-! ## A notification that is rejected -/

def testConfig : Config where
  disableInterfaces := []
  delayEnabled := true
  delayAfter := 0
  mailerDaemon := "mailer-daemon@mta"
  sendingZone := "bounces"
  getFirst := fun lines key =>
    ((lines.find? (·.key == key.toLower)).map fun line => ForStd.afterFirst ':' line.line).getD ""

/-- A message is rejected, and so is the notification about it. -/
def testRun : List Event :=
  [.submit { interface := "feeder", «from» := "a@x", «to» := ["b@y"] } [],
    .headers 0 none none [], .store 0, .setMeta 0, .push 0 [("b@y", none)], .fetch 0 1,
    .shiftMeta 1, .suppression 1 false, .nextMeta 1, .reject 1, .release 1,
    .sendBounceMessage 1 "550 no", .queueBounce 1,
    .headers 2 none none [], .store 2, .setMeta 2, .push 2 [("a@x", none)], .fetch 1 1,
    .shiftMeta 3, .suppression 3 false, .nextMeta 3, .reject 3, .release 3,
    .sendBounceMessage 3 "550 no"]

theorem isChain_length_le_example :
    ∃ s, ForStd.run (System.step testConfig) {} testRun = some s ∧ s.Caused 0 1 ∧
      [0, 1].length ≤ 2 := by
  have hsome : (ForStd.run (System.step testConfig) {} testRun).any
      (fun s => s.notices == [(0, 1)]) = true := by decide +kernel
  obtain ⟨s, hs, hnotices⟩ := (Option.any_eq_true _ _).mp hsome
  have hcaused : s.Caused 0 1 := by
    have heq : s.notices = [(0, 1)] := by simpa using hnotices
    simp [System.Caused, heq]
  refine ⟨s, hs, hcaused, ?_⟩
  exact isChain_length_le testConfig testRun s hs [0, 1]
    (List.isChain_cons_cons.mpr ⟨hcaused, .singleton 1⟩)

end EmailBounce

end ZoneMta
