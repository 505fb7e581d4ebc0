import ZoneMta.ForStd.List
import ZoneMta.ForStd.Transition
import ZoneMta.Spec.EmailBounceCorrect

/-!
# Delay notifications

The notifications about one delivery that is deferred again and again. Each DEFER compares the time
of the last one and its own with the limit, and a time that meets the limit counts as before it for
the next DEFER and as behind it for this one: there are two notifications then.

## Key results

- `run_deferDelivery`: what a DEFER sends and changes is what the steps of the system do
- `length_notices_later`: there are as many notifications as the times cross the limit
- `length_notices_iff`: when there is one notification at most, and one when it is due
-/

namespace ZoneMta

namespace EmailBounce

open ForStd (run run_cons_eq_some crossings crossings_eq)

variable {cfg : Config} {data : Option Envelope}

/-- A DEFER and its time. -/
structure Deferral where
  request : Request
  now : Nat
deriving Repr, DecidableEq

/-- What `deferDelivery` sends through the hook queue:delayed, with the document as it was before
    the update; `data` are the metadata of the message. -/
def delayNotice (cfg : Config) (data : Option Envelope) (document : Document)
    (deferral : Deferral) : Option (Envelope × List HeaderLine) :=
  match document._deferred with
  | none => none
  | some deferred =>
    if deferred.first = 0 ∨ deferred.last = 0 then none
    else
      let entry := document.delivery.assign data
      if canSendBounce cfg entry then
        queueDelayed cfg (entry.delayed deferral.request)
          ⟨deferred.first, deferred.last, deferral.now⟩
      else none

/-- The notifications of several deferrals, in their order. -/
def notices (cfg : Config) (data : Option Envelope) :
    Document → List Deferral → List (Envelope × List HeaderLine)
  | _, [] => []
  | document, deferral :: rest =>
    (delayNotice cfg data document deferral).toList ++
      notices cfg data (System.deferDocument deferral.now document) rest

/-! ## The steps of the system -/

namespace System

theorem find_update {s : System} {id seq : Nat} {document : Document}
    (h : s.find id seq = some document) {f : Document → Document}
    (hf : ∀ document, (f document).id = document.id ∧ (f document).seq = document.seq) :
    (s.update id seq f).find id seq = some (f document) := by
  have hkey := List.find?_some h
  have hsame : ((fun document : Document => document.id == id && document.seq == seq) ∘
      fun document => if document.id == id && document.seq == seq then f document else document) =
      fun document => document.id == id && document.seq == seq := by
    funext document
    rw [Function.comp_apply]
    split
    · rw [(hf document).1, (hf document).2]
    · rfl
  unfold System.find System.update at *
  rw [List.find?_map, hsame, h, Option.map_some, if_pos hkey]

variable (cfg) {s : System} {n : Nat} {request : Request} {document : Document}

/-- The document is changed, and what was `_deferred` before says whether the metadata are read. -/
theorem step_deferDelivery (hitem : s.items.lookup n = some (.deferring request))
    (hfind : s.find request.id request.seq = some document) (now : Nat) :
    s.step cfg (.deferDelivery n now) =
      some (match document._deferred with
        | none => (s.update request.id request.seq (deferDocument now)).drop n
        | some deferred =>
          if deferred.first = 0 ∨ deferred.last = 0 then
            (s.update request.id request.seq (deferDocument now)).drop n
          else
            (s.update request.id request.seq (deferDocument now)).set n
              (.deferred document request ⟨deferred.first, deferred.last, now⟩)) := by
  simp only [step, hitem, hfind]
  cases document._deferred with
  | none => rfl
  | some deferred =>
    dsimp only
    split <;> rfl

theorem step_deferMeta {options : Checks}
    (hitem : s.items.lookup n = some (.deferred document request options)) :
    s.step cfg (.deferMeta n) =
      some (if canSendBounce cfg (document.delivery.assign (s.files.lookup document.id).join) then
        s.set n (.delayed
          ((document.delivery.assign (s.files.lookup document.id).join).delayed request) options)
        else s.drop n) := by
  simp only [step, hitem]

theorem step_queueDelayed {bounce : Bounce} {options : Checks}
    (hitem : s.items.lookup n = some (.delayed bounce options)) :
    s.step cfg (.queueDelayed n) = some (s.notify n bounce (queueDelayed cfg bounce options)) := by
  simp only [step, hitem]

/-- A DEFER goes its way through the steps of the system: they change the document and add the
    notification. -/
theorem run_deferDelivery (hitem : s.items.lookup n = some (.deferring request))
    (hfind : s.find request.id request.seq = some document) (now : Nat) :
    ∃ es s', (∀ e ∈ es, e ∈ [Event.deferDelivery n now, .deferMeta n, .queueDelayed n]) ∧
      run (step cfg) s es = some s' ∧
      s'.find request.id request.seq = some (deferDocument now document) ∧
      s'.notices = s.notices ++
        ((delayNotice cfg (s.files.lookup document.id).join document ⟨request, now⟩).map
          fun _ => (request.id, s.nextId)).toList := by
  have hfind' : (s.update request.id request.seq (deferDocument now)).find request.id request.seq =
      some (deferDocument now document) := find_update hfind fun _ => ⟨rfl, rfl⟩
  have hfirst := step_deferDelivery cfg hitem hfind now
  have hsame : (s.update request.id request.seq (deferDocument now)).notices = s.notices ++ [] :=
    (List.append_nil _).symm
  have hnext : (s.update request.id request.seq (deferDocument now)).nextId = s.nextId := rfl
  have hfiles : (s.update request.id request.seq (deferDocument now)).files = s.files := rfl
  generalize s.update request.id request.seq (deferDocument now) = t at *
  -- how far the DEFER comes
  unfold delayNotice
  cases hdeferred : document._deferred with
  | none =>
    rw [hdeferred] at hfirst
    exact ⟨[.deferDelivery n now], t.drop n, by simp, run_cons_eq_some.mpr ⟨_, hfirst, rfl⟩, hfind',
      hsame⟩
  | some deferred =>
    rw [hdeferred] at hfirst
    dsimp only at hfirst ⊢
    by_cases hzero : deferred.first = 0 ∨ deferred.last = 0
    · rw [if_pos hzero] at hfirst ⊢
      exact ⟨[.deferDelivery n now], t.drop n, by simp, run_cons_eq_some.mpr ⟨_, hfirst, rfl⟩, hfind',
        hsame⟩
    · rw [if_neg hzero] at hfirst ⊢
      -- the metadata are read, and what they say decides about the hook
      have hsecond := step_deferMeta cfg (s := t.set n (.deferred document request
        ⟨deferred.first, deferred.last, now⟩)) (AList.lookup_insert _)
      have hfiles' : (t.set n (.deferred document request
          ⟨deferred.first, deferred.last, now⟩)).files = s.files := hfiles
      rw [hfiles'] at hsecond
      generalize document.delivery.assign (s.files.lookup document.id).join = entry at hsecond ⊢
      by_cases hcan : canSendBounce cfg entry = true
      · rw [if_pos hcan] at hsecond ⊢
        have hthird := step_queueDelayed cfg (s := (t.set n (.deferred document request
          ⟨deferred.first, deferred.last, now⟩)).set n (.delayed (entry.delayed request)
          ⟨deferred.first, deferred.last, now⟩)) (AList.lookup_insert _)
        refine ⟨[.deferDelivery n now, .deferMeta n, .queueDelayed n], _, by simp,
          run_cons_eq_some.mpr ⟨_, hfirst, run_cons_eq_some.mpr ⟨_, hsecond,
            run_cons_eq_some.mpr ⟨_, hthird, rfl⟩⟩⟩, ?_⟩
        cases queueDelayed cfg (entry.delayed request) ⟨deferred.first, deferred.last, now⟩ with
        | none => exact ⟨hfind', hsame⟩
        | some notice =>
          refine ⟨hfind', ?_⟩
          show t.notices ++ [(request.id, t.nextId)] = s.notices ++ [(request.id, s.nextId)]
          rw [hsame, hnext, List.append_nil]
      · rw [if_neg hcan] at hsecond ⊢
        exact ⟨[.deferDelivery n now, .deferMeta n], (t.set n _).drop n, by simp,
          run_cons_eq_some.mpr ⟨_, hfirst, run_cons_eq_some.mpr ⟨_, hsecond, rfl⟩⟩, hfind', hsame⟩

end System

/-! ## The number of notifications -/

section

variable {document : Document} {deferred : Deferred}

theorem isSome_queueDelayed {bounce : Bounce} {options : Checks}
    (hint : bounce.interface ∉ cfg.disableInterfaces) (hfrom : bounce.from.getD "" ≠ "") :
    (queueDelayed cfg bounce options).isSome ↔
      (cfg.delayEnabled = true ∧ hops bounce.headers ≤ 25) ∧
        options.prev ≤ options.first + cfg.delayAfter ∧
        options.first + cfg.delayAfter ≤ options.last := by
  unfold queueDelayed
  -- the hook returns for one reason after the other
  cases cfg.delayEnabled with
  | false => simp
  | true =>
    simp only [Bool.not_true, Bool.false_eq_true, if_false, if_neg hint, if_neg hfrom]
    split
    · next htimes =>
      refine iff_of_false (by simp) fun h => ?_
      omega
    · split
      · next hhops =>
        refine iff_of_false (by simp) fun h => ?_
        omega
      · next htimes hhops =>
        refine iff_of_true rfl ⟨⟨trivial, ?_⟩, ?_, ?_⟩ <;> omega

/-- What has to be so that the hook sends anything about the message. -/
def Notifies (cfg : Config) (delivery : Delivery) : Prop :=
  cfg.delayEnabled = true ∧ hops delivery.headers ≤ 25

instance (cfg : Config) (delivery : Delivery) : Decidable (Notifies cfg delivery) :=
  inferInstanceAs (Decidable (_ ∧ _))

/-- The deferrals of a delivery that was deferred before, at increasing times: as many notifications
    as the times cross the limit. -/
theorem length_notices_later {ds : List Deferral} (hdeferred : document._deferred = some deferred)
    (hfirst : deferred.first ≠ 0) (hle : deferred.first ≤ deferred.last)
    (hsorted : (deferred.last :: ds.map (·.now)).Pairwise (· < ·))
    (hcan : canSendBounce cfg (document.delivery.assign data) = true)
    (hint : (document.delivery.assign data).interface ∉ cfg.disableInterfaces) :
    (notices cfg data document ds).length =
      if Notifies cfg (document.delivery.assign data) then
        crossings (deferred.first + cfg.delayAfter) deferred.last (ds.map (·.now))
      else 0 := by
  induction ds generalizing document deferred with
  | nil => simp [notices, crossings]
  | cons d ds ih =>
    obtain ⟨hlast, hsorted⟩ := List.pairwise_cons.mp hsorted
    -- the next deferral sees this one's time as the last one
    have hnow : deferred.last < d.now := hlast _ List.mem_cons_self
    have hnext : (System.deferDocument d.now document)._deferred = some ⟨deferred.first, d.now⟩ := by
      simp [System.deferDocument, hdeferred]
    have hsame : (System.deferDocument d.now document).delivery = document.delivery := rfl
    have hlater := ih hnext hfirst (hle.trans hnow.le) hsorted hcan hint
    rw [hsame] at hlater
    have hzero : ¬(deferred.first = 0 ∨ deferred.last = 0) := by omega
    have hnotice : (delayNotice cfg data document d).isSome ↔
        Notifies cfg (document.delivery.assign data) ∧
          deferred.last ≤ deferred.first + cfg.delayAfter ∧
          deferred.first + cfg.delayAfter ≤ d.now := by
      rw [delayNotice, hdeferred]
      dsimp only
      rw [if_neg hzero, if_pos hcan]
      exact isSome_queueDelayed hint (canSendBounce_from hcan)
    -- at most one for a deferral
    have hlength : (delayNotice cfg data document d).toList.length =
        if (delayNotice cfg data document d).isSome then 1 else 0 := by
      cases delayNotice cfg data document d <;> rfl
    rw [notices, List.length_append, hlength, hlater, List.map_cons, crossings]
    by_cases hnotifies : Notifies cfg (document.delivery.assign data)
    · simp only [hnotice, hnotifies, true_and, if_true]
    · simp only [hnotice, hnotifies, false_and, if_false]

/-- A first deferral at 0 counts as none. -/
theorem notices_of_first_zero {ds : List Deferral} (hdeferred : document._deferred = some deferred)
    (hfirst : deferred.first = 0) : notices cfg data document ds = [] := by
  induction ds generalizing document deferred with
  | nil => rfl
  | cons d ds ih =>
    have hnext : (System.deferDocument d.now document)._deferred = some ⟨deferred.first, d.now⟩ := by
      simp [System.deferDocument, hdeferred]
    rw [notices, ih hnext hfirst, delayNotice, hdeferred]
    dsimp only
    rw [if_pos (Or.inl hfirst)]
    rfl

end

/-- The first deferral, which is the first DEFER or that of `push` for a scheduled delivery: its
    time, and the deferrals after it. -/
def firstDeferral (document : Document) (ds : List Deferral) : Option (Nat × List Deferral) :=
  match document._deferred, ds with
  | none, [] => none
  | none, d :: ds => some (d.now, ds)
  | some deferred, ds =>
    if deferred.first = deferred.last then some (deferred.first, ds) else none

/-- The first deferral sends nothing, and those after it see its time. -/
theorem length_notices {document : Document} {ds later : List Deferral} {t0 : Nat}
    (hfirst : firstDeferral document ds = some (t0, later))
    (hsorted : (t0 :: later.map (·.now)).Pairwise (· < ·))
    (hcan : canSendBounce cfg (document.delivery.assign data) = true)
    (hint : (document.delivery.assign data).interface ∉ cfg.disableInterfaces) :
    (notices cfg data document ds).length =
      if Notifies cfg (document.delivery.assign data) ∧ t0 ≠ 0 then
        crossings (t0 + cfg.delayAfter) t0 (later.map (·.now))
      else 0 := by
  -- the deferrals after the first one
  have hrest : ∀ document : Document, document._deferred = some ⟨t0, t0⟩ →
      canSendBounce cfg (document.delivery.assign data) = true →
      (document.delivery.assign data).interface ∉ cfg.disableInterfaces →
      (notices cfg data document later).length =
        if Notifies cfg (document.delivery.assign data) ∧ t0 ≠ 0 then
          crossings (t0 + cfg.delayAfter) t0 (later.map (·.now))
        else 0 := by
    intro document hdeferred hcan hint
    by_cases hzero : t0 = 0
    · rw [notices_of_first_zero hdeferred hzero, if_neg fun h => h.2 hzero]
      rfl
    · rw [length_notices_later hdeferred hzero (Nat.le_refl t0) hsorted hcan hint]
      simp only [ne_eq, hzero, not_false_eq_true, and_true]
  unfold firstDeferral at hfirst
  cases hdeferred : document._deferred with
  | none =>
    rw [hdeferred] at hfirst
    cases ds with
    | nil => exact nomatch hfirst
    | cons d ds =>
      obtain ⟨rfl, rfl⟩ := Prod.mk.inj (Option.some.inj hfirst)
      have hnone : delayNotice cfg data document d = none := by rw [delayNotice, hdeferred]
      rw [notices, hnone]
      exact hrest (System.deferDocument d.now document)
        (by simp [System.deferDocument, hdeferred]) hcan hint
  | some deferred =>
    rw [hdeferred] at hfirst
    dsimp only at hfirst
    split at hfirst
    -- `push` has set both times of a scheduled delivery to one
    · next heq =>
      obtain ⟨rfl, rfl⟩ := Prod.mk.inj (Option.some.inj hfirst)
      refine hrest document ?_ hcan hint
      rw [hdeferred]
      exact congrArg (fun last => some (Deferred.mk deferred.first last)) heq.symm
    · exact nomatch hfirst

/-- A later deferral comes `after` or more behind the first one. -/
def Overdue (cfg : Config) (t0 : Nat) (later : List Deferral) : Prop :=
  ∃ d ∈ later, t0 + cfg.delayAfter ≤ d.now

instance (cfg : Config) (t0 : Nat) (later : List Deferral) : Decidable (Overdue cfg t0 later) :=
  inferInstanceAs (Decidable (∃ d ∈ later, t0 + cfg.delayAfter ≤ d.now))

/-- There is one notification if some later deferral is overdue and none otherwise, if and only if
    in the first case the hook notifies about the message at all, and no deferral but the last one
    comes exactly `after` behind the first. -/
theorem length_notices_iff {document : Document} {ds later : List Deferral} {t0 : Nat}
    (hfirst : firstDeferral document ds = some (t0, later))
    (hsorted : (t0 :: later.map (·.now)).Pairwise (· < ·))
    (hcan : canSendBounce cfg (document.delivery.assign data) = true)
    (hint : (document.delivery.assign data).interface ∉ cfg.disableInterfaces) :
    (notices cfg data document ds).length = (if Overdue cfg t0 later then 1 else 0) ↔
      (Overdue cfg t0 later → Notifies cfg (document.delivery.assign data) ∧ t0 ≠ 0 ∧
        t0 + cfg.delayAfter ∉ (later.map (·.now)).dropLast) := by
  have hreach : (∃ t ∈ later.map (·.now), t0 + cfg.delayAfter ≤ t) ↔ Overdue cfg t0 later := by
    simp [Overdue]
  rw [length_notices hfirst hsorted hcan hint, crossings_eq hsorted (Nat.le_add_right _ _)]
  simp only [hreach]
  by_cases hdue : Overdue cfg t0 later
  · simp only [hdue, true_imp_iff, if_true]
    -- a crossing for the first overdue time, and a second one where a time meets the limit
    by_cases hnotifies : Notifies cfg (document.delivery.assign data) ∧ t0 ≠ 0
    · rw [if_pos hnotifies]
      split
      · next hmet => exact iff_of_false (by omega) fun h => h.2.2 hmet
      · next hmet => exact iff_of_true rfl ⟨hnotifies.1, hnotifies.2, hmet⟩
    · rw [if_neg hnotifies]
      exact iff_of_false (by omega) fun h => hnotifies ⟨h.1, h.2.1⟩
  · -- a time that meets the limit would be overdue
    have hmet : t0 + cfg.delayAfter ∉ (later.map (·.now)).dropLast := fun hmem =>
      hdue (hreach.mp ⟨_, List.dropLast_subset _ hmem, Nat.le_refl _⟩)
    refine iff_of_true ?_ fun h => absurd h hdue
    rw [if_neg hdue, if_neg hmet, Nat.add_zero, ite_self]

/-! ## Two notifications -/

/-- Notifications after ten milliseconds. -/
def delayConfig : Config := { testConfig with delayAfter := 10 }

/-- A message with a sender, for one recipient. -/
def delayedMessage : Envelope := { interface := "feeder", «from» := "a@x", «to» := ["b@y"] }

/-- Deferrals of the document at some times. -/
def deferrals (times : List Nat) : List Deferral := times.map (⟨⟨0, 1, "450 later"⟩, ·⟩)

/-- A document that was not deferred before. -/
def newDocument : Document := { id := 0, seq := 1, recipient := "b@y" }

theorem length_notices_iff_late : (notices delayConfig (some delayedMessage) newDocument
    (deferrals [1000, 1004, 1015, 1030])).length = 1 := by
  have hfirst : firstDeferral newDocument (deferrals [1000, 1004, 1015, 1030]) =
      some (1000, deferrals [1004, 1015, 1030]) := rfl
  refine (length_notices_iff hfirst ?_ ?_ ?_).mpr ?_ <;> decide +kernel

/-- The second deferral comes exactly ten milliseconds after the first one. -/
theorem notices_met : (notices delayConfig (some delayedMessage) newDocument
    (deferrals [1000, 1010, 1020])).length = 2 := by
  decide +kernel

end EmailBounce

end ZoneMta
