import ZoneMta.ForStd.Hex
import ZoneMta.ForStd.Transition
import ZoneMta.Native.PushHooks

/-!
# Push with hooks

What a call of `push` does in any run, whatever the hooks of queue:route leave in the envelope
and the routing: when `callback` is called, and what is inserted before.

## Key results

- `deliverySeq_injective`: no two deliveries of a message have one `seq`
- `inv_run`: what a call has done after any run of events
- `inserted_or_failed`: `callback` is called once, after all documents were inserted, or none
- `domain_iff`: when the domain of each document is the domain of its recipient
- `inserted_eq_push`: with hooks that change nothing, what `push` without hooks inserts
-/

namespace ZoneMta

open ForStd (run run_concat run_invariant Along hexValue hexValue_toDigits hexValue_replicate_zero)

/-! ## The `seq` of a delivery -/

/-- The zeros in front do not count. -/
theorem hexValue_deliverySeq (seq : Nat) : hexValue (deliverySeq seq).toList = seq := by
  have hzeros : ∃ k, (deliverySeq seq).toList = List.replicate k '0' ++ Nat.toDigits 16 seq := by
    by_cases h₁ : seq < 0x100 <;> by_cases h₂ : seq < 0x10
    · exact ⟨2, by simp [deliverySeq, h₁, h₂]⟩
    · exact ⟨1, by simp [deliverySeq, h₁, h₂]⟩
    · omega
    · exact ⟨0, by simp [deliverySeq, h₁, h₂]⟩
  obtain ⟨k, hk⟩ := hzeros
  rw [hk, hexValue_replicate_zero, hexValue_toDigits]

theorem deliverySeq_injective : Function.Injective deliverySeq := by
  intro m n h
  have hvalue : hexValue (deliverySeq m).toList = hexValue (deliverySeq n).toList := by rw [h]
  rwa [hexValue_deliverySeq, hexValue_deliverySeq] at hvalue

namespace MailQueue

namespace Push

variable {ε : Type}

/-! ## What the hooks did -/

/-- What the hooks chose, for each recipient for which they did not fail. -/
def chosen (es : List (Event ε)) : List Routing :=
  es.filterMap fun
    | .hooks none _ routing _ _ => some routing
    | _ => none

/-- The error with which the hooks failed. -/
def failure (es : List (Event ε)) : Option ε :=
  es.findSome? fun
    | .hooks err _ _ _ _ => err
    | _ => none

/-- The documents that the call has inserted. -/
def stored (s : Push ε) : List Delivery := s.inserted.flatten.map (·.document s.id)

section

variable {es : List (Event ε)}

@[simp] theorem chosen_nil : chosen ([] : List (Event ε)) = [] := rfl

@[simp] theorem failure_nil : failure ([] : List (Event ε)) = none := rfl

@[simp] theorem chosen_immediate : chosen (es ++ [.immediate]) = chosen es := by
  simp [chosen]

@[simp] theorem chosen_insertMany (err : Option ε) :
    chosen (es ++ [.insertMany err]) = chosen es := by
  simp [chosen]

@[simp] theorem chosen_failed (err : ε) (envelope : Envelope) (routing : Routing) (date : Nat)
    (_id : ObjectId) :
    chosen (es ++ [.hooks (some err) envelope routing date _id]) = chosen es := by
  simp [chosen]

@[simp] theorem chosen_hooks (envelope : Envelope) (routing : Routing) (date : Nat)
    (_id : ObjectId) :
    chosen (es ++ [.hooks none envelope routing date _id]) = chosen es ++ [routing] := by
  simp [chosen]

@[simp] theorem failure_immediate : failure (es ++ [.immediate]) = failure es := by
  simp [failure]

@[simp] theorem failure_insertMany (err : Option ε) :
    failure (es ++ [.insertMany err]) = failure es := by
  simp [failure]

@[simp] theorem failure_hooks (err : Option ε) (envelope : Envelope) (routing : Routing)
    (date : Nat) (_id : ObjectId) :
    failure (es ++ [.hooks err envelope routing date _id]) = (failure es).or err := by
  cases err <;> simp [failure]

end

/-! ## The invariant -/

/-- Where the call is after the events. The number of the documents tells for how many recipients
    the hooks are done. -/
def At (es : List (Event ε)) (s : Push ε) : Prop :=
  match s.phase with
  | .empty => False
  | .immediate =>
    failure es = none ∧ s.inserted = [] ∧ s.calls = [] ∧ s.pos = s.documents.length ∧
      s.pos ≤ s.recipients.length ∧ es.length + 1 = 2 * s.pos
  | .hooks domain routing =>
    failure es = none ∧ s.inserted = [] ∧ s.calls = [] ∧ s.pos = s.documents.length + 1 ∧
      s.recipients[s.documents.length]? = some routing.recipient ∧
      domain = recipientDomain routing.recipient ∧ es.length + 2 = 2 * s.pos
  | .processed =>
    failure es = none ∧ s.inserted = [] ∧ s.calls = [] ∧
      s.documents.length = s.recipients.length ∧ es.length = 2 * s.recipients.length
  | .inserting =>
    failure es = none ∧ s.inserted = [s.documents] ∧ s.calls = [] ∧
      s.documents.length = s.recipients.length ∧ es.length = 2 * s.recipients.length + 1
  | .over =>
    (es.length ≤ 2 * s.recipients.length ∧
      ∃ err, failure es = some err ∧ s.inserted = [] ∧ s.calls = [some err]) ∨
    (es.length = 2 * s.recipients.length + 2 ∧
      ∃ err, failure es = none ∧ s.inserted = [s.documents] ∧
        s.documents.length = s.recipients.length ∧ .insertMany err ∈ es ∧ s.calls = [err])

/-- What the call has put together after the events. -/
structure Built (id : String) (addresses : List String) (es : List (Event ε)) (s : Push ε) :
    Prop where
  id : s.id = id
  recipients : s.recipients = addresses
  seq : s.seq = s.documents.length
  routing : s.documents.map (fun d => Routing.mk d.recipient d.sendingZone) = chosen es
  domain : s.documents.map (·.domain) = (addresses.take s.documents.length).map recipientDomain
  index : s.documents.map (·.index) = List.range' 1 s.documents.length

/-- The state of a call after the events. -/
structure Inv (id : String) (addresses : List String) (es : List (Event ε)) (s : Push ε) : Prop
    extends Built id addresses es s where
  here : At es s

section

variable {str : Strings} {zones : SendingZones} {optionsDefaultZone : String}
  {newError : String → ε} {id : String} {addresses : List String} {es : List (Event ε)}
  {s s' : Push ε}

/-- The next recipient is taken, or there is none. -/
theorem Built.processRecipients (h : Built id addresses es s) (hfailure : failure es = none)
    (hinserted : s.inserted = []) (hcalls : s.calls = []) (hpos : s.pos = s.documents.length)
    (hle : s.pos ≤ s.recipients.length) (hlength : es.length = 2 * s.pos) :
    Inv id addresses es (s.processRecipients str zones optionsDefaultZone) := by
  unfold Push.processRecipients
  split
  · next hnone =>
    have hge : s.recipients.length ≤ s.pos := List.getElem?_eq_none_iff.mp hnone
    have hall : s.documents.length = s.recipients.length := by omega
    have htwice : es.length = 2 * s.recipients.length := by omega
    exact { h with here := ⟨hfailure, hinserted, hcalls, hall, htwice⟩ }
  · next recipient hsome =>
    rw [hpos] at hsome
    have hnext : s.pos + 1 = s.documents.length + 1 := by omega
    have htwice : es.length + 2 = 2 * (s.pos + 1) := by omega
    exact { h with here := ⟨hfailure, hinserted, hcalls, hnext, hsome, rfl, htwice⟩ }

/-- The hooks are done with a recipient. -/
theorem Inv.routed (h : Inv id addresses es s) {domain : String} {routing₀ : Routing}
    (hphase : s.phase = .hooks domain routing₀) (envelope : Envelope) (routing : Routing)
    (date : Nat) (_id : ObjectId) :
    Inv id addresses (es ++ [.hooks none envelope routing date _id])
      ({ s with envelope := envelope }.routed domain routing date _id) := by
  have hhere := h.here
  rw [At, hphase] at hhere
  obtain ⟨hfailure, hinserted, hcalls, hpos, hrecipient, hdomain, hlength⟩ := hhere
  -- the recipient that is routed is the one behind the documents
  have hlt : s.documents.length < s.recipients.length :=
    (List.getElem?_eq_some_iff.mp hrecipient).1
  have htake : addresses.take (s.documents.length + 1) =
      addresses.take s.documents.length ++ [routing₀.recipient] := by
    rw [List.take_add_one, ← h.recipients, hrecipient]
    rfl
  exact
    { id := h.id
      recipients := h.recipients
      seq := by simp [Push.routed, h.seq]
      routing := by simp [Push.routed, h.routing]
      domain := by simp [Push.routed, h.domain, htake, hdomain]
      index := by simp [Push.routed, h.index, h.seq, List.range'_concat, Nat.add_comm]
      here := by
        show failure _ = none ∧ s.inserted = [] ∧ s.calls = [] ∧ s.pos = (_ ++ [_]).length ∧
          s.pos ≤ s.recipients.length ∧ (es ++ [_]).length + 1 = 2 * s.pos
        simp only [failure_hooks, hfailure, List.length_append, List.length_singleton]
        exact ⟨rfl, hinserted, hcalls, hpos, by omega, by omega⟩ }

/-- An event at which the hooks choose nothing. -/
theorem Built.concat (h : Built id addresses es s) {e : Event ε}
    (he : chosen (es ++ [e]) = chosen es) : Built id addresses (es ++ [e]) s :=
  { h with routing := h.routing.trans he.symm }

theorem inv_step {e : Event ε} (h : Inv id addresses es s)
    (hs : s.step str zones optionsDefaultZone newError e = some s') :
    Inv id addresses (es ++ [e]) s' := by
  have hhere := h.here
  rw [At] at hhere
  have hlength : (es ++ [e]).length = es.length + 1 := List.length_append
  cases e with
  | immediate =>
    have hbuilt := h.toBuilt.concat chosen_immediate
    have hfailure : failure (es ++ [.immediate]) = failure es := failure_immediate
    simp only [step] at hs
    split at hs
    · next hphase => simp only [hphase] at hhere
    · next hphase =>
      -- the next recipient
      simp only [hphase] at hhere
      obtain ⟨hnone, hinserted, hcalls, hpos, hle, htwice⟩ := hhere
      rw [← Option.some.inj hs]
      exact hbuilt.processRecipients (hfailure.trans hnone) hinserted hcalls hpos hle (by omega)
    · next hphase =>
      -- all documents are inserted
      simp only [hphase] at hhere
      obtain ⟨hnone, hinserted, hcalls, hall, htwice⟩ := hhere
      have hodd : (es ++ [Event.immediate]).length = 2 * s.recipients.length + 1 := by omega
      rw [← Option.some.inj hs, hinserted]
      exact { hbuilt with here := ⟨hfailure.trans hnone, rfl, hcalls, hall, hodd⟩ }
    · exact nomatch hs
  | hooks err envelope routing date _id =>
    simp only [step] at hs
    split at hs
    · next domain routing₀ err hphase =>
      -- the hooks fail
      simp only [hphase] at hhere
      obtain ⟨hnone, hinserted, hcalls, hpos, hrecipient, -, htwice⟩ := hhere
      have hbuilt := h.toBuilt.concat (chosen_failed err envelope routing date _id)
      have hlt : s.documents.length < s.recipients.length :=
        (List.getElem?_eq_some_iff.mp hrecipient).1
      have hfailure : failure (es ++ [.hooks (some err) envelope routing date _id]) = some err := by
        rw [failure_hooks, hnone, Option.none_or]
      rw [← Option.some.inj hs]
      exact
        { hbuilt with
          here := .inl ⟨by show _ ≤ 2 * s.recipients.length; omega, err, hfailure, hinserted,
            congrArg (· ++ [some err]) hcalls⟩ }
    · next domain routing₀ hphase =>
      rw [← Option.some.inj hs]
      exact h.routed hphase envelope routing date _id
    · exact nomatch hs
  | insertMany err =>
    simp only [step] at hs
    split at hs
    · next hphase =>
      simp only [hphase] at hhere
      obtain ⟨hnone, hinserted, hcalls, hall, htwice⟩ := hhere
      have hbuilt := h.toBuilt.concat (chosen_insertMany err)
      have hmem : Event.insertMany err ∈ es ++ [.insertMany err] := by simp
      rw [← Option.some.inj hs]
      exact
        { hbuilt with
          here := .inr ⟨by show _ = 2 * s.recipients.length + 2; omega, err,
            (failure_insertMany err).trans hnone, hinserted, hall, hmem,
            congrArg (· ++ [err]) hcalls⟩ }
    · exact nomatch hs

theorem inv_start {envelope : Envelope} (hto : envelope.to ≠ []) :
    Inv id envelope.to [] (start str zones optionsDefaultZone newError false id envelope) := by
  have hbuilt : Built id envelope.to ([] : List (Event ε))
      { id := id, envelope := envelope, recipients := envelope.to,
        zone := MailQueue.zone str zones envelope } := ⟨rfl, rfl, rfl, rfl, rfl, rfl⟩
  simp only [start, Bool.false_eq_true, ↓reduceIte, hto]
  exact hbuilt.processRecipients rfl rfl rfl rfl (Nat.zero_le _) rfl

theorem inv_run {envelope : Envelope} (hto : envelope.to ≠ [])
    (hrun : run (step str zones optionsDefaultZone newError)
      (start str zones optionsDefaultZone newError false id envelope) es = some s) :
    Inv id envelope.to es s := by
  induction es using List.reverseRecOn generalizing s with
  | nil => exact Option.some.inj hrun ▸ inv_start hto
  | append_singleton es e ih =>
    obtain ⟨t, ht, hs⟩ := run_concat.mp hrun
    exact inv_step (ih ht) hs

end

/-! ## The callback -/

/-- Nothing more happens in the call. -/
def Quiescent (str : Strings) (zones : SendingZones) (optionsDefaultZone : String)
    (newError : String → ε) (s : Push ε) : Prop :=
  ∀ e, s.step str zones optionsDefaultZone newError e = none

/-- A delivery for each recipient in turn, with what the hooks chose for it. -/
structure Delivered (id : String) (addresses : List String) (routings : List Routing)
    (deliveries : List Delivery) : Prop where
  length : deliveries.length = addresses.length
  id : ∀ delivery ∈ deliveries, delivery.id = id
  seq : (deliveries.map (·.seq)).Nodup
  routing : deliveries.map (fun d => Routing.mk d.recipient d.sendingZone) = routings
  domain : deliveries.map (·.domain) = addresses.map recipientDomain

section

variable {str : Strings} {zones : SendingZones} {optionsDefaultZone : String}
  {newError : String → ε} {id : String} {addresses : List String} {es : List (Event ε)}
  {s s' : Push ε}

theorem Inv.length_le (h : Inv id addresses es s) : es.length ≤ 2 * addresses.length + 2 := by
  have hhere := h.here
  rw [At] at hhere
  rw [← h.recipients]
  split at hhere
  · exact hhere.elim
  · omega
  · have hlt := (List.getElem?_eq_some_iff.mp hhere.2.2.2.2.1).1
    omega
  · omega
  · omega
  · obtain ⟨hle, -⟩ | ⟨heq, -⟩ := hhere <;> omega

theorem Inv.calls_length_le (h : Inv id addresses es s) : s.calls.length ≤ 1 := by
  have hhere := h.here
  rw [At] at hhere
  split at hhere
  · exact hhere.elim
  · simp [hhere.2.2.1]
  · simp [hhere.2.2.1]
  · simp [hhere.2.2.1]
  · simp [hhere.2.2.1]
  · obtain ⟨-, err, -, -, hcalls⟩ | ⟨-, err, -, -, -, -, hcalls⟩ := hhere <;> simp [hcalls]

/-- A call that waits for nothing is over. -/
theorem Inv.over (h : Inv id addresses es s)
    (hq : s.Quiescent str zones optionsDefaultZone newError) : s.phase = .over := by
  have hhere := h.here
  rw [At] at hhere
  cases hphase : s.phase with
  | empty => simp only [hphase] at hhere
  | immediate => exact absurd (hq .immediate) (by simp [step, hphase])
  | hooks domain routing =>
    exact absurd (hq (.hooks none s.envelope routing 0 ⟨0, 0⟩)) (by simp [step, hphase])
  | processed => exact absurd (hq .immediate) (by simp [step, hphase])
  | inserting => exact absurd (hq (.insertMany none)) (by simp [step, hphase])
  | «over» => rfl

/-- The hooks failed: the call is over. -/
theorem Inv.failed (h : Inv id addresses es s) {err : ε} (herr : failure es = some err) :
    s.inserted = [] ∧ s.calls = [some err] := by
  have hhere := h.here
  rw [At, herr] at hhere
  split at hhere
  · exact hhere.elim
  · exact nomatch hhere.1
  · exact nomatch hhere.1
  · exact nomatch hhere.1
  · exact nomatch hhere.1
  · obtain ⟨-, err', herr', hinserted, hcalls⟩ | ⟨-, _, hnone, -⟩ := hhere
    · rw [Option.some.inj herr']
      exact ⟨hinserted, hcalls⟩
    · exact nomatch hnone

/-- The documents of a call that inserts them. -/
theorem Inv.delivered (h : Inv id addresses es s) (hinserted : s.inserted = [s.documents])
    (hall : s.documents.length = s.recipients.length) :
    Delivered id addresses (chosen es) s.stored := by
  -- one `insertMany` has all the documents
  have hstored : s.stored = s.documents.map (·.document id) := by
    rw [stored, hinserted, h.id, List.flatten_singleton]
  have hlength : s.documents.length = addresses.length := by rw [hall, h.recipients]
  rw [hstored]
  exact
    { length := by rw [List.length_map, hlength]
      id := by
        intro delivery hmem
        obtain ⟨d, -, rfl⟩ := List.mem_map.mp hmem
        rfl
      seq := by
        have hseqs : (s.documents.map (·.document id)).map (·.seq) =
            (s.documents.map (·.index)).map deliverySeq := by
          rw [List.map_map, List.map_map]
          rfl
        rw [hseqs, h.index]
        exact (List.nodup_range' (h := by decide)).map deliverySeq_injective
      routing := by
        rw [List.map_map]
        exact h.routing
      domain := by
        have hdomain := h.domain
        rw [hlength, List.take_length] at hdomain
        rw [List.map_map]
        exact hdomain }

theorem not_step_of_over (h : s.phase = .over) (e : Event ε) :
    s.step str zones optionsDefaultZone newError e = none := by
  cases e <;> simp only [step, h]

/-- A run of a call that is over from the start. -/
theorem eq_of_run_over (h : s.phase = .over)
    (hrun : run (step str zones optionsDefaultZone newError) s es = some s') :
    es = [] ∧ s' = s := by
  cases es with
  | nil => exact ⟨rfl, (Option.some.inj hrun).symm⟩
  | cons e es =>
    rw [run, not_step_of_over h] at hrun
    cases hrun

/-- `push` calls its callback once: a queue that is closing refuses the message, hooks that fail
    end the call with their error and nothing is inserted, and else a document for each recipient
    is inserted before. -/
theorem inserted_or_failed {closing : Bool} {envelope : Envelope} (hto : envelope.to ≠ [])
    (hrun : run (step str zones optionsDefaultZone newError)
      (start str zones optionsDefaultZone newError closing id envelope) es = some s) :
    (es.length ≤ 2 * envelope.to.length + 2 ∧ s.calls.length ≤ 1 ∧
      (s.Quiescent str zones optionsDefaultZone newError → s.calls.length = 1)) ∧
    (closing = true →
      s.calls = [some (newError "Server shutdown in progress")] ∧ s.stored = []) ∧
    (closing = false →
      (∀ domain routing, s.phase = .hooks domain routing →
        envelope.to[(chosen es).length]? = some routing.recipient) ∧
      (∀ err, failure es = some err → s.calls = [some err] ∧ s.stored = []) ∧
      (failure es = none → s.Quiescent str zones optionsDefaultZone newError →
        s.inserted.length = 1 ∧ Delivered id envelope.to (chosen es) s.stored ∧
          ∃ err, .insertMany err ∈ es ∧ s.calls = [err])) := by
  cases closing with
  | true =>
    -- a queue that is closing has called back before anything can happen
    obtain ⟨rfl, rfl⟩ := eq_of_run_over rfl hrun
    exact ⟨⟨Nat.zero_le _, le_rfl, fun _ => rfl⟩, fun _ => ⟨rfl, rfl⟩, fun h => nomatch h⟩
  | false =>
    have h := inv_run hto hrun
    have hhere := h.here
    have hover (hq : s.Quiescent str zones optionsDefaultZone newError) :
        (∃ err, failure es = some err ∧ s.inserted = [] ∧ s.calls = [some err]) ∨
          ∃ err, failure es = none ∧ s.inserted = [s.documents] ∧
            s.documents.length = s.recipients.length ∧ .insertMany err ∈ es ∧ s.calls = [err] := by
      rw [At, h.over hq] at hhere
      exact hhere.imp And.right And.right
    refine ⟨⟨h.length_le, h.calls_length_le, fun hq => ?_⟩, fun hc => (nomatch hc), fun _ => ?_⟩
    · obtain ⟨err, -, -, hcalls⟩ | ⟨err, -, -, -, -, hcalls⟩ := hover hq <;> simp [hcalls]
    · refine ⟨fun domain routing hphase => ?_, fun err herr => ?_, fun hnone hq => ?_⟩
      · -- the hooks run for the recipient behind those that are done
        rw [At, hphase] at hhere
        have hlength : (chosen es).length = s.documents.length := by
          rw [← h.routing, List.length_map]
        rw [hlength, ← h.recipients]
        exact hhere.2.2.2.2.1
      · obtain ⟨hinserted, hcalls⟩ := h.failed herr
        exact ⟨hcalls, by rw [stored, hinserted]; rfl⟩
      · obtain ⟨err, herr, -⟩ | ⟨err, -, hinserted, hall, hmem, hcalls⟩ := hover hq
        · exact nomatch hnone.symm.trans herr
        · exact ⟨by rw [hinserted]; rfl, h.delivered hinserted hall, err, hmem, hcalls⟩

end

/-- ASCII text, and no zones. -/
def plainText : Strings := { ForStd.Text.ascii with toASCII := fun domain => domain }

def twoRecipients : Envelope where
  sendingZone := ""
  «from» := "sender@example.com"
  «to» := ["first@example.org", "second@[192.0.2.1]"]
  origin := ""
  deferDelivery := 0

/-- The state of a call after the events. -/
def after (closing : Bool) (es : List (Event String)) : Option (Push String) :=
  run (step plainText {} "" fun message => message)
    (start plainText {} "" (fun message => message) closing "m1" twoRecipients) es

/-- The hooks send the first delivery to another address, at `domain`. -/
def rewriting (domain : String) : List (Event String) :=
  [.hooks none twoRecipients ⟨"other@" ++ domain, "bulk"⟩ 5 ⟨0, 1⟩, .immediate,
    .hooks none twoRecipients ⟨"second@[192.0.2.1]", "default"⟩ 6 ⟨0, 2⟩, .immediate, .immediate,
    .insertMany none]

theorem inserted_or_failed_rewriting : ∃ s, after false (rewriting "example.org") = some s ∧
    s.calls.length ≤ 1 ∧
      Delivered "m1" twoRecipients.to (chosen (rewriting "example.org")) s.stored := by
  have hover : (after false (rewriting "example.org")).any (fun s => s.phase = .over) = true := by
    decide +kernel
  obtain ⟨s, hs, hphase⟩ := (Option.any_eq_true _ _).mp hover
  have hquiescent : s.Quiescent plainText {} "" (fun message => message) :=
    not_step_of_over (of_decide_eq_true hphase)
  obtain ⟨⟨-, hcalls, -⟩, -, hopen⟩ := inserted_or_failed (by decide) hs
  exact ⟨s, hs, hcalls, ((hopen rfl).2.2 rfl hquiescent).2.1⟩

/-- A queue that is closing inserts nothing, without any failure of hooks. -/
theorem not_stored_closing : ∃ s, after true [] = some s ∧
    failure ([] : List (Event String)) = none ∧
      s.Quiescent plainText {} "" (fun message => message) ∧ s.stored = [] := by
  refine ⟨_, rfl, rfl, fun e => ?_, rfl⟩
  cases e <;> rfl

/-! ## The domain of a document -/

/-- The call has come to its `insertMany`. -/
def Inserts (closing : Bool) (envelope : Envelope) (es : List (Event ε)) : Prop :=
  closing = false ∧ envelope.to ≠ [] ∧ failure es = none ∧ 2 * envelope.to.length < es.length

section

variable {str : Strings} {zones : SendingZones} {optionsDefaultZone : String}
  {newError : String → ε} {id : String} {addresses : List String} {es : List (Event ε)}
  {s s' : Push ε}

/-- Before its `insertMany` a call has inserted nothing. -/
theorem Inv.inserted_eq_nil (h : Inv id addresses es s)
    (hes : ¬(failure es = none ∧ 2 * addresses.length < es.length)) : s.inserted = [] := by
  have hhere := h.here
  rw [At] at hhere
  rw [← h.recipients] at hes
  split at hhere
  · exact hhere.elim
  · exact hhere.2.1
  · exact hhere.2.1
  · exact hhere.2.1
  · obtain ⟨hnone, -, -, -, hlength⟩ := hhere
    exact absurd ⟨hnone, by omega⟩ hes
  · obtain ⟨-, -, -, hinserted, -⟩ | ⟨hlength, -, hnone, -⟩ := hhere
    · exact hinserted
    · exact absurd ⟨hnone, by omega⟩ hes

theorem Inv.inserted_eq_documents (h : Inv id addresses es s) (hnone : failure es = none)
    (hlength : 2 * addresses.length < es.length) :
    s.inserted = [s.documents] ∧ s.documents.length = s.recipients.length := by
  have hhere := h.here
  rw [At, hnone] at hhere
  rw [← h.recipients] at hlength
  split at hhere
  · exact hhere.elim
  · obtain ⟨-, -, -, -, hle, htwice⟩ := hhere
    omega
  · obtain ⟨-, -, -, hpos, hrecipient, -, htwice⟩ := hhere
    have hlt := (List.getElem?_eq_some_iff.mp hrecipient).1
    omega
  · obtain ⟨-, -, -, -, htwice⟩ := hhere
    omega
  · exact ⟨hhere.2.1, hhere.2.2.2.1⟩
  · obtain ⟨-, err, herr, -⟩ | ⟨-, err, -, hinserted, hall, -⟩ := hhere
    · exact nomatch herr
    · exact ⟨hinserted, hall⟩

/-- A call that is refused inserts nothing. -/
theorem inserted_of_refused {closing : Bool} {envelope : Envelope}
    (hrefused : closing = true ∨ envelope.to = [])
    (hrun : run (step str zones optionsDefaultZone newError)
      (start str zones optionsDefaultZone newError closing id envelope) es = some s) :
    s.inserted = [] := by
  have hstart : (s.phase = .empty ∨ s.phase = .over) ∧ s.inserted = [] := by
    refine run_invariant (I := fun s => (s.phase = .empty ∨ s.phase = .over) ∧ s.inserted = [])
      (fun s e s' h hs => ?_) ?_ hrun
    · obtain ⟨hempty | hover, hinserted⟩ := h
      · cases e <;> simp only [step, hempty, reduceCtorEq] at hs
        rw [← Option.some.inj hs]
        exact ⟨.inr rfl, hinserted⟩
      · exact nomatch (not_step_of_over hover e).symm.trans hs
    · cases closing with
      | true => exact ⟨.inr rfl, rfl⟩
      | false =>
        have hto := hrefused.resolve_left (fun h => nomatch h)
        simp [start, hto]
  exact hstart.2

/-- The documents that a call inserts have the domains of their recipients if and only if the
    hooks kept the domain of each recipient. -/
theorem domain_iff {closing : Bool} {envelope : Envelope}
    (hrun : run (step str zones optionsDefaultZone newError)
      (start str zones optionsDefaultZone newError closing id envelope) es = some s) :
    (∀ delivery ∈ s.stored, delivery.domain = recipientDomain delivery.recipient) ↔
      (Inserts closing envelope es → (chosen es).map (fun r => recipientDomain r.recipient) =
        envelope.to.map recipientDomain) := by
  by_cases hins : Inserts closing envelope es
  · obtain ⟨rfl, hto, hnone, hlength⟩ := hins
    have h := inv_run hto hrun
    obtain ⟨hinserted, hall⟩ := h.inserted_eq_documents hnone hlength
    have hdelivered := h.delivered hinserted hall
    -- the documents have the old domains, and the recipients that the hooks chose
    have hmaps : (∀ delivery ∈ s.stored, delivery.domain = recipientDomain delivery.recipient) ↔
        s.stored.map (·.domain) = s.stored.map (fun d => recipientDomain d.recipient) :=
      List.map_inj_left.symm
    have hrouting : (chosen es).map (fun r => recipientDomain r.recipient) =
        s.stored.map (fun d => recipientDomain d.recipient) := by
      rw [← hdelivered.routing, List.map_map]
      rfl
    rw [hmaps, hdelivered.domain, hrouting]
    exact ⟨fun heq _ => heq.symm, fun heq => (heq ⟨rfl, hto, hnone, hlength⟩).symm⟩
  · have hinserted : s.inserted = [] := by
      by_cases hrefused : closing = true ∨ envelope.to = []
      · exact inserted_of_refused hrefused hrun
      · obtain ⟨hopen, hto⟩ := not_or.mp hrefused
        obtain rfl := Bool.eq_false_of_not_eq_true hopen
        exact (inv_run hto hrun).inserted_eq_nil fun h => hins ⟨rfl, hto, h⟩
    have hstored : s.stored = [] := by rw [stored, hinserted]; rfl
    exact ⟨fun _ h => absurd h hins, fun _ delivery hmem => by simp [hstored] at hmem⟩

end

theorem domain_iff_kept : ∃ s, after false (rewriting "example.org") = some s ∧
    s.stored.length = 2 ∧
      ∀ delivery ∈ s.stored, delivery.domain = recipientDomain delivery.recipient := by
  have hlength : (after false (rewriting "example.org")).any (fun s => s.stored.length = 2) =
      true := by decide +kernel
  obtain ⟨s, hs, hstored⟩ := (Option.any_eq_true _ _).mp hlength
  exact ⟨s, hs, of_decide_eq_true hstored, (domain_iff hs).mpr fun _ => by decide +kernel⟩

/-- The hooks send a delivery to another domain, and its document keeps the domain from before. -/
theorem domain_rewriting : ∃ s, after false (rewriting "example.net") = some s ∧
    ∃ delivery ∈ s.stored, delivery.recipient = "other@example.net" ∧
      delivery.domain = "example.org" ∧ recipientDomain delivery.recipient = "example.net" := by
  have hstored : (after false (rewriting "example.net")).any (fun s => s.stored.any fun delivery =>
      delivery.recipient = "other@example.net" ∧ delivery.domain = "example.org" ∧
        recipientDomain delivery.recipient = "example.net") = true := by
    decide +kernel
  obtain ⟨s, hs, hany⟩ := (Option.any_eq_true _ _).mp hstored
  obtain ⟨delivery, hmem, hdelivery⟩ := List.any_eq_true.mp hany
  exact ⟨s, hs, delivery, hmem, of_decide_eq_true hdelivery⟩

/-! ## Without hooks -/

/-- The hooks leave the envelope and the routing as they are. -/
def Unchanged (date : Nat → Nat) (_id : Nat → ObjectId) (s : Push ε) : Event ε → Prop
  | .hooks _ envelope routing date' _id' =>
    envelope = s.envelope ∧ (∀ domain routing₀, s.phase = .hooks domain routing₀ →
      routing = routing₀) ∧ date' = date (s.seq + 1) ∧ _id' = _id (s.seq + 1)
  | _ => True

section

variable {str : Strings} {zones : SendingZones} {optionsDefaultZone : String}
  {newError : String → ε} {id : String} {envelope : Envelope} {es : List (Event ε)}
  {s s' : Push ε} {date : Nat → Nat} {_id : Nat → ObjectId} {pushed : List Recipient}

/-- The zone of the envelope is looked up once. -/
theorem deliveryZone_zone (recipient : String) :
    MailQueue.deliveryZone str zones optionsDefaultZone
        { envelope with sendingZone := MailQueue.zone str zones envelope } recipient =
      MailQueue.deliveryZone str zones optionsDefaultZone envelope recipient := by
  have hzone : MailQueue.zone str zones
      { envelope with sendingZone := MailQueue.zone str zones envelope } =
        MailQueue.zone str zones envelope := by
    by_cases h : envelope.sendingZone ≠ "" ∧ (zones.get str envelope.sendingZone).isNone
    · simp [MailQueue.zone, h]
    · simp only [MailQueue.zone, if_neg h]
  unfold MailQueue.deliveryZone
  rw [hzone]
  rfl

/-- The documents are the first ones of `push`, and the routing is what it looks up. -/
structure Follows (str : Strings) (zones : SendingZones) (optionsDefaultZone : String)
    (envelope : Envelope) (pushed : List Recipient) (s : Push ε) : Prop where
  kept : s.envelope = envelope
  zone : s.zone = MailQueue.zone str zones envelope
  documents : s.documents = pushed.take s.documents.length
  routing : ∀ domain routing, s.phase = .hooks domain routing →
    routing.deliveryZone =
      MailQueue.deliveryZone str zones optionsDefaultZone envelope routing.recipient

theorem Follows.processRecipients (h : Follows str zones optionsDefaultZone envelope pushed s) :
    Follows str zones optionsDefaultZone envelope pushed
      (s.processRecipients str zones optionsDefaultZone) := by
  unfold Push.processRecipients
  split
  · exact { h with routing := fun _ _ hphase => nomatch hphase }
  · next recipient _ =>
    refine { h with routing := fun domain routing hphase => ?_ }
    obtain ⟨-, rfl⟩ := PushPhase.hooks.inj hphase
    show MailQueue.deliveryZone str zones optionsDefaultZone
      { s.envelope with sendingZone := s.zone } recipient = _
    rw [h.kept, h.zone, deliveryZone_zone]

theorem Follows.step {e : Event ε} (hinv : Inv id envelope.to es s)
    (h : Follows str zones optionsDefaultZone envelope pushed s)
    (hpush : push str zones optionsDefaultZone date _id envelope = .ok pushed)
    (he : Unchanged date _id s e) (hs : s.step str zones optionsDefaultZone newError e = some s') :
    Follows str zones optionsDefaultZone envelope pushed s' := by
  cases e with
  | immediate =>
    simp only [Push.step] at hs
    split at hs
    · exact Option.some.inj hs ▸ { h with routing := fun _ _ hphase => nomatch hphase }
    · exact Option.some.inj hs ▸ h.processRecipients
    · exact Option.some.inj hs ▸ { h with routing := fun _ _ hphase => nomatch hphase }
    · exact nomatch hs
  | insertMany err =>
    simp only [Push.step] at hs
    split at hs
    · exact Option.some.inj hs ▸ { h with routing := fun _ _ hphase => nomatch hphase }
    · exact nomatch hs
  | hooks err envelope' routing date' _id' =>
    -- with hooks that change nothing, the routing is still what was looked up
    obtain ⟨rfl, hrouting, rfl, rfl⟩ := he
    simp only [Push.step] at hs
    split at hs
    · exact Option.some.inj hs ▸ { h with routing := fun _ _ hphase => nomatch hphase }
    · next domain routing₀ hphase =>
      obtain rfl := hrouting domain routing₀ hphase
      have hhere := hinv.here
      rw [At, hphase] at hhere
      obtain ⟨-, -, -, -, hrecipient, rfl, -⟩ := hhere
      rw [hinv.recipients] at hrecipient
      have hseq := hinv.seq
      -- the next document of `push`
      have hnext : pushed[s.documents.length]? = some
          { _id := _id (s.seq + 1)
            index := s.seq + 1
            recipient := routing.recipient
            domain := recipientDomain routing.recipient
            sendingZone := routing.deliveryZone
            queued := if envelope.deferDelivery > date (s.seq + 1) then envelope.deferDelivery
              else date (s.seq + 1)
            created := date (s.seq + 1) } := by
        unfold push at hpush
        split at hpush
        · exact nomatch hpush
        · rw [← Except.ok.inj hpush, List.getElem?_mapIdx, hrecipient, hseq,
            h.routing _ _ hphase]
          rfl
      rw [← Option.some.inj hs]
      refine { h with documents := ?_, routing := fun _ _ hphase => nomatch hphase }
      show s.documents ++ [_] = pushed.take (s.documents ++ [_]).length
      rw [List.length_append, List.length_singleton, List.take_add_one, ← h.documents, hnext]
      simp only [h.kept, Option.toList_some]
    · exact nomatch hs

/-- With hooks that change nothing a call inserts what `push` without hooks does. -/
theorem inserted_eq_push (hpush : push str zones optionsDefaultZone date _id envelope = .ok pushed)
    (hes : Along (step str zones optionsDefaultZone newError) (Unchanged date _id)
      (start str zones optionsDefaultZone newError false id envelope) es)
    (hrun : run (step str zones optionsDefaultZone newError)
      (start str zones optionsDefaultZone newError false id envelope) es = some s)
    (hins : Inserts false envelope es) : s.inserted = [pushed] := by
  obtain ⟨-, hto, hnone, hlength⟩ := hins
  have hfollows : ∀ {t : Push ε} {es₁ es₂ : List (Event ε)}, es = es₁ ++ es₂ →
      run (step str zones optionsDefaultZone newError)
        (start str zones optionsDefaultZone newError false id envelope) es₁ = some t →
      Follows str zones optionsDefaultZone envelope pushed t := by
    intro t es₁
    induction es₁ using List.reverseRecOn generalizing t with
    | nil =>
      intro es₂ _ ht
      rw [← Option.some.inj ht]
      simp only [start, Bool.false_eq_true, ↓reduceIte, hto]
      refine Follows.processRecipients ⟨rfl, rfl, rfl, fun _ _ hphase => nomatch hphase⟩
    | append_singleton es₁ e ih =>
      intro es₂ hsplit ht
      obtain ⟨u, hu, ht⟩ := run_concat.mp ht
      rw [List.append_assoc] at hsplit
      rw [hsplit] at hes
      exact (ih hsplit hu).step (inv_run hto hu) hpush (hes.of_append hu).1 ht
  have h := inv_run hto hrun
  obtain ⟨hinserted, hall⟩ := h.inserted_eq_documents hnone hlength
  have hpushed : pushed.length = envelope.to.length := by
    unfold push at hpush
    rw [if_neg hto] at hpush
    rw [← Except.ok.inj hpush, List.length_mapIdx]
  have hdocuments := (hfollows (List.append_nil es).symm hrun).documents
  rw [hinserted, hdocuments, hall, h.recipients, ← hpushed, List.take_length]

end

end Push

end MailQueue

end ZoneMta
