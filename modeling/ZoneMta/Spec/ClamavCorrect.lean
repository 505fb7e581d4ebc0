import ZoneMta.ForStd.Transition
import ZoneMta.Native.Clamav

/-!
# ClamAV: correctness

The hook copies the message to both of its streams in every order of events. When the source ends
while a 'drain' is awaited, `readNext` is left to finish, and ends only one of the two.

## Key results

- `Goes`, `step_goes`: all that one step can do
- `base_run`: all chunks are written to both streams, once and in their order
- `delivered_iff`: when no 'drain' is awaited any more, the message is complete exactly if the
  source did not end while one was
-/

namespace ZoneMta

open ForStd (run Along)

namespace Clamav

variable {Chunk : Type}

namespace State

/-- A 'drain' is awaited. -/
def awaiting (s : State Chunk) : Bool := s.drainClam || s.drainDestination

/-- What was read was written to both streams, and none of them has ended before the source. -/
structure Copied (s : State Chunk) : Prop where
  clamStream : s.clamStream.written ++ s.source = s.produced
  destination : s.destination.written ++ s.source = s.produced
  early : s.clamStream.ended = true ∨ s.destination.ended = true → s.finished = true

/-- Both streams get all chunks, and end once the source has ended and no 'drain' is awaited. -/
structure Delivered (s : State Chunk) : Prop extends Copied s where
  ended : s.finished = true → s.awaiting = false →
    s.clamStream.ended = true ∧ s.destination.ended = true

/-- What holds in every run. -/
structure Base (s : State Chunk) : Prop extends Copied s where
  reading : s.reading = s.awaiting
  empty : s.finished = true → s.source = []

/-- Both streams have ended with the source. -/
def Complete (s : State Chunk) : Prop :=
  s.finished = true → s.reading = false ∧ s.clamStream.ended = true ∧ s.destination.ended = true

/-- The source does not end while chunks are written. -/
def Sound (s : State Chunk) : Event Chunk → Prop
  | .sourceEnd => s.reading = false
  | .data _ | .readable | .clamDrain | .destinationDrain => True

/-- The source has ended, and the destination was forgotten. -/
def Forgotten (s : State Chunk) : Prop := s.finished = true ∧ s.destination.ended = false

end State

open State

section Hook

variable (pressure : Nat → Bool × Bool)

/-! ## Reading -/

/-- What does not change while chunks are read. -/
theorem readNext_same (s : State Chunk) (chunks : List Chunk) :
    (readNext pressure s chunks).finished = s.finished ∧
      (readNext pressure s chunks).produced = s.produced ∧
      (readNext pressure s chunks).destination.ended = s.destination.ended := by
  induction chunks generalizing s with
  | nil => exact ⟨rfl, rfl, rfl⟩
  | cons chunk chunks ih =>
    simp only [readNext]
    split
    · exact ih _
    · exact ⟨rfl, rfl, rfl⟩

/-- Reading goes on until there is nothing left, or a 'drain' is awaited. -/
theorem base_readNext {s : State Chunk} {chunks : List Chunk} (h : s.Copied)
    (hchunks : s.source = chunks) (hempty : s.finished = true → chunks = [])
    (hreading : s.reading = true) (hawaiting : s.awaiting = false) :
    (readNext pressure s chunks).Base := by
  induction chunks generalizing s with
  | nil =>
    refine ⟨⟨?_, h.destination, ?_⟩, hawaiting.symm, fun _ => hchunks⟩
    · simp only [readNext]
      split
      · exact h.clamStream
      · exact h.clamStream
    · simp only [readNext]
      split
      · next hfinished => exact fun _ => hfinished
      · exact h.early
  | cons chunk chunks ih =>
    have hfinished : s.finished = false := by
      cases hfinished : s.finished with
      -- a source that has ended has nothing to be read
      | true => exact absurd (hempty hfinished) (List.cons_ne_nil chunk chunks)
      | false => rfl
    have hcopied (drainClam drainDestination : Bool) : ({ s with
        source := chunks, clamStream := s.clamStream.write chunk,
        destination := s.destination.write chunk, drainClam, drainDestination } :
          State Chunk).Copied := by
      refine ⟨?_, ?_, h.early⟩
      · have hsame := h.clamStream
        rw [hchunks] at hsame
        simpa [Writable.write] using hsame
      · have hsame := h.destination
        rw [hchunks] at hsame
        simpa [Writable.write] using hsame
    simp only [readNext]
    split
    · next hdrain =>
      -- no 'drain' is awaited, so the next chunk is read
      apply ih (hcopied _ _) rfl _ hreading
      · simpa [awaiting] using hdrain
      · intro hf
        exact absurd (hfinished.symm.trans hf) Bool.noConfusion
    · next hdrain =>
      -- the handlers of 'drain' go on with the reading
      refine ⟨hcopied _ _, ?_, ?_⟩
      · simp only [awaiting]
        rw [hreading]
        revert hdrain
        cases (pressure s.clamStream.written.length).1 <;>
          cases (pressure s.clamStream.written.length).2 <;> simp
      · intro hf
        exact absurd (hfinished.symm.trans hf) Bool.noConfusion

theorem base_canContinue {s : State Chunk} (h : s.Copied)
    (hempty : s.finished = true → s.source = []) (hreading : s.reading = true) :
    (canContinue pressure s).Base := by
  unfold canContinue
  split
  · next hdrain =>
    apply base_readNext pressure h rfl hempty hreading
    simpa [awaiting] using hdrain
  · next hdrain =>
    refine ⟨h, ?_, hempty⟩
    rw [hreading]
    simp only [awaiting]
    revert hdrain
    cases s.drainClam <;> cases s.drainDestination <;> simp

theorem canContinue_same (s : State Chunk) :
    (canContinue pressure s).finished = s.finished ∧
      (canContinue pressure s).destination.ended = s.destination.ended := by
  unfold canContinue
  split
  · have hsame := readNext_same pressure s s.source
    exact ⟨hsame.1, hsame.2.2⟩
  · exact ⟨rfl, rfl⟩

/-! ## What one step does -/

/-- All that one step can do. -/
inductive Goes (s : State Chunk) : Event Chunk → State Chunk → Prop where
  | data {chunk : Chunk} (h : s.finished = false) :
      Goes s (.data chunk)
        { s with produced := s.produced ++ [chunk], source := s.source ++ [chunk] }
  | readable (h : s.reading = true) : Goes s .readable s
  | read (h : s.reading = false) :
      Goes s .readable (readNext pressure { s with reading := true } s.source)
  | sourceEnd (h : s.finished = false) (hempty : s.source = []) (hreading : s.reading = false) :
      Goes s .sourceEnd { s with
        finished := true, clamStream := s.clamStream.close, destination := s.destination.close }
  /-- `readNext` is left to end the streams -/
  | left (h : s.finished = false) (hempty : s.source = []) (hreading : s.reading = true) :
      Goes s .sourceEnd { s with finished := true }
  | clamDrain (h : s.drainClam = true) :
      Goes s .clamDrain (canContinue pressure { s with drainClam := false })
  | destinationDrain (h : s.drainDestination = true) :
      Goes s .destinationDrain (canContinue pressure { s with drainDestination := false })

theorem step_goes {s s' : State Chunk} {e : Event Chunk} (hstep : step pressure s e = some s') :
    Goes pressure s e s' := by
  cases e with
  | data chunk =>
    simp only [step] at hstep
    split at hstep
    · cases hstep
    · next hfinished =>
      obtain rfl := Option.some.inj hstep
      exact .data (by simpa using hfinished)
  | readable =>
    obtain rfl := Option.some.inj hstep
    split
    · next hreading => exact .readable hreading
    · next hreading => exact .read (by simpa using hreading)
  | sourceEnd =>
    simp only [step] at hstep
    split at hstep
    · cases hstep
    · next hguard =>
      obtain rfl := Option.some.inj hstep
      -- 'end' comes when everything is read
      have hguard : s.finished = false ∧ s.source = [] := by simpa using hguard
      split
      · next hreading => exact .left hguard.1 hguard.2 hreading
      · next hreading => exact .sourceEnd hguard.1 hguard.2 (by simpa using hreading)
  | clamDrain =>
    simp only [step] at hstep
    split at hstep
    · next hdrain =>
      obtain rfl := Option.some.inj hstep
      exact .clamDrain hdrain
    · cases hstep
  | destinationDrain =>
    simp only [step] at hstep
    split at hstep
    · next hdrain =>
      obtain rfl := Option.some.inj hstep
      exact .destinationDrain hdrain
    · cases hstep

/-! ## What one step keeps -/

theorem base_step {s s' : State Chunk} {e : Event Chunk} (h : s.Base)
    (hgoes : Goes pressure s e s') : s'.Base := by
  cases hgoes with
  | data hfinished =>
    refine ⟨⟨?_, ?_, h.early⟩, h.reading, fun hf => absurd hf (ne_true_of_eq_false hfinished)⟩
    · rw [← h.clamStream, List.append_assoc]
    · rw [← h.destination, List.append_assoc]
  | readable _ => exact h
  | read hreading =>
    have hawaiting : s.awaiting = false := h.reading ▸ hreading
    exact base_readNext pressure ⟨h.clamStream, h.destination, h.early⟩ rfl h.empty rfl hawaiting
  | sourceEnd _ hempty _ =>
    exact ⟨⟨h.clamStream, h.destination, fun _ => rfl⟩, h.reading, fun _ => hempty⟩
  | left _ hempty _ =>
    exact ⟨⟨h.clamStream, h.destination, fun _ => rfl⟩, h.reading, fun _ => hempty⟩
  | clamDrain hdrain =>
    have hreading : s.reading = true := by rw [h.reading, awaiting, hdrain, Bool.true_or]
    exact base_canContinue pressure ⟨h.clamStream, h.destination, h.early⟩ h.empty hreading
  | destinationDrain hdrain =>
    have hreading : s.reading = true := by rw [h.reading, awaiting, hdrain, Bool.or_true]
    exact base_canContinue pressure ⟨h.clamStream, h.destination, h.early⟩ h.empty hreading

theorem base_init : ({} : State Chunk).Base :=
  ⟨⟨rfl, rfl, fun h => by simp at h⟩, rfl, fun _ => rfl⟩

/-- In every run what was read is in both streams. -/
theorem base_run {es : List (Event Chunk)} {s : State Chunk}
    (hrun : run (step pressure) {} es = some s) : s.Base :=
  ForStd.run_invariant (fun _ _ _ h hstep => base_step pressure h (step_goes pressure hstep))
    base_init hrun

/-- Behind the end of the source no 'drain' is awaited, and there is nothing to be read. -/
theorem complete_step {s s' : State Chunk} {e : Event Chunk} (hbase : s.Base) (h : s.Complete)
    (hsound : Sound s e) (hgoes : Goes pressure s e s') : s'.Complete := by
  have hidle (hfinished : s.finished = true) : s.awaiting = false :=
    hbase.reading ▸ (h hfinished).1
  cases hgoes with
  | data _ => exact h
  | readable _ => exact h
  | read _ =>
    intro hfinished
    rw [(readNext_same pressure _ _).1] at hfinished
    -- there is nothing to be read, and ClamAV's stream is ended once more
    rw [hbase.empty hfinished]
    simp only [readNext]
    rw [if_pos hfinished]
    exact ⟨trivial, rfl, (h hfinished).2.2⟩
  | sourceEnd _ _ hreading => exact fun _ => ⟨hreading, rfl, rfl⟩
  | left _ _ hreading => exact absurd hreading (ne_true_of_eq_false hsound)
  | clamDrain hdrain =>
    intro hfinished
    rw [(canContinue_same pressure _).1] at hfinished
    have hnone := (Bool.or_eq_false_iff.mp (hidle hfinished)).1
    exact absurd hdrain (ne_true_of_eq_false hnone)
  | destinationDrain hdrain =>
    intro hfinished
    rw [(canContinue_same pressure _).1] at hfinished
    have hnone := (Bool.or_eq_false_iff.mp (hidle hfinished)).2
    exact absurd hdrain (ne_true_of_eq_false hnone)

theorem forgotten_of_not_sound {s s' : State Chunk} {e : Event Chunk} (hbase : s.Base)
    (hsound : ¬Sound s e) (hgoes : Goes pressure s e s') : s'.Forgotten := by
  cases hgoes with
  | sourceEnd _ _ hreading => exact absurd hreading hsound
  | left hfinished _ _ =>
    refine ⟨rfl, ?_⟩
    -- what has not ended before the source stays open
    cases hended : s.destination.ended with
    | true => exact absurd (hbase.early (.inr hended)) (ne_true_of_eq_false hfinished)
    | false => rfl
  | _ => exact absurd trivial hsound

theorem forgotten_step {s s' : State Chunk} {e : Event Chunk} (h : s.Forgotten)
    (hgoes : Goes pressure s e s') : s'.Forgotten := by
  have hkeep {t : State Chunk} (ht : t.finished = s.finished)
      (ht' : t.destination.ended = s.destination.ended) : t.Forgotten :=
    ⟨ht.trans h.1, ht'.trans h.2⟩
  cases hgoes with
  | data _ => exact h
  | readable _ => exact h
  | read _ =>
    have hsame := readNext_same pressure { s with reading := true } s.source
    exact hkeep hsame.1 hsame.2.2
  | sourceEnd hfinished _ _ => exact absurd h.1 (ne_true_of_eq_false hfinished)
  | left hfinished _ _ => exact absurd h.1 (ne_true_of_eq_false hfinished)
  | clamDrain _ =>
    have hsame := canContinue_same pressure { s with drainClam := false }
    exact hkeep hsame.1 hsame.2
  | destinationDrain _ =>
    have hsame := canContinue_same pressure { s with drainDestination := false }
    exact hkeep hsame.1 hsame.2

/-- When all 'drain' events have arrived, the message is complete exactly if the source did not end
while one of them was awaited. -/
theorem delivered_iff {es : List (Event Chunk)} {s : State Chunk}
    (hrun : run (step pressure) {} es = some s) :
    s.Delivered ↔ (s.awaiting = false → Along (step pressure) Sound {} es) := by
  have hbase := base_run pressure hrun
  constructor
  · intro h hawaiting
    by_contra hsound
    -- the destination is open, and nothing ends it behind the end of the source
    have hforgotten : s.Forgotten := ForStd.run_of_not_along
      (fun _ _ _ h hstep => base_step pressure h (step_goes pressure hstep))
      (fun _ _ _ h hsound hstep =>
        forgotten_of_not_sound pressure h hsound (step_goes pressure hstep))
      (fun _ _ _ _ h hstep => forgotten_step pressure h (step_goes pressure hstep))
      base_init hsound hrun
    have hended := (h.ended hforgotten.1 hawaiting).2
    exact absurd hended (ne_true_of_eq_false hforgotten.2)
  · intro h
    refine ⟨hbase.toCopied, fun hfinished hawaiting => ?_⟩
    have hkeep (s : State Chunk) (e : Event Chunk) (s' : State Chunk) (h : s.Base ∧ s.Complete)
        (hsound : Sound s e) (hstep : step pressure s e = some s') : s'.Base ∧ s'.Complete := by
      have hgoes := step_goes pressure hstep
      exact ⟨base_step pressure h.1 hgoes, complete_step pressure h.1 h.2 hsound hgoes⟩
    have hinit : ({} : State Chunk).Complete := fun h => absurd h Bool.false_ne_true
    have hcomplete := ForStd.run_invariant_along hkeep ⟨base_init, hinit⟩ (h hawaiting) hrun
    exact (hcomplete.2 hfinished).2

end Hook

/-! ## A destination that is full -/

/-- The destination asks for a 'drain' after each chunk. -/
def slowDestination (_ : Nat) : Bool × Bool := (false, true)

/-- The source ends once the destination has drained. -/
def drainedFirst : List (Event (List UInt8)) :=
  [.data [72, 105], .readable, .destinationDrain, .sourceEnd]

theorem delivered_drainedFirst :
    ∃ s, run (step slowDestination) {} drainedFirst = some s ∧
      (s.Delivered ↔
        (s.awaiting = false → Along (step slowDestination) Sound {} drainedFirst)) :=
  ⟨_, rfl, delivered_iff slowDestination rfl⟩

/-- The source ends while the destination is full: the destination is never ended. -/
theorem not_delivered :
    ∃ s, run (step slowDestination) {}
        [.data ([72, 105] : List UInt8), .readable, .sourceEnd, .destinationDrain] = some s ∧
      s.finished = true ∧ s.awaiting = false ∧ s.clamStream.ended = true ∧
      s.destination.ended = false ∧ ¬s.Delivered := by
  refine ⟨_, rfl, rfl, rfl, rfl, rfl, fun h => ?_⟩
  exact absurd (h.ended rfl rfl).2 Bool.false_ne_true

end Clamav

end ZoneMta
