import Mathlib
import ZoneMta.Native.LineEnds

/-!
# LineEnds correctness

The output of `LineEnds` is its input with a `\r` put before every `\n` that does not
follow one (`ensureCr`), for every way of cutting the input into chunks.

## Key results

- `LineEnds.transform_spec`: what one chunk pushes
- `LineEnds.run_pushed`: what the whole stream pushes
- `LineEnds.run_correct`: the same, byte by byte, with the counts and a second pass
- `lfPaired_run`: in the output every `\n` follows a `\r`
-/

namespace ZoneMta

open Ascii

/-! ## Putting the missing `\r` -/

/-- Put a `\r` before every `\n` that does not follow a `\r`; `prev` is the byte before. -/
def ensureCr : Option UInt8 → List UInt8 → List UInt8
  | _, [] => []
  | prev, c :: s => (if c = LF ∧ prev ≠ some CR then [CR, LF] else [c]) ++ ensureCr (some c) s

/-- Every `\n` follows a `\r`; `prev` is the byte before. -/
def LfPaired : Option UInt8 → List UInt8 → Prop
  | _, [] => True
  | prev, c :: s => (c = LF → prev = some CR) ∧ LfPaired (some c) s

theorem ensureCr_append (prev : Option UInt8) (xs ys : List UInt8) :
    ensureCr prev (xs ++ ys) = ensureCr prev xs ++ ensureCr (xs.getLast?.or prev) ys := by
  induction xs generalizing prev with
  | nil => rfl
  | cons c xs ih =>
    simp only [List.cons_append, ensureCr, ih, List.append_assoc]
    cases xs with
    | nil => rfl
    | cons d xs => simp [List.getLast?_cons]

theorem ensureCr_concat (prev : Option UInt8) (xs : List UInt8) (c : UInt8) :
    ensureCr prev (xs ++ [c]) = ensureCr prev xs ++
      (if c = LF ∧ xs.getLast?.or prev ≠ some CR then [CR, LF] else [c]) := by
  rw [ensureCr_append]
  simp only [ensureCr, List.append_nil]

/-- The byte `c` at position `i` of `b`, with a `\r` before it if it is a `\n` that does not follow
    one. -/
def withCr (b : List UInt8) (i : Nat) (c : UInt8) : List UInt8 :=
  if c = LF ∧ (i = 0 ∨ b[i - 1]? ≠ some CR) then [CR, c] else [c]

theorem ensureCr_eq_mapIdx (b : List UInt8) :
    ensureCr none b = (b.mapIdx (withCr b)).flatten := by
  induction b using List.reverseRecOn with
  | nil => rfl
  | append_singleton xs c ih =>
    -- the bytes of `xs` look back at bytes of `xs` only
    have hbefore : xs.mapIdx (withCr (xs ++ [c])) = xs.mapIdx (withCr xs) := by
      apply List.ext_getElem
      · simp
      · intro i hi _
        rw [List.length_mapIdx] at hi
        have hprev : (xs ++ [c])[i - 1]? = xs[i - 1]? :=
          List.getElem?_append_left (by omega)
        simp only [List.getElem_mapIdx, withCr, hprev]
    have hlast : (xs.length = 0 ∨ (xs ++ [c])[xs.length - 1]? ≠ some CR) ↔
        xs.getLast?.or none ≠ some CR := by
      rw [Option.or_none]
      cases xs with
      | nil => simp
      | cons d xs =>
        rw [List.getLast?_eq_getElem?, List.getElem?_append_left (by simp)]
        simp
    rw [ensureCr_concat, ih, List.mapIdx_concat, hbefore, List.flatten_append, List.flatten_singleton,
      withCr]
    simp only [hlast]
    by_cases hc : c = LF
    · simp only [hc]
    · simp only [hc, false_and, if_false]

/-- The last byte survives. -/
theorem getLast?_ensureCr (prev : Option UInt8) (s : List UInt8) :
    (ensureCr prev s).getLast? = s.getLast? := by
  induction s using List.reverseRecOn with
  | nil => rfl
  | append_singleton xs c _ =>
    rw [ensureCr_concat]
    split
    · next h => simp [h.1]
    · simp

theorem lfPaired_append {prev : Option UInt8} {xs ys : List UInt8} :
    LfPaired prev (xs ++ ys) ↔ LfPaired prev xs ∧ LfPaired (xs.getLast?.or prev) ys := by
  induction xs generalizing prev with
  | nil => simp [LfPaired]
  | cons c xs ih =>
    simp only [List.cons_append, LfPaired, ih, and_assoc]
    cases xs with
    | nil => rfl
    | cons d xs => simp [List.getLast?_cons]

theorem lfPaired_ensureCr (prev : Option UInt8) (s : List UInt8) :
    LfPaired prev (ensureCr prev s) := by
  induction s using List.reverseRecOn with
  | nil => exact trivial
  | append_singleton xs c ih =>
    rw [ensureCr_concat, lfPaired_append, getLast?_ensureCr]
    refine ⟨ih, ?_⟩
    split
    · -- the inserted `\r` is what the `\n` follows
      exact ⟨fun h => absurd h (by decide), fun _ => rfl, trivial⟩
    · next h =>
      refine ⟨fun hc => ?_, trivial⟩
      exact not_not.mp fun hp => h ⟨hc, hp⟩

/-- Nothing is missing in a text in which every `\n` follows a `\r`. -/
theorem ensureCr_of_lfPaired {prev : Option UInt8} {s : List UInt8} (h : LfPaired prev s) :
    ensureCr prev s = s := by
  induction s generalizing prev with
  | nil => rfl
  | cons c s ih =>
    rw [ensureCr, ih h.2, if_neg fun hc => hc.2 (h.1 hc.1)]
    rfl

/-! ## The loop of `_transform` -/

namespace LineEnds

theorem slice_concat {chunk : List UInt8} {i j : Nat} (hij : i ≤ j) (hj : j < chunk.length) :
    slice chunk i (j + 1) = slice chunk i j ++ [chunk[j]] := by
  have hlen : (chunk.take j).length = j := List.length_take_of_le (by omega)
  rw [slice, slice, List.take_succ_eq_append_getElem hj, List.drop_append, hlen,
    Nat.sub_eq_zero_of_le hij, List.drop_zero]

theorem slice_self (chunk : List UInt8) (i : Nat) : slice chunk i i = [] := by
  rw [slice, List.drop_eq_nil_iff]
  exact List.length_take_le i chunk

theorem slice_zero (chunk : List UInt8) (j : Nat) : slice chunk 0 j = chunk.take j := by
  rw [slice, List.drop_zero]

/-- Invariant of the loop before round `i`: the pieces pushed so far and the piece that
    is still open spell `ensureCr` of the bytes looked at. -/
structure LoopInv (chunk : List UInt8) (prev : Option UInt8) (i : Nat) (v : Pieces) : Prop where
  spelled : v.chunks.flatten ++ slice chunk v.lastPos i = ensureCr prev (chunk.take i)
  chunklen : v.chunklen = v.chunks.flatten.length
  lastPos_le : v.lastPos ≤ i
  untouched : v.chunklen = 0 → v.chunks = [] ∧ v.lastPos = 0

/-- The byte before position `i`. -/
theorem getLast?_take_or {chunk : List UInt8} (prev : Option UInt8) {i : Nat}
    (hi : i ≤ chunk.length) :
    (chunk.take i).getLast?.or prev = if i = 0 then prev else chunk[i - 1]? := by
  cases i with
  | zero => rfl
  | succ i =>
    have hi' : i < chunk.length := by omega
    rw [List.take_succ_eq_append_getElem hi', List.getLast?_concat]
    simp [List.getElem?_eq_getElem hi']

theorem loopInv_step {chunk : List UInt8} {prev : Option UInt8} {i : Nat} {v : Pieces}
    (hi : i < chunk.length) (h : LoopInv chunk prev i v) :
    LoopInv chunk prev (i + 1) (transformLoop chunk prev v i) := by
  have htake : chunk.take (i + 1) = chunk.take i ++ [chunk[i]] :=
    List.take_succ_eq_append_getElem hi
  have hprev := getLast?_take_or prev (Nat.le_of_lt hi)
  have hslice := slice_concat h.lastPos_le hi
  -- the test of the source and the test of `ensureCr` are the same
  have htest : (i ≠ 0 ∧ chunk[i - 1]? ≠ some CR ∨ i = 0 ∧ prev ≠ some CR) ↔
      (chunk.take i).getLast?.or prev ≠ some CR := by
    rw [hprev]; split <;> simp [*]
  unfold transformLoop
  simp only [List.getElem?_eq_getElem hi, Option.some.injEq]
  split
  · next hlf =>
    simp only [htest]
    split
    · next hcr =>
      have hens : ensureCr prev (chunk.take (i + 1)) =
          ensureCr prev (chunk.take i) ++ [CR, LF] := by
        rw [htake, ensureCr_concat, if_pos ⟨hlf, hcr⟩]
      split
      · refine ⟨?_, ?_, Nat.le_refl _, fun h0 => ?_⟩
        -- the bytes since the last `\r` that was put are pushed first, if there are any
        · simp only [slice_self, hens, ← h.spelled, List.flatten_append, List.flatten_cons,
            List.flatten_nil, List.append_nil, List.append_assoc]
        · simp only [h.chunklen, List.flatten_append, List.flatten_cons, List.flatten_nil,
            List.append_nil, List.length_append, List.length_cons, List.length_nil]
          omega
        · simp only at h0; omega
      · next hpos =>
        have hempty : slice chunk v.lastPos i = [] := by
          rw [Nat.le_antisymm h.lastPos_le (Nat.le_of_not_gt hpos), slice_self]
        refine ⟨?_, ?_, Nat.le_refl _, fun h0 => ?_⟩
        · simp only [slice_self, hens, ← h.spelled, hempty, List.flatten_append,
            List.flatten_cons, List.flatten_nil, List.append_nil]
        · simp only [h.chunklen, List.flatten_append, List.flatten_cons, List.flatten_nil,
            List.append_nil, List.length_append, List.length_cons, List.length_nil]
        · simp only at h0; omega
    · next hcr =>
      -- the `\r` is there already, and the open piece goes on
      refine ⟨?_, h.chunklen, Nat.le_succ_of_le h.lastPos_le, h.untouched⟩
      rw [htake, ensureCr_concat, if_neg (fun hc => hcr hc.2), hslice, ← h.spelled,
        List.append_assoc]
  · next hlf =>
    refine ⟨?_, h.chunklen, Nat.le_succ_of_le h.lastPos_le, h.untouched⟩
    rw [htake, ensureCr_concat, if_neg (fun hc => hlf hc.1), hslice, ← h.spelled,
      List.append_assoc]

/-- The invariant after the first `n` rounds. -/
theorem loopInv_range (chunk : List UInt8) (prev : Option UInt8) (n : Nat)
    (hn : n ≤ chunk.length) :
    LoopInv chunk prev n ((List.range n).foldl (transformLoop chunk prev) ⟨[], 0, 0⟩) := by
  induction n with
  | zero => exact ⟨by simp [slice, ensureCr], rfl, Nat.le_refl _, fun _ => ⟨rfl, rfl⟩⟩
  | succ n ih =>
    rw [List.range_succ, List.foldl_append]
    exact loopInv_step hn (ih (by omega))

/-! ## `_transform` and the whole stream -/

/-- What `_transform` does with one chunk. -/
theorem transform_spec (s : LineEnds) (chunk : List UInt8) :
    (transform s chunk).2.flatten = ensureCr s.lastByte chunk ∧
    (transform s chunk).1 =
      { inByteCount := s.inByteCount + chunk.length
        outByteCount := s.outByteCount + (ensureCr s.lastByte chunk).length
        lastByte := chunk.getLast?.or s.lastByte } := by
  unfold transform
  split
  · next h0 =>
    obtain rfl : chunk = [] := List.length_eq_zero_iff.mp h0
    exact ⟨rfl, rfl⟩
  · next h0 =>
    have hinv := loopInv_range chunk s.lastByte chunk.length (Nat.le_refl _)
    generalize (List.range chunk.length).foldl (transformLoop chunk s.lastByte) ⟨[], 0, 0⟩ = v
      at hinv ⊢
    have hspelled := hinv.spelled
    rw [List.take_length] at hspelled
    have hlast : chunk[chunk.length - 1]? = chunk.getLast?.or s.lastByte := by
      rw [← List.getLast?_eq_getElem?, List.getLast?_eq_some_getLast (by simpa using h0)]; rfl
    simp only
    split
    · -- at least one `\r` was put: the pieces are concatenated
      split
      · have hall : (v.chunks ++ [slice chunk v.lastPos chunk.length]).flatten =
            ensureCr s.lastByte chunk := by
          simpa only [List.flatten_append, List.flatten_cons, List.flatten_nil, List.append_nil]
            using hspelled
        have hlen : v.chunklen + (slice chunk v.lastPos chunk.length).length =
            (v.chunks ++ [slice chunk v.lastPos chunk.length]).flatten.length := by
          simp [hinv.chunklen]
        rw [hlen, bufferConcat_length, hall, hlast]
        exact ⟨by simp, rfl⟩
      · next hpos =>
        have hempty : slice chunk v.lastPos chunk.length = [] := by
          rw [Nat.le_antisymm hinv.lastPos_le (Nat.le_of_not_gt hpos), slice_self]
        rw [hempty, List.append_nil] at hspelled
        rw [hinv.chunklen, bufferConcat_length, hspelled, hlast]
        exact ⟨by simp, rfl⟩
    · next hzero =>
      -- nothing was put, and the chunk is pushed as it came
      obtain ⟨hchunks, hpos⟩ := hinv.untouched (not_not.mp hzero)
      rw [hchunks, hpos, slice_zero, List.take_length] at hspelled
      rw [← hspelled, hlast]
      exact ⟨by simp, by simp⟩

/-- What the stream has pushed and counted after the bytes `xs`. -/
theorem run_spec (cs : List (List UInt8)) :
    (run cs).2.flatten = ensureCr none cs.flatten ∧
    (run cs).1 =
      { inByteCount := cs.flatten.length
        outByteCount := (ensureCr none cs.flatten).length
        lastByte := cs.flatten.getLast? } := by
  have h := ForStd.runStream_invariant (f := transform)
    (I := fun xs ys s => ys = ensureCr none xs ∧
      s = { inByteCount := xs.length
            outByteCount := (ensureCr none xs).length
            lastByte := xs.getLast? })
    (fun xs ys s c => by
      rintro ⟨rfl, rfl⟩
      obtain ⟨hpush, hstate⟩ := transform_spec
        { inByteCount := xs.length
          outByteCount := (ensureCr none xs).length
          lastByte := xs.getLast? } c
      have happ := ensureCr_append none xs c
      rw [Option.or_none] at happ
      refine ⟨by rw [hpush, happ], ?_⟩
      rw [hstate, happ, List.length_append, List.length_append, List.getLast?_append])
    [] [] init ⟨rfl, rfl⟩ cs
  exact h

/-- The output does not depend on how the input was cut. -/
theorem run_pushed (cs : List (List UInt8)) :
    (run cs).2.flatten = ensureCr none cs.flatten :=
  (run_spec cs).1

/-- The output is the input with a `\r` before every `\n` that does not follow one, the counts are
    the lengths of the two, and the output comes through unchanged. -/
theorem run_correct (cs : List (List UInt8)) :
    (run cs).2.flatten = (cs.flatten.mapIdx (withCr cs.flatten)).flatten ∧
      (run cs).1.inByteCount = cs.flatten.length ∧
      (run cs).1.outByteCount = (run cs).2.flatten.length ∧
      ∀ cs', cs'.flatten = (run cs).2.flatten → (run cs').2.flatten = cs'.flatten := by
  obtain ⟨hpushed, hcounted⟩ := run_spec cs
  refine ⟨?_, ?_, ?_, fun cs' hcs' => ?_⟩
  · rw [hpushed, ensureCr_eq_mapIdx]
  · rw [hcounted]
  · rw [hcounted, hpushed]
  · rw [run_pushed, hcs']
    exact ensureCr_of_lfPaired (hpushed ▸ lfPaired_ensureCr none cs.flatten)

theorem run_bareLf : (run (run [[CR], [LF, LF], [CR]]).2).2.flatten = [CR, LF, CR, LF, CR] :=
  ((run_correct [[CR], [LF, LF], [CR]]).2.2.2 _ rfl).trans (by decide +kernel)

end LineEnds

/-- In the output of the stream every `\n` follows a `\r`. -/
theorem lfPaired_run (cs : List (List UInt8)) : LfPaired none (LineEnds.run cs).2.flatten := by
  rw [LineEnds.run_pushed]
  exact lfPaired_ensureCr none cs.flatten

end ZoneMta
