import Mathlib

/-!
# Length-prefixed framing

A stream of frames, each a header that spells the length of the payload followed by the
payload. `complete` lists the payloads that a prefix of the stream contains in full.

## Key results

- `prefix_split`: taking a known piece off a prefix of a stream
- `complete_append`: the frames in front are complete
- `complete_eq_nil`: a prefix that ends inside the first frame
-/

namespace ForStd

variable {α : Type*}

/-- The stream of the payloads. -/
def frames (header : Nat → List α) (ps : List (List α)) : List α :=
  ps.flatMap fun p => header p.length ++ p

/-- The payloads that are complete in the first `n` symbols of the stream. -/
def complete (header : Nat → List α) : List (List α) → Nat → List (List α)
  | [], _ => []
  | p :: ps, n =>
    if (header p.length ++ p).length ≤ n then
      p :: complete header ps (n - (header p.length ++ p).length)
    else []

variable {header : Nat → List α}

@[simp] theorem frames_nil : frames header [] = [] := rfl

theorem frames_cons (p : List α) (ps : List (List α)) :
    frames header (p :: ps) = header p.length ++ (p ++ frames header ps) := by
  rw [frames, List.flatMap_cons, List.append_assoc]
  rfl

theorem frames_append (ps qs : List (List α)) :
    frames header (ps ++ qs) = frames header ps ++ frames header qs :=
  List.flatMap_append

/-- A piece `h` at the head of a stream is at the head of each of its long enough prefixes. -/
theorem prefix_split {c u h s : List α} (hpre : c ++ u <+: h ++ s) (hlen : h.length ≤ c.length) :
    ∃ c', c = h ++ c' ∧ c' ++ u <+: s := by
  have hh : h <+: c ++ u := List.prefix_of_prefix_length_le (List.prefix_append h s) hpre
    (by rw [List.length_append]; omega)
  have hc : h <+: c := List.prefix_of_prefix_length_le hh (List.prefix_append c u) hlen
  obtain ⟨c', rfl⟩ := hc
  rw [List.append_assoc, List.prefix_append_right_inj] at hpre
  exact ⟨c', rfl, hpre⟩

/-- The frames in front of the stream are complete. -/
theorem complete_append (ps qs : List (List α)) (n : Nat) :
    complete header (ps ++ qs) ((frames header ps).length + n) =
      ps ++ complete header qs n := by
  induction ps with
  | nil => rw [frames_nil, List.length_nil, Nat.zero_add]; rfl
  | cons p ps ih =>
    have hlen : (frames header (p :: ps)).length =
        (header p.length ++ p).length + (frames header ps).length := by
      rw [frames_cons, ← List.append_assoc, List.length_append]
    rw [hlen, Nat.add_assoc, List.cons_append, complete, if_pos (Nat.le_add_right _ _),
      Nat.add_sub_cancel_left, ih]
    rfl

/-- No frame is complete in a prefix that ends inside the first one. -/
theorem complete_eq_nil {ps : List (List α)} {n : Nat}
    (h : ∀ p qs, ps = p :: qs → n < (header p.length ++ p).length) :
    complete header ps n = [] := by
  cases ps with
  | nil => rfl
  | cons p ps => rw [complete, if_neg (Nat.not_le.mpr (h p ps rfl))]

/-- All frames are complete in the whole stream. -/
theorem complete_length (ps : List (List α)) :
    complete header ps (frames header ps).length = ps := by
  have h : complete header (ps ++ []) ((frames header ps).length + 0) =
      ps ++ complete header [] 0 := complete_append ps [] 0
  rwa [List.append_nil, complete, List.append_nil, Nat.add_zero] at h

end ForStd
