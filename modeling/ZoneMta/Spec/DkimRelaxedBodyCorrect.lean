import ZoneMta.ForStd.List
import ZoneMta.Spec.FixBody

/-!
# DkimRelaxedBody on a whole stream

`updateHash` carries a remainder from chunk to chunk: the white space and line ends at
the end of what it has seen. `Settled` says where such a remainder may start, and the
invariant `Inv` that the bytes before it have been hashed with all replacements made.
At the end the bytes before the remainder are the same for every way of cutting the
stream, up to white space that is trimmed away (`fixBody_bodyPart`), so the hash input
depends on the stream alone.

## Key results

- `scan_spec`: how the backward scan splits a chunk
- `inv_transform`: one chunk keeps the invariant
- `run_eq`: what the stream produces, as a function of its bytes
-/

namespace ZoneMta

namespace DkimRelaxedBody

open Ascii

/-! ## The backward scan -/

/-- The condition under which a chunk of line ends, or of white space `w` and line ends,
    joins the remainder. -/
def Joins (remainder w : List UInt8) : Prop :=
  (w = [] ∧ (remainder = [] ∨ endsEol remainder = true)) ∨
    (w ≠ [] ∧ (remainder = [] ∨ endsWsp remainder = true))

instance (remainder w : List UInt8) : Decidable (Joins remainder w) :=
  inferInstanceAs (Decidable (_ ∨ _))

/-- What the scan of `b ++ (w ++ e)` returns, for the longest line ends `e` and the
    longest white space `w` before them. -/
def scanResult (remainder b w e : List UInt8) : Scan :=
  if b ≠ [] then .split (some b) (w ++ e)
  else if Joins remainder w then .keep
  else .split none (w ++ e)

theorem getD_length_append (p t : List UInt8) (x d : UInt8) :
    (p ++ [x] ++ t).getD p.length d = x := by
  simp

/-- The cut behind the byte the scan stops at. -/
theorem split_length_succ (p t : List UInt8) (x : UInt8) :
    Scan.split (some ((p ++ [x] ++ t).take (p.length + 1))) ((p ++ [x] ++ t).drop (p.length + 1)) =
      Scan.split (some (p ++ [x])) t := by
  have hlen : p.length + 1 = (p ++ [x]).length := by simp
  rw [hlen, List.take_left, List.drop_left]

/-- The scan once it is past the line ends and the last white space. -/
theorem scan_line (r p w e : List UInt8) (hw : w ≠ []) (hwsp : ∀ c ∈ w, isWsp c = true) :
    p ≠ [] → ∃ b w', p = b ++ w' ∧ (∀ c ∈ w', isWsp c = true) ∧ endsWsp b = false ∧
      scan r (p ++ (w ++ e)) .line p.length = scanResult r b (w' ++ w) e := by
  induction p using List.reverseRecOn generalizing w with
  | nil => exact fun h => absurd rfl h
  | append_singleton p x ih =>
    intro _
    have hget : (p ++ [x] ++ (w ++ e)).getD p.length 0 = x := getD_length_append p _ x 0
    have hlen : (p ++ [x]).length = p.length + 1 := by simp
    rw [hlen, scan, hget]
    by_cases hx : isWsp x = true
    · have hstate : scanByte .line x = .line := by simp [scanByte, hx]
      rw [hstate]
      by_cases hp : p = []
      · subst hp
        refine ⟨[], [x], rfl, by simpa using hx, rfl, ?_⟩
        by_cases hj : r = [] ∨ endsWsp r = true <;> simp [scanResult, Joins, hj]
      · obtain ⟨b, w', hb, hw', hend, hscan⟩ := ih (x :: w) (by simp)
          (List.forall_mem_cons.mpr ⟨hx, hwsp⟩) hp
        have hp0 : ¬p.length = 0 := by simpa using hp
        refine ⟨b, w' ++ [x], by rw [hb, List.append_assoc], ?_, hend, ?_⟩
        · exact List.forall_mem_append.mpr ⟨hw', by simpa using hx⟩
        · simpa [hp0] using hscan
    · -- the byte before the white space: the chunk is split after it
      have hstate : scanByte .line x = .body := by simp [scanByte, hx]
      have hwlen := List.length_pos_iff.mpr hw
      refine ⟨p ++ [x], [], by simp, by simp, by simpa using hx, ?_⟩
      have hlast : ¬(ScanState.body = .body ∧ p.length = (p ++ [x] ++ (w ++ e)).length - 1) := by
        simp only [List.length_append, List.length_cons, List.length_nil]
        omega
      rw [hstate, if_neg hlast, if_neg (by simp), if_neg (by simp), if_neg (by simp),
        split_length_succ]
      simp [scanResult]

/-- The scan while it has seen line ends only. -/
theorem scan_file (r p e : List UInt8) (hne : p ++ e ≠ []) (heol : ∀ c ∈ e, isEol c = true) :
    p ≠ [] → ∃ b w e', p ++ e = b ++ (w ++ e') ∧ (∀ c ∈ w, isWsp c = true) ∧
      (∀ c ∈ e', isEol c = true) ∧ endsWsp b = false ∧ (w = [] → endsEol b = false) ∧
      scan r (p ++ e) .file p.length = scanResult r b w e' := by
  induction p using List.reverseRecOn generalizing e with
  | nil => exact fun h => absurd rfl h
  | append_singleton p x ih =>
    intro _
    have hget : (p ++ [x] ++ e).getD p.length 0 = x := getD_length_append p _ x 0
    have hlen : (p ++ [x]).length = p.length + 1 := by simp
    rw [hlen, scan, hget]
    by_cases hx : isEol x = true
    · have hstate : scanByte .file x = .file := by simp [scanByte, hx]
      rw [hstate]
      by_cases hp : p = []
      · subst hp
        refine ⟨[], [], x :: e, rfl, by simp, List.forall_mem_cons.mpr ⟨hx, heol⟩, rfl,
          fun _ => rfl, ?_⟩
        by_cases hj : r = [] ∨ endsEol r = true <;> simp [scanResult, Joins, hj]
      · have hp0 : ¬p.length = 0 := by simpa using hp
        have := ih (x :: e) (by simp) (List.forall_mem_cons.mpr ⟨hx, heol⟩) hp
        simpa [hp0] using this
    · by_cases hw : isWsp x = true
      · have hstate : scanByte .file x = .line := by simp [scanByte, hx, hw]
        rw [hstate]
        by_cases hp : p = []
        · subst hp
          refine ⟨[], [x], e, rfl, by simpa using hw, heol, rfl, fun _ => rfl, ?_⟩
          by_cases hj : r = [] ∨ endsWsp r = true <;> simp [scanResult, Joins, hj]
        · obtain ⟨b, w', hb, hw', hend, hscan⟩ := scan_line r p [x] e (by simp)
            (by simpa using hw) hp
          have hp0 : ¬p.length = 0 := by simpa using hp
          refine ⟨b, w' ++ [x], e, by simp [hb], ?_, heol, hend, by simp, ?_⟩
          · exact List.forall_mem_append.mpr ⟨hw', by simpa using hw⟩
          · simpa [hp0] using hscan
      · have hstate : scanByte .file x = .body := by simp [scanByte, hx, hw]
        refine ⟨p ++ [x], [], e, rfl, by simp, heol, by simpa using hw,
          fun _ => by simpa using hx, ?_⟩
        rw [hstate]
        by_cases he : e = []
        · -- final char is not part of a line end
          subst he
          simp [scanResult]
        · have helen := List.length_pos_iff.mpr he
          have hlast : ¬(ScanState.body = .body ∧ p.length = (p ++ [x] ++ e).length - 1) := by
            simp only [List.length_append, List.length_cons, List.length_nil]
            omega
          rw [if_neg hlast, if_neg (by simp), if_neg (by simp), if_neg (by simp),
            split_length_succ]
          simp [scanResult]

/-- How the scan splits a chunk. -/
theorem scan_spec (r c : List UInt8) (hc : c ≠ []) :
    ∃ b w e, c = b ++ (w ++ e) ∧ (∀ x ∈ w, isWsp x = true) ∧ (∀ x ∈ e, isEol x = true) ∧
      endsWsp b = false ∧ (w = [] → endsEol b = false) ∧
      scan r c .file c.length = scanResult r b w e := by
  simpa using scan_file r c [] (by simpa using hc) (by simp) hc

/-! ## The invariant -/

/-- Where a remainder `w ++ e` may start: the bytes before it end neither in white space
    that belongs to `w` nor in line ends that belong to `e`. -/
structure Settled (u w e : List UInt8) : Prop where
  wsp : ∀ c ∈ w, isWsp c = true
  eol : ∀ c ∈ e, isEol c = true
  not_wsp : w ≠ [] → endsWsp u = false
  not_eol : w = [] → endsEol u = false
  not_tail : w = [] → e = [] → endsWsp u = false

/-- The replacements distribute over the start of a remainder. -/
theorem Settled.fixBody_append {u w e : List UInt8} (h : Settled u w e) (t : List UInt8) :
    fixBody (u ++ (w ++ e ++ t)) = fixBody u ++ fixBody (w ++ e ++ t) := by
  refine ZoneMta.fixBody_append ?_ ?_
  · intro hcr hlf
    cases w with
    | nil =>
      have := h.not_eol rfl
      rw [endsEol, hcr] at this
      exact absurd this (by decide)
    | cons c w =>
      have hc : c = LF := by simpa using hlf
      have hwsp := h.wsp c List.mem_cons_self
      rw [hc] at hwsp
      exact absurd hwsp (by decide)
  · intro hu
    cases w with
    | cons c w => rw [h.not_wsp (by simp)] at hu; simp at hu
    | nil =>
      cases e with
      | nil => rw [h.not_tail rfl rfl] at hu; simp at hu
      | cons c e => exact h.eol c List.mem_cons_self

/-- The bytes before the remainder have been hashed. -/
structure Inv (xs : List UInt8) (s : DkimRelaxedBody) : Prop where
  byteLength : s.byteLength = xs.length
  split : ∃ u w e, Settled u w e ∧ xs = u ++ (w ++ e) ∧ s.remainder = w ++ e ∧
    s.hashed = fixBody u

theorem inv_init : Inv [] init :=
  ⟨rfl, [], [], [], ⟨by simp, by simp, by simp, fun _ => rfl, fun _ _ => rfl⟩, rfl, rfl, rfl⟩

/-- A chunk that joins the remainder. -/
theorem settled_join {u w e w' e' : List UInt8} (h : Settled u w e)
    (hw : ∀ x ∈ w', isWsp x = true) (he : ∀ x ∈ e', isEol x = true) (hne : w' ++ e' ≠ [])
    (hj : Joins (w ++ e) w') :
    ∃ w₁ e₁, Settled u w₁ e₁ ∧ w ++ e ++ (w' ++ e') = w₁ ++ e₁ := by
  rcases hj with ⟨rfl, -⟩ | ⟨hw', hr | hr⟩
  · -- line ends after the remainder
    rw [List.nil_append] at hne ⊢
    refine ⟨w, e ++ e', ⟨h.wsp, List.forall_mem_append.mpr ⟨h.eol, he⟩, h.not_wsp, h.not_eol, ?_⟩,
      by rw [List.append_assoc]⟩
    exact fun _ h0 => absurd (List.append_eq_nil_iff.mp h0).2 hne
  · -- no remainder yet
    obtain ⟨rfl, rfl⟩ := List.append_eq_nil_iff.mp hr
    exact ⟨w', e', ⟨hw, he, fun _ => h.not_tail rfl rfl, fun h0 => absurd h0 hw',
      fun h0 => absurd h0 hw'⟩, rfl⟩
  · -- more white space after the white space of the remainder
    have he0 : e = [] := by
      by_contra hne
      rw [endsWsp_append hne] at hr
      have := endsWsp_eq_false_of_endsEol (endsEol_of_all hne h.eol)
      rw [this] at hr
      exact absurd hr (by simp)
    subst he0
    have hw0 : w ≠ [] := by
      rintro rfl
      exact absurd hr (by simp)
    rw [List.append_nil]
    refine ⟨w ++ w', e', ⟨List.forall_mem_append.mpr ⟨h.wsp, hw⟩, he, fun _ => h.not_wsp hw0,
      fun h0 => absurd (List.append_eq_nil_iff.mp h0).1 hw0,
      fun h0 => absurd (List.append_eq_nil_iff.mp h0).1 hw0⟩, by simp⟩

/-- A chunk that starts a new remainder after the old one. -/
theorem settled_restart {u r w' e' : List UInt8} (hw : ∀ x ∈ w', isWsp x = true)
    (he : ∀ x ∈ e', isEol x = true) (hne : w' ++ e' ≠ []) (hj : ¬Joins r w') :
    r ≠ [] ∧ Settled (u ++ r) w' e' := by
  have hr : r ≠ [] := by
    rintro rfl
    by_cases hw0 : w' = [] <;> simp [Joins, hw0] at hj
  refine ⟨hr, hw, he, fun h0 => ?_, fun h0 => ?_, fun h0 h1 => ?_⟩
  · rw [endsWsp_append hr]
    by_contra hw'
    exact hj (Or.inr ⟨h0, Or.inr (by simpa using hw')⟩)
  · rw [endsEol_append hr]
    by_contra he'
    exact hj (Or.inl ⟨h0, Or.inr (by simpa using he')⟩)
  · exact absurd (by simp [h0, h1]) hne

/-- The replacements change nothing in a clean piece that follows hashed bytes. -/
theorem fixBody_of_clean {u b : List UInt8} (hu : endsEol u = false)
    (hlf : LfPaired none (u ++ b)) (hb : endsWsp b = false) (hclean : needsFixing b = false) :
    fixBody b = b := by
  have hpair : LfPaired (u.getLast?.or none) b := (lfPaired_append.mp hlf).2
  rw [Option.or_none] at hpair
  refine fixBody_of_tidy (tidy_of_needsFixing hclean hpair hb) ?_
  cases b with
  | nil => trivial
  | cons c b =>
    refine ⟨fun hc => ?_, hpair.2⟩
    -- the byte before the piece is not a `\r`
    rw [endsEol, hpair.1 hc] at hu
    exact absurd hu (by decide)

theorem inv_updateHash {xs c : List UInt8} {s : DkimRelaxedBody} (h : Inv xs s) (hc : c ≠ [])
    (hlf : LfPaired none (xs ++ c)) :
    ∃ u w e, Settled u w e ∧ xs ++ c = u ++ (w ++ e) ∧ (s.updateHash c).remainder = w ++ e ∧
      (s.updateHash c).hashed = fixBody u := by
  obtain ⟨-, u, w, e, hset, hxs, hrem, hhash⟩ := h
  obtain ⟨b, w', e', hc', hw, he, hbw, hbe, hscan⟩ := scan_spec s.remainder c hc
  unfold updateHash
  rw [hscan, scanResult]
  by_cases hb : b = []
  · -- the chunk has white space and line ends only
    subst hb
    rw [List.nil_append] at hc'
    have hne : w' ++ e' ≠ [] := by rwa [← hc']
    rw [if_neg (not_not.mpr rfl)]
    by_cases hj : Joins s.remainder w'
    · rw [if_pos hj]
      rw [hrem] at hj
      obtain ⟨w₁, e₁, hset₁, heq⟩ := settled_join hset hw he hne hj
      exact ⟨u, w₁, e₁, hset₁, by rw [hxs, hc', List.append_assoc, heq], by simp [hrem, hc', heq],
        hhash⟩
    · rw [if_neg hj]
      rw [hrem] at hj
      obtain ⟨hr, hset'⟩ := settled_restart (u := u) hw he hne hj
      refine ⟨u ++ (w ++ e), w', e', hset', by rw [hxs, hc', List.append_assoc], ?_⟩
      have hfix := hset.fixBody_append []
      simp only [List.append_nil] at hfix
      simp [hashPiece, hrem, hr, hhash, hfix]
  · -- a piece to hash, then the next remainder
    rw [if_pos hb]
    have hset' : Settled (u ++ (w ++ e ++ b)) w' e' := by
      rw [← List.append_assoc]
      exact ⟨hw, he, fun _ => by rw [endsWsp_append hb, hbw],
        fun h0 => by rw [endsEol_append hb, hbe h0], fun _ _ => by rw [endsWsp_append hb, hbw]⟩
    refine ⟨u ++ (w ++ e ++ b), w', e', hset', by simp [hxs, hc'], ?_⟩
    rw [hset.fixBody_append b]
    by_cases hfix : s.remainder ≠ [] ∨ needsFixing b = true
    · simp only [hashPiece, Option.any_some, Option.getD_some, hhash, hrem]
      rw [hrem] at hfix
      rw [if_pos hfix]
      exact ⟨rfl, rfl⟩
    · -- the fast path: no remainder and a clean piece
      obtain ⟨hr, hclean⟩ := not_or.mp hfix
      have hr := not_not.mp hr
      obtain ⟨rfl, rfl⟩ := List.append_eq_nil_iff.mp (hrem.symm.trans hr)
      have hlfb : LfPaired none (u ++ b) := by
        rw [hxs, hc', List.append_nil, List.append_nil, ← List.append_assoc] at hlf
        exact (lfPaired_append.mp hlf).1
      have hb' := fixBody_of_clean (hset.not_eol rfl) hlfb hbw (by simpa using hclean)
      by_cases hn : w' ++ e' = [] <;> simp [hashPiece, hr, hclean, hhash, hb', hn]

/-- One chunk keeps the invariant. -/
theorem inv_transform {xs c : List UInt8} {s : DkimRelaxedBody} (h : Inv xs s)
    (hlf : LfPaired none (xs ++ c)) : Inv (xs ++ c) (transform s c).1 := by
  unfold transform
  by_cases hc : c = []
  · subst hc
    simpa using h
  · rw [if_neg (by simpa using hc)]
    refine ⟨?_, inv_updateHash h hc hlf⟩
    have hlen : (s.updateHash c).byteLength = s.byteLength := by
      unfold updateHash
      split
      · rfl
      · unfold hashPiece; split <;> rfl
    simp [hlen, h.byteLength]

theorem transform_pushed (s : DkimRelaxedBody) (c : List UInt8) :
    (transform s c).2.flatten = c := by
  unfold transform
  split
  · next h0 => simp [List.length_eq_zero_iff.mp h0]
  · simp

/-! ## The whole stream -/

/-- The body without the line ends at its end and the white space before them. -/
def bodyPart (s : List UInt8) : List UInt8 := (s.rdropWhile isEol).rdropWhile isWsp

/-- What a stream of the bytes `s` gives to the hash function. -/
def hashInput (s : List UInt8) : List UInt8 :=
  fixBody (bodyPart s) ++ if endsEol s = true ∧ s.length > 2 then [CR, LF] else []

theorem rdropWhile_isWsp_of_not {s : List UInt8} (h : endsWsp s = false) :
    s.rdropWhile isWsp = s :=
  ForStd.rdropWhile_of_getLast? fun c hc => by simpa [endsWsp, hc] using h

theorem rdropWhile_isEol_of_not {s : List UInt8} (h : endsEol s = false) :
    s.rdropWhile isEol = s :=
  ForStd.rdropWhile_of_getLast? fun c hc => by simpa [endsEol, hc] using h

theorem fixBody_of_isWsp {w : List UInt8} (h : ∀ c ∈ w, isWsp c = true) : fixBody w = [] := by
  have hcr : dropCr w = w := by
    induction w with
    | nil => rfl
    | cons c w ih =>
      have hc : ¬(c = CR ∧ w.head? = some LF) := by
        rintro ⟨rfl, -⟩
        exact absurd (h CR List.mem_cons_self) (by decide)
      rw [dropCr, if_neg hc, ih fun x hx => h x (List.mem_cons_of_mem c hx)]
  rw [fixBody_eq, hcr, trimLines_of_isWsp h]
  rfl

theorem endsWsp_rdropWhile (s : List UInt8) : endsWsp (s.rdropWhile isWsp) = false := by
  rw [endsWsp, Option.any_eq_false]
  intro c hc
  obtain ⟨hne, rfl⟩ := List.mem_getLast?_eq_getLast hc
  simpa using List.rdropWhile_last_not isWsp s hne

/-- Trailing white space adds nothing. -/
theorem fixBody_rdropWhile (s : List UInt8) : fixBody (s.rdropWhile isWsp) = fixBody s := by
  have hw : ∀ c ∈ s.rtakeWhile isWsp, isWsp c = true := fun c hc => List.mem_rtakeWhile_imp hc
  have hcut : fixBody (s.rdropWhile isWsp ++ s.rtakeWhile isWsp) =
      fixBody (s.rdropWhile isWsp) ++ fixBody (s.rtakeWhile isWsp) := by
    refine ZoneMta.fixBody_append (fun _ hlf => ?_) fun h => ?_
    · exact absurd (hw LF (List.mem_of_mem_head? hlf)) (by decide)
    · rw [endsWsp_rdropWhile] at h
      exact absurd h (by simp)
  rw [List.rdropWhile_append_rtakeWhile, fixBody_of_isWsp hw, List.append_nil] at hcut
  exact hcut.symm

/-- What has been hashed does not depend on where the remainder starts. -/
theorem fixBody_bodyPart {u w e : List UInt8} (h : Settled u w e) :
    fixBody (bodyPart (u ++ (w ++ e))) = fixBody u := by
  rw [bodyPart, ← List.append_assoc, ForStd.rdropWhile_append_of_all h.eol]
  by_cases hw : w = []
  · rw [hw, List.append_nil, rdropWhile_isEol_of_not (h.not_eol hw), fixBody_rdropWhile]
  · have hend : endsEol (u ++ w) = false := by
      rw [endsEol_append hw]
      by_contra he
      have := endsWsp_eq_false_of_endsEol (Bool.of_not_eq_false he)
      rw [endsWsp_of_all hw h.wsp] at this
      exact absurd this (by simp)
    rw [rdropWhile_isEol_of_not hend, ForStd.rdropWhile_append_of_all h.wsp,
      rdropWhile_isWsp_of_not (h.not_wsp hw)]

theorem endsEol_settled {u w e : List UInt8} (h : Settled u w e) :
    endsEol (u ++ (w ++ e)) = endsEol (w ++ e) := by
  by_cases hr : w ++ e = []
  · rw [hr, List.append_nil, endsEol_nil]
    exact h.not_eol (List.append_eq_nil_iff.mp hr).1
  · exact endsEol_append hr u

/-- What the stream produces, as a function of its bytes. -/
theorem run_eq (ds : List (List UInt8)) (h : LfPaired none ds.flatten) :
    run ds =
      { hashed := hashInput ds.flatten
        byteLength := ds.flatten.length
        pushed := ds.flatten ++ if ds.flatten = [] then [CR, LF] else [] } := by
  obtain ⟨hpushed, hinv⟩ := ForStd.runStream_invariant (f := transform)
    (I := fun xs ys s => ys = xs ∧ (LfPaired none xs → Inv xs s))
    (fun xs ys s c ⟨hys, hs⟩ =>
      ⟨by rw [hys, transform_pushed],
        fun hlf => inv_transform (hs (lfPaired_append.mp hlf).1) hlf⟩)
    [] [] init ⟨rfl, fun _ => inv_init⟩ ds
  rw [List.nil_append] at hpushed hinv
  obtain ⟨hlen, u, w, e, hset, hxs, hrem, hhash⟩ := hinv h
  rw [List.nil_append] at hpushed
  have hfix := fixBody_bodyPart hset
  have hend := endsEol_settled hset
  rw [← hxs] at hfix hend
  have hpad : (if ds.flatten.length = 0 then [[CR, LF]] else []).flatten =
      if ds.flatten = [] then [CR, LF] else [] := by
    simp only [List.length_eq_zero_iff]
    split <;> rfl
  simp only [run, flush, hlen, hrem, hhash, hashInput, hfix, hend, List.flatten_append, hpushed,
    hpad]
  split <;> simp

end DkimRelaxedBody

end ZoneMta
