import ZoneMta.Native.DkimRelaxedBody
import ZoneMta.Spec.LineEndsCorrect
import ZoneMta.Spec.RelaxedBody

/-!
# The replacements of `updateHash`

Each of the four regular-expression passes of `updateHash` is a simple recursion.
From the recursions follow the two facts the hash needs: the passes distribute over a
cut that separates no line break and no white space from its line end (`fixBody_append`),
and they change nothing in a chunk that the check of `updateHash` finds clean
(`fixBody_of_tidy`).
-/

namespace ZoneMta

open Ascii
open ForStd (replaceAll replaceFrom replaceFrom_nil)

/-! ## The passes as recursions -/

/-- `/\r?\n/g` to `\n`: drop every `\r` that stands before a `\n`. -/
def dropCr : List UInt8 → List UInt8
  | [] => []
  | c :: s => if c = CR ∧ s.head? = some LF then dropCr s else c :: dropCr s

/-- `/[ \t]*$/gm` to nothing: drop the white space that runs up to a line end. -/
def trimLines : List UInt8 → List UInt8
  | [] => []
  | c :: s =>
    if isWsp c ∧ RegExp.lineEnd (s.dropWhile isWsp) then trimLines s else c :: trimLines s

/-- `/\n/g` to `\r\n`. -/
def addCr (s : List UInt8) : List UInt8 :=
  s.flatMap fun c => if c = LF then [CR, LF] else [c]

theorem dropCr_cons (c : UInt8) (s : List UInt8) :
    dropCr (c :: s) = if c = CR ∧ s.head? = some LF then dropCr s else c :: dropCr s := rfl

theorem reduceWsp_cons (c : UInt8) (s : List UInt8) :
    reduceWsp (c :: s) =
      if isWsp c then if s.head?.any isWsp then reduceWsp s else SP :: reduceWsp s
      else c :: reduceWsp s := rfl

theorem replaceAll_lineBreak (s : List UInt8) :
    replaceAll RegExp.lineBreak [LF] s = dropCr s := by
  have hLF : ∀ t, RegExp.lineBreak (LF :: t) = some 1 := fun t => by
    simp [RegExp.lineBreak, LF, CR]
  induction s with
  | nil => rfl
  | cons c s ih =>
    simp only [replaceAll] at ih ⊢
    simp only [replaceFrom, RegExp.lineBreak, dropCr]
    by_cases hcr : c = CR ∧ s.head? = some LF
    · -- both bytes are replaced, and the `\n` alone would give the same
      rw [if_pos hcr, if_pos hcr]
      obtain ⟨t, rfl⟩ : ∃ t, s = LF :: t := by
        cases s with
        | nil => simp at hcr
        | cons d t => exact ⟨t, by simpa using hcr.2⟩
      rw [← ih]
      simp only [replaceFrom, hLF]
    · rw [if_neg hcr, if_neg hcr]
      by_cases hlf : c = LF
      · rw [if_pos hlf, hlf, ← ih]
        rfl
      · rw [if_neg hlf, ih]

/-- The run of white space at the head is dropped as a whole, or kept as a whole. -/
private theorem replaceFrom_trailingSpace (s : List UInt8) :
    replaceFrom RegExp.trailingSpace [] 0 s = trimLines s ∧
    (RegExp.lineEnd (s.dropWhile isWsp) = true →
      replaceFrom RegExp.trailingSpace [] (s.takeWhile isWsp).length s = trimLines s) := by
  induction s with
  | nil => simp [replaceFrom_nil, trimLines]
  | cons c s ih =>
    by_cases hc : isWsp c = true
    · simp only [replaceFrom, RegExp.trailingSpace, List.dropWhile_cons, List.takeWhile_cons, hc,
        if_true, List.length_cons, trimLines, true_and]
      by_cases he : RegExp.lineEnd (s.dropWhile isWsp) = true
      · simp only [he, if_true]
        exact ⟨ih.2 he, fun _ => ih.2 he⟩
      · rw [if_neg he, if_neg he, ih.1]
        exact ⟨rfl, fun h => absurd h he⟩
    · have hkeep : replaceFrom RegExp.trailingSpace [] 0 (c :: s) = trimLines (c :: s) := by
        simp only [replaceFrom, RegExp.trailingSpace, List.dropWhile_cons, List.takeWhile_cons, hc,
          Bool.false_eq_true, if_false, List.length_nil, trimLines, false_and, ih.1, List.nil_append]
        split
        · next heq => split at heq <;> simp at heq
        · rfl
        · rfl
      refine ⟨hkeep, fun _ => ?_⟩
      rw [List.takeWhile_cons_of_neg hc]
      exact hkeep

theorem replaceAll_trailingSpace (s : List UInt8) :
    replaceAll RegExp.trailingSpace [] s = trimLines s :=
  (replaceFrom_trailingSpace s).1

/-- The rest of a run of white space is skipped by the match of its first byte. -/
private theorem replaceFrom_space (s : List UInt8) :
    replaceFrom RegExp.space [SP] 0 s = reduceWsp s ∧
    (s.head?.any isWsp = true →
      SP :: replaceFrom RegExp.space [SP] (s.takeWhile isWsp).length s = reduceWsp s) ∧
    (s.head?.any isWsp = false →
      replaceFrom RegExp.space [SP] (s.takeWhile isWsp).length s = reduceWsp s) := by
  induction s with
  | nil => simp [replaceFrom_nil, reduceWsp, RegExp.space]
  | cons c s ih =>
    obtain ⟨ih0, ihw, ihn⟩ := ih
    simp only [List.head?_cons, Option.any_some]
    by_cases hc : isWsp c = true
    · -- after the first byte of the run, the match covers the rest of it
      have hrun : SP :: replaceFrom RegExp.space [SP] (s.takeWhile isWsp).length s =
          if s.head?.any isWsp = true then reduceWsp s else SP :: reduceWsp s := by
        split
        · next h => exact ihw h
        · next h => rw [ihn (by simpa using h)]
      refine ⟨?_, fun _ => ?_, fun h => absurd hc (by simp [h])⟩
      · simpa [replaceFrom, RegExp.space, hc, reduceWsp] using hrun
      · simpa [replaceFrom, hc, reduceWsp] using hrun
    · have hkeep : replaceFrom RegExp.space [SP] 0 (c :: s) = reduceWsp (c :: s) := by
        simp [replaceFrom, RegExp.space, hc, reduceWsp, ih0]
      refine ⟨hkeep, fun h => absurd h hc, fun _ => ?_⟩
      rw [List.takeWhile_cons_of_neg hc]
      exact hkeep

theorem replaceAll_space (s : List UInt8) : replaceAll RegExp.space [SP] s = reduceWsp s :=
  (replaceFrom_space s).1

theorem replaceAll_newline (s : List UInt8) : replaceAll RegExp.newline [CR, LF] s = addCr s := by
  induction s with
  | nil => rfl
  | cons c s ih =>
    simp only [replaceAll, addCr] at ih ⊢
    by_cases hc : c = LF
    · simp [replaceFrom, RegExp.newline, hc, ih]
    · simp [replaceFrom, RegExp.newline, hc, ih]

/-- The four replacements together. -/
theorem fixBody_eq (s : List UInt8) :
    fixBody s = addCr (reduceWsp (trimLines (dropCr s))) := by
  simp only [fixBody, replaceAll_lineBreak, replaceAll_trailingSpace, replaceAll_space,
    replaceAll_newline]

/-! ## Cuts -/

theorem dropCr_append {p q : List UInt8}
    (h : p.getLast? = some CR → q.head? ≠ some LF) :
    dropCr (p ++ q) = dropCr p ++ dropCr q := by
  induction p with
  | nil => rfl
  | cons c p ih =>
    cases p with
    | nil =>
      have hc : ¬(c = CR ∧ q.head? = some LF) := fun ⟨h1, h2⟩ => h (by simp [h1]) h2
      simp [dropCr, hc]
    | cons d p =>
      rw [List.getLast?_cons_cons] at h
      rw [List.cons_append, dropCr_cons c, ih h, dropCr_cons c]
      by_cases hc : c = CR ∧ d = LF <;> simp [hc]

theorem getLast?_dropCr (p : List UInt8) : (dropCr p).getLast? = p.getLast? := by
  induction p using List.reverseRecOn with
  | nil => rfl
  | append_singleton p c _ =>
    by_cases h : p.getLast? = some CR ∧ c = LF
    · -- the `\r` before `c` is dropped, `c` itself stays
      obtain ⟨hp, rfl⟩ := h
      obtain ⟨p, rfl⟩ := List.getLast?_eq_some_iff.mp hp
      have hcut : dropCr (p ++ [CR, LF]) = dropCr p ++ [LF] :=
        dropCr_append (p := p) (q := [CR, LF]) fun _ => by decide
      rw [List.append_assoc, List.cons_append, List.nil_append, hcut]
      simp
    · have hcut := dropCr_append (p := p) (q := [c]) fun hp hc => h ⟨hp, by simpa using hc⟩
      rw [hcut]
      simp [dropCr]

theorem lineEnd_dropCr (q : List UInt8) : RegExp.lineEnd (dropCr q) = RegExp.lineEnd q := by
  cases q with
  | nil => rfl
  | cons c q =>
    simp only [dropCr]
    split
    · next h =>
      obtain ⟨rfl, hq⟩ := h
      cases q with
      | nil => simp at hq
      | cons d q =>
        obtain rfl : d = LF := by simpa using hq
        have hd : ¬(LF = CR ∧ q.head? = some LF) := fun h => absurd h.1 (by decide)
        simp only [dropCr, if_neg hd, RegExp.lineEnd]
        decide
    · rfl

/-- White space is not a line end, so nothing is skipped in front of one. -/
theorem dropWhile_of_lineEnd {q : List UInt8} (h : RegExp.lineEnd q = true) :
    q.dropWhile isWsp = q := by
  cases q with
  | nil => rfl
  | cons c q => rw [List.dropWhile_cons_of_neg (by simp [isWsp_eq_false_of_isEol h])]

theorem trimLines_append {p q : List UInt8}
    (h : endsWsp p = true → RegExp.lineEnd q = true) :
    trimLines (p ++ q) = trimLines p ++ trimLines q := by
  induction p with
  | nil => rfl
  | cons c p ih =>
    have hp : endsWsp p = true → RegExp.lineEnd q = true := fun hp => h <| by
      have hne : p ≠ [] := fun h0 => by simp [h0] at hp
      rw [← List.singleton_append, endsWsp_append hne, hp]
    -- the line end seen from `c` is the same with and without `q`
    have hsame : isWsp c = true → RegExp.lineEnd ((p ++ q).dropWhile isWsp) =
        RegExp.lineEnd (p.dropWhile isWsp) := by
      intro hc
      rw [List.dropWhile_append]
      cases hd : p.dropWhile isWsp with
      | cons d t => simp [RegExp.lineEnd]
      | nil =>
        have hall : ∀ x ∈ c :: p, isWsp x = true := by
          have := List.dropWhile_eq_nil_iff.mp hd
          simpa [hc] using this
        have hq := h (endsWsp_of_all (by simp) hall)
        rw [List.isEmpty_nil, if_pos rfl, dropWhile_of_lineEnd hq, hq]
        rfl
    simp only [List.cons_append, trimLines]
    by_cases hc : isWsp c = true
    · rw [hsame hc, ih hp]
      split <;> simp
    · simp [hc, ih hp]

/-- All white space at the end goes. -/
theorem trimLines_of_isWsp {w : List UInt8} (h : ∀ c ∈ w, isWsp c = true) : trimLines w = [] := by
  induction w with
  | nil => rfl
  | cons c w ih =>
    have hw : w.dropWhile isWsp = [] :=
      List.dropWhile_eq_nil_iff.mpr fun x hx => h x (List.mem_cons_of_mem c hx)
    rw [trimLines, hw, if_pos ⟨h c List.mem_cons_self, rfl⟩]
    exact ih fun x hx => h x (List.mem_cons_of_mem c hx)

/-- Only white space is trimmed away. -/
theorem isWsp_of_trimLines_eq_nil {s : List UInt8} (h : trimLines s = []) :
    ∀ c ∈ s, isWsp c = true := by
  induction s with
  | nil => simp
  | cons c s ih =>
    rw [trimLines] at h
    split at h
    · next hc => exact List.forall_mem_cons.mpr ⟨hc.1, ih h⟩
    · exact absurd h (by simp)

theorem endsWsp_trimLines (p : List UInt8) : endsWsp (trimLines p) = false := by
  induction p with
  | nil => rfl
  | cons c p ih =>
    rw [trimLines]
    split
    · exact ih
    · next h =>
      by_cases ht : trimLines p = []
      · -- `p` is white space, so `c` would have been trimmed if it were
        have hd := List.dropWhile_eq_nil_iff.mpr (isWsp_of_trimLines_eq_nil ht)
        have hc : isWsp c = false := by
          by_contra hc
          exact h ⟨by simpa using hc, by rw [hd]; rfl⟩
        rw [ht]
        simpa [endsWsp] using hc
      · rw [← List.singleton_append, endsWsp_append ht, ih]

theorem reduceWsp_append {p q : List UInt8} (h : endsWsp p = false) :
    reduceWsp (p ++ q) = reduceWsp p ++ reduceWsp q := by
  induction p with
  | nil => rfl
  | cons c p ih =>
    cases p with
    | nil =>
      have hc : isWsp c = false := by simpa [endsWsp] using h
      simp [reduceWsp, hc]
    | cons d p =>
      have h' : endsWsp (d :: p) = false := by
        simpa only [endsWsp, List.getLast?_cons_cons] using h
      rw [List.cons_append, reduceWsp_cons c, ih h', reduceWsp_cons c]
      cases isWsp c <;> cases hd : isWsp d <;> simp [hd]

theorem addCr_append (p q : List UInt8) : addCr (p ++ q) = addCr p ++ addCr q :=
  List.flatMap_append

/-- The replacements distribute over a cut that separates no `\r\n` and leaves no white
    space in front of a byte of its own line. -/
theorem fixBody_append {p q : List UInt8} (hcr : p.getLast? = some CR → q.head? ≠ some LF)
    (hwsp : endsWsp p = true → RegExp.lineEnd q = true) :
    fixBody (p ++ q) = fixBody p ++ fixBody q := by
  have htrim : endsWsp (dropCr p) = true → RegExp.lineEnd (dropCr q) = true := by
    rw [endsWsp, getLast?_dropCr, lineEnd_dropCr]
    exact hwsp
  rw [fixBody_eq, fixBody_eq, fixBody_eq, dropCr_append hcr, trimLines_append htrim,
    reduceWsp_append (endsWsp_trimLines _), addCr_append]

/-! ## Clean chunks -/

/-- No tab, and after a space comes a byte that is neither white space nor a line end. -/
def Tidy : List UInt8 → Prop
  | [] => True
  | c :: s =>
    c ≠ TAB ∧ (c = SP → ∃ d t, s = d :: t ∧ isWsp d = false ∧ isEol d = false) ∧ Tidy s

theorem trimLines_of_tidy {s : List UInt8} (h : Tidy s) : trimLines s = s := by
  induction s with
  | nil => rfl
  | cons c s ih =>
    obtain ⟨htab, hsp, hs⟩ := h
    rw [trimLines, ih hs, if_neg]
    rintro ⟨hc, hend⟩
    obtain ⟨d, t, rfl, hd, he⟩ := hsp (((isWsp_iff c).mp hc).resolve_right htab)
    rw [List.dropWhile_cons_of_neg (by simp [hd])] at hend
    exact absurd hend (by simp [RegExp.lineEnd, he])

theorem reduceWsp_of_tidy {s : List UInt8} (h : Tidy s) : reduceWsp s = s := by
  induction s with
  | nil => rfl
  | cons c s ih =>
    obtain ⟨htab, hsp, hs⟩ := h
    rw [reduceWsp, ih hs]
    split
    · next hc =>
      have hc := ((isWsp_iff c).mp hc).resolve_right htab
      obtain ⟨d, t, rfl, hd, -⟩ := hsp hc
      simp [hd, hc]
    · rfl

theorem tidy_dropCr {s : List UInt8} (h : Tidy s) : Tidy (dropCr s) := by
  induction s with
  | nil => trivial
  | cons c s ih =>
    obtain ⟨htab, hsp, hs⟩ := h
    rw [dropCr]
    split
    · exact ih hs
    · refine ⟨htab, fun hc => ?_, ih hs⟩
      obtain ⟨d, t, rfl, hd, he⟩ := hsp hc
      have hcr : ¬(d = CR ∧ t.head? = some LF) := fun h => by simp [isEol, h.1] at he
      exact ⟨d, dropCr t, by rw [dropCr, if_neg hcr], hd, he⟩

/-- Where every `\n` follows a `\r`, the first and the last pass undo each other. A `\n` at
    the head gets back the `\r` that was dropped before it. -/
private theorem addCr_dropCr_aux (prev : Option UInt8) (s : List UInt8) (h : LfPaired prev s) :
    addCr (dropCr s) = if s.head? = some LF then CR :: s else s := by
  induction s generalizing prev with
  | nil => rfl
  | cons c s ih =>
    have ih := ih (some c) h.2
    rw [dropCr_cons]
    by_cases hcr : c = CR ∧ s.head? = some LF
    · have hc : ¬c = LF := by rw [hcr.1]; decide
      rw [if_pos hcr, ih, if_pos hcr.2, List.head?_cons, if_neg (by simpa using hc), hcr.1]
    · -- a `\n` at the head of `s` would have to follow a `\r`
      have hs : ¬s.head? = some LF := by
        intro hs
        cases s with
        | nil => simp at hs
        | cons d t =>
          have hd : d = LF := by simpa using hs
          exact hcr ⟨by simpa using h.2.1 hd, hs⟩
      rw [if_neg hs] at ih
      rw [if_neg hcr, addCr, List.flatMap_cons, ← addCr, ih]
      by_cases hc : c = LF <;> simp [hc]

theorem addCr_dropCr {s : List UInt8} (h : LfPaired none s) : addCr (dropCr s) = s := by
  rw [addCr_dropCr_aux none s h]
  cases s with
  | nil => rfl
  | cons c s =>
    rw [if_neg]
    intro hc
    exact absurd (h.1 (by simpa using hc)) (by simp)

theorem fixBody_of_tidy {s : List UInt8} (h : Tidy s) (hlf : LfPaired none s) : fixBody s = s := by
  have h' := tidy_dropCr h
  rw [fixBody_eq, trimLines_of_tidy h', reduceWsp_of_tidy h', addCr_dropCr hlf]

namespace DkimRelaxedBody

/-- What the check of `updateHash` finds at the first two bytes. -/
theorem needsFixing_cons {c : UInt8} {s : List UInt8} (h : needsFixing (c :: s) = false) :
    needsFixing s = false ∧ c ≠ TAB ∧ (c = SP → s.head? ≠ some SP ∧ s.head? ≠ some CR) := by
  have hat : ∀ i < (c :: s).length, needsFixingAt (c :: s) i = false := by
    simpa [needsFixing] using h
  refine ⟨?_, ?_, fun hc => ?_⟩
  · have hs : ∀ i < s.length, needsFixingAt s i = false := by
      intro i hi
      have := hat (i + 1) (by simpa using hi)
      cases i with
      | zero => simp_all [needsFixingAt]
      | succ i => simpa [needsFixingAt] using this
    simpa [needsFixing] using hs
  · have := hat 0 (by simp)
    simpa [needsFixingAt] using this
  · cases s with
    | nil => simp
    | cons d t =>
      have := hat 1 (by simp)
      simp only [needsFixingAt, hc] at this
      constructor
      · rintro heq; simp_all
      · rintro heq; simp_all

/-- A chunk that passes the check and does not end in white space is tidy. -/
theorem tidy_of_needsFixing {prev : Option UInt8} {s : List UInt8}
    (h : needsFixing s = false) (hlf : LfPaired prev s) (hend : endsWsp s = false) : Tidy s := by
  induction s generalizing prev with
  | nil => trivial
  | cons c s ih =>
    obtain ⟨hs, htab, hsp⟩ := needsFixing_cons h
    have hend' : endsWsp s = false := by
      by_cases hne : s = []
      · rw [hne]; rfl
      · rwa [← List.singleton_append, endsWsp_append hne] at hend
    have htidy := ih hs hlf.2 hend'
    refine ⟨htab, ?_, htidy⟩
    rintro rfl
    obtain ⟨hsp, hcr⟩ := hsp rfl
    cases s with
    | nil => exact absurd hend (by decide)
    | cons d t =>
      have hd : d ≠ LF := fun hd => absurd (hlf.2.1 hd) (by decide)
      have hd' : d ≠ SP ∧ d ≠ CR := by simpa using And.intro hsp hcr
      refine ⟨d, t, rfl, ?_, ?_⟩
      · simp [isWsp, hd'.1, htidy.1]
      · simp [isEol, hd'.2, hd]

end DkimRelaxedBody

end ZoneMta
