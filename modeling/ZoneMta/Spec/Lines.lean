import ZoneMta.Spec.DkimRelaxedBodyCorrect

/-!
# Bodies as lists of lines

A body in which `\r` and `\n` only occur together is the list of its lines, joined by
`\r\n`. This module says what `LineEnds`, the replacements of `updateHash` and the
relaxed canonicalisation do to the lines.

## Key results

- `ensureCr_eq_joinLines`: the output of `LineEnds` as lines
- `splitLines_joinLines`: the lines are read back
- `fixBody_joinLines`: the replacements work line by line
- `fixBody_bodyPart_joinLines`: the scan cuts off the empty lines at the end
-/

namespace ZoneMta

open Ascii

/-! ## Lines -/

/-- The body with the given lines. -/
def joinLines (ls : List (List UInt8)) : List UInt8 := [CR, LF].intercalate ls

/-- A line has no byte of a line break. -/
def Clean (l : List UInt8) : Prop := ∀ c ∈ l, isEol c = false

/-- `\r` only occurs in front of `\n`. -/
def CrPaired : List UInt8 → Prop
  | [] => True
  | c :: s => (c = CR → s.head? = some LF) ∧ CrPaired s

/-- The lines of a body that breaks them with `\n` or `\r\n`. -/
def bodyLines (b : List UInt8) : List (List UInt8) := (b.filter (· != CR)).splitOn LF

@[simp] theorem joinLines_nil : joinLines [] = [] := rfl

@[simp] theorem joinLines_singleton (l : List UInt8) : joinLines [l] = l :=
  List.intercalate_singleton

theorem joinLines_cons {ls : List (List UInt8)} (h : ls ≠ []) (l : List UInt8) :
    joinLines (l :: ls) = l ++ [CR, LF] ++ joinLines ls :=
  List.intercalate_cons_of_ne_nil h

theorem joinLines_append {xs ys : List (List UInt8)} (hx : xs ≠ []) (hy : ys ≠ []) :
    joinLines (xs ++ ys) = joinLines xs ++ [CR, LF] ++ joinLines ys := by
  induction xs with
  | nil => exact absurd rfl hx
  | cons l xs ih =>
    by_cases h0 : xs = []
    · rw [h0, List.singleton_append, joinLines_cons hy, joinLines_singleton]
    · rw [List.cons_append, joinLines_cons (by simp [h0]), ih h0, joinLines_cons h0]
      simp only [List.append_assoc]

theorem length_joinLines {ls : List (List UInt8)} (h : ls ≠ []) :
    (joinLines ls).length + 2 = (ls.map List.length).sum + 2 * ls.length := by
  induction ls with
  | nil => exact absurd rfl h
  | cons l ls ih =>
    by_cases h0 : ls = []
    · simp [h0]
    · have := ih h0
      rw [joinLines_cons h0]
      simp only [List.length_append, List.length_cons, List.length_nil, List.map_cons,
        List.sum_cons]
      omega

/-- Each line with its own line break. -/
theorem flatMap_crlf {ls : List (List UInt8)} (h : ls ≠ []) :
    ls.flatMap (· ++ [CR, LF]) = joinLines ls ++ [CR, LF] := by
  induction ls with
  | nil => exact absurd rfl h
  | cons l ls ih =>
    by_cases h0 : ls = []
    · simp [h0]
    · rw [List.flatMap_cons, ih h0, joinLines_cons h0]
      simp only [List.append_assoc]

/-! ## The output of `LineEnds` -/

theorem addCr_cons (c : UInt8) (s : List UInt8) :
    addCr (c :: s) = (if c = LF then [CR, LF] else [c]) ++ addCr s := List.flatMap_cons

theorem addCr_of_not_mem {s : List UInt8} (h : LF ∉ s) : addCr s = s := by
  induction s with
  | nil => rfl
  | cons c s ih =>
    have hc : ¬c = LF := fun hc => h (by simp [hc])
    rw [addCr_cons, if_neg hc, ih fun hs => h (List.mem_cons_of_mem c hs)]
    rfl

/-- Where each `\r` belongs to a line break, the stream rewrites the line breaks. -/
theorem ensureCr_eq_addCr (prev : Option UInt8) {b : List UInt8} (hb : CrPaired b)
    (hprev : prev = some CR → b.head? = some LF) :
    (if prev = some CR then [CR] else []) ++ ensureCr prev b = addCr (b.filter (· != CR)) := by
  induction b generalizing prev with
  | nil =>
    have : ¬prev = some CR := fun h => absurd (hprev h) (by simp)
    rw [if_neg this]
    rfl
  | cons c b ih =>
    have ih := ih (some c) hb.2 fun hc => hb.1 (by simpa using hc)
    by_cases hcr : c = CR
    · have hp : ¬prev = some CR := fun h => by
        have : c = LF := by simpa using hprev h
        exact absurd (hcr.symm.trans this) (by decide)
      have hlf : ¬(c = LF ∧ prev ≠ some CR) := fun h => absurd (hcr.symm.trans h.1) (by decide)
      rw [if_pos (by rw [hcr])] at ih
      rw [if_neg hp, ensureCr, if_neg hlf, List.filter_cons_of_neg (by simp [hcr]), ← ih, hcr]
      rfl
    · rw [if_neg (by simpa using hcr), List.nil_append] at ih
      rw [ensureCr, ih, List.filter_cons_of_pos (by simpa using hcr), addCr_cons]
      by_cases hlf : c = LF
      · by_cases hp : prev = some CR <;> simp [hlf, hp]
      · have hp : ¬prev = some CR := fun h => hlf (by simpa using hprev h)
        simp [hlf, hp]

theorem addCr_intercalate {ls : List (List UInt8)} (h : ∀ l ∈ ls, LF ∉ l) :
    addCr ([LF].intercalate ls) = joinLines ls := by
  induction ls with
  | nil => rfl
  | cons l ls ih =>
    have hl := addCr_of_not_mem (h l List.mem_cons_self)
    by_cases h0 : ls = []
    · rw [h0, List.intercalate_singleton, joinLines_singleton, hl]
    · rw [List.intercalate_cons_of_ne_nil h0, joinLines_cons h0, addCr_append, addCr_append,
        ih fun l' h' => h l' (List.mem_cons_of_mem l h'), hl]
      rfl

theorem not_mem_of_mem_splitOn (s : List UInt8) : ∀ l ∈ s.splitOn LF, LF ∉ l := by
  induction s with
  | nil => simp [List.splitOn_nil]
  | cons c s ih =>
    rw [List.splitOn_cons_eq_if_modifyHead]
    split
    · simpa using ih
    · next hc =>
      have hc : ¬LF = c := fun h => hc (by simp [h])
      cases hs : s.splitOn LF with
      | nil => simp
      | cons l ls =>
        rw [hs] at ih
        simpa [hc] using ih

theorem mem_of_mem_splitOn {c : UInt8} (s : List UInt8) :
    ∀ l ∈ s.splitOn LF, c ∈ l → c ∈ s := by
  induction s with
  | nil => simp [List.splitOn_nil]
  | cons d s ih =>
    rw [List.splitOn_cons_eq_if_modifyHead]
    split
    · intro l hl hc
      rcases List.mem_cons.mp hl with rfl | hl
      · simp at hc
      · exact List.mem_cons_of_mem d (ih l hl hc)
    · cases hs : s.splitOn LF with
      | nil => simp
      | cons l ls =>
        rw [hs] at ih
        intro l' hl' hc
        rcases List.mem_cons.mp hl' with rfl | hl'
        · rcases List.mem_cons.mp hc with rfl | hc
          · exact List.mem_cons_self
          · exact List.mem_cons_of_mem d (ih l List.mem_cons_self hc)
        · exact List.mem_cons_of_mem d (ih l' (List.mem_cons_of_mem l hl') hc)

theorem bodyLines_ne_nil (b : List UInt8) : bodyLines b ≠ [] := List.splitOn_ne_nil LF _

theorem clean_bodyLines (b : List UInt8) : ∀ l ∈ bodyLines b, Clean l := by
  intro l hl c hc
  have hlf : ¬c = LF := fun h => not_mem_of_mem_splitOn _ l hl (h ▸ hc)
  have hcr := mem_of_mem_splitOn _ l hl hc
  rw [List.mem_filter] at hcr
  have hcr : ¬c = CR := by simpa using hcr.2
  simp [isEol, hlf, hcr]

/-- The output of `LineEnds` as lines. -/
theorem ensureCr_eq_joinLines {b : List UInt8} (h : CrPaired b) :
    ensureCr none b = joinLines (bodyLines b) := by
  have hadd := ensureCr_eq_addCr none h (by simp)
  rw [if_neg (by simp), List.nil_append] at hadd
  rw [hadd, bodyLines, ← addCr_intercalate (not_mem_of_mem_splitOn _), List.intercalate_splitOn]

/-! ## Reading the lines back -/

theorem splitLines_clean {l : List UInt8} (h : Clean l) : splitLines l = [l] := by
  induction l with
  | nil => rfl
  | cons c l ih =>
    have ih := ih fun x hx => h x (List.mem_cons_of_mem c hx)
    cases l with
    | nil => rfl
    | cons d l =>
      have hc : ¬(c = CR ∧ d = LF) := by
        rintro ⟨rfl, -⟩
        exact absurd (h CR List.mem_cons_self) (by decide)
      rw [splitLines, if_neg hc, ih]
      rfl

theorem splitLines_clean_append {l : List UInt8} (h : Clean l) (s : List UInt8) :
    splitLines (l ++ [CR, LF] ++ s) = l :: splitLines s := by
  induction l with
  | nil => rfl
  | cons c l ih =>
    have ih := ih fun x hx => h x (List.mem_cons_of_mem c hx)
    have hc : ¬c = CR := by
      rintro rfl
      exact absurd (h CR List.mem_cons_self) (by decide)
    rw [List.cons_append, List.cons_append]
    obtain ⟨d, t, ht⟩ : ∃ d t, l ++ [CR, LF] ++ s = d :: t := by
      cases l with
      | nil => exact ⟨CR, LF :: s, rfl⟩
      | cons d l => exact ⟨d, l ++ [CR, LF] ++ s, rfl⟩
    rw [ht] at ih ⊢
    rw [splitLines, if_neg fun h => hc h.1, ih]
    rfl

/-- The lines of a body are read back. -/
theorem splitLines_joinLines {ls : List (List UInt8)} (hne : ls ≠ []) (h : ∀ l ∈ ls, Clean l) :
    splitLines (joinLines ls) = ls := by
  induction ls with
  | nil => exact absurd rfl hne
  | cons l ls ih =>
    have hl := h l List.mem_cons_self
    by_cases h0 : ls = []
    · rw [h0, joinLines_singleton, splitLines_clean hl]
    · rw [joinLines_cons h0, splitLines_clean_append hl,
        ih h0 fun l' h' => h l' (List.mem_cons_of_mem l h')]

/-! ## The replacements line by line -/

theorem Clean.endsEol {l : List UInt8} (h : Clean l) : endsEol l = false := by
  rw [Ascii.endsEol, Option.any_eq_false]
  exact fun c hc => by simp [h c (List.mem_of_getLast? hc)]

theorem Clean.dropCr {l : List UInt8} (h : Clean l) : dropCr l = l := by
  induction l with
  | nil => rfl
  | cons c l ih =>
    have hc : ¬(c = CR ∧ l.head? = some LF) := by
      rintro ⟨rfl, -⟩
      exact absurd (h CR List.mem_cons_self) (by decide)
    rw [ZoneMta.dropCr, if_neg hc, ih fun x hx => h x (List.mem_cons_of_mem c hx)]

/-- In a line that does not end in white space nothing runs up to a line end. -/
theorem Clean.trimLines {l : List UInt8} (h : Clean l) (hw : endsWsp l = false) :
    trimLines l = l := by
  induction l with
  | nil => rfl
  | cons c l ih =>
    have hl : Clean l := fun x hx => h x (List.mem_cons_of_mem c hx)
    by_cases h0 : l = []
    · subst h0
      have hc : isWsp c = false := by simpa [endsWsp] using hw
      simp [ZoneMta.trimLines, hc]
    · rw [← List.singleton_append, endsWsp_append h0] at hw
      have hend : ¬RegExp.lineEnd (l.dropWhile isWsp) = true := by
        cases hd : l.dropWhile isWsp with
        | nil =>
          have := endsWsp_of_all h0 (List.dropWhile_eq_nil_iff.mp hd)
          rw [hw] at this
          exact absurd this (by simp)
        | cons d t =>
          have hmem : d ∈ l := (List.dropWhile_suffix isWsp).subset (by rw [hd]; simp)
          simp [RegExp.lineEnd, hl d hmem]
      rw [ZoneMta.trimLines, if_neg fun hc => hend hc.2, ih hl hw]

theorem mem_of_mem_reduceWsp {c : UInt8} {s : List UInt8} (h : c ∈ reduceWsp s) :
    c = SP ∨ c ∈ s := by
  induction s with
  | nil => simp [reduceWsp] at h
  | cons d s ih =>
    rw [reduceWsp] at h
    split at h
    · split at h
      · exact (ih h).imp_right (List.mem_cons_of_mem d)
      · rcases List.mem_cons.mp h with rfl | h
        · exact Or.inl rfl
        · exact (ih h).imp_right (List.mem_cons_of_mem d)
    · rcases List.mem_cons.mp h with rfl | h
      · exact Or.inr List.mem_cons_self
      · exact (ih h).imp_right (List.mem_cons_of_mem d)

theorem fixBody_clean {l : List UInt8} (h : Clean l) : fixBody l = relaxLine l := by
  have hl : Clean (l.rdropWhile isWsp) := fun c hc =>
    h c ((List.rdropWhile_prefix isWsp l).subset hc)
  have hlf : LF ∉ reduceWsp (l.rdropWhile isWsp) := fun hm => by
    rcases mem_of_mem_reduceWsp hm with h0 | h0
    · exact absurd h0 (by decide)
    · exact absurd (hl LF h0) (by decide)
  rw [← DkimRelaxedBody.fixBody_rdropWhile, fixBody_eq, hl.dropCr,
    hl.trimLines (DkimRelaxedBody.endsWsp_rdropWhile l), addCr_of_not_mem hlf]
  rfl

/-- The replacements work line by line. -/
theorem fixBody_joinLines {ls : List (List UInt8)} (h : ∀ l ∈ ls, Clean l) :
    fixBody (joinLines ls) = joinLines (ls.map relaxLine) := by
  induction ls with
  | nil => rfl
  | cons l ls ih =>
    have hl := h l List.mem_cons_self
    by_cases h0 : ls = []
    · simp only [h0, joinLines_singleton, List.map_cons, List.map_nil, fixBody_clean hl]
    · have ih := ih fun l' h' => h l' (List.mem_cons_of_mem l h')
      have hcr : l.getLast? = some CR → ([CR, LF] ++ joinLines ls).head? ≠ some LF := fun _ => by
        simp [CR, LF]
      have hbreak : fixBody ([CR, LF] ++ joinLines ls) =
          fixBody [CR, LF] ++ fixBody (joinLines ls) :=
        fixBody_append (fun h => absurd h (by decide)) fun h => absurd h (by decide)
      have hcrlf : fixBody [CR, LF] = [CR, LF] := by decide
      rw [joinLines_cons h0, List.append_assoc, fixBody_append hcr fun _ => rfl, hbreak, hcrlf, ih,
        fixBody_clean hl, List.map_cons, joinLines_cons (by simpa using h0), List.append_assoc]

/-! ## The end of the body -/

/-- The bytes in front of the last line. -/
theorem joinLines_concat (ls : List (List UInt8)) (l : List UInt8) :
    joinLines (ls ++ [l]) = (if ls = [] then [] else joinLines ls ++ [CR, LF]) ++ l := by
  split
  · next h => simp [h]
  · next h => rw [joinLines_append h (by simp), joinLines_singleton]

theorem endsEol_joinLines_concat {l : List UInt8} (h : Clean l) (ls : List (List UInt8)) :
    endsEol (joinLines (ls ++ [l])) = (l.isEmpty && !ls.isEmpty) := by
  rw [joinLines_concat]
  by_cases hl : l = []
  · by_cases hls : ls = []
    · simp [hl, hls]
    · have hend : endsEol (joinLines ls ++ [CR, LF]) = true := endsEol_append (by simp) _
      simp [hl, hls, hend]
  · rw [endsEol_append hl, h.endsEol]
    simp [hl]

/-- The line ends at the end are those of the empty lines there. -/
theorem rdropWhile_isEol_joinLines {ls : List (List UInt8)} (h : ∀ l ∈ ls, Clean l) :
    (joinLines ls).rdropWhile isEol = joinLines (ls.rdropWhile (·.isEmpty)) := by
  induction ls using List.reverseRecOn with
  | nil => rfl
  | append_singleton ls l ih =>
    have ih := ih fun l' h' => h l' (by simp [h'])
    have hl := h l (by simp)
    by_cases h0 : l = []
    · rw [List.rdropWhile_concat_pos _ _ _ (by simp [h0]), ← ih, joinLines_concat, h0,
        List.append_nil]
      split
      · next hls => rw [hls]; rfl
      · exact ForStd.rdropWhile_append_of_all (List.all_eq_true.mp rfl) _
    · have hend := endsEol_joinLines_concat hl ls
      rw [List.rdropWhile_concat_neg _ _ _ (by simpa using h0),
        DkimRelaxedBody.rdropWhile_isEol_of_not (by simp [hend, h0])]

/-- The bytes that are hashed before `_flush`. -/
theorem fixBody_bodyPart_joinLines {ls : List (List UInt8)} (h : ∀ l ∈ ls, Clean l) :
    fixBody (DkimRelaxedBody.bodyPart (joinLines ls)) =
      joinLines ((ls.rdropWhile (·.isEmpty)).map relaxLine) := by
  rw [DkimRelaxedBody.bodyPart, DkimRelaxedBody.fixBody_rdropWhile,
    rdropWhile_isEol_joinLines h, fixBody_joinLines]
  exact fun l hl => h l ((List.rdropWhile_prefix _ ls).subset hl)

end ZoneMta
