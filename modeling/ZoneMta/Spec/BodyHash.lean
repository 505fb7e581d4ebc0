import ZoneMta.Spec.Lines

/-!
# The body hash of the two streams

`LineEnds` followed by `DkimRelaxedBody`, as the message pipeline of `MailDrop.add`
connects them. The hash input does not depend on how the body was cut into chunks. It is
the relaxed canonicalisation of the body for the bodies of `HashesRelaxed`, and for no
other: blank lines with white space at the end of the body are hashed as empty lines, a
missing last line break is not added, and a body of empty lines is hashed as one line
break.

## Key results

- `run_chunking`: the chunks do not matter
- `hashed_eq_relaxedBody_iff`: when the hash input is the relaxed canonicalisation
-/

namespace ZoneMta

open Ascii

/-! ## Chunks -/

/-- Two ways of cutting a body into chunks, before and between the streams, give the same hash
    input, `byteLength` and output. -/
theorem run_chunking (b : List UInt8) (cs cs' ds ds' : List (List UInt8))
    (hcs : cs.flatten = b) (hcs' : cs'.flatten = b)
    (hds : ds.flatten = (LineEnds.run cs).2.flatten)
    (hds' : ds'.flatten = (LineEnds.run cs').2.flatten) :
    DkimRelaxedBody.run ds = DkimRelaxedBody.run ds' := by
  have hpaired : LfPaired none ds.flatten := by rw [hds]; exact lfPaired_run cs
  have hpaired' : LfPaired none ds'.flatten := by rw [hds']; exact lfPaired_run cs'
  have hsame : ds.flatten = ds'.flatten := by
    rw [hds, hds', LineEnds.run_pushed, LineEnds.run_pushed, hcs, hcs']
  rw [DkimRelaxedBody.run_eq ds hpaired, DkimRelaxedBody.run_eq ds' hpaired', hsame]

/-- A `\n` alone and white space at a chunk border. -/
theorem run_chunking_example :
    DkimRelaxedBody.run [[0x61, SP], [CR], [LF, 0x62]] =
      DkimRelaxedBody.run [[0x61], [SP, CR, LF], [], [0x62]] :=
  run_chunking [0x61, SP, LF, 0x62] [[0x61, SP], [LF, 0x62]] [[0x61, SP, LF], [0x62]] _ _
    (by decide) (by decide) (by decide) (by decide)

/-! ## The lines at the end of the body -/

/-- A line of white space only. -/
def isBlank (l : List UInt8) : Bool := l.all isWsp

/-- The condition on a body under which its hash input is the relaxed canonicalisation. Of the
    lines after the last line that is not blank (the text after the last line break counts as a
    line) there is just one, or they are all empty; a body of empty lines has two, so it is one
    line break. -/
def HashesRelaxed (b : List UInt8) : Prop :=
  let tail := (bodyLines b).rtakeWhile isBlank
  tail.length = 1 ∨
    (tail ≠ [] ∧ (∀ l ∈ tail, l = []) ∧ (tail.length = (bodyLines b).length → tail.length = 2))

theorem relaxLine_eq_nil {l : List UInt8} : relaxLine l = [] ↔ isBlank l = true := by
  have hnil : ∀ s : List UInt8, endsWsp s = false → reduceWsp s = [] → s = [] := by
    intro s
    induction s with
    | nil => exact fun _ _ => rfl
    | cons c s ih =>
      intro hend hred
      rw [reduceWsp] at hred
      split at hred
      · split at hred
        · next hs =>
          have h0 : s ≠ [] := fun h0 => by simp [h0] at hs
          rw [← List.singleton_append, endsWsp_append h0] at hend
          exact absurd (ih hend hred) h0
        · simp at hred
      · simp at hred
  rw [relaxLine]
  constructor
  · intro h
    have := hnil _ (DkimRelaxedBody.endsWsp_rdropWhile l) h
    simpa [isBlank] using List.rdropWhile_eq_nil_iff.mp this
  · intro h
    rw [List.rdropWhile_eq_nil_iff.mpr (by simpa [isBlank] using h)]
    rfl

/-- The lines of a body up to the last one that is not blank, the blank lines up to the last one
    that is not empty, and the empty lines at the end. -/
structure Ending (ls : List (List UInt8)) (text blank : List (List UInt8)) (empty : Nat) :
    Prop where
  eq : ls = text ++ (blank ++ List.replicate empty [])
  text_last : ∀ l, text.getLast? = some l → isBlank l = false
  blank_all : ∀ l ∈ blank, isBlank l = true
  blank_last : ∀ l, blank.getLast? = some l → l ≠ []

theorem exists_ending (ls : List (List UInt8)) :
    ∃ text blank empty, Ending ls text blank empty := by
  have hempty : ls.rtakeWhile isBlank =
      (ls.rtakeWhile isBlank).rdropWhile (·.isEmpty) ++
        List.replicate ((ls.rtakeWhile isBlank).rtakeWhile (·.isEmpty)).length [] := by
    rw [← List.eq_replicate_of_mem fun l hl => by simpa using List.mem_rtakeWhile_imp hl]
    exact List.rdropWhile_append_rtakeWhile.symm
  refine ⟨ls.rdropWhile isBlank, (ls.rtakeWhile isBlank).rdropWhile (·.isEmpty),
    ((ls.rtakeWhile isBlank).rtakeWhile (·.isEmpty)).length, ?_, ?_, ?_, ?_⟩
  · exact List.rdropWhile_append_rtakeWhile.symm.trans (congrArg _ hempty)
  · intro l hl
    obtain ⟨hne, rfl⟩ := List.mem_getLast?_eq_getLast hl
    simpa using List.rdropWhile_last_not isBlank ls hne
  · exact fun l hl => List.mem_rtakeWhile_imp ((List.rdropWhile_prefix _ _).subset hl)
  · intro l hl
    obtain ⟨hne, rfl⟩ := List.mem_getLast?_eq_getLast hl
    simpa using List.rdropWhile_last_not List.isEmpty _ hne

namespace Ending

variable {ls text blank : List (List UInt8)} {empty : Nat}

theorem tail_all (h : Ending ls text blank empty) :
    ∀ l ∈ blank ++ List.replicate empty [], isBlank l = true := by
  refine List.forall_mem_append.mpr ⟨h.blank_all, fun l hl => ?_⟩
  rw [List.eq_of_mem_replicate hl]
  rfl

theorem rtakeWhile_isBlank (h : Ending ls text blank empty) :
    ls.rtakeWhile isBlank = blank ++ List.replicate empty [] := by
  rw [h.eq, ForStd.rtakeWhile_append_of_all h.tail_all, ForStd.rtakeWhile_of_getLast? h.text_last,
    List.nil_append]

/-- The last line of the text is not empty. -/
theorem text_last_ne_nil (h : Ending ls text blank empty) {l : List UInt8}
    (hl : text.getLast? = some l) : l ≠ [] := by
  rintro rfl
  exact absurd (h.text_last [] hl) (by decide)

theorem rdropWhile_isEmpty (h : Ending ls text blank empty) :
    ls.rdropWhile (·.isEmpty) = text ++ blank := by
  rw [h.eq, ← List.append_assoc, ForStd.rdropWhile_append_of_all fun l hl => by
    simp [List.eq_of_mem_replicate hl]]
  refine ForStd.rdropWhile_of_getLast? fun l hl => ?_
  rw [List.getLast?_append] at hl
  cases hb : blank.getLast? with
  | some l' =>
    have heq : l' = l := by simpa [hb] using hl
    simpa [heq] using h.blank_last l' hb
  | none =>
    have hl : text.getLast? = some l := by simpa [hb] using hl
    simpa using h.text_last_ne_nil hl

/-- The lines of the relaxed body. -/
theorem rdropWhile_map_relaxLine (h : Ending ls text blank empty) :
    (ls.map relaxLine).rdropWhile (·.isEmpty) = text.map relaxLine := by
  have htail : ∀ l ∈ (blank ++ List.replicate empty []).map relaxLine, l.isEmpty = true := by
    intro l hl
    obtain ⟨l', hl', rfl⟩ := List.mem_map.mp hl
    rw [relaxLine_eq_nil.mpr (h.tail_all l' hl')]
    rfl
  rw [h.eq, List.map_append, ForStd.rdropWhile_append_of_all htail]
  refine ForStd.rdropWhile_of_getLast? fun l hl => ?_
  rw [List.getLast?_map, Option.map_eq_some_iff] at hl
  obtain ⟨l', hl', rfl⟩ := hl
  have hne : relaxLine l' ≠ [] := fun h0 => by
    rw [relaxLine_eq_nil, h.text_last l' hl'] at h0
    exact absurd h0 (by simp)
  simpa using hne

theorem map_relaxLine_blank (h : Ending ls text blank empty) :
    blank.map relaxLine = List.replicate blank.length [] := by
  refine List.eq_replicate_iff.mpr ⟨by simp, fun l hl => ?_⟩
  obtain ⟨l', hl', rfl⟩ := List.mem_map.mp hl
  exact relaxLine_eq_nil.mpr (h.blank_all l' hl')

theorem length (h : Ending ls text blank empty) :
    ls.length = text.length + (blank.length + empty) := by
  rw [h.eq]; simp

/-- There is a byte in the lines unless all are empty. -/
theorem sum_length (h : Ending ls text blank empty) :
    (text = [] → blank = [] → (ls.map List.length).sum = 0) ∧
    (text ≠ [] ∨ blank ≠ [] → 0 < (ls.map List.length).sum) := by
  rw [h.eq]
  constructor
  · rintro rfl rfl
    simp
  · intro hne
    have hsum : ∀ (xs : List (List UInt8)) l, l ∈ xs → l ≠ [] → 0 < (xs.map List.length).sum :=
      fun xs l hl hl0 => List.sum_pos_iff_exists_pos_nat.mpr
        ⟨l.length, List.mem_map_of_mem hl, List.length_pos_iff.mpr hl0⟩
    rcases hne with h0 | h0
    · have hlast := List.getLast?_eq_some_getLast h0
      exact hsum _ _ (by simp) (h.text_last_ne_nil hlast)
    · have hlast := List.getLast?_eq_some_getLast h0
      exact hsum _ (blank.getLast h0) (by simp) (h.blank_last _ hlast)

/-- Whether the body ends in a line break. -/
theorem endsEol_joinLines (h : Ending ls text blank empty) (hclean : ∀ l ∈ ls, Clean l) :
    endsEol (joinLines ls) = true ↔ 1 ≤ empty ∧ 2 ≤ ls.length := by
  have hlen := h.length
  cases empty with
  | zero =>
    have hls : ls.rdropWhile (·.isEmpty) = ls := by
      rw [h.rdropWhile_isEmpty, h.eq]; simp
    have hend := rdropWhile_isEol_joinLines hclean
    rw [hls] at hend
    constructor
    · intro he
      rw [List.rdropWhile_eq_self_iff] at hend
      have hne : joinLines ls ≠ [] := fun h0 => by simp [h0] at he
      refine absurd ?_ (hend hne)
      simpa [endsEol, List.getLast?_eq_some_getLast hne] using he
    · exact fun he => absurd he.1 (by omega)
  | succ n =>
    have hcut : ls = text ++ (blank ++ List.replicate n []) ++ [[]] := by
      rw [h.eq, List.replicate_succ']
      simp only [List.append_assoc]
    have hinit : (text ++ (blank ++ List.replicate n [])).length = text.length +
        (blank.length + n) := by simp
    rw [hcut, endsEol_joinLines_concat fun _ hc => absurd hc (by simp)]
    simp only [List.isEmpty_nil, Bool.true_and, Bool.not_eq_true', List.isEmpty_eq_false_iff,
      ← List.length_pos_iff, hinit, List.length_append, List.length_cons, List.length_nil]
    omega

end Ending

/-! ## Line breaks at the end -/

/-- Line breaks for `k` empty lines. -/
def lineBreaks (k : Nat) : List UInt8 := (List.replicate k [CR, LF]).flatten

theorem length_lineBreaks (k : Nat) : (lineBreaks k).length = 2 * k := by
  simp [lineBreaks, Nat.mul_comm]

theorem lineBreaks_succ (k : Nat) : lineBreaks (k + 1) = lineBreaks k ++ [CR, LF] := by
  simp [lineBreaks, List.replicate_succ']

theorem joinLines_append_replicate {ls : List (List UInt8)} (h : ls ≠ []) (k : Nat) :
    joinLines (ls ++ List.replicate k []) = joinLines ls ++ lineBreaks k := by
  induction k with
  | zero => simp [lineBreaks]
  | succ k ih =>
    rw [List.replicate_succ', ← List.append_assoc, joinLines_concat, if_neg (by simp [h]), ih,
      lineBreaks_succ, List.append_nil, List.append_assoc]

theorem joinLines_replicate (k : Nat) :
    joinLines (List.replicate k []) = lineBreaks (k - 1) := by
  cases k with
  | zero => rfl
  | succ k =>
    rw [List.replicate_succ, ← List.singleton_append, joinLines_append_replicate (by simp),
      joinLines_singleton, List.nil_append, Nat.add_sub_cancel]

/-! ## The relaxed canonicalisation -/

/-- Hash input and canonicalisation of a body, seen from its end. -/
theorem hashInput_eq_relaxedBody_iff {ls text blank : List (List UInt8)} {empty : Nat}
    (hne : ls ≠ []) (hclean : ∀ l ∈ ls, Clean l) (h : Ending ls text blank empty) :
    DkimRelaxedBody.hashInput (joinLines ls) = relaxedBody (joinLines ls) ↔
      blank.length + empty = 1 ∨
        (blank.length = 0 ∧ empty ≠ 0 ∧ (text = [] → empty = 2)) := by
  have hlen := h.length
  have hpos := List.length_pos_iff.mpr hne
  have hbytes := length_joinLines hne
  -- `_flush` adds a line break if the body ends in one and is not just one
  have hflush : (endsEol (joinLines ls) = true ∧ (joinLines ls).length > 2) ↔
      1 ≤ empty ∧ 2 ≤ ls.length ∧ (joinLines ls).length > 2 := by
    rw [h.endsEol_joinLines hclean, and_assoc]
  rw [DkimRelaxedBody.hashInput, relaxedBody, fixBody_bodyPart_joinLines hclean,
    splitLines_joinLines hne hclean, h.rdropWhile_isEmpty, h.rdropWhile_map_relaxLine,
    List.map_append, h.map_relaxLine_blank]
  simp only [hflush]
  by_cases htext : text = []
  · -- no text: nothing may be hashed
    subst htext
    have hsum := h.sum_length
    have hblank : blank = [] ↔ blank.length = 0 := List.length_eq_zero_iff.symm
    simp only [hblank, ne_eq, not_true_eq_false, false_or, true_implies] at hsum
    rw [List.map_nil, List.nil_append, joinLines_replicate, List.flatMap_nil, ← List.length_eq_zero_iff,
      List.length_append, length_lineBreaks]
    simp only [List.length_nil, true_implies] at hlen ⊢
    split <;> simp only [List.length_cons, List.length_nil] <;> omega
  · -- behind the text one line break must be hashed
    have hsum := h.sum_length.2 (Or.inl htext)
    have htextlen := List.length_pos_iff.mpr htext
    have hmap : text.map relaxLine ≠ [] := by simpa using htext
    rw [joinLines_append_replicate hmap, flatMap_crlf hmap, List.append_assoc,
      List.append_cancel_left_eq]
    simp only [htext, false_implies, and_true]
    constructor
    · intro heq
      have := congrArg List.length heq
      rw [List.length_append, length_lineBreaks] at this
      split at this <;> simp only [List.length_cons, List.length_nil] at this <;> omega
    · intro heq
      obtain ⟨hb, he⟩ | ⟨hb, he⟩ :
          (blank.length = 1 ∧ empty = 0) ∨ (blank.length = 0 ∧ 1 ≤ empty) := by omega
      · rw [hb, if_neg (by omega)]
        rfl
      · rw [hb, if_pos (by omega)]
        rfl

/-- Lines behind the text, counted. -/
theorem hashesRelaxed_iff {b : List UInt8} {text blank : List (List UInt8)} {empty : Nat}
    (h : Ending (bodyLines b) text blank empty) :
    HashesRelaxed b ↔ blank.length + empty = 1 ∨
      (blank.length = 0 ∧ empty ≠ 0 ∧ (text = [] → empty = 2)) := by
  have hlen := h.length
  have htext : text = [] ↔ text.length = 0 := List.length_eq_zero_iff.symm
  have hall : (∀ l ∈ blank ++ List.replicate empty [], l = []) ↔ blank.length = 0 := by
    rw [List.length_eq_zero_iff]
    constructor
    · intro hnil
      by_contra hb
      have hlast := List.getLast?_eq_some_getLast hb
      exact h.blank_last _ hlast (hnil _ (by simp))
    · rintro rfl l hl
      simpa using (List.mem_replicate.mp (by simpa using hl)).2
  simp only [HashesRelaxed, h.rtakeWhile_isBlank, hall, ne_eq, ← List.length_eq_zero_iff (l := _ ++ _),
    List.length_append, List.length_replicate, htext, hlen]
  omega

/-- The bytes given to `bodyHash.update` are the relaxed canonicalisation of the output of
    `LineEnds` exactly for the bodies of `HashesRelaxed`. -/
theorem hashed_eq_relaxedBody_iff (b : List UInt8) (hb : CrPaired b) (cs ds : List (List UInt8))
    (hcs : cs.flatten = b) (hds : ds.flatten = (LineEnds.run cs).2.flatten) :
    (DkimRelaxedBody.run ds).hashed = relaxedBody (LineEnds.run cs).2.flatten ↔
      HashesRelaxed b := by
  obtain ⟨text, blank, empty, hend⟩ := exists_ending (bodyLines b)
  have hpaired : LfPaired none ds.flatten := by rw [hds]; exact lfPaired_run cs
  have hlines : (LineEnds.run cs).2.flatten = joinLines (bodyLines b) := by
    rw [LineEnds.run_pushed, hcs, ensureCr_eq_joinLines hb]
  rw [DkimRelaxedBody.run_eq ds hpaired, hds, hlines, hashesRelaxed_iff hend]
  exact hashInput_eq_relaxedBody_iff (bodyLines_ne_nil b) (clean_bodyLines b) hend

/-- A body with a blank line of one space at its end. -/
def blankLineBody : List UInt8 := [0x61, CR, LF, SP, CR, LF]

/-- The blank line is hashed as an empty line. -/
theorem hashed_blankLineBody :
    ¬∀ b : List UInt8, CrPaired b → ∀ cs ds : List (List UInt8), cs.flatten = b →
      ds.flatten = (LineEnds.run cs).2.flatten →
      (DkimRelaxedBody.run ds).hashed = relaxedBody (LineEnds.run cs).2.flatten := by
  intro h
  have := h blankLineBody (by simp [CrPaired, blankLineBody, CR, LF, SP]) [blankLineBody]
    [blankLineBody] rfl (by decide)
  exact absurd this (by decide)

theorem hashed_eq_relaxedBody_iff_example :
    (DkimRelaxedBody.run [[0x61, CR], [LF]]).hashed =
        relaxedBody (LineEnds.run [[0x61, CR, LF]]).2.flatten ↔
      HashesRelaxed [0x61, CR, LF] :=
  hashed_eq_relaxedBody_iff [0x61, CR, LF] (by simp [CrPaired, CR, LF]) [[0x61, CR, LF]]
    [[0x61, CR], [LF]] rfl (by decide)

end ZoneMta
