import ZoneMta.ForStd.List
import ZoneMta.Spec.FormatResponse

/-!
# Replies in one line: when the result is right

What the expression matches at the beginning of a line, and from that line by line whether the
matches cover the codes.

## Key results

- `replyCode_append`: what the expression matches
- `covered_lines`: the lines behind the first one
- `formatted_iff`: the replies of which the result is right
-/

namespace ZoneMta

namespace Bounces

open ForStd (Covers)

/-! ## The expression -/

section

variable {α : Type*} {char : α → Char}

/-- What the expression matches: three digits, separators, and a status with the white space behind
    it. -/
theorem replyCode_append {code seps status spaces s : List α} (hlength : code.length = 3)
    (hcode : ∀ c ∈ code, (char c).isDigit = true)
    (hseps : ∀ c ∈ seps, isSeparator (char c) = true) (hne : seps ≠ [])
    (hstatus : ∀ c ∈ status, isStatusChar (char c) = true)
    (hspaces : ∀ c ∈ spaces, isSpace (char c) = true) (hnil : status = [] → spaces = [])
    (hsep : ∀ c ∈ (status ++ (spaces ++ s)).head?, isSeparator (char c) = false)
    (hdot : ∀ c ∈ (spaces ++ s).head?, isStatusChar (char c) = false)
    (hspace : status ≠ [] → ∀ c ∈ s.head?, isSpace (char c) = false) :
    replyCode char (code ++ (seps ++ (status ++ (spaces ++ s)))) =
      some (code.length + seps.length + status.length + spaces.length) := by
  have htake : (code ++ (seps ++ (status ++ (spaces ++ s)))).take 3 = code := by
    rw [← hlength, List.take_left]
  have hdrop : (code ++ (seps ++ (status ++ (spaces ++ s)))).drop 3 =
      seps ++ (status ++ (spaces ++ s)) := by
    rw [← hlength, List.drop_left]
  have hall : code.all (Char.isDigit ∘ char) = true := List.all_eq_true.mpr hcode
  have hlengthSeps : seps.length ≠ 0 := by simpa using hne
  simp only [replyCode]
  rw [htake, hdrop, ForStd.takeWhile_append_of_head (p := isSeparator ∘ char) hseps hsep,
    List.drop_left, ForStd.takeWhile_append_of_head (p := isStatusChar ∘ char) hstatus hdot,
    List.drop_left, if_pos ⟨hlength, hall, hlengthSeps⟩, hlength]
  cases status with
  | nil => simp [hnil rfl]
  | cons c status =>
    rw [ForStd.takeWhile_append_of_head (p := isSpace ∘ char) hspaces
      (hspace (List.cons_ne_nil _ _))]
    rfl

/-- The expression depends on four characters. -/
theorem replyCode_eq_none_iff (t : List α) :
    replyCode char t = none ↔
      ¬((t.take 3).length = 3 ∧ (t.take 3).all (Char.isDigit ∘ char) = true ∧
        ∃ c ∈ (t.drop 3).head?, isSeparator (char c) = true) := by
  have hseps : ((t.drop 3).takeWhile (isSeparator ∘ char)).length ≠ 0 ↔
      ∃ c ∈ (t.drop 3).head?, isSeparator (char c) = true := by
    cases t.drop 3 with
    | nil => simp
    | cons c s => cases hc : isSeparator (char c) <;> simp [hc]
  simp only [replyCode]
  rw [← hseps]
  split
  next h => exact iff_of_false (Option.some_ne_none _) (not_not.mpr h)
  next h => exact iff_of_true rfl h

theorem le_length_of_replyCode {t : List α} {n : Nat} (h : replyCode char t = some n) :
    n ≤ t.length := by
  have hle (q : α → Bool) (l : List α) : (l.takeWhile q).length ≤ l.length :=
    (List.takeWhile_prefix q).length_le
  simp only [replyCode] at h
  split at h
  next hcode =>
    have hlength := hcode.1
    have hseps := hle (isSeparator ∘ char) (t.drop 3)
    generalize ((t.drop 3).takeWhile (isSeparator ∘ char)).length = seps at h hseps
    have hstatus := hle (isStatusChar ∘ char) ((t.drop 3).drop seps)
    generalize (((t.drop 3).drop seps).takeWhile (isStatusChar ∘ char)).length = status
      at h hstatus
    have hspaces := hle (isSpace ∘ char) (((t.drop 3).drop seps).drop status)
    simp only [List.length_drop, List.length_take, Option.some.injEq] at *
    split at h <;> omega
  next => cases h

/-- The match is in a line, if there is more than separators in it. -/
theorem replyCode_append_left {s t : List α} {newline : α} (hlength : 3 ≤ s.length)
    (hsep : ∃ c ∈ s.drop 3, isSeparator (char c) = false)
    (hlast : s.getLast? = some newline) (hnewline : isStatusChar (char newline) = false)
    (ht : ∀ c ∈ t.head?, isSpace (char c) = false) :
    replyCode char (s ++ t) = replyCode char s := by
  have hseps : ((s.drop 3) ++ t).takeWhile (isSeparator ∘ char) =
      (s.drop 3).takeWhile (isSeparator ∘ char) := ForStd.takeWhile_append_left (Or.inl hsep)
  have hlt : ((s.drop 3).takeWhile (isSeparator ∘ char)).length < (s.drop 3).length := by
    apply Nat.lt_of_le_of_ne (List.takeWhile_prefix _).length_le
    intro hall
    have hself := (List.takeWhile_prefix (isSeparator ∘ char)).eq_of_length hall
    obtain ⟨c, hc, hnot⟩ := hsep
    have hc := List.takeWhile_eq_self_iff.mp hself c hc
    rw [Function.comp_apply, hnot] at hc
    exact nomatch hc
  simp only [replyCode]
  rw [List.take_append_of_le_length hlength, List.drop_append_of_le_length hlength, hseps,
    List.drop_append_of_le_length (Nat.le_of_lt hlt)]
  generalize ((s.drop 3).takeWhile (isSeparator ∘ char)).length = seps at hlt
  have hmem : newline ∈ (s.drop 3).drop seps := by
    apply List.mem_of_getLast?
    rw [List.getLast?_drop, if_neg (Nat.not_le.mpr hlt), List.getLast?_drop, if_neg, hlast]
    rw [List.length_drop] at hlt
    omega
  have hstatus : (((s.drop 3).drop seps) ++ t).takeWhile (isStatusChar ∘ char) =
      ((s.drop 3).drop seps).takeWhile (isStatusChar ∘ char) :=
    ForStd.takeWhile_append_left (Or.inl ⟨newline, hmem, hnewline⟩)
  have hle := (List.takeWhile_prefix (isStatusChar ∘ char) (l := (s.drop 3).drop seps)).length_le
  rw [hstatus, List.drop_append_of_le_length hle,
    ForStd.takeWhile_append_left (p := isSpace ∘ char) (Or.inr ht)]

end

/-- It does not go on behind the end of a line. -/
theorem replyCode_newline (t s : List Char) :
    replyCode id (t ++ '\n' :: s) = none ↔ replyCode id (t ++ ['\n']) = none := by
  by_cases hlength : 3 ≤ t.length
  · have hhead : (t.drop 3 ++ '\n' :: s).head? = (t.drop 3 ++ ['\n']).head? := by
      cases t.drop 3 <;> rfl
    rw [replyCode_eq_none_iff, replyCode_eq_none_iff, List.take_append_of_le_length hlength,
      List.take_append_of_le_length hlength, List.drop_append_of_le_length hlength,
      List.drop_append_of_le_length hlength, hhead]
  · -- the line break is in the place of a digit
    have hnone (s : List Char) : replyCode id (t ++ '\n' :: s) = none := by
      rw [replyCode_eq_none_iff]
      rintro ⟨-, hall, -⟩
      obtain ⟨k, hk⟩ : ∃ k, 3 - t.length = k + 1 := ⟨2 - t.length, by omega⟩
      have hmem : '\n' ∈ (t ++ '\n' :: s).take 3 := by
        rw [List.take_append, hk, List.take_succ_cons]
        exact List.mem_append_right _ List.mem_cons_self
      exact absurd (List.all_eq_true.mp hall _ hmem) (by decide)
    exact iff_of_true (hnone s) (hnone [])

/-! ## Texts -/

/-- A line begins behind `prev`. -/
def starts (prev : Option (Char × Bool)) : Bool := prev.all (isLineTerminator ∘ Prod.fst)

/-- A line ends before `e`. -/
def AtEnd (e : List (Char × Bool)) : Prop := ∀ c ∈ e.head?, c = ('\n', true)

/-- The end of the line before `e`. -/
def eol (e : List (Char × Bool)) : List Char := (e.take 1).map Prod.fst

theorem replyCode_mark {e : List (Char × Bool)} (he : AtEnd e) (t : List Char) :
    replyCode Prod.fst (mark true t ++ e) = none ↔ replyCode id (t ++ eol e) = none := by
  have hmap : replyCode id ((mark true t ++ e).map Prod.fst) =
      replyCode Prod.fst (mark true t ++ e) := replyCode_map Prod.fst (fun _ => rfl) _
  rw [← hmap, List.map_append, map_fst_mark]
  cases e with
  | nil => rfl
  | cons c e =>
    rw [he c rfl]
    exact replyCode_newline t (e.map Prod.fst)

theorem not_isSpace_of_isDigit {c : Char} (h : c.isDigit = true) : isSpace c = false := by
  rw [← Bool.not_eq_true]
  exact fun hspace => absurd h (by rw [not_isDigit_of_isSpace hspace]; exact Bool.false_ne_true)

theorem covered_cons_of_space {prev : Option (Char × Bool)} {c : Char × Bool}
    (hc : space c = true) (s : List (Char × Bool)) :
    Covered prev (c :: s) ↔ Covered (some c) s := by
  rw [Covered, ForStd.covers_of_none (replyCodeBehind_of_space prev c s hc)]
  exact and_iff_right (Or.inl hc)

theorem replyCodeBehind_eq (prev : Option (Char × Bool)) (t : List (Char × Bool)) :
    replyCodeBehind Prod.fst prev t = if starts prev then replyCode Prod.fst t else none := rfl

theorem replyCodeBehind_eq_none_iff (prev : Option (Char × Bool)) (t : List (Char × Bool)) :
    replyCodeBehind Prod.fst prev t = none ↔
      (starts prev = true → replyCode Prod.fst t = none) := by
  rw [replyCodeBehind_eq]
  split
  next h => simp [h]
  next h => simp [h]

/-- A match that covers a character that is to stay. -/
theorem not_covered_of_mem {prev : Option (Char × Bool)} {s : List (Char × Bool)} {n : Nat}
    (hprev : starts prev = true) (hcode : replyCode Prod.fst s = some n) {c : Char × Bool}
    (hc : c ∈ s.take n) (hspace : space c = false) (hkeep : c.2 = true) : ¬Covered prev s := by
  intro h
  have hm : replyCodeBehind Prod.fst prev s = some n := by
    rw [replyCodeBehind_eq, if_pos hprev, hcode]
  cases ForStd.forall_of_covers_of_some h hm c hc with
  | inl h => exact Bool.false_ne_true (hspace.symm.trans h)
  | inr h =>
    rw [goes, hkeep] at h
    cases h

/-- Behind a character that no line begins behind there is no match. -/
theorem covered_cons_of_not_starts {prev : Option (Char × Bool)} (hprev : starts prev = false)
    (c : Char × Bool) (s : List (Char × Bool)) :
    Covered prev (c :: s) ↔ (space c = true ∨ goes c = false) ∧ Covered (some c) s :=
  ForStd.covers_of_none (by rw [replyCodeBehind_eq, hprev]; rfl)

/-- At the end of a line it makes no difference what is before. -/
theorem covered_of_atEnd {e : List (Char × Bool)} (he : AtEnd e)
    (prev prev' : Option (Char × Bool)) : Covered prev e ↔ Covered prev' e := by
  cases e with
  | nil => exact Iff.rfl
  | cons c e =>
    have hc : space c = true := by rw [he c rfl]; decide
    rw [covered_cons_of_space hc, covered_cons_of_space hc]

/-- A text is covered if there is no code in it. -/
theorem covered_text {e : List (Char × Bool)} (he : AtEnd e) (prev : Option (Char × Bool))
    (t : List Char) :
    Covered prev (mark true t ++ e) ↔ NoCode (starts prev) (t ++ eol e) ∧ Covered none e := by
  induction t generalizing prev with
  | nil =>
    have hnone : NoCode (starts prev) (eol e) := by
      cases e with
      | nil => trivial
      | cons c e =>
        rw [he c rfl]
        exact ⟨fun _ => replyCode_cons_of_not id (by decide) [], trivial⟩
    rw [List.nil_append]
    exact (covered_of_atEnd he prev none).trans (and_iff_right hnone).symm
  | cons c t ih =>
    have hnone := (replyCodeBehind_eq_none_iff prev _).trans
      (imp_congr_right fun _ => replyCode_mark he (c :: t))
    rw [mark_cons, List.cons_append, List.cons_append] at hnone ⊢
    rw [NoCode, ← hnone]
    cases hm : replyCodeBehind Prod.fst prev ((c, true) :: (mark true t ++ e)) with
    | none =>
      have hkeep : space (c, true) = true ∨ goes (c, true) = false := Or.inr rfl
      rw [Covered, ForStd.covers_of_none hm, and_iff_right hkeep, and_iff_right rfl]
      exact ih (some (c, true))
    | some n =>
      -- the text loses a digit
      have hstarts : starts prev = true := by
        by_contra hnot
        rw [replyCodeBehind_eq, if_neg hnot] at hm
        exact nomatch hm
      have hcode : replyCode Prod.fst ((c, true) :: (mark true t ++ e)) = some n := by
        rwa [replyCodeBehind_eq, if_pos hstarts] at hm
      have hdigit : c.isDigit = true := by
        by_contra hdigit
        rw [replyCode_cons_of_not Prod.fst (Bool.not_eq_true _ ▸ hdigit)] at hcode
        exact nomatch hcode
      have hn : n ≠ 0 := fun h => replyCode_ne_zero _ (h ▸ hcode)
      obtain ⟨k, rfl⟩ := Nat.exists_eq_succ_of_ne_zero hn
      apply iff_of_false
      · have hspace := not_isSpace_of_isDigit hdigit
        exact not_covered_of_mem hstarts hcode List.mem_cons_self hspace rfl
      · exact fun h => nomatch h.1.1

/-! ## Codes -/

theorem isSeparator_of_isSpace {c : Char} (h : isSpace c = true) : isSeparator c = true := by
  rw [isSeparator, h, Bool.true_or]

theorem not_isSeparator_of_isStatusChar {c : Char} (h : isStatusChar c = true) :
    isSeparator c = false := by
  rw [isStatusChar, Bool.or_eq_true, beq_iff_eq] at h
  rw [isSeparator, Bool.or_eq_false_iff, beq_eq_false_iff_ne]
  cases h with
  | inl hdigit =>
    refine ⟨not_isSpace_of_isDigit hdigit, ?_⟩
    rintro rfl
    exact absurd hdigit (by decide)
  | inr hdot =>
    rw [hdot]
    decide

theorem not_isStatusChar_of_isSpace {c : Char} (h : isSpace c = true) :
    isStatusChar c = false := by
  rw [← Bool.not_eq_true]
  intro hstatus
  have hsep := not_isSeparator_of_isStatusChar hstatus
  rw [isSeparator, h] at hsep
  exact nomatch hsep

/-- A status, or what is taken for one. -/
theorem replyCode_of_status {code seps status e : List (Char × Bool)} (hlength : code.length = 3)
    (hcode : ∀ c ∈ code, c.1.isDigit = true) (hseps : ∀ c ∈ seps, isSeparator c.1 = true)
    (hne : seps ≠ []) (hstatus : ∀ c ∈ status, isStatusChar c.1 = true) (hstatusNe : status ≠ [])
    (he : ∀ c ∈ e.head?, isStatusChar c.1 = false) :
    replyCode Prod.fst (code ++ (seps ++ (status ++ e))) =
      some (code.length + seps.length + status.length + (e.takeWhile space).length) := by
  have hsplit := List.takeWhile_append_dropWhile (p := space) (l := e)
  rw [← hsplit] at he
  have hspaces : ∀ c ∈ e.takeWhile space, isSpace c.1 = true := fun c hc =>
    List.mem_takeWhile_imp (p := space) hc
  have hsep : ∀ c ∈ (status ++ (e.takeWhile space ++ e.dropWhile space)).head?,
      isSeparator c.1 = false := by
    obtain ⟨c, t, rfl⟩ := List.exists_cons_of_ne_nil hstatusNe
    intro d hd
    cases hd
    exact not_isSeparator_of_isStatusChar (hstatus c List.mem_cons_self)
  have hspace : ∀ c ∈ (e.dropWhile space).head?, isSpace c.1 = false := by
    intro c hc
    have hhead := List.head?_dropWhile_not space e
    rw [Option.mem_def.mp hc] at hhead
    exact hhead
  have hmatch := replyCode_append hlength hcode hseps hne hstatus hspaces
    (fun hnil => absurd hnil hstatusNe) hsep he fun _ => hspace
  rwa [hsplit] at hmatch

/-- A text without a status. -/
theorem replyCode_of_text {code spaces s : List (Char × Bool)} {sep c : Char × Bool}
    (hlength : code.length = 3) (hcode : ∀ c ∈ code, c.1.isDigit = true)
    (hsep : isSeparator sep.1 = true) (hspaces : ∀ c ∈ spaces, space c = true)
    (hc : isSeparator c.1 = false) (hdot : isStatusChar c.1 = false) :
    replyCode Prod.fst (code ++ (sep :: (spaces ++ c :: s))) =
      some (code.length + 1 + spaces.length) := by
  have hseps : ∀ c ∈ sep :: spaces, isSeparator c.1 = true := by
    rw [List.forall_mem_cons]
    exact ⟨hsep, fun c hc => isSeparator_of_isSpace (hspaces c hc)⟩
  have hmatch : replyCode Prod.fst (code ++ (sep :: spaces ++ ([] ++ ([] ++ c :: s)))) =
      some (code.length + (sep :: spaces).length + 0 + 0) :=
    replyCode_append hlength hcode hseps (List.cons_ne_nil _ _) (by simp) (by simp) (fun _ => rfl)
      (by simpa using hc) (by simpa using hdot) (fun h => absurd rfl h)
  rw [List.nil_append, List.nil_append, List.cons_append] at hmatch
  rw [hmatch, List.length_cons]
  simp only [Option.some.injEq]
  omega

/-- A text without a status that begins like one, of which the expression takes the first
    character. -/
theorem replyCode_of_loss {code spaces : List (Char × Bool)} (sep c : Char × Bool)
    (s : List (Char × Bool)) (hlength : code.length = 3) (hcode : ∀ c ∈ code, c.1.isDigit = true)
    (hsep : isSeparator sep.1 = true) (hspaces : ∀ c ∈ spaces, isSeparator c.1 = true)
    (hc : isStatusChar c.1 = true ∨ c.1 = '-') :
    ∃ n, replyCode Prod.fst (code ++ (sep :: (spaces ++ c :: s))) = some n ∧
      c ∈ (code ++ (sep :: (spaces ++ c :: s))).take n := by
  have hseps : ∀ c ∈ sep :: spaces, isSeparator c.1 = true :=
    List.forall_mem_cons.mpr ⟨hsep, hspaces⟩
  have htake : (code ++ (sep :: (spaces ++ c :: s))).take 3 = code := by
    rw [← hlength, List.take_left]
  have hdrop : (code ++ (sep :: (spaces ++ c :: s))).drop 3 = sep :: spaces ++ c :: s := by
    rw [← hlength, List.drop_left]
    rfl
  have hall : code.all (Char.isDigit ∘ Prod.fst) = true := List.all_eq_true.mpr hcode
  -- the match goes on behind the white space
  have hlong : ∃ n, replyCode Prod.fst (code ++ (sep :: (spaces ++ c :: s))) = some n ∧
      5 + spaces.length ≤ n := by
    cases hc with
    | inl hstatus =>
      have hhead : ∀ d ∈ (c :: s).head?, isSeparator d.1 = false := by
        rintro d ⟨⟩
        exact not_isSeparator_of_isStatusChar hstatus
      simp only [replyCode]
      rw [htake, hdrop, ForStd.takeWhile_append_of_head (p := isSeparator ∘ Prod.fst) hseps hhead,
        List.drop_left, if_pos ⟨hlength, hall, by simp⟩]
      refine ⟨_, rfl, ?_⟩
      rw [List.takeWhile_cons_of_pos (p := isStatusChar ∘ Prod.fst) hstatus, List.length_cons,
        List.length_cons]
      omega
    | inr hhyphen =>
      have hseps' : ∀ d ∈ sep :: spaces ++ [c], isSeparator d.1 = true := by
        rw [List.forall_mem_append, List.forall_mem_singleton, hhyphen]
        exact ⟨hseps, by decide⟩
      simp only [replyCode]
      rw [htake, hdrop, List.append_cons, List.takeWhile_append_of_pos
        (p := isSeparator ∘ Prod.fst) hseps', List.length_append,
        if_pos ⟨hlength, hall, by simp⟩]
      refine ⟨_, rfl, ?_⟩
      rw [List.length_append, List.length_cons, List.length_singleton]
      omega
  obtain ⟨n, hn, hle⟩ := hlong
  refine ⟨n, hn, ?_⟩
  obtain ⟨k, hk⟩ : ∃ k, n - (code ++ sep :: spaces).length = k + 1 := by
    refine ⟨n - 5 - spaces.length, ?_⟩
    rw [List.length_append, List.length_cons, hlength]
    omega
  have hassoc : code ++ (sep :: (spaces ++ c :: s)) = (code ++ sep :: spaces) ++ c :: s := by simp
  rw [hassoc, List.take_append, hk, List.take_succ_cons]
  exact List.mem_append_right _ List.mem_cons_self

/-- A match, of which the white space at the end makes no difference. -/
theorem covered_match {prev : Option (Char × Bool)} {w e : List (Char × Bool)}
    (hprev : starts prev = true) (hw : w ≠ []) (hgo : ∀ c ∈ w, space c = true ∨ goes c = true)
    (hcode : replyCode Prod.fst (w ++ e) = some (w.length + (e.takeWhile space).length)) :
    Covered prev (w ++ e) ↔ Covered w.getLast? e := by
  have hsplit := List.takeWhile_append_dropWhile (p := space) (l := e)
  have hm : replyCodeBehind Prod.fst prev (w ++ (e.takeWhile space ++ e.dropWhile space)) =
      some (w.length + (e.takeWhile space).length) := by
    rw [replyCodeBehind_eq, if_pos hprev, hsplit, hcode]
  have hmatch : Covered prev (w ++ (e.takeWhile space ++ e.dropWhile space)) ↔ _ :=
    ForStd.covers_match_blanks replyCodeBehind_of_space hw
      (fun c hc => List.mem_takeWhile_imp hc) hm
  rw [hsplit] at hmatch
  exact hmatch.trans (and_iff_right hgo)

theorem not_isLineTerminator_of_isDigit {c : Char} (h : c.isDigit = true) :
    isLineTerminator c = false := by
  rw [← Bool.not_eq_true]
  intro hline
  simp only [isLineTerminator, Bool.or_eq_true, beq_iff_eq] at hline
  obtain ((rfl | rfl) | rfl) | rfl := hline <;> exact absurd h (by decide)

theorem Status.text_ne_nil (status : Status) : status.text ≠ [] := by
  rw [Status.text]
  simp

theorem Status.isStatusChar_of_mem {status : Status} {c : Char} (h : c ∈ status.text) :
    isStatusChar c = true := by
  have hdigits (d : Digits) (hc : c ∈ d.val) : isStatusChar c = true := by
    rw [isStatusChar, d.property.2 c hc, Bool.true_or]
  rw [Status.text, List.mem_append, List.mem_cons, List.mem_append, List.mem_cons] at h
  obtain h | rfl | h | rfl | h := h
  · exact hdigits _ h
  · decide
  · exact hdigits _ h
  · decide
  · exact hdigits _ h

theorem Status.isDigit_of_mem_getLast? {status : Status} {c : Char}
    (h : c ∈ status.text.getLast?) : c.isDigit = true := by
  have htext : status.text = (status.class.val ++ '.' :: (status.subject.val ++ ['.'])) ++
      status.detail.val := by
    simp [Status.text]
  rw [htext, List.getLast?_append_of_ne_nil _ status.detail.property.1] at h
  exact status.detail.property.2 c (List.mem_of_getLast? h)

/-- What holds of a hyphen and a space. -/
theorem Line.forall_separator (l : Line) {P : Char → Prop} (hhyphen : P '-') (hspace : P ' ') :
    P l.separator := by
  cases l.separator_eq with
  | inl h => rwa [h]
  | inr h => rwa [h]

theorem Line.isSeparator_separator (l : Line) : isSeparator l.separator = true :=
  l.forall_separator (P := (isSeparator · = true)) (by decide) (by decide)

/-! ## Lines -/

/-- The other lines, as `trim` leaves them. -/
def trimmed (code : List Char) (ls : List Line) : List (Char × Bool) :=
  (marked code ls).rdropWhile space

/-- A text and the lines behind it, as `trim` leaves them. -/
def rest (code text : List Char) (ls : List Line) : List (Char × Bool) :=
  (mark true text ++ marked code ls).rdropWhile space

/-- A code and what is taken for its status. -/
theorem covered_match_status {prev : Option (Char × Bool)} (hprev : starts prev = true)
    {code seps status e : List (Char × Bool)} (hlength : code.length = 3)
    (hcode : ∀ c ∈ code, c.1.isDigit = true) (hseps : ∀ c ∈ seps, isSeparator c.1 = true)
    (hne : seps ≠ []) (hstatus : ∀ c ∈ status, isStatusChar c.1 = true) (hstatusNe : status ≠ [])
    (he : ∀ c ∈ e.head?, isStatusChar c.1 = false)
    (hgo : ∀ c ∈ code ++ (seps ++ status), space c = true ∨ goes c = true) :
    Covered prev (code ++ (seps ++ (status ++ e))) ↔ Covered status.getLast? e := by
  have hmatch := replyCode_of_status hlength hcode hseps hne hstatus hstatusNe he
  have hassoc : code ++ (seps ++ (status ++ e)) = (code ++ (seps ++ status)) ++ e := by simp
  have hlast : (code ++ (seps ++ status)).getLast? = status.getLast? := by
    rw [← List.append_assoc, List.getLast?_append_of_ne_nil _ hstatusNe]
  rw [hassoc] at hmatch ⊢
  rw [← hlast]
  apply covered_match hprev (by simp [hstatusNe]) hgo
  rw [hmatch, List.length_append, List.length_append, ← Nat.add_assoc]

/-- A line behind its reply code, and the lines behind it, as `trim` leaves them. -/
def tail (code : List Char) (l : Line) (ls : List Line) : List (Char × Bool) :=
  (mark false (l.separator :: (l.status.elim [] fun status => status.text ++ [' '])) ++
    (mark true l.text ++ marked code ls)).rdropWhile space

theorem rdropWhile_mark (keep : Bool) (s : List Char) :
    (mark keep s).rdropWhile space = mark keep (s.rdropWhile isSpace) := by
  have hcomp : space ∘ (fun c : Char => (c, keep)) = isSpace := rfl
  rw [mark, mark, List.rdropWhile, List.rdropWhile, ← List.map_reverse, List.dropWhile_map, hcomp,
    List.map_reverse]

theorem tail_of_status (code : List Char) {l : Line} {status : Status}
    (hstatus : l.status = some status) (ls : List Line) :
    tail code l ls = mark false (l.separator :: status.text) ++
      if rest code l.text ls = [] then [] else (' ', false) :: rest code l.text ls := by
  have hend : (l.separator :: status.text).rdropWhile isSpace = l.separator :: status.text := by
    apply ForStd.rdropWhile_of_getLast?
    intro c hc
    rw [← List.singleton_append, List.getLast?_append_of_ne_nil _ status.text_ne_nil] at hc
    exact not_isSpace_of_isDigit (status.isDigit_of_mem_getLast? hc)
  have hmark := (rdropWhile_mark false _).trans (congrArg (mark false) hend)
  rw [tail, hstatus, Option.elim_some, ← List.cons_append, mark_append, List.append_assoc,
    ForStd.rdropWhile_append_of_eq hmark, ForStd.rdropWhile_append]
  rfl

theorem tail_of_none (code : List Char) {l : Line} (hstatus : l.status = none) (ls : List Line) :
    tail code l ls =
      if rest code l.text ls = [] then mark false (if l.separator = '-' then ['-'] else [])
      else (l.separator, false) :: rest code l.text ls := by
  rw [tail, hstatus, Option.elim_none, ForStd.rdropWhile_append, rdropWhile_mark]
  change (if rest code l.text ls = [] then _ else _) = _
  split
  · exact l.forall_separator (P := fun c => mark false ([c].rdropWhile isSpace) =
      mark false (if c = '-' then ['-'] else [])) (by decide) (by decide)
  · rfl

theorem tail_head (code : List Char) (l : Line) (ls : List Line) :
    ∀ c ∈ (tail code l ls).head?, c = (l.separator, false) := by
  intro c hc
  obtain ⟨t, ht⟩ := List.head?_eq_some_iff.mp hc
  have hstart := List.rdropWhile_prefix space (mark false (l.separator ::
    (l.status.elim [] fun status => status.text ++ [' '])) ++ (mark true l.text ++ marked code ls))
  rw [← tail, mark_cons, List.cons_append, ht, List.cons_prefix_cons] at hstart
  exact hstart.1

/-- What is behind a code that is taken for a status: white space, and no status. -/
theorem covered_tail {prev : Option (Char × Bool)} (hprev : starts prev = false)
    (code : List Char) (l : Line) (ls : List Line) :
    Covered prev (tail code l ls) ↔
      l.separator = ' ' ∧ l.status = none ∧ Covered (some (' ', false)) (rest code l.text ls) := by
  -- a hyphen stays
  have hhyphen : l.separator = '-' → ∀ s, ¬Covered prev ((l.separator, false) :: s) := by
    intro h s hcovered
    rw [h] at hcovered
    exact absurd ((covered_cons_of_not_starts hprev _ _).mp hcovered).1 (by decide)
  have hspace (s : List (Char × Bool)) :
      Covered prev ((' ', false) :: s) ↔ Covered (some (' ', false)) s :=
    covered_cons_of_space (by decide) s
  cases hstatus : l.status with
  | some status =>
    rw [tail_of_status code hstatus, mark_cons, List.cons_append]
    apply iff_of_false _ nofun
    cases l.separator_eq with
    | inl h => exact hhyphen h _
    | inr h =>
      -- so does the status
      obtain ⟨c, t, htext⟩ := List.exists_cons_of_ne_nil status.text_ne_nil
      have hc : isStatusChar c = true := Status.isStatusChar_of_mem (htext ▸ List.mem_cons_self)
      rw [h, hspace, htext, mark_cons, List.cons_append, covered_cons_of_not_starts (by decide)]
      intro hcovered
      cases hcovered.1 with
      | inl hspace =>
        exact absurd hc (by rw [not_isStatusChar_of_isSpace hspace]; exact Bool.false_ne_true)
      | inr hgoes => exact nomatch hgoes
  | none =>
    rw [tail_of_none code hstatus]
    cases l.separator_eq with
    | inl h =>
      apply iff_of_false
      · split
        · have hcovered := hhyphen h []
          rwa [h] at hcovered
        · exact hhyphen h _
      · rw [h]; simp
    | inr h =>
      rw [h]
      split
      next hrest => simp [hrest, mark, ForStd.Covers]
      next => rw [hspace]; simp

section

variable {code : List Char} (hlength : code.length = 3) (hcode : ∀ c ∈ code, c.isDigit = true)

include hcode in
theorem rdropWhile_code (keep : Bool) : (mark keep code).rdropWhile space = mark keep code := by
  apply ForStd.rdropWhile_of_getLast?
  intro c hc
  exact not_isSpace_of_isDigit (hcode c.1 (mem_mark.mp (List.mem_of_getLast? hc)).1)

include hlength hcode

/-- The beginning of the other lines. -/
theorem trimmed_cons (l : Line) (ls : List Line) :
    trimmed code (l :: ls) = ('\n', true) :: (mark false code ++ tail code l ls) := by
  have hne : mark false code ≠ [] := by
    rw [← List.length_pos_iff, length_mark, hlength]
    decide
  rw [trimmed, marked, List.flatMap_cons, Line.start, mark_append]
  change (('\n', true) :: (mark false code ++ mark false _ ++ mark true l.text) ++
    marked code ls).rdropWhile space = _
  rw [List.cons_append, List.append_assoc, List.append_assoc, ← List.singleton_append,
    ForStd.rdropWhile_append, ForStd.rdropWhile_append_of_eq (rdropWhile_code hcode false),
    if_neg (fun h => hne (List.append_eq_nil_iff.mp h).1)]
  rfl

theorem atEnd_trimmed (ls : List Line) : AtEnd (trimmed code ls) := by
  cases ls with
  | nil => exact fun _ h => nomatch h
  | cons l ls =>
    rw [trimmed_cons hlength hcode]
    intro c hc
    exact (Option.some.inj hc).symm

theorem rest_eq (text : List Char) (ls : List Line) :
    rest code text ls =
      mark true (if ls.isEmpty then text.rdropWhile isSpace else text) ++ trimmed code ls := by
  cases ls with
  | nil =>
    rw [rest, marked, List.flatMap_nil, List.append_nil, rdropWhile_mark]
    exact (List.append_nil _).symm
  | cons l ls =>
    have hne : trimmed code (l :: ls) ≠ [] := by
      rw [trimmed_cons hlength hcode]
      exact List.cons_ne_nil _ _
    rw [rest, ForStd.rdropWhile_append]
    exact if_neg hne

theorem ended_eq (text : List Char) (ls : List Line) :
    ended text ls =
      (if ls.isEmpty then text.rdropWhile isSpace else text) ++ eol (trimmed code ls) := by
  cases ls with
  | nil => exact (List.append_nil _).symm
  | cons l ls =>
    rw [trimmed_cons hlength hcode]
    rfl

/-- A text and the lines behind it are covered if there is no code in the text, and the lines
    are. -/
theorem covered_rest (prev : Option (Char × Bool)) (text : List Char) (ls : List Line) :
    Covered prev (rest code text ls) ↔
      NoCode (starts prev) (ended text ls) ∧ Covered none (trimmed code ls) := by
  rw [rest_eq hlength hcode, ended_eq hlength hcode text ls]
  exact covered_text (atEnd_trimmed hlength hcode ls) prev _

/-- A line with a status. -/
theorem covered_of_status {prev : Option (Char × Bool)} (hprev : starts prev = true) {l : Line}
    {status : Status} (hstatus : l.status = some status) (ls : List Line) :
    Covered prev (mark false code ++ tail code l ls) ↔
      Covered (some (' ', false)) (rest code l.text ls) := by
  have hgo : ∀ c ∈ mark false code ++ ([(l.separator, false)] ++ mark false status.text),
      space c = true ∨ goes c = true := by
    intro c hc
    change c ∈ mark false code ++ mark false (l.separator :: status.text) at hc
    rw [← mark_append] at hc
    exact Or.inr (goes_of_mem_mark hc)
  have hne : mark false status.text ≠ [] := fun h =>
    status.text_ne_nil (List.map_eq_nil_iff.mp h)
  rw [tail_of_status code hstatus]
  generalize rest code l.text ls = e
  have hblank : ∀ c ∈ (if e = [] then [] else (' ', false) :: e).head?,
      isStatusChar c.1 = false := by
    split
    · exact fun _ h => nomatch h
    · rintro c ⟨⟩
      decide
  have hmatch := covered_match_status hprev (by rw [length_mark, hlength])
    (fun c hc => hcode c.1 (mem_mark.mp hc).1) (by simpa using l.isSeparator_separator)
    (List.cons_ne_nil _ _) (fun c hc => Status.isStatusChar_of_mem (mem_mark.mp hc).1) hne hblank
    hgo
  apply hmatch.trans
  split
  next h =>
    rw [h]
    exact Iff.rfl
  next => exact covered_cons_of_space (by decide) e

/-- A line with neither a status nor a text, which is the last one. -/
theorem covered_of_last {prev : Option (Char × Bool)} (hprev : starts prev = true) {l : Line}
    (hstatus : l.status = none) {ls : List Line} (hrest : rest code l.text ls = []) :
    Covered prev (mark false code ++ tail code l ls) ↔ l.separator = '-' := by
  rw [tail_of_none code hstatus, if_pos hrest]
  split
  next h =>
    -- the hyphen is enough for the expression
    have hmatch : replyCode Prod.fst (mark false code ++ ([('-', false)] ++ ([] ++ ([] ++ [])))) =
        some ((mark false code).length + 1 + 0 + 0) :=
      replyCode_append (by rw [length_mark, hlength])
        (fun c hc => hcode c.1 (mem_mark.mp hc).1) (by decide) (List.cons_ne_nil _ _) (by simp)
        (by simp) (fun _ => rfl) (by simp) (by simp) (fun h => absurd rfl h)
    have hgo : ∀ c ∈ mark false code ++ mark false ['-'], space c = true ∨ goes c = true := by
      intro c hc
      rw [← mark_append] at hc
      exact Or.inr (goes_of_mem_mark hc)
    have hcovered := covered_match (e := []) hprev (by simp [mark]) hgo (by
      rw [List.append_nil, List.length_append]
      exact hmatch)
    rw [List.append_nil] at hcovered
    exact iff_of_true (hcovered.mpr trivial) h
  next h =>
    -- `trim` has taken the space away
    have hnone : replyCode Prod.fst (mark false code) = none := by
      have hdrop : (mark false code).drop 3 = [] := by
        rw [List.drop_eq_nil_iff, length_mark, hlength]
      rw [replyCode_eq_none_iff, hdrop]
      simp
    have hfalse : ¬Covered prev (mark false code ++ mark false []) := by
      obtain ⟨c, t, rfl⟩ : ∃ c t, code = c :: t := by
        cases code with
        | nil => cases hlength
        | cons c t => exact ⟨c, t, rfl⟩
      rw [mark_cons] at hnone
      have hm : replyCodeBehind Prod.fst prev ((c, false) :: (mark false t ++ [])) = none := by
        rw [replyCodeBehind_eq, if_pos hprev, List.append_nil, hnone]
      intro hcovered
      cases ((ForStd.covers_of_none hm).mp hcovered).1 with
      | inl hspace =>
        have hdigit := not_isSpace_of_isDigit (hcode c List.mem_cons_self)
        exact Bool.false_ne_true (hdigit.symm.trans hspace)
      | inr hgoes => cases hgoes
    exact iff_of_false hfalse h

/-- A line without a text before another one, of which the code is taken for a status. -/
theorem covered_of_blank {prev : Option (Char × Bool)} (hprev : starts prev = true) {l next : Line}
    (hstatus : l.status = none) (hblank : ∀ c ∈ l.text, isSpace c = true) (ls : List Line) :
    Covered prev (mark false code ++ tail code l (next :: ls)) ↔
      next.separator = ' ' ∧ next.status = none ∧
        Covered (some (' ', false)) (rest code next.text ls) := by
  have hrest : rest code l.text (next :: ls) =
      mark true l.text ++ ('\n', true) :: (mark false code ++ tail code next ls) := by
    rw [rest_eq hlength hcode, trimmed_cons hlength hcode]
    rfl
  have htail : tail code l (next :: ls) =
      (l.separator, false) :: (mark true l.text ++ [('\n', true)]) ++
        (mark false code ++ tail code next ls) := by
    rw [tail_of_none code hstatus, hrest, if_neg (by simp)]
    simp
  have hne : mark false code ≠ [] := fun h => by
    rw [List.map_eq_nil_iff.mp h] at hlength
    exact nomatch hlength
  have hseps : ∀ c ∈ (l.separator, false) :: (mark true l.text ++ [('\n', true)]),
      isSeparator c.1 = true := by
    intro c hc
    rw [List.mem_cons, List.mem_append, mem_mark, List.mem_singleton] at hc
    obtain rfl | hc | rfl := hc
    · exact l.isSeparator_separator
    · rw [isSeparator, hblank c.1 hc.1, Bool.true_or]
    · decide
  have hhead : ∀ c ∈ (tail code next ls).head?, isStatusChar c.1 = false := by
    intro c hc
    rw [tail_head code next ls c hc]
    exact next.forall_separator (P := (isStatusChar · = false)) (by decide) (by decide)
  have hgo : ∀ c ∈ mark false code ++ ((l.separator, false) ::
      (mark true l.text ++ [('\n', true)]) ++ mark false code), space c = true ∨ goes c = true := by
    intro c hc
    simp only [List.mem_append, List.mem_cons, List.not_mem_nil, or_false] at hc
    obtain hc | (rfl | hc | rfl) | hc := hc
    · exact Or.inr (goes_of_mem_mark hc)
    · exact Or.inr rfl
    · exact Or.inl (hblank c.1 (mem_mark.mp hc).1)
    · exact Or.inl (by decide)
    · exact Or.inr (goes_of_mem_mark hc)
  have hprev' : starts (mark false code).getLast? = false := by
    obtain ⟨c, hc⟩ : ∃ c, (mark false code).getLast? = some c :=
      ⟨_, List.getLast?_eq_some_getLast hne⟩
    rw [hc]
    exact not_isLineTerminator_of_isDigit (hcode c.1 (mem_mark.mp (List.mem_of_getLast? hc)).1)
  rw [htail, covered_match_status hprev (by rw [length_mark, hlength])
    (fun c hc => hcode c.1 (mem_mark.mp hc).1) hseps (List.cons_ne_nil _ _)
    (fun c hc => by rw [isStatusChar, hcode c.1 (mem_mark.mp hc).1, Bool.true_or]) hne hhead hgo]
  exact covered_tail hprev' code next ls

/-- A line with a text and no status. -/
theorem covered_of_text {prev : Option (Char × Bool)} (hprev : starts prev = true) {l : Line}
    (hstatus : l.status = none) (htext : ∃ c ∈ l.text, isSpace c = false) (ls : List Line) :
    Covered prev (mark false code ++ tail code l ls) ↔
      l.Begins ∧ Covered (some (l.separator, false)) (rest code l.text ls) := by
  have hdrop : l.text.dropWhile isSpace ≠ [] := by
    obtain ⟨c, hc, hspace⟩ := htext
    intro hnil
    rw [List.dropWhile_eq_nil_iff.mp hnil c hc] at hspace
    exact nomatch hspace
  obtain ⟨c, u, hcu⟩ := List.exists_cons_of_ne_nil hdrop
  have hsplit := List.takeWhile_append_dropWhile (p := isSpace) (l := l.text)
  have hspaces : ∀ c ∈ l.text.takeWhile isSpace, isSpace c = true := fun c hc =>
    List.mem_takeWhile_imp hc
  have hc : isSpace c = false := by
    have hhead := List.head?_dropWhile_not isSpace l.text
    rw [hcu] at hhead
    exact hhead
  have hbegins : l.Begins ↔ isStatusChar c = false ∧ c ≠ '-' := by
    rw [Line.Begins, hcu]
    simp
  rw [hcu] at hsplit
  -- the text is white space, `c` and the rest
  generalize l.text.takeWhile isSpace = spaces at hsplit hspaces
  obtain ⟨s, hrest⟩ : ∃ s, rest code l.text ls = mark true spaces ++ (c, true) :: s := by
    have hend : (mark true (spaces ++ [c])).rdropWhile space = mark true (spaces ++ [c]) := by
      rw [rdropWhile_mark, List.rdropWhile_concat_neg _ _ _ (by simp [hc])]
    refine ⟨(mark true u ++ marked code ls).rdropWhile space, ?_⟩
    rw [rest, ← hsplit, ← List.singleton_append, ← List.append_assoc, mark_append,
      List.append_assoc, ForStd.rdropWhile_append_of_eq hend, mark_append, List.append_assoc]
    rfl
  have htail : tail code l ls = (l.separator, false) :: (mark true spaces ++ (c, true) :: s) := by
    rw [tail_of_none code hstatus, hrest, if_neg (by simp)]
  have hspaces' : ∀ c ∈ mark true spaces, space c = true := fun c hc =>
    hspaces c.1 (mem_mark.mp hc).1
  have hlength' : (mark false code).length = 3 := by rw [length_mark, hlength]
  have hcode' : ∀ c ∈ mark false code, c.1.isDigit = true := fun c hc =>
    hcode c.1 (mem_mark.mp hc).1
  rw [hbegins, htail, hrest]
  by_cases hloss : isStatusChar c = true ∨ c = '-'
  · -- the text loses its first character
    apply iff_of_false
    · obtain ⟨n, hn, hmem⟩ := replyCode_of_loss (l.separator, false) (c, true) s hlength' hcode' l.isSeparator_separator
        (fun c hc => isSeparator_of_isSpace (hspaces' c hc)) hloss
      exact not_covered_of_mem hprev hn hmem hc rfl
    · rintro ⟨⟨hstatusChar, hhyphen⟩, -⟩
      cases hloss with
      | inl h => exact Bool.false_ne_true (hstatusChar.symm.trans h)
      | inr h => exact hhyphen h
  · rw [not_or, Bool.not_eq_true] at hloss
    have hsep : isSeparator c = false := by
      rw [isSeparator, hc, Bool.false_or, beq_eq_false_iff_ne]
      exact hloss.2
    have hhead : ∀ d ∈ ((c, true) :: s).head?, space d = false := by
      rintro d ⟨⟩
      exact hc
    have hn : replyCode Prod.fst ((mark false code ++ [(l.separator, false)]) ++
        (mark true spaces ++ (c, true) :: s)) =
          some ((mark false code ++ [(l.separator, false)]).length +
            ((mark true spaces ++ (c, true) :: s).takeWhile space).length) := by
      rw [List.append_assoc, List.singleton_append,
        replyCode_of_text hlength' hcode' l.isSeparator_separator hspaces' hsep hloss.1,
        ForStd.takeWhile_append_of_head hspaces' hhead, List.length_append, List.length_singleton]
    have hgo : ∀ c ∈ mark false code ++ [(l.separator, false)], space c = true ∨ goes c = true := by
      intro c hc
      change c ∈ mark false code ++ mark false [l.separator] at hc
      rw [← mark_append] at hc
      exact Or.inr (goes_of_mem_mark hc)
    have hmatch := covered_match hprev (by simp) hgo hn
    rw [List.append_assoc, List.singleton_append, List.getLast?_concat] at hmatch
    rw [and_iff_right hloss]
    exact hmatch

/-- The other lines are covered if they are clean. -/
theorem covered_lines (ls : List Line) : Covered none (trimmed code ls) ↔ Clean ls := by
  have hnewline : space ('\n', true) = true := by decide
  have hstarts : starts (some ('\n', true)) = true := by decide
  induction ls using Clean.induct with
  | case1 => exact Iff.rfl
  | case2 l h =>
    -- the last line has no text
    have hrest : rest code l.text [] = [] := by
      rw [rest_eq hlength hcode]
      have hnil : l.text.rdropWhile isSpace = [] := by
        rw [List.rdropWhile_eq_nil_iff]
        exact List.all_eq_true.mp h.2
      rw [List.isEmpty_nil, if_pos rfl, hnil]
      rfl
    rw [trimmed_cons hlength hcode, covered_cons_of_space hnewline,
      covered_of_last hlength hcode hstarts (Option.isNone_iff_eq_none.mp h.1) hrest, Clean,
      if_pos h]
  | case3 l h next ls ih =>
    -- the code of the next line is taken for a status
    have hrest := (covered_rest hlength hcode (some (' ', false)) next.text ls).trans
      (and_congr_right fun _ => ih)
    rw [trimmed_cons hlength hcode, covered_cons_of_space hnewline,
      covered_of_blank hlength hcode hstarts (Option.isNone_iff_eq_none.mp h.1)
        (List.all_eq_true.mp h.2), hrest, Clean, if_pos h, Option.isNone_iff_eq_none]
    rfl
  | case4 l ls h ih =>
    -- the match ends at the text
    have hclean : Clean (l :: ls) ↔ (l.status.isNone → l.Begins) ∧
        NoCode false (ended l.text ls) ∧ Clean ls := by
      rw [Clean.eq_def]
      dsimp only
      rw [if_neg h]
    have hrest (prev : Option (Char × Bool)) :=
      (covered_rest hlength hcode prev l.text ls).trans (and_congr_right fun _ => ih)
    rw [trimmed_cons hlength hcode, covered_cons_of_space hnewline, hclean]
    cases hstatus : l.status with
    | some status =>
      rw [covered_of_status hlength hcode hstarts hstatus, hrest]
      exact (and_iff_right nofun).symm
    | none =>
      have htext : ∃ c ∈ l.text, isSpace c = false := by
        rw [hstatus] at h
        simpa using h
      have hsep : starts (some (l.separator, false)) = false :=
        l.forall_separator (P := (isLineTerminator · = false)) (by decide) (by decide)
      rw [covered_of_text hlength hcode hstarts hstatus htext, hrest, hsep]
      simp

end

/-! ## Replies -/

/-- What is left of a line and its end. -/
theorem covered_line_end {code : List Char} (hlength : code.length = 3)
    (hcode : ∀ c ∈ code, c.isDigit = true) {u : List Char}
    (hu : u = [] ∨ ∃ t, u = t ++ ['\n']) (l : Line) (ls : List Line) :
    Covered none (mark true u ++ (mark false code ++ tail code l ls)) ↔
      NoCode true u ∧ Covered none (trimmed code (l :: ls)) := by
  have hatEnd := atEnd_trimmed hlength hcode (l :: ls)
  -- at the beginning of a line it is the same whether its line break is there
  rw [trimmed_cons hlength hcode] at hatEnd ⊢
  cases hu with
  | inl hnil =>
    have hnone : NoCode true [] := trivial
    rw [hnil, covered_cons_of_space (by decide), and_iff_right hnone]
    exact ForStd.covers_congr rfl
  | inr hend =>
    obtain ⟨t, rfl⟩ := hend
    rw [mark_append, List.append_assoc]
    exact covered_text hatEnd none t

theorem replyCode_mark_nil (keep : Bool) (s : List Char) :
    replyCode Prod.fst (mark keep s) = replyCode id s := by
  have hmap : replyCode id ((mark keep s).map Prod.fst) = replyCode Prod.fst (mark keep s) :=
    replyCode_map Prod.fst (fun _ => rfl) _
  rw [← hmap, map_fst_mark]

theorem take_mark (keep : Bool) (n : Nat) (s : List Char) :
    (mark keep s).take n = mark keep (s.take n) := List.map_take.symm

theorem drop_mark (keep : Bool) (n : Nat) (s : List Char) :
    (mark keep s).drop n = mark keep (s.drop n) := List.map_drop.symm

/-- A reply of one line. -/
theorem formatted_iff_of_nil {r : Reply} (hrest : r.rest = []) : r.Formatted ↔ r.Clean := by
  have hline : r.marked.rdropWhile space =
      mark true ((r.first.start r.code.val ++ r.first.text).rdropWhile isSpace) := by
    rw [Reply.marked, hrest, ← rdropWhile_mark]
    exact congrArg _ (List.append_nil _)
  have hended : r.line = (r.first.start r.code.val ++ r.first.text).rdropWhile isSpace := by
    rw [Reply.line, hrest]
    rfl
  rw [← hended] at hline
  rw [formatted_iff_covers hline, Reply.Clean, hrest, replyCode_mark_nil, take_mark, drop_mark]
  generalize r.line = line
  have htake (n : Nat) : ∀ c ∈ mark true (line.take n), space c = true ∨ goes c = false :=
    fun _ hc => Or.inr (not_goes_of_mem_mark hc)
  have hcovered := covered_text (e := []) (fun _ h => by cases h) none
    (line.drop ((replyCode id line).getD 0))
  rw [List.append_nil] at hcovered
  rw [and_iff_right (htake _), hcovered]
  simp [eol, starts, Clean, ForStd.Covers]

theorem rdropWhile_marked {r : Reply} {l : Line} {ls : List Line} (hrest : r.rest = l :: ls) :
    r.marked.rdropWhile space = mark true (r.first.start r.code.val ++ r.first.text) ++
      ('\n', true) :: (mark false r.code.val ++ tail r.code.val l ls) := by
  rw [← trimmed_cons r.code_length r.code.property.2, ← hrest]
  have hline := rest_eq r.code_length r.code.property.2
    (r.first.start r.code.val ++ r.first.text) r.rest
  rw [hrest] at hline ⊢
  rw [Reply.marked, hrest]
  exact hline

/-- A first line that is all separators takes the code of the next line away. -/
theorem not_formatted_of_separators {r : Reply} {l : Line} {ls : List Line}
    (hrest : r.rest = l :: ls) (hstatus : r.first.status = none)
    (hseps : ∀ c ∈ r.first.text, isSeparator c = true) : ¬r.Formatted := by
  obtain ⟨d, t, hcode⟩ := List.exists_cons_of_ne_nil r.code.property.1
  have hdigit : d.isDigit = true := r.code.property.2 d (hcode ▸ List.mem_cons_self)
  have hline : r.marked.rdropWhile space = mark true r.code.val ++ ((r.first.separator, true) ::
      ((mark true r.first.text ++ [('\n', true)]) ++
        (d, false) :: (mark false t ++ tail r.code.val l ls))) := by
    have hmark : mark false r.code.val = (d, false) :: mark false t := by
      rw [hcode]
      rfl
    rw [rdropWhile_marked hrest, Line.start, hstatus, hmark]
    simp [mark]
  have hspaces : ∀ c ∈ mark true r.first.text ++ [('\n', true)], isSeparator c.1 = true := by
    rw [List.forall_mem_append, List.forall_mem_singleton]
    exact ⟨fun c hc => hseps c.1 (mem_mark.mp hc).1, by decide⟩
  have hstatusChar : isStatusChar d = true := by rw [isStatusChar, hdigit, Bool.true_or]
  obtain ⟨n, hn, hmem⟩ := replyCode_of_loss (r.first.separator, true) (d, false)
    (mark false t ++ tail r.code.val l ls)
    (by rw [length_mark, r.code_length] : (mark true r.code.val).length = 3)
    (fun c hc => r.code.property.2 c.1 (mem_mark.mp hc).1) r.first.isSeparator_separator hspaces
    (Or.inl hstatusChar)
  rw [formatted_iff_covers hline, hn, Option.getD_some]
  rintro ⟨htake, -⟩
  cases htake _ hmem with
  | inl h => exact Bool.false_ne_true ((not_isSpace_of_isDigit hdigit).symm.trans h)
  | inr h => cases h

/-- A first line of which the match does not reach the next one. -/
theorem formatted_iff_of_cons {r : Reply} {l : Line} {ls : List Line} (hrest : r.rest = l :: ls)
    (hfirst : r.first.status = none → ∃ c ∈ r.first.text, isSeparator c = false) :
    r.Formatted ↔ r.Clean := by
  have hcode := r.code.property.2
  have hended : r.line = r.first.start r.code.val ++ r.first.text ++ ['\n'] := by
    rw [Reply.line, hrest]
    rfl
  have hline : r.marked.rdropWhile space =
      mark true r.line ++ (mark false r.code.val ++ tail r.code.val l ls) := by
    rw [rdropWhile_marked hrest, hended, mark_append _ _ ['\n'], List.append_assoc]
    rfl
  have hlength : 3 ≤ r.line.length := by
    rw [hended, Line.start, List.append_assoc, List.append_assoc, List.length_append,
      r.code_length]
    exact Nat.le_add_right _ _
  have hsep : ∃ c ∈ r.line.drop 3, isSeparator c = false := by
    rw [hended, Line.start, List.append_assoc, List.append_assoc, ← r.code_length, List.drop_left]
    cases hstatus : r.first.status with
    | none =>
      obtain ⟨c, hc, hsep⟩ := hfirst hstatus
      exact ⟨c, by simp [hc], hsep⟩
    | some status =>
      obtain ⟨c, t, htext⟩ := List.exists_cons_of_ne_nil status.text_ne_nil
      have hc : c ∈ status.text := htext ▸ List.mem_cons_self
      exact ⟨c, by simp [hc], not_isSeparator_of_isStatusChar (Status.isStatusChar_of_mem hc)⟩
  have hlast : (mark true r.line).getLast? = some ('\n', true) := by
    rw [hended, mark_append, mark_cons]
    exact List.getLast?_concat
  have hhead : ∀ c ∈ (mark false r.code.val ++ tail r.code.val l ls).head?,
      isSpace c.1 = false := by
    obtain ⟨d, t, hd⟩ := List.exists_cons_of_ne_nil r.code.property.1
    have hdigit : d.isDigit = true := r.code.property.2 d (hd ▸ List.mem_cons_self)
    rw [show mark false r.code.val = (d, false) :: mark false t by rw [hd]; rfl]
    rintro c ⟨⟩
    exact not_isSpace_of_isDigit hdigit
  -- the match ends at the line break at the latest
  have hmatch : replyCode Prod.fst
      (mark true r.line ++ (mark false r.code.val ++ tail r.code.val l ls)) =
        replyCode id r.line := by
    have hsep' : ∃ c ∈ (mark true r.line).drop 3, isSeparator c.1 = false := by
      obtain ⟨c, hc, hnot⟩ := hsep
      exact ⟨(c, true), by rw [drop_mark]; exact mem_mark.mpr ⟨hc, rfl⟩, hnot⟩
    rw [replyCode_append_left (by rwa [length_mark]) hsep' hlast (by decide) hhead,
      replyCode_mark_nil]
  have hle : (replyCode id r.line).getD 0 ≤ r.line.length := by
    cases hn : replyCode id r.line with
    | none => exact Nat.zero_le _
    | some n => exact le_length_of_replyCode hn
  rw [formatted_iff_covers hline, hmatch, Reply.Clean]
  generalize (replyCode id r.line).getD 0 = n at hle
  have hle' : n ≤ (mark true r.line).length := by rwa [length_mark]
  have htake : ∀ c ∈ mark true (r.line.take n), space c = true ∨ goes c = false :=
    fun _ hc => Or.inr (not_goes_of_mem_mark hc)
  have hdrop : r.line.drop n = [] ∨ ∃ t, r.line.drop n = t ++ ['\n'] := by
    rw [hended, List.drop_append]
    by_cases hn : n ≤ (r.first.start r.code.val ++ r.first.text).length
    · rw [Nat.sub_eq_zero_of_le hn]
      exact Or.inr ⟨_, rfl⟩
    · left
      rw [List.drop_eq_nil_of_le (by omega), List.nil_append, List.drop_eq_nil_iff,
        List.length_singleton]
      omega
  rw [List.take_append_of_le_length hle', List.drop_append_of_le_length hle', take_mark,
    drop_mark, and_iff_right htake, hrest, ← covered_lines r.code_length hcode,
    covered_line_end r.code_length hcode hdrop,
    and_iff_right (fun _ => hfirst : l :: ls ≠ [] → _)]

/-- The result for a reply is right if and only if the reply is clean. -/
theorem formatted_iff (r : Reply) : r.Formatted ↔ r.Clean := by
  cases hrest : r.rest with
  | nil => exact formatted_iff_of_nil hrest
  | cons l ls =>
    by_cases hfirst : r.first.status = none → ∃ c ∈ r.first.text, isSeparator c = false
    · exact formatted_iff_of_cons hrest hfirst
    · -- the code of the next line is taken for a status
      have hclean : ¬r.Clean := fun h => hfirst (h.2.1 (by rw [hrest]; exact List.cons_ne_nil _ _))
      rw [Classical.not_imp] at hfirst
      apply iff_of_false _ hclean
      apply not_formatted_of_separators hrest hfirst.1
      simpa using hfirst.2

/-- A text without a status that begins with an address. -/
theorem not_formatted : ¬∀ r : Reply, r.Formatted := by
  intro h
  have hresult := (h {
    code := ⟨['5', '5', '0'], List.cons_ne_nil _ _, List.all_eq_true.mp (by decide)⟩
    code_length := rfl
    first := ⟨'-', none, "Blocked".toList, by decide, by decide +kernel⟩
    rest := [⟨' ', none, "192.0.2.1 is listed".toList, by decide, by decide +kernel⟩] }).result
  exact absurd hresult (by decide +kernel)

end Bounces

end ZoneMta
