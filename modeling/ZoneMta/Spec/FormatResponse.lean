import ZoneMta.Native.Bounces

/-!
# Replies in one line

The expression of `formatSMTPResponse` takes what looks like an enhanced status code, also when it
is the text of a line, and looks for reply codes wherever a line begins. The result is right if
the texts give no rise to that.

## Key results

- `format_map`: marks make no difference for the result
- `formatted_iff_covers`: the result is right if the matches cover the codes
-/

namespace ZoneMta

namespace Bounces

open ForStd (replaceBehind Covers squeeze trim)

/-! ## Replies -/

/-- A sequence of digits. -/
abbrev Digits := { s : List Char // s ≠ [] ∧ ∀ c ∈ s, c.isDigit = true }

/-- An enhanced status code. -/
structure Status where
  «class» : Digits
  subject : Digits
  detail : Digits

/-- A status as it is written. -/
def Status.text (s : Status) : List Char :=
  s.class.val ++ '.' :: (s.subject.val ++ '.' :: s.detail.val)

/-- A line of a reply, behind the reply code. -/
structure Line where
  separator : Char
  status : Option Status
  text : List Char
  separator_eq : separator = '-' ∨ separator = ' '
  newline_notMem : '\n' ∉ text

/-- A reply: the code of its lines, the first line and the others. Of a line break, the carriage
    return belongs to the text before it. -/
structure Reply where
  code : Digits
  code_length : code.val.length = 3
  first : Line
  rest : List Line

/-- The codes at the beginning of a line. -/
def Line.start (code : List Char) (l : Line) : List Char :=
  code ++ l.separator :: (l.status.elim [] fun status => status.text ++ [' '])

/-- A reply as it is written. -/
def Reply.toString (r : Reply) : String :=
  String.ofList (r.first.start r.code.val ++ r.first.text ++
    r.rest.flatMap fun l => '\n' :: (l.start r.code.val ++ l.text))

/-! ## What the result is to be -/

/-- Characters with a mark that says whether they are to stay. -/
def mark (keep : Bool) (s : List Char) : List (Char × Bool) := s.map (·, keep)

/-- The other lines, the codes marked. -/
def marked (code : List Char) (ls : List Line) : List (Char × Bool) :=
  ls.flatMap fun l => ('\n', true) :: (mark false (l.start code) ++ mark true l.text)

/-- A reply with the codes of the other lines marked. -/
def Reply.marked (r : Reply) : List (Char × Bool) :=
  mark true (r.first.start r.code.val ++ r.first.text) ++ Bounces.marked r.code.val r.rest

/-- The codes of the first line, and the texts of all lines. -/
def Reply.result (r : Reply) : List Char :=
  trim isSpace (squeeze isSpace ' ' (r.first.start r.code.val ++ r.first.text ++
    r.rest.flatMap fun l => ' ' :: l.text))

/-- The result is right, and the characters in it are the ones that are to stay. -/
structure Reply.Formatted (r : Reply) : Prop where
  result : formatSMTPResponse r.toString = String.ofList r.result
  marked : format Prod.fst (' ', true) r.marked = mark true r.result

/-! ## When it is -/

/-- No reply code at the beginnings of the lines of a text. -/
def NoCode : Bool → List Char → Prop
  | _, [] => True
  | start, c :: t => (start = true → replyCode id (c :: t) = none) ∧
    NoCode (isLineTerminator c) t

instance decidableNoCode : (start : Bool) → (t : List Char) → Decidable (NoCode start t)
  | _, [] => isTrue trivial
  | start, c :: t =>
    have : Decidable (NoCode (isLineTerminator c) t) := decidableNoCode _ t
    inferInstanceAs (Decidable ((start = true → replyCode id (c :: t) = none) ∧
      NoCode (isLineTerminator c) t))

/-- The end of a line: a line break, or what `trim` leaves of the last line. -/
def ended (text : List Char) (ls : List Line) : List Char :=
  if ls.isEmpty then text.rdropWhile isSpace else text ++ ['\n']

/-- There is a text, which does not begin like a status. -/
def Line.Begins (l : Line) : Prop :=
  ∀ c ∈ (l.text.dropWhile isSpace).head?, isStatusChar c = false ∧ c ≠ '-'

/-- The other lines: a text with no status before it does not begin with a digit, a dot or a
    hyphen. Where there is neither, the next code is taken for a status, which has to be all that
    the next line begins with; or there is no next line, and a hyphen behind the code. -/
def Clean : List Line → Prop
  | [] => True
  | l :: ls =>
    if l.status.isNone ∧ l.text.all isSpace then
      match ls with
      | [] => l.separator = '-'
      | next :: ls => next.separator = ' ' ∧ next.status.isNone = true ∧
        NoCode false (ended next.text ls) ∧ Clean ls
    else (l.status.isNone → l.Begins) ∧ NoCode false (ended l.text ls) ∧ Clean ls

/-- The first line, with its end. -/
def Reply.line (r : Reply) : List Char :=
  ended (r.first.start r.code.val ++ r.first.text) r.rest

/-- The first line: there is no code in what the expression leaves of it, and it leaves the next
    line alone. -/
def Reply.Clean (r : Reply) : Prop :=
  NoCode true (r.line.drop ((replyCode id r.line).getD 0)) ∧
    (r.rest ≠ [] → r.first.status = none → ∃ c ∈ r.first.text, isSeparator c = false) ∧
    Bounces.Clean r.rest

/-! ## Marks -/

@[simp] theorem mark_append (keep : Bool) (s t : List Char) :
    mark keep (s ++ t) = mark keep s ++ mark keep t := List.map_append

@[simp] theorem mark_cons (keep : Bool) (c : Char) (s : List Char) :
    mark keep (c :: s) = (c, keep) :: mark keep s := rfl

@[simp] theorem map_fst_mark (keep : Bool) (s : List Char) : (mark keep s).map Prod.fst = s := by
  simp [mark, Function.comp_def]

theorem mem_mark {keep : Bool} {s : List Char} {c : Char × Bool} :
    c ∈ mark keep s ↔ c.1 ∈ s ∧ c.2 = keep := by
  cases c with
  | mk c k => simp [mark, eq_comm]

@[simp] theorem length_mark (keep : Bool) (s : List Char) : (mark keep s).length = s.length :=
  List.length_map _

theorem map_fst_marked (code : List Char) (ls : List Line) :
    (marked code ls).map Prod.fst = ls.flatMap fun l => '\n' :: (l.start code ++ l.text) := by
  induction ls with
  | nil => rfl
  | cons l ls ih => simp [marked, List.map_flatMap]

section

variable {α β : Type*} {char : α → Char} {char' : β → Char}

theorem replyCode_map (f : α → β) (hchar : ∀ x, char' (f x) = char x) (t : List α) :
    replyCode char' (t.map f) = replyCode char t := by
  have hcomp (q : Char → Bool) : (q ∘ char') ∘ f = q ∘ char := funext fun x => congrArg q (hchar x)
  simp only [replyCode, ← List.map_take, ← List.map_drop, List.takeWhile_map, List.length_map,
    List.all_map, hcomp]

theorem format_map (f : α → β) (hchar : ∀ x, char' (f x) = char x) (blank : α) (str : List α) :
    (format char blank str).map f = format char' (f blank) (str.map f) := by
  have hspace : ∀ x, (isSpace ∘ char') (f x) = (isSpace ∘ char) x := fun x =>
    congrArg isSpace (hchar x)
  have hbehind : ∀ prev t, replyCodeBehind char' (prev.map f) (t.map f) =
      replyCodeBehind char prev t := by
    intro prev t
    have hprev : (prev.map f).all (isLineTerminator ∘ char') =
        prev.all (isLineTerminator ∘ char) := by
      cases prev with
      | none => rfl
      | some c => exact congrArg isLineTerminator (hchar c)
    rw [replyCodeBehind, replyCodeBehind, hprev, replyCode_map f hchar]
  have hcode : replyCode char' (trim (isSpace ∘ char') (str.map f)) =
      replyCode char (trim (isSpace ∘ char) str) := by
    rw [← ForStd.trim_map f hspace, replyCode_map f hchar]
  simp only [format]
  rw [ForStd.trim_map f hspace, ForStd.squeeze_map f hspace, List.map_append,
    ForStd.replaceBehind_map f hbehind, List.map_take, List.map_drop, ForStd.trim_map f hspace,
    hcode]
  rfl

theorem replyCode_ne_zero (t : List α) : replyCode char t ≠ some 0 := by
  simp only [replyCode]
  split
  · simp
  · simp

/-- The expression begins with a digit. -/
theorem replyCode_cons_of_not (char : α → Char) {c : α} (h : (char c).isDigit = false)
    (t : List α) :
    replyCode char (c :: t) = none := by
  simp only [replyCode]
  apply if_neg
  simp [h]

end

/-! ## Coverage -/

/-- `\s`, for marked characters. -/
abbrev space : Char × Bool → Bool := isSpace ∘ Prod.fst

/-- The characters that are to go. -/
def goes (c : Char × Bool) : Bool := !c.2

/-- The matches behind `prev` cover the codes. -/
abbrev Covered (prev : Option (Char × Bool)) (s : List (Char × Bool)) : Prop :=
  Covers (replyCodeBehind Prod.fst) space goes prev 0 s

theorem goes_of_mem_mark {s : List Char} {c : Char × Bool} (h : c ∈ mark false s) :
    goes c = true := by
  rw [goes, (mem_mark.mp h).2]
  rfl

theorem not_goes_of_mem_mark {s : List Char} {c : Char × Bool} (h : c ∈ mark true s) :
    goes c = false := by
  rw [goes, (mem_mark.mp h).2]
  rfl

theorem not_isDigit_of_isSpace {c : Char} (h : isSpace c = true) : c.isDigit = false := by
  rw [isSpace, Bool.or_eq_true, decide_eq_true_eq, Bool.and_eq_true] at h
  cases h with
  | inl hmem =>
    have hlist : ['\t', '\n', '\x0b', '\x0c', '\r', ' ', '\u00a0', '\u1680', '\u2028', '\u2029',
        '\u202f', '\u205f', '\u3000', '\ufeff'].all (!·.isDigit) = true := by
      decide
    simpa using List.all_eq_true.mp hlist c hmem
  | inr hrange =>
    have hle : 0x2000 ≤ c.val.toNat := of_decide_eq_true hrange.1
    rw [← Bool.not_eq_true]
    intro hdigit
    have hnine : c.val.toNat ≤ 57 := (of_decide_eq_true (Bool.and_eq_true_iff.mp hdigit).2)
    omega

theorem replyCodeBehind_of_space (prev : Option (Char × Bool)) (c : Char × Bool)
    (t : List (Char × Bool)) (hc : space c = true) :
    replyCodeBehind Prod.fst prev (c :: t) = none := by
  rw [replyCodeBehind, replyCode_cons_of_not Prod.fst (not_isDigit_of_isSpace hc)]
  exact ite_self _

/-- A character, or the blank in its place. -/
def erase (c : Char × Bool) : Char × Bool := if goes c then (' ', true) else c

theorem map_erase_mark (s : List Char) : (mark true s).map erase = mark true s := by
  rw [mark, List.map_map]
  rfl

/-- The other lines, with the blanks in the places of the codes. -/
theorem squeeze_erase_marked (code : List Char) (ls : List Line) :
    squeeze space (' ', true) ((marked code ls).map erase) =
      squeeze space (' ', true) (mark true (ls.flatMap fun l => ' ' :: l.text)) := by
  induction ls with
  | nil => rfl
  | cons l ls ih =>
    have hcodes : ∀ c ∈ (mark false (l.start code)).map erase, space c = true := by
      intro c hc
      obtain ⟨x, hx, rfl⟩ := List.mem_map.mp hc
      rw [erase, goes_of_mem_mark hx]
      rfl
    -- the codes are blanks behind the line break
    have hmarked : (marked code (l :: ls)).map erase = ('\n', true) ::
        ((mark false (l.start code)).map erase ++
          (mark true l.text ++ (marked code ls).map erase)) := by
      rw [marked, List.flatMap_cons, List.map_append, List.map_cons, List.map_append,
        map_erase_mark, List.cons_append, List.append_assoc]
      rfl
    rw [hmarked, ForStd.squeeze_cons_append rfl hcodes, List.flatMap_cons, List.cons_append,
      mark_cons, mark_append, ForStd.squeeze_cons_eq (y := (' ', true)) rfl rfl]
    exact ForStd.squeeze_append_congr rfl ih ((' ', true) :: mark true l.text)

theorem trim_marked (r : Reply) : trim space r.marked = r.marked.rdropWhile space := by
  obtain ⟨c, s, hcode⟩ := List.exists_cons_of_ne_nil r.code.property.1
  have hdigit : c.isDigit = true := r.code.property.2 c (by rw [hcode]; exact List.mem_cons_self)
  have hspace : ¬space (c, true) = true := fun h =>
    absurd hdigit (by rw [not_isDigit_of_isSpace h]; exact Bool.false_ne_true)
  have hmarked : ∃ t, r.marked = (c, true) :: t := by
    rw [Reply.marked, Line.start, hcode]
    exact ⟨_, rfl⟩
  obtain ⟨t, ht⟩ := hmarked
  rw [trim, ht, List.dropWhile_cons_of_neg hspace]

/-- The result, for the marked characters. -/
theorem mark_result (r : Reply) :
    mark true r.result = trim space (squeeze space (' ', true) (r.marked.map erase)) := by
  have hmap (s : List Char) : mark true (trim isSpace (squeeze isSpace ' ' s)) =
      trim space (squeeze space (' ', true) (mark true s)) := by
    rw [mark, ForStd.trim_map (p := isSpace) (q := space) (fun c => (c, true)) fun _ => rfl,
      ForStd.squeeze_map (p := isSpace) (q := space) (fun c => (c, true)) fun _ => rfl]
    rfl
  rw [Reply.result, hmap, Reply.marked, List.map_append, map_erase_mark, mark_append]
  exact congrArg (trim space)
    (ForStd.squeeze_append_congr rfl (squeeze_erase_marked r.code.val r.rest).symm _)

/-- The result is right if the marked one is. -/
theorem formatted_iff_marked (r : Reply) :
    r.Formatted ↔ format Prod.fst (' ', true) r.marked = mark true r.result := by
  refine ⟨Reply.Formatted.marked, fun h => ⟨?_, h⟩⟩
  have hchar : ∀ c : Char × Bool, id c.1 = c.1 := fun _ => rfl
  have hmap := format_map Prod.fst hchar (' ', true) r.marked
  rw [h, map_fst_mark, Reply.marked, List.map_append, map_fst_mark, map_fst_marked] at hmap
  rw [formatSMTPResponse, Reply.toString, String.toList_ofList, hmap]

/-- The result is right if and only if the matches cover the codes. -/
theorem formatted_iff_covers {r : Reply} {line : List (Char × Bool)}
    (hline : r.marked.rdropWhile space = line) :
    r.Formatted ↔
      (∀ c ∈ line.take ((replyCode Prod.fst line).getD 0), space c = true ∨ goes c = false) ∧
        Covered none (line.drop ((replyCode Prod.fst line).getD 0)) := by
  have hblanks : ∃ w, (∀ c ∈ w, space c = true) ∧ r.marked = line ++ w :=
    ⟨r.marked.rtakeWhile space, fun c hc => List.mem_rtakeWhile_imp hc,
      hline ▸ (List.rdropWhile_append_rtakeWhile (p := space)).symm⟩
  obtain ⟨w, hw, hmarked⟩ := hblanks
  have hw' : ∀ c ∈ w.map erase, space c = true := by
    intro c hc
    obtain ⟨x, hx, rfl⟩ := List.mem_map.mp hc
    rw [erase]
    split
    · rfl
    · exact hw x hx
  have hformat : format Prod.fst (' ', true) r.marked = trim space (squeeze space (' ', true)
      (line.take ((replyCode Prod.fst line).getD 0) ++
        replaceBehind (replyCodeBehind Prod.fst) [(' ', true)] none 0
          (line.drop ((replyCode Prod.fst line).getD 0)))) := by
    rw [← hline, ← trim_marked]
    rfl
  generalize (replyCode Prod.fst line).getD 0 = code at hformat ⊢
  have hresult : mark true r.result = trim space (squeeze space (' ', true) (line.map erase)) := by
    rw [mark_result, hmarked, List.map_append, ForStd.trim_squeeze_append rfl _ hw']
  have hsplit := List.take_append_drop code line
  have hnew : ∀ c ∈ [((' ', true) : Char × Bool)], space c = true := by decide
  rw [formatted_iff_marked, hformat, hresult]
  constructor
  · intro h
    -- the results have the same characters that are no white space
    have hfilter := congrArg (List.filter (!space ·)) h
    rw [ForStd.filter_trim, ForStd.filter_trim, ForStd.filter_squeeze rfl,
      ForStd.filter_squeeze rfl, List.filter_append] at hfilter
    have hgoes : (line.map erase).filter (!space ·) =
        line.filter (fun c => !space c && !goes c) := ForStd.filter_map_goes rfl line
    rw [hgoes] at hfilter
    have hcode : ∀ c ∈ line.take code, space c = true ∨ goes c = false := by
      intro c hc
      by_contra hnot
      rw [not_or, Bool.not_eq_true, Bool.not_eq_false] at hnot
      have hmem : c ∈ line.filter (fun c => !space c && !goes c) := by
        rw [← hfilter]
        exact List.mem_append_left _ (List.mem_filter.mpr ⟨hc, by rw [hnot.1]; rfl⟩)
      simp [hnot.2] at hmem
    have hsame : (line.take code).filter (!space ·) =
        (line.take code).filter (fun c => !space c && !goes c) := by
      apply List.filter_congr
      intro c hc
      cases hcode c hc with
      | inl hspace => rw [hspace]; rfl
      | inr hgo => rw [hgo, Bool.not_false, Bool.and_true]
    refine ⟨hcode, (ForStd.filter_replaceBehind hnew none 0 _).mp ?_⟩
    conv at hfilter => rhs; rw [← hsplit]
    rw [List.filter_append, hsame] at hfilter
    exact List.append_cancel_left hfilter
  · -- every match becomes a blank, as the codes do
    intro ⟨hcode, hcovered⟩
    have hrest := ForStd.squeeze_replaceBehind (b := (' ', true)) rfl
      (fun prev t => by
        rw [replyCodeBehind]
        split
        · exact replyCode_ne_zero t
        · exact nofun) hcovered
    rw [ForStd.squeeze_append_congr rfl hrest, ForStd.squeeze_append_map_goes rfl hcode]
    conv => rhs; rw [← hsplit]
    rw [List.map_append]
    rfl

end Bounces

end ZoneMta
