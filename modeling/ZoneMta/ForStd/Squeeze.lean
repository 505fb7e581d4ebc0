import Mathlib
import ZoneMta.ForStd.GoString
import ZoneMta.ForStd.List

/-!
# Runs of blanks

`squeeze p b` makes one `b` of every run of elements with `p`, as replacing white space by a blank
does, and `trim p` takes the ones at the ends away.

## Key results

- `squeeze_append_cons`: text between which the blanks are
- `squeeze_eq_self`: what stays as it is
- `trim_squeeze_append`: blanks at the end make no difference
- `GoString.join_fields`: `strings.Join` of `strings.Fields` with a blank
-/

namespace ForStd

variable {α : Type*}

/-- Every run of elements with `p` becomes one `b`. -/
def squeeze (p : α → Bool) (b : α) : List α → List α
  | [] => []
  | x :: l =>
    if p x then if l.head?.any p then squeeze p b l else b :: squeeze p b l
    else x :: squeeze p b l

/-- The elements with `p` are blanks `b`, no two of them in a row. -/
def SingleSpaced (p : α → Bool) (b : α) : List α → Prop
  | [] => True
  | x :: l => (p x = true → x = b ∧ l.head?.any p = false) ∧ SingleSpaced p b l

instance decidableSingleSpaced [DecidableEq α] (p : α → Bool) (b : α) :
    (l : List α) → Decidable (SingleSpaced p b l)
  | [] => isTrue trivial
  | x :: l =>
    have : Decidable (SingleSpaced p b l) := decidableSingleSpaced p b l
    inferInstanceAs (Decidable ((p x = true → x = b ∧ l.head?.any p = false) ∧ SingleSpaced p b l))

variable {p : α → Bool} {b : α}

theorem squeeze_cons_of_not {x : α} (hx : p x = false) (l : List α) :
    squeeze p b (x :: l) = x :: squeeze p b l := by
  rw [squeeze, hx]
  rfl

/-- A word in front. -/
theorem squeeze_append_of_not {w : List α} (hw : ∀ x ∈ w, p x = false) (l : List α) :
    squeeze p b (w ++ l) = w ++ squeeze p b l := by
  induction w with
  | nil => rfl
  | cons x w ih =>
    rw [List.forall_mem_cons] at hw
    rw [List.cons_append, squeeze_cons_of_not hw.1, ih hw.2]
    rfl

/-- The text before and behind an element that is no blank. -/
theorem squeeze_append_cons {x : α} (hx : p x = false) (l r : List α) :
    squeeze p b (l ++ x :: r) = squeeze p b l ++ x :: squeeze p b r := by
  induction l with
  | nil => exact squeeze_cons_of_not hx r
  | cons y l ih =>
    have hhead : (l ++ x :: r).head?.any p = l.head?.any p := by
      cases l with
      | nil => exact hx
      | cons z l => rfl
    simp only [List.cons_append, squeeze, ih, hhead]
    split
    · split <;> rfl
    · rfl

theorem length_squeeze_le (l : List α) : (squeeze p b l).length ≤ l.length := by
  induction l with
  | nil => exact Nat.le_refl _
  | cons x l ih =>
    rw [squeeze]
    split
    · split
      · exact Nat.le_succ_of_le ih
      · exact Nat.succ_le_succ ih
    · exact Nat.succ_le_succ ih

/-- Only blanks change. -/
theorem filter_squeeze (hb : p b = true) (l : List α) :
    (squeeze p b l).filter (!p ·) = l.filter (!p ·) := by
  induction l with
  | nil => rfl
  | cons x l ih =>
    rw [squeeze]
    cases hx : p x with
    | true =>
      rw [if_pos rfl, List.filter_cons_of_neg (by simp [hx])]
      split
      · exact ih
      · rw [List.filter_cons_of_neg (by simp [hb]), ih]
    | false =>
      rw [if_neg Bool.false_ne_true, List.filter_cons_of_pos (by simp [hx]), ih,
        List.filter_cons_of_pos (by simp [hx])]

/-- What stays as it is. -/
theorem squeeze_eq_self {l : List α} : squeeze p b l = l ↔ SingleSpaced p b l := by
  induction l with
  | nil => exact iff_of_true rfl trivial
  | cons x l ih =>
    rw [squeeze, SingleSpaced]
    cases hx : p x with
    | false => simp [ih]
    | true =>
      rw [if_pos rfl]
      cases hhead : l.head?.any p with
      | true =>
        -- the result is shorter
        have hle := length_squeeze_le (p := p) (b := b) l
        apply iff_of_false
        · intro h
          have hlength := congrArg List.length h
          rw [if_pos rfl, List.length_cons] at hlength
          omega
        · exact fun h => nomatch (h.1 rfl).2
      | false => simp [ih, eq_comm]

theorem squeeze_map {β : Type*} (f : α → β) {q : β → Bool} (hq : ∀ x, q (f x) = p x)
    (l : List α) : (squeeze p b l).map f = squeeze q (f b) (l.map f) := by
  induction l with
  | nil => rfl
  | cons x l ih =>
    have hhead : (l.map f).head?.any q = l.head?.any p := by
      cases l with
      | nil => rfl
      | cons y l => exact hq y
    simp only [squeeze, List.map_cons, hq, hhead, ← ih]
    split
    · split <;> rfl
    · rfl

/-! ## Equal up to blanks -/

theorem any_head?_squeeze (hb : p b = true) (l : List α) :
    (squeeze p b l).head?.any p = l.head?.any p := by
  cases l with
  | nil => rfl
  | cons x l =>
    induction l generalizing x with
    | nil => cases hx : p x <;> simp [squeeze, hx, hb]
    | cons y l ih =>
      cases hx : p x with
      | false => simp [squeeze, hx]
      | true =>
        rw [squeeze, if_pos hx]
        split
        next hy =>
          rw [ih y]
          simpa [hx] using hy
        next => simp [hx, hb]

theorem squeeze_cons_congr (hb : p b = true) {l l' : List α} (h : squeeze p b l = squeeze p b l')
    (x : α) : squeeze p b (x :: l) = squeeze p b (x :: l') := by
  rw [squeeze, squeeze, ← any_head?_squeeze hb l, ← any_head?_squeeze hb l', h]

theorem squeeze_append_congr (hb : p b = true) {l l' : List α}
    (h : squeeze p b l = squeeze p b l') (w : List α) :
    squeeze p b (w ++ l) = squeeze p b (w ++ l') := by
  induction w with
  | nil => exact h
  | cons x w ih => exact squeeze_cons_congr hb ih x

/-- One blank is as good as another one. -/
theorem squeeze_cons_eq {x y : α} (hx : p x = true) (hy : p y = true) (l : List α) :
    squeeze p b (x :: l) = squeeze p b (y :: l) := by
  rw [squeeze, squeeze, if_pos hx, if_pos hy]

theorem squeeze_cons_cons {x y : α} (hx : p x = true) (hy : p y = true) (l : List α) :
    squeeze p b (x :: y :: l) = squeeze p b (x :: l) := by
  rw [squeeze_cons_eq hx hy l, squeeze, if_pos hx]
  exact if_pos hy

theorem squeeze_cons_append {x : α} (hx : p x = true) {w : List α} (hw : ∀ y ∈ w, p y = true)
    (l : List α) : squeeze p b (x :: (w ++ l)) = squeeze p b (x :: l) := by
  induction w with
  | nil => rfl
  | cons y w ih =>
    rw [List.forall_mem_cons] at hw
    rw [List.cons_append, squeeze_cons_cons hx hw.1]
    exact ih hw.2

/-! ## Trimming -/

/-- The elements with `p` at the ends are taken away. -/
def trim (p : α → Bool) (l : List α) : List α := (l.dropWhile p).rdropWhile p

theorem trim_map {β : Type*} (f : α → β) {q : β → Bool} (hq : ∀ x, q (f x) = p x) (l : List α) :
    (trim p l).map f = trim q (l.map f) := by
  have hp : q ∘ f = p := funext hq
  rw [trim, trim, List.rdropWhile, List.rdropWhile, List.dropWhile_map, hp, List.map_reverse,
    ← List.map_reverse (l := l.dropWhile p), List.dropWhile_map, hp]

/-- Only blanks are taken away. -/
theorem filter_trim (l : List α) : (trim p l).filter (!p ·) = l.filter (!p ·) := by
  have hleft (l : List α) : (l.dropWhile p).filter (!p ·) = l.filter (!p ·) := by
    induction l with
    | nil => rfl
    | cons x l ih =>
      rw [List.dropWhile_cons]
      split
      next hx => rw [ih, List.filter_cons_of_neg (by simp [hx])]
      next => rfl
  rw [trim, List.rdropWhile, List.filter_reverse, hleft, List.filter_reverse, List.reverse_reverse,
    hleft]

theorem trim_append {w : List α} (hw : ∀ x ∈ w, p x = true) (l : List α) :
    trim p (l ++ w) = trim p l := by
  rw [trim, trim, List.dropWhile_append]
  split
  next hl =>
    rw [List.isEmpty_iff.mp hl, List.dropWhile_eq_nil_iff.mpr hw]
  next => exact rdropWhile_append_of_all hw _

theorem squeeze_of_forall {w : List α} (hw : ∀ x ∈ w, p x = true) :
    squeeze p b w = if w = [] then [] else [b] := by
  induction w with
  | nil => rfl
  | cons x w ih =>
    rw [List.forall_mem_cons] at hw
    rw [squeeze, if_pos hw.1, ih hw.2]
    cases w with
    | nil => rfl
    | cons y w => exact if_pos (hw.2 y List.mem_cons_self)

/-- Blanks at the end become one, or belong to the last ones. -/
theorem squeeze_append_blanks (hb : p b = true) (l : List α) {w : List α}
    (hw : ∀ x ∈ w, p x = true) :
    ∃ v, (∀ x ∈ v, p x = true) ∧ squeeze p b (l ++ w) = squeeze p b l ++ v := by
  induction l with
  | nil =>
    refine ⟨squeeze p b w, ?_, rfl⟩
    rw [squeeze_of_forall hw]
    split <;> simp [hb]
  | cons x l ih =>
    cases hx : p x with
    | false =>
      obtain ⟨v, hv, heq⟩ := ih
      refine ⟨v, hv, ?_⟩
      rw [List.cons_append, squeeze_cons_of_not hx, squeeze_cons_of_not hx, heq]
      rfl
    | true =>
      cases l with
      | nil =>
        refine ⟨[], by simp, ?_⟩
        have hall : ∀ y ∈ x :: w, p y = true := List.forall_mem_cons.mpr ⟨hx, hw⟩
        rw [List.cons_append, List.nil_append, squeeze_of_forall hall]
        simp [squeeze, hx]
      | cons y l =>
        obtain ⟨v, hv, heq⟩ := ih
        refine ⟨v, hv, ?_⟩
        rw [List.cons_append, squeeze, squeeze, heq, if_pos hx, if_pos hx]
        cases hy : p y <;> simp [hy]

/-- Blanks at the end make no difference. -/
theorem trim_squeeze_append (hb : p b = true) (l : List α) {w : List α}
    (hw : ∀ x ∈ w, p x = true) : trim p (squeeze p b (l ++ w)) = trim p (squeeze p b l) := by
  obtain ⟨v, hv, heq⟩ := squeeze_append_blanks hb l hw
  rw [heq, trim_append hv]

namespace GoString

/-! ## Fields -/

theorem fields_cons_of_space {x : Rune} (hx : x.isSpace = true) (l : GoString) :
    fields (x :: l) = fields l := by
  rw [fields, List.splitOnP_cons_eq_if_modifyHead, if_pos hx]
  rfl

/-- A word before white space. -/
theorem fields_append_cons {w : GoString} (hw : ∀ x ∈ w, x.isSpace = false) (hne : w ≠ [])
    {x : Rune} (hx : x.isSpace = true) (l : GoString) : fields (w ++ x :: l) = w :: fields l := by
  rw [fields, List.splitOnP_append_cons_of_forall_mem hw x hx,
    List.filter_cons_of_pos (by simpa using hne)]
  rfl

/-- A word goes on. -/
theorem fields_cons_cons {x y : Rune} (hx : x.isSpace = false) (hy : y.isSpace = false)
    (l : GoString) : fields (x :: y :: l) = (fields (y :: l)).modifyHead (x :: ·) := by
  have hsplit : (y :: l).splitOnP Rune.isSpace =
      (l.splitOnP Rune.isSpace).modifyHead (y :: ·) := by
    rw [List.splitOnP_cons_eq_if_modifyHead, hy]
    rfl
  obtain ⟨w, ws, hws⟩ := List.exists_cons_of_ne_nil (List.splitOnP_ne_nil Rune.isSpace l)
  rw [fields, List.splitOnP_cons_eq_if_modifyHead, hx, fields, hsplit, hws]
  rfl

/-- The first field of a text that begins with no white space. -/
theorem fields_cons_ne_nil {x : Rune} (hx : x.isSpace = false) (l : GoString) :
    fields (x :: l) ≠ [] := by
  induction l generalizing x with
  | nil =>
    rw [fields, List.splitOnP_eq_singleton (by simpa using hx)]
    exact List.cons_ne_nil _ _
  | cons y l ih =>
    cases hy : y.isSpace with
    | true =>
      have hword : ∀ z ∈ [x], z.isSpace = false := by simpa using hx
      have hcons := fields_append_cons hword (List.cons_ne_nil x []) hy l
      rw [List.singleton_append] at hcons
      rw [hcons]
      exact List.cons_ne_nil _ _
    | false =>
      rw [fields_cons_cons hx hy]
      obtain ⟨w, ws, hws⟩ := List.exists_cons_of_ne_nil (ih hy)
      rw [hws]
      exact List.cons_ne_nil _ _

theorem isSpace_of_fields_eq_nil {l : GoString} (h : fields l = []) :
    ∀ x ∈ l, x.isSpace = true := by
  induction l with
  | nil => exact fun _ hx => nomatch hx
  | cons x l ih =>
    cases hx : x.isSpace with
    | false => exact absurd h (fields_cons_ne_nil hx l)
    | true =>
      rw [fields_cons_of_space hx] at h
      exact List.forall_mem_cons.mpr ⟨hx, ih h⟩

theorem join_cons_of_ne_nil {sep w : GoString} {ws : List GoString} (h : ws ≠ []) :
    join sep (w :: ws) = w ++ sep ++ join sep ws := by
  obtain ⟨v, vs, rfl⟩ := List.exists_cons_of_ne_nil h
  simp [join, List.intercalate, List.intersperse]

/-- White space between words becomes a blank. -/
theorem squeeze_eq_join_fields {l : GoString} (h : l.getLast?.any Rune.isSpace = false) :
    squeeze Rune.isSpace (.char ' ') l =
      (if l.head?.any Rune.isSpace then [.char ' '] else []) ++
        join [.char ' '] (fields l) := by
  induction l with
  | nil => rfl
  | cons x l ih =>
    cases l with
    | nil =>
      have hx : x.isSpace = false := h
      have hfields : fields [x] = [[x]] := by
        rw [fields, List.splitOnP_eq_singleton (by simpa using hx)]
        rfl
      rw [hfields, squeeze_cons_of_not hx]
      simp [hx, join, squeeze]
    | cons y l =>
      have hlast : (y :: l).getLast?.any Rune.isSpace = false := by
        rwa [List.getLast?_cons_cons] at h
      have ih := ih hlast
      cases hx : x.isSpace with
      | true =>
        rw [squeeze, if_pos hx, fields_cons_of_space hx, ih]
        cases hy : y.isSpace <;> simp [hx, hy]
      | false =>
        rw [squeeze_cons_of_not hx, ih]
        cases hy : y.isSpace with
        | true =>
          -- a word ends
          have hfields : fields (x :: y :: l) = [x] :: fields l :=
            fields_append_cons (w := [x]) (by simpa using hx) (List.cons_ne_nil x []) hy l
          have hne : fields l ≠ [] := by
            intro hnil
            rw [← fields_cons_of_space hy] at hnil
            rw [List.getLast?_eq_some_getLast (List.cons_ne_nil y l), Option.any_some,
              isSpace_of_fields_eq_nil hnil _ (List.getLast_mem _)] at hlast
            exact nomatch hlast
          rw [hfields, join_cons_of_ne_nil hne, fields_cons_of_space hy]
          simp [hx, hy]
        | false =>
          -- the word goes on
          obtain ⟨w, ws, hws⟩ := List.exists_cons_of_ne_nil (fields_cons_ne_nil hy l)
          rw [fields_cons_cons hx hy, hws]
          cases ws with
          | nil => simp [hx, hy, join]
          | cons v ws =>
            rw [List.modifyHead_cons, join_cons_of_ne_nil (List.cons_ne_nil v ws),
              join_cons_of_ne_nil (List.cons_ne_nil v ws)]
            simp [hx, hy]

end GoString

end ForStd
