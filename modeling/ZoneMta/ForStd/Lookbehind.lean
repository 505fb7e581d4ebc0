import ZoneMta.ForStd.Squeeze

/-!
# Global replacement with a look behind

`replaceBehind m r` is what `s.replace(re, r)` returns for a global regular expression `re` that
looks at the symbol before it, as one with `^` does: `m prev t = some n` when `re` matches the first
`n` symbols of the rest `t` behind `prev`.

## Key results

- `filter_replaceBehind`: which symbols stay
- `squeeze_replaceBehind`: the result up to blanks
- `covers_append`: the matches in the parts of a string
-/

namespace ForStd

variable {α : Type*}

/-- Replacement with the first `k` symbols already consumed by the last match. -/
def replaceBehind (m : Option α → List α → Option Nat) (r : List α) :
    Option α → Nat → List α → List α
  | prev, _, [] => if m prev [] = some 0 then r else []
  | _, k + 1, c :: s => replaceBehind m r (some c) k s
  | prev, 0, c :: s =>
    match m prev (c :: s) with
    | some (n + 1) => r ++ replaceBehind m r (some c) n s
    | some 0 => r ++ c :: replaceBehind m r (some c) 0 s
    | none => c :: replaceBehind m r (some c) 0 s

/-- Up to symbols with `p`, the matches cover the ones that are to go. -/
def Covers (m : Option α → List α → Option Nat) (p go : α → Bool) :
    Option α → Nat → List α → Prop
  | _, _, [] => True
  | _, k + 1, c :: s => (p c = true ∨ go c = true) ∧ Covers m p go (some c) k s
  | prev, 0, c :: s =>
    match m prev (c :: s) with
    | some (n + 1) => (p c = true ∨ go c = true) ∧ Covers m p go (some c) n s
    | _ => (p c = true ∨ go c = false) ∧ Covers m p go (some c) 0 s

variable {m : Option α → List α → Option Nat} {r : List α} {p go : α → Bool}

theorem replaceBehind_nil (prev : Option α) (k : Nat) :
    replaceBehind m r prev k [] = if m prev [] = some 0 then r else [] := by
  cases k <;> rfl

theorem covers_of_some {prev : Option α} {c : α} {s : List α} {n : Nat}
    (h : m prev (c :: s) = some (n + 1)) :
    Covers m p go prev 0 (c :: s) ↔ (p c = true ∨ go c = true) ∧ Covers m p go (some c) n s := by
  simp only [Covers, h]

theorem covers_of_none {prev : Option α} {c : α} {s : List α} (h : m prev (c :: s) = none) :
    Covers m p go prev 0 (c :: s) ↔ (p c = true ∨ go c = false) ∧ Covers m p go (some c) 0 s := by
  simp only [Covers, h]

/-! ## Which symbols stay -/

/-- No symbol that stays is new. -/
theorem countP_replaceBehind_le {q : α → Bool} (hr : ∀ x ∈ r, q x = false) (prev : Option α)
    (k : Nat) (s : List α) : (replaceBehind m r prev k s).countP q ≤ s.countP q := by
  have hzero : r.countP q = 0 := by simpa [List.countP_eq_zero] using hr
  induction s generalizing prev k with
  | nil =>
    rw [replaceBehind_nil]
    split
    · rw [hzero]; exact Nat.zero_le _
    · exact Nat.le_refl _
  | cons c s ih =>
    have hskip (k : Nat) : (replaceBehind m r (some c) k s).countP q ≤ (c :: s).countP q :=
      Nat.le_trans (ih (some c) k) (List.Sublist.countP_le (List.sublist_cons_self c s))
    have hcons : (c :: replaceBehind m r (some c) 0 s).countP q ≤ (c :: s).countP q := by
      rw [List.countP_cons, List.countP_cons]
      exact Nat.add_le_add_right (ih (some c) 0) _
    cases k with
    | succ k => exact hskip k
    | zero =>
      rw [replaceBehind]
      split
      · rw [List.countP_append, hzero, Nat.zero_add]; exact hskip _
      · rw [List.countP_append, hzero, Nat.zero_add]; exact hcons
      · exact hcons

/-- The symbols that stay are the right ones if and only if the matches cover the other ones. -/
theorem filter_replaceBehind (hr : ∀ x ∈ r, p x = true) (prev : Option α) (k : Nat) (s : List α) :
    (replaceBehind m r prev k s).filter (!p ·) = s.filter (fun x => !p x && !go x) ↔
      Covers m p go prev k s := by
  have hfilter : r.filter (!p ·) = [] := by simpa [List.filter_eq_nil_iff] using hr
  induction s generalizing prev k with
  | nil =>
    rw [replaceBehind_nil]
    have hnil : (if m prev [] = some 0 then r else []).filter (!p ·) = [] := by
      split
      · exact hfilter
      · rfl
    rw [hnil]
    cases k <;> simp [Covers]
  | cons c s ih =>
    have hskip (k : Nat) : (replaceBehind m r (some c) k s).filter (!p ·) =
          (c :: s).filter (fun x => !p x && !go x) ↔
        (p c = true ∨ go c = true) ∧ Covers m p go (some c) k s := by
      apply Iff.trans _ (and_congr_right fun _ => ih (some c) k)
      cases hp : p c with
      | true => simp [hp]
      | false =>
        cases hgo : go c with
        | true => simp [hp, hgo]
        | false =>
          -- the symbol is missing
          apply iff_of_false
          · intro h
            have hnew : ∀ x ∈ r, (!p x && !go x) = false := fun x hx => by simp [hr x hx]
            have hle := countP_replaceBehind_le (m := m) hnew (some c) k s
            have hcount := congrArg (List.countP (fun x => !go x)) h
            rw [List.countP_filter, List.countP_filter, List.countP_cons,
              if_pos (by simp [hp, hgo])] at hcount
            have hleft : (fun x => !go x && !p x) = fun x => !p x && !go x :=
              funext fun x => Bool.and_comm _ _
            have hright : (fun x => !go x && (!p x && !go x)) = fun x => !p x && !go x := by
              funext x
              cases p x <;> cases go x <;> rfl
            rw [hleft, hright] at hcount
            omega
          · simp
    have hcons : (c :: replaceBehind m r (some c) 0 s).filter (!p ·) =
          (c :: s).filter (fun x => !p x && !go x) ↔
        (p c = true ∨ go c = false) ∧ Covers m p go (some c) 0 s := by
      apply Iff.trans _ (and_congr_right fun _ => ih (some c) 0)
      cases hp : p c with
      | true => simp [hp]
      | false =>
        cases hgo : go c with
        | false => simp [hp, hgo]
        | true =>
          -- the symbol should be missing
          apply iff_of_false
          · intro h
            have hmem : c ∈ (c :: s).filter (fun x => !p x && !go x) := by
              rw [← h]
              simp [hp]
            simp [hgo] at hmem
          · simp
    cases k with
    | succ k => exact hskip k
    | zero =>
      cases hm : m prev (c :: s) with
      | none =>
        rw [covers_of_none hm]
        simp only [replaceBehind, hm]
        exact hcons
      | some n =>
        cases n with
        | zero =>
          simp only [replaceBehind, Covers, hm, List.filter_append, hfilter, List.nil_append]
          exact hcons
        | succ n =>
          rw [covers_of_some hm]
          simp only [replaceBehind, hm, List.filter_append, hfilter, List.nil_append]
          exact hskip n

/-- The result up to blanks: there is one in the place of every symbol that is to go. -/
theorem squeeze_replaceBehind {b : α} (hb : p b = true) (hempty : ∀ prev t, m prev t ≠ some 0)
    {prev : Option α} {s : List α} (h : Covers m p go prev 0 s) :
    squeeze p b (replaceBehind m [b] prev 0 s) =
      squeeze p b (s.map fun c => if go c then b else c) := by
  have hmatched (c : α) (hc : p c = true ∨ go c = true) : p (if go c then b else c) = true := by
    split
    · exact hb
    · simpa [*] using hc
  -- behind a blank the symbols of a match make no difference
  suffices hboth : ∀ prev k, Covers m p go prev k s →
      squeeze p b (b :: replaceBehind m [b] prev k s) =
        squeeze p b (b :: s.map fun c => if go c then b else c) ∧
      (k = 0 → squeeze p b (replaceBehind m [b] prev k s) =
        squeeze p b (s.map fun c => if go c then b else c)) from (hboth prev 0 h).2 rfl
  clear h
  induction s with
  | nil =>
    intro prev k _
    rw [replaceBehind_nil, List.map_nil, if_neg (hempty prev [])]
    exact ⟨rfl, fun _ => rfl⟩
  | cons c s ih =>
    intro prev k h
    have hskip (k : Nat) (hc : p c = true ∨ go c = true)
        (hrest : Covers m p go (some c) k s) :
        squeeze p b (b :: replaceBehind m [b] (some c) k s) =
          squeeze p b ((if go c then b else c) :: s.map fun c => if go c then b else c) := by
      rw [(ih (some c) k hrest).1]
      exact squeeze_cons_eq hb (hmatched c hc) _
    cases k with
    | succ k =>
      refine ⟨?_, fun h => nomatch h⟩
      rw [List.map_cons, squeeze_cons_cons hb (hmatched c h.1)]
      exact (ih (some c) k h.2).1
    | zero =>
      suffices hzero : squeeze p b (replaceBehind m [b] prev 0 (c :: s)) =
          squeeze p b ((c :: s).map fun c => if go c then b else c) from
        ⟨squeeze_cons_congr hb hzero b, fun _ => hzero⟩
      rw [List.map_cons]
      have hcons (hc : p c = true ∨ go c = false) (hrest : Covers m p go (some c) 0 s) :
          squeeze p b (c :: replaceBehind m [b] (some c) 0 s) =
            squeeze p b ((if go c then b else c) :: s.map fun c => if go c then b else c) := by
        rw [squeeze_cons_congr hb ((ih (some c) 0 hrest).2 rfl) c]
        cases hgo : go c with
        | false => rfl
        | true =>
          have hp : p c = true := by simpa [hgo] using hc
          exact squeeze_cons_eq hp hb _
      cases hm : m prev (c :: s) with
      | none =>
        rw [covers_of_none hm] at h
        simp only [replaceBehind, hm]
        exact hcons h.1 h.2
      | some n =>
        cases n with
        | zero => exact absurd hm (hempty prev _)
        | succ n =>
          rw [covers_of_some hm] at h
          simp only [replaceBehind, hm]
          exact hskip n h.1 h.2

theorem filter_map_goes {b : α} (hb : p b = true) (s : List α) :
    (s.map fun c => if go c then b else c).filter (!p ·) =
      s.filter (fun c => !p c && !go c) := by
  induction s with
  | nil => rfl
  | cons c s ih =>
    rw [List.map_cons]
    cases hgo : go c with
    | true => simp [hgo, hb, ih]
    | false => cases hp : p c <;> simp [hgo, hp, ih]

/-- Symbols of which none is to go. -/
theorem squeeze_append_map_goes {b : α} (hb : p b = true) {w : List α}
    (hw : ∀ c ∈ w, p c = true ∨ go c = false) (s : List α) :
    squeeze p b (w ++ s) = squeeze p b ((w.map fun c => if go c then b else c) ++ s) := by
  induction w with
  | nil => rfl
  | cons c w ih =>
    rw [List.forall_mem_cons] at hw
    rw [List.cons_append, squeeze_cons_congr hb (ih hw.2) c, List.map_cons, List.cons_append]
    cases hgo : go c with
    | false => rfl
    | true =>
      have hp : p c = true := by simpa [hgo] using hw.1
      exact squeeze_cons_eq hp hb _

theorem replaceBehind_map {β : Type*} (f : α → β) {m' : Option β → List β → Option Nat}
    (hm : ∀ prev t, m' (prev.map f) (t.map f) = m prev t) (prev : Option α) (k : Nat)
    (s : List α) :
    (replaceBehind m r prev k s).map f =
      replaceBehind m' (r.map f) (prev.map f) k (s.map f) := by
  induction s generalizing prev k with
  | nil =>
    rw [List.map_nil, replaceBehind_nil, replaceBehind_nil, ← hm prev [], List.map_nil]
    split <;> rfl
  | cons c s ih =>
    cases k with
    | succ k => exact ih (some c) k
    | zero =>
      have hhead : m' (prev.map f) (f c :: s.map f) = m prev (c :: s) := hm prev (c :: s)
      rw [List.map_cons, replaceBehind, replaceBehind, hhead]
      split
      · rw [List.map_append, ih]; rfl
      · rw [List.map_append, List.map_cons, ih]; rfl
      · rw [List.map_cons, ih]; rfl

/-! ## The parts of a string -/

theorem getLast?_cons_eq_or (c : α) (w : List α) :
    (c :: w).getLast? = w.getLast?.or (some c) := by
  rw [List.getLast?_cons]
  cases w.getLast? <;> rfl

/-- Only what the expression says at the first symbol depends on the one before. -/
theorem covers_congr {prev prev' : Option α} {s : List α} (h : m prev s = m prev' s) :
    Covers m p go prev 0 s ↔ Covers m p go prev' 0 s := by
  cases s with
  | nil => exact Iff.rfl
  | cons c s => simp only [Covers, h]

/-- The rest of a match. -/
theorem covers_append (prev : Option α) (w s : List α) :
    Covers m p go prev w.length (w ++ s) ↔
      (∀ c ∈ w, p c = true ∨ go c = true) ∧ Covers m p go (w.getLast?.or prev) 0 s := by
  induction w generalizing prev with
  | nil => simp
  | cons c w ih =>
    rw [List.forall_mem_cons, and_assoc, getLast?_cons_eq_or, Option.or_assoc, Option.some_or,
      ← ih]
    rfl

/-- What a match covers. -/
theorem forall_of_covers {prev : Option α} {k : Nat} {s : List α} (h : Covers m p go prev k s) :
    ∀ c ∈ s.take k, p c = true ∨ go c = true := by
  induction s generalizing prev k with
  | nil => simp
  | cons c s ih =>
    cases k with
    | zero => simp
    | succ k =>
      rw [List.take_succ_cons, List.forall_mem_cons]
      exact ⟨h.1, ih h.2⟩

theorem forall_of_covers_of_some {prev : Option α} {n : Nat} {s : List α}
    (h : Covers m p go prev 0 s) (hm : m prev s = some n) :
    ∀ c ∈ s.take n, p c = true ∨ go c = true := by
  cases s with
  | nil => simp
  | cons c s =>
    cases n with
    | zero => simp
    | succ n =>
      rw [covers_of_some hm] at h
      rw [List.take_succ_cons, List.forall_mem_cons]
      exact ⟨h.1, forall_of_covers h.2⟩

/-- A match. -/
theorem covers_match {prev : Option α} {w s : List α} (hw : w ≠ [])
    (h : m prev (w ++ s) = some w.length) :
    Covers m p go prev 0 (w ++ s) ↔
      (∀ c ∈ w, p c = true ∨ go c = true) ∧ Covers m p go w.getLast? 0 s := by
  cases w with
  | nil => exact absurd rfl hw
  | cons c w =>
    rw [List.forall_mem_cons, and_assoc, getLast?_cons_eq_or, ← covers_append]
    exact covers_of_some h

/-- Blanks at which there is no match. -/
theorem covers_blanks (hm : ∀ prev c t, p c = true → m prev (c :: t) = none) (prev : Option α)
    {w : List α} (hw : ∀ c ∈ w, p c = true) (s : List α) :
    Covers m p go prev 0 (w ++ s) ↔ Covers m p go (w.getLast?.or prev) 0 s := by
  induction w generalizing prev with
  | nil => rfl
  | cons c w ih =>
    rw [List.forall_mem_cons] at hw
    rw [getLast?_cons_eq_or, Option.or_assoc, Option.some_or, ← ih (some c) hw.2,
      List.cons_append, covers_of_none (hm prev c _ hw.1)]
    exact and_iff_right (Or.inl hw.1)

/-- A match that ends with blanks. -/
theorem covers_match_blanks (hm : ∀ prev c t, p c = true → m prev (c :: t) = none)
    {prev : Option α} {w v s : List α} (hw : w ≠ []) (hv : ∀ c ∈ v, p c = true)
    (h : m prev (w ++ (v ++ s)) = some (w.length + v.length)) :
    Covers m p go prev 0 (w ++ (v ++ s)) ↔
      (∀ c ∈ w, p c = true ∨ go c = true) ∧ Covers m p go w.getLast? 0 (v ++ s) := by
  rw [← List.length_append, ← List.append_assoc] at h
  rw [← List.append_assoc, covers_match (by simp [hw]) h, covers_blanks hm w.getLast? hv,
    List.getLast?_append, List.forall_mem_append,
    and_iff_left (fun c hc => Or.inl (hv c hc) : ∀ c ∈ v, p c = true ∨ go c = true)]

end ForStd
