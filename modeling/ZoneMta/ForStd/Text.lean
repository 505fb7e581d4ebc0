import ZoneMta.ForStd.List

/-!
# Text

Lower case and trimming, with the laws that hold in every script, and the versions for ASCII.
Also the parts of a string in front of and behind a separator.

## Key results

- `Text.normal_normal`: the normal form of a name is its own normal form
- `Text.ascii`: the functions on ASCII text satisfy the laws
-/

namespace ForStd

/-- `toLowerCase` and `trim`. No character that `trim` removes has two cases. -/
structure Text where
  toLowerCase : String → String
  trim : String → String
  lower_lower : ∀ s, toLowerCase (toLowerCase s) = toLowerCase s
  trim_trim : ∀ s, trim (trim s) = trim s
  trim_lower : ∀ s, trim (toLowerCase s) = toLowerCase (trim s)

namespace Text

variable (text : Text)

/-- `toLowerCase().trim()` -/
def normal (s : String) : String := text.trim (text.toLowerCase s)

theorem normal_normal (s : String) : text.normal (text.normal s) = text.normal s := by
  rw [normal, normal, ← text.trim_lower, text.lower_lower, text.trim_trim]

theorem normal_lower_trim (s : String) :
    text.normal (text.toLowerCase (text.trim s)) = text.toLowerCase (text.trim s) := by
  rw [normal, text.lower_lower, text.trim_lower, text.trim_trim]

/-! ## ASCII -/

/-- The white space of ASCII. -/
def isSpace (c : Char) : Bool :=
  c == ' ' || c == '\t' || c == '\n' || c == '\x0b' || c == '\x0c' || c == '\r'

theorem toLower_val (c : Char) : c.toLower.val.toNat =
    if 65 ≤ c.val.toNat ∧ c.val.toNat ≤ 90 then c.val.toNat + 32 else c.val.toNat := by
  unfold Char.toLower
  have h65 : ('A'.val).toNat = 65 := rfl
  have h90 : ('Z'.val).toNat = 90 := rfl
  split
  · next h =>
    have hle : 65 ≤ c.val.toNat := UInt32.le_iff_toNat_le.mp h.1
    have hge : c.val.toNat ≤ 90 := UInt32.le_iff_toNat_le.mp h.2
    rw [if_pos ⟨hle, hge⟩]
    show (c.val + 32).toNat = _
    rw [UInt32.toNat_add]
    show (c.val.toNat + 32) % 2 ^ 32 = _
    omega
  · next h =>
    rw [if_neg]
    rintro ⟨hle, hge⟩
    exact h ⟨UInt32.le_iff_toNat_le.mpr hle, UInt32.le_iff_toNat_le.mpr hge⟩

theorem char_ext {c d : Char} (h : c.val.toNat = d.val.toNat) : c = d :=
  Char.ext (UInt32.toNat_inj.mp h)

theorem toLower_toLower (c : Char) : c.toLower.toLower = c.toLower := by
  refine char_ext ?_
  rw [toLower_val c.toLower, toLower_val c]
  split
  · next h => rw [if_neg (by omega)]
  · rfl

/-- White space has one case. -/
theorem isSpace_toLower (c : Char) : isSpace c.toLower = isSpace c := by
  have hval : ∀ d : Char, ¬(65 ≤ d.val.toNat ∧ d.val.toNat ≤ 90) →
      ¬(97 ≤ d.val.toNat ∧ d.val.toNat ≤ 122) → (c.toLower == d) = (c == d) := by
    intro d hupper hlower
    rw [Bool.eq_iff_iff, beq_iff_eq, beq_iff_eq]
    constructor
    · rintro rfl
      rw [toLower_val] at hupper hlower
      refine char_ext ?_
      rw [toLower_val]
      split at hlower
      · omega
      · next h => rw [if_neg h]
    · rintro rfl
      refine char_ext ?_
      rw [toLower_val, if_neg hupper]
  unfold isSpace
  rw [hval, hval, hval, hval, hval, hval] <;> decide

/-- Without the white space at both ends. -/
def trimList (l : List Char) : List Char := (l.dropWhile isSpace).rdropWhile isSpace

theorem trimList_trimList (l : List Char) : trimList (trimList l) = trimList l := by
  unfold trimList
  -- the first character that is left is no white space
  have hfirst : ((l.dropWhile isSpace).rdropWhile isSpace).dropWhile isSpace =
      (l.dropWhile isSpace).rdropWhile isSpace := by
    obtain ⟨rest, hrest⟩ := List.rdropWhile_prefix isSpace (l.dropWhile isSpace)
    cases hkept : (l.dropWhile isSpace).rdropWhile isSpace with
    | nil => rfl
    | cons c kept =>
      rw [hkept] at hrest
      have hc : isSpace c = false := by
        have hhead := List.head?_dropWhile_not isSpace l
        rw [← hrest] at hhead
        exact hhead
      rw [List.dropWhile_cons_of_neg (by rw [hc]; exact Bool.false_ne_true)]
  rw [hfirst, List.rdropWhile_idempotent]

theorem trimList_map (l : List Char) :
    trimList (l.map Char.toLower) = (trimList l).map Char.toLower := by
  have hcomp : isSpace ∘ Char.toLower = isSpace := funext isSpace_toLower
  unfold trimList List.rdropWhile
  rw [List.dropWhile_map, hcomp, ← List.map_reverse, List.dropWhile_map, hcomp, List.map_reverse]

theorem mem_trimList {c : Char} {l : List Char} (h : c ∈ trimList l) : c ∈ l :=
  (List.dropWhile_suffix isSpace).subset ((List.rdropWhile_prefix isSpace _).subset h)

theorem dropWhile_of_trimList {l : List Char} (h : trimList l = l) : l.dropWhile isSpace = l := by
  have hsuffix : l.dropWhile isSpace <:+ l := List.dropWhile_suffix isSpace
  refine hsuffix.eq_of_length_le ?_
  have hle := (List.rdropWhile_prefix isSpace (l.dropWhile isSpace)).length_le
  rw [← trimList, h] at hle
  exact hle

theorem rdropWhile_of_trimList {l : List Char} (h : trimList l = l) : l.rdropWhile isSpace = l := by
  rw [trimList, dropWhile_of_trimList h] at h
  exact h

/-- Two trimmed texts with something between them that is no white space. -/
theorem trimList_append_cons {l l' : List Char} {c : Char} (hc : isSpace c = false)
    (hl : trimList l = l) (hl' : trimList l' = l') : trimList (l ++ c :: l') = l ++ c :: l' := by
  have hfirst : (l ++ c :: l').dropWhile isSpace = l ++ c :: l' := by
    cases l with
    | nil => exact List.dropWhile_cons_of_neg (by rw [hc]; exact Bool.false_ne_true)
    | cons d l =>
      have hd : ¬isSpace d = true := by
        intro hspace
        have hdrop := dropWhile_of_trimList hl
        rw [List.dropWhile_cons_of_pos hspace] at hdrop
        have hle := (List.dropWhile_suffix (l := l) isSpace).length_le
        rw [hdrop, List.length_cons] at hle
        omega
      rw [List.cons_append, List.dropWhile_cons_of_neg hd]
  rw [trimList, hfirst]
  induction l' using List.reverseRecOn with
  | nil => exact List.rdropWhile_concat_neg isSpace l c (by rw [hc]; exact Bool.false_ne_true)
  | append_singleton l' d =>
    have hd : ¬isSpace d = true := by
      intro hspace
      have hdrop := rdropWhile_of_trimList hl'
      rw [List.rdropWhile_concat_pos _ _ _ hspace] at hdrop
      have hle := (List.rdropWhile_prefix isSpace l').length_le
      rw [hdrop, List.length_append, List.length_singleton] at hle
      omega
    rw [← List.cons_append, ← List.append_assoc, List.rdropWhile_concat_neg _ _ _ hd]

/-- Only an upper case letter changes. -/
theorem eq_of_toLower_eq {c d : Char} (h : c.toLower = d)
    (hd : ¬(97 ≤ d.val.toNat ∧ d.val.toNat ≤ 122)) : c = d := by
  subst h
  rw [toLower_val] at hd
  refine char_ext ?_
  rw [toLower_val]
  split at hd
  · omega
  · next h => rw [if_neg h]

/-- The functions on ASCII text. -/
def ascii : Text where
  toLowerCase s := String.ofList (s.toList.map Char.toLower)
  trim s := String.ofList (trimList s.toList)
  lower_lower s := by
    rw [String.toList_ofList, List.map_map]
    exact congrArg _ (List.map_congr_left fun c _ => toLower_toLower c)
  trim_trim s := by rw [String.toList_ofList, trimList_trimList]
  trim_lower s := by rw [String.toList_ofList, String.toList_ofList, trimList_map]

end Text

/-! ## Parts of a string -/

/-- What is behind the last `c`, the whole string if there is none. -/
def afterLast (c : Char) (s : String) : String := String.ofList (s.toList.rtakeWhile (· != c))

/-- There is no `c` behind the last one. -/
theorem notMem_afterLast (c : Char) (s : String) : c ∉ (afterLast c s).toList := by
  rw [afterLast, String.toList_ofList]
  intro h
  have hne : (c != c) = true := List.mem_rtakeWhile_imp (p := (· != c)) h
  exact absurd rfl (bne_iff_ne.mp hne)

/-- The part behind a separator, in which it does not come again. -/
theorem afterLast_append {c : Char} {sep : String} (hsep : sep.toList = [c]) (u : String)
    {d : String} (hd : c ∉ d.toList) : afterLast c (u ++ sep ++ d) = d := by
  have hall : ∀ x ∈ d.toList, (x != c) = true := by
    intro x hx
    exact bne_iff_ne.mpr fun h => hd (h ▸ hx)
  have hend : ¬(c != c) = true := by simp
  rw [afterLast, String.toList_append, String.toList_append, hsep, rtakeWhile_append_of_all hall,
    List.rtakeWhile_concat_neg (· != c) _ _ hend, List.nil_append, String.ofList_toList]

/-- What is in front of the last `c`, nothing if there is none. -/
def beforeLast (c : Char) (s : String) : String :=
  String.ofList (s.toList.rdropWhile (· != c)).dropLast

/-- What is behind the first `c`, the whole string if there is none. -/
def afterFirst (c : Char) (s : String) : String :=
  if c ∈ s.toList then String.ofList ((s.toList.dropWhile (· != c)).drop 1) else s

end ForStd
