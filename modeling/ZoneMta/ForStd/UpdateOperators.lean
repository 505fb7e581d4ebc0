import Mathlib
import ZoneMta.ForStd.AList

/-!
# Update operators

The documents of a document database, and what an update with the operators `$set`, `$inc` and
`$mul` does to one. A key of an update is a path through the objects of the document, its names are
separated by dots.

`UpdateLaws` says what can be relied on when an update succeeds, whatever the database does about
arrays, the order of new fields and the updates it refuses. `applyUpdate` is an update that
satisfies the laws.

## Key results

- `path_injective`: two keys do not have the same path
- `Bson.get_modify_self`, `Bson.get_modify_of_apart`: a change at a path, and at the others
- `updateLaws_applyUpdate`: the laws of `applyUpdate`
-/

namespace ForStd

/-! ## Documents -/

/-- A value in a document; of two fields with one name the first one counts. -/
inductive Bson where
  | null
  | bool (b : Bool)
  | number (n : ℚ)
  | string (s : String)
  | date (milliseconds : Int)
  | array (items : List Bson)
  | object (fields : List (String × Bson))

namespace Bson

/-- The value at a path through objects. -/
def get : Bson → List String → Option Bson
  | v, [] => some v
  | object fields, name :: p => (fields.lookup name).bind (·.get p)
  | _, _ :: _ => none

/-- The value has no parts. -/
def isScalar : Bson → Bool
  | array _ | object _ => false
  | _ => true

end Bson

/-- The names in a key. -/
def path (key : String) : List String := (key.toList.splitOn '.').map String.ofList

theorem path_injective : Function.Injective path := by
  intro key key' h
  -- joined by dots the names are the key again
  have hsplit := (List.map_inj_right fun _ _ h => String.ofList_inj.mp h).mp h
  have hlist := congrArg (['.'].intercalate ·) hsplit
  simp only [List.intercalate_splitOn] at hlist
  exact String.toList_inj.mp hlist

theorem path_ne_nil (key : String) : path key ≠ [] := by
  rw [path, ne_eq, List.map_eq_nil_iff]
  exact List.splitOn_ne_nil _ _

/-- One of the two paths leads through the other one. -/
def Overlap (p q : List String) : Prop := p <+: q ∨ q <+: p

instance (p q : List String) : Decidable (Overlap p q) := inferInstanceAs (Decidable (_ ∨ _))

theorem Overlap.symm {p q : List String} (h : Overlap p q) : Overlap q p := Or.symm h

theorem overlap_cons_self {name : String} {p q : List String} :
    Overlap (name :: p) (name :: q) ↔ Overlap p q := by
  simp only [Overlap, List.prefix_cons_inj]

/-! ## Updates -/

/-- What an update does at one key. -/
inductive UpdateOp where
  | set (v : Bson)
  | inc (v : Bson)
  | mul (v : Bson)

/-- The value that takes the place of the one before; `none` where the operator fails. A number that
    is missing counts as 0. -/
def UpdateOp.result : UpdateOp → Option Bson → Option Bson
  | set v, _ => some v
  | inc (.number n), none => some (.number n)
  | inc (.number n), some (.number m) => some (.number (m + n))
  | mul (.number _), none => some (.number 0)
  | mul (.number n), some (.number m) => some (.number (m * n))
  | _, _ => none

/-- There are at most objects on the way to the path. -/
def Bson.Open (doc : Bson) (p : List String) : Prop :=
  ∀ q v, q <+: p → q ≠ p → doc.get q = some v → ∃ fields, v = .object fields

/-- What holds of an update that succeeds: no key leads through another one, each operator has its
    result, the values at other paths stay, and no key leads through a value without parts. -/
structure UpdateLaws (update : Bson → List (String × UpdateOp) → Option Bson) : Prop where
  apart : ∀ {doc doc' writes}, update doc writes = some doc' →
    writes.Pairwise fun w w' => ¬Overlap (path w.1) (path w'.1)
  written : ∀ {doc doc' writes}, update doc writes = some doc' → ∀ w ∈ writes,
    doc.Open (path w.1) → ∃ v, w.2.result (doc.get (path w.1)) = some v ∧
      doc'.get (path w.1) = some v
  frame : ∀ {doc doc' writes}, update doc writes = some doc' → ∀ q,
    (∀ w ∈ writes, ¬Overlap (path w.1) q) → doc'.get q = doc.get q
  below : ∀ {doc doc' writes}, update doc writes = some doc' → ∀ w ∈ writes, ∀ q v,
    q <+: path w.1 → q ≠ path w.1 → doc.get q = some v → v.isScalar = false

/-- No key of the update leads through another one. -/
theorem UpdateLaws.not_overlap {update : Bson → List (String × UpdateOp) → Option Bson}
    (laws : UpdateLaws update) {doc doc' : Bson} {writes : List (String × UpdateOp)}
    (h : update doc writes = some doc') {w w' : String × UpdateOp} (hw : w ∈ writes)
    (hw' : w' ∈ writes) (hne : w ≠ w') : ¬Overlap (path w.1) (path w'.1) := by
  have : Std.Symm fun w w' : String × UpdateOp => ¬Overlap (path w.1) (path w'.1) :=
    ⟨fun _ _ hnot hover => hnot hover.symm⟩
  exact (laws.apart h).forall hw hw' hne

/-! ## An update that satisfies the laws -/

/-- The fields with a value under the name. -/
def setField (name : String) (v : Bson) : List (String × Bson) → List (String × Bson)
  | [] => [(name, v)]
  | (name', v') :: fields =>
    if name' = name then (name, v) :: fields else (name', v') :: setField name v fields

theorem lookup_setField (name name' : String) (v : Bson) (fields : List (String × Bson)) :
    (setField name v fields).lookup name' =
      if name' = name then some v else fields.lookup name' := by
  induction fields with
  | nil =>
    rw [setField, lookup_cons]
  | cons field fields ih =>
    obtain ⟨name₁, v₁⟩ := field
    rw [setField]
    by_cases hname : name₁ = name
    · subst hname
      rw [if_pos rfl, lookup_cons, lookup_cons]
      by_cases hsame : name' = name₁
      · rw [if_pos hsame, if_pos hsame]
      · rw [if_neg hsame, if_neg hsame, if_neg hsame]
    · rw [if_neg hname, lookup_cons, lookup_cons, ih]
      by_cases hsame : name' = name₁
      · rw [if_pos hsame, if_pos hsame, if_neg fun heq => hname (hsame.symm.trans heq)]
      · rw [if_neg hsame, if_neg hsame]

namespace Bson

/-- The value with another one at the path. Objects that are missing are made. -/
def modify (f : Option Bson → Option Bson) : Option Bson → List String → Option Bson
  | old, [] => f old
  | none, name :: p => (modify f none p).map fun v => object [(name, v)]
  | some (object fields), name :: p =>
    (modify f (fields.lookup name) p).map fun v => object (setField name v fields)
  | some _, _ :: _ => none

variable {f : Option Bson → Option Bson} {old : Option Bson} {v : Bson} {p q : List String}

theorem get_modify_self (h : modify f old p = some v) :
    ∃ r, f (old.bind (·.get p)) = some r ∧ v.get p = some r := by
  induction p generalizing old v with
  | nil =>
    refine ⟨v, ?_, rfl⟩
    cases old with
    | none => exact h
    | some w => exact h
  | cons name p ih =>
    cases old with
    | none =>
      obtain ⟨child, hchild, rfl⟩ := Option.map_eq_some_iff.mp h
      obtain ⟨r, hr, hget⟩ := ih hchild
      exact ⟨r, hr, by simpa [get] using hget⟩
    | some w =>
      cases w with
      | object fields =>
        obtain ⟨child, hchild, rfl⟩ := Option.map_eq_some_iff.mp h
        obtain ⟨r, hr, hget⟩ := ih hchild
        refine ⟨r, hr, ?_⟩
        rw [get, lookup_setField, if_pos rfl, Option.bind_some]
        exact hget
      | _ => exact nomatch h

theorem get_modify_of_apart (h : modify f old p = some v) (hpq : ¬Overlap p q) :
    v.get q = old.bind (·.get q) := by
  induction p generalizing old v q with
  | nil => exact absurd (Or.inl (List.nil_prefix)) hpq
  | cons name p ih =>
    cases q with
    | nil => exact absurd (Or.inr (List.nil_prefix)) hpq
    | cons name' q =>
      have hrest : name' = name → ¬Overlap p q := by
        rintro rfl hover
        exact hpq (overlap_cons_self.mpr hover)
      cases old with
      | none =>
        obtain ⟨child, hchild, rfl⟩ := Option.map_eq_some_iff.mp h
        rw [get, lookup_cons]
        split
        · next heq => exact ih hchild (hrest heq)
        · rfl
      | some w =>
        cases w with
        | object fields =>
          obtain ⟨child, hchild, rfl⟩ := Option.map_eq_some_iff.mp h
          rw [get, lookup_setField, Option.bind_some, get]
          split
          · next heq =>
            rw [Option.bind_some, heq]
            exact ih hchild (hrest heq)
          · rfl
        | _ => exact nomatch h

/-- A change goes through objects only. -/
theorem open_of_modify {doc : Bson} (h : modify f (some doc) p = some v) : doc.Open p := by
  intro q u hqp hne hget
  induction p generalizing doc v q with
  | nil => exact absurd (List.prefix_nil.mp hqp) hne
  | cons name p ih =>
    cases doc with
    | object fields =>
      cases q with
      | nil =>
        obtain rfl := Option.some.inj hget
        exact ⟨fields, rfl⟩
      | cons name' q =>
        obtain ⟨rfl, hrest⟩ := List.cons_prefix_cons.mp hqp
        obtain ⟨child, hchild, rfl⟩ := Option.map_eq_some_iff.mp h
        obtain ⟨w, hw, hget⟩ := Option.bind_eq_some_iff.mp hget
        rw [hw] at hchild
        exact ih hchild q hrest (fun heq => hne (congrArg _ heq)) hget
    | _ => exact nomatch h

end Bson

/-- The names of a key are not empty, and none of them is an operator. -/
def validPath (p : List String) : Bool := p.all fun name => !name.isEmpty && name.front != '$'

/-- The operators of an update, one after the other. -/
def applyWrites (doc : Bson) : List (String × UpdateOp) → Option Bson
  | [] => some doc
  | w :: writes =>
    (Bson.modify w.2.result (some doc) (path w.1)).bind fun doc => applyWrites doc writes

/-- An update that takes no paths through arrays. -/
def applyUpdate (doc : Bson) (writes : List (String × UpdateOp)) : Option Bson :=
  if writes.Pairwise (fun w w' => ¬Overlap (path w.1) (path w'.1)) ∧
      ∀ w ∈ writes, validPath (path w.1) = true then
    applyWrites doc writes
  else none

section applyWrites

variable {doc doc' : Bson} {writes : List (String × UpdateOp)} {q : List String}

theorem get_applyWrites_of_apart (h : applyWrites doc writes = some doc')
    (hq : ∀ w ∈ writes, ¬Overlap (path w.1) q) : doc'.get q = doc.get q := by
  induction writes generalizing doc with
  | nil => rw [Option.some.inj h]
  | cons w writes ih =>
    obtain ⟨doc₁, hfirst, hrest⟩ := Option.bind_eq_some_iff.mp h
    rw [ih hrest fun w' hw' => hq w' (List.mem_cons_of_mem w hw'),
      Bson.get_modify_of_apart hfirst (hq w List.mem_cons_self)]
    rfl

theorem get_applyWrites_of_mem (h : applyWrites doc writes = some doc')
    (hapart : writes.Pairwise fun w w' => ¬Overlap (path w.1) (path w'.1))
    {w : String × UpdateOp} (hw : w ∈ writes) :
    ∃ v, w.2.result (doc.get (path w.1)) = some v ∧ doc'.get (path w.1) = some v := by
  induction writes generalizing doc with
  | nil => exact absurd hw List.not_mem_nil
  | cons w₁ writes ih =>
    obtain ⟨doc₁, hfirst, hrest⟩ := Option.bind_eq_some_iff.mp h
    obtain ⟨hw₁, hapart⟩ := List.pairwise_cons.mp hapart
    obtain rfl | hw := List.mem_cons.mp hw
    -- the later operators leave the result of this one, and this one what they start from
    · obtain ⟨v, hv, hget⟩ := Bson.get_modify_self hfirst
      refine ⟨v, hv, ?_⟩
      rw [get_applyWrites_of_apart hrest fun w' hw' hover => hw₁ w' hw' hover.symm, hget]
    · obtain ⟨v, hv, hget⟩ := ih hrest hapart hw
      rw [Bson.get_modify_of_apart hfirst (hw₁ w hw)] at hv
      exact ⟨v, hv, hget⟩

theorem open_of_applyWrites (h : applyWrites doc writes = some doc')
    (hapart : writes.Pairwise fun w w' => ¬Overlap (path w.1) (path w'.1))
    {w : String × UpdateOp} (hw : w ∈ writes) : doc.Open (path w.1) := by
  induction writes generalizing doc with
  | nil => exact absurd hw List.not_mem_nil
  | cons w₁ writes ih =>
    obtain ⟨doc₁, hfirst, hrest⟩ := Option.bind_eq_some_iff.mp h
    obtain ⟨hw₁, hapart⟩ := List.pairwise_cons.mp hapart
    obtain rfl | hw := List.mem_cons.mp hw
    · exact Bson.open_of_modify hfirst
    · intro q v hqp hne hget
      by_cases hover : Overlap (path w₁.1) q
      · obtain hpre | hpre := hover
        · exact absurd (Or.inl (hpre.trans hqp)) (hw₁ w hw)
        · -- the first key leads through the same object
          refine Bson.open_of_modify hfirst q v hpre (fun heq => ?_) hget
          exact hw₁ w hw (Or.inl (heq ▸ hqp))
      · refine ih hrest hapart hw q v hqp hne ?_
        rw [Bson.get_modify_of_apart hfirst hover]
        exact hget

end applyWrites

theorem updateLaws_applyUpdate : UpdateLaws applyUpdate where
  apart h := (Option.ite_none_right_eq_some.mp h).1.1
  written h w hw _ := by
    obtain ⟨⟨hapart, -⟩, h⟩ := Option.ite_none_right_eq_some.mp h
    exact get_applyWrites_of_mem h hapart hw
  frame h q hq := get_applyWrites_of_apart (Option.ite_none_right_eq_some.mp h).2 hq
  below h w hw q v hqp hne hget := by
    obtain ⟨⟨hapart, -⟩, h⟩ := Option.ite_none_right_eq_some.mp h
    obtain ⟨fields, rfl⟩ := open_of_applyWrites h hapart hw q v hqp hne hget
    rfl

end ForStd
