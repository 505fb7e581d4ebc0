import ZoneMta.ForStd.OrderedMap
import ZoneMta.Native.SendingZone

/-!
# Address tools

The normal form of domains and addresses, and the addresses of headers: `normalizeDomain`,
`normalizeAddress`, `flatten`, `convertAddresses`, `parseAddressses` and `parseAddressList` of
`lib/address-tools.js`. What `addressparser` makes of a string is an argument.
-/

namespace ZoneMta

open ForStd (OrderedMap beforeLast afterLast)

namespace AddressTools

/-- A parsed address, a group, or a list of these. The address is empty where there is none. -/
inductive Item where
  | address (name address : String)
  | group (name : String) (members : List Item)
  | list (items : List Item)
deriving Repr

/-- What `normalizeAddress` returns, without and with the name. -/
inductive Normalized where
  | plain (address : String)
  | named (name address : String)
deriving Repr, DecidableEq

/-- An element of the list that `parseAddressses` gets. -/
inductive HeaderValue where
  | string (value : String)
  | parsed (item : Item)
deriving Repr

/-- The key of a normalized address in the map. -/
def Normalized.key : Normalized → String
  | .plain address => address
  | .named _ address => address

section normalize

variable (str : Strings)

def normalizeDomain (domain : String) : String :=
  str.toASCII (str.trim (str.toLowerCase domain))

/-- `normalizeAddress` of a string. -/
def normalizeAddress (address : String) : String :=
  if address = "" then ""
  else str.trim (beforeLast '@' address) ++ "@" ++ normalizeDomain str (afterLast '@' address)

/-- `normalizeAddress` of a parsed address, which is not empty. -/
def normalize (withNames : Bool) (name address : String) : Normalized :=
  if withNames then .named name (normalizeAddress str address)
  else .plain (normalizeAddress str address)

end normalize

/-! ## flatten -/

/-- `Array.isArray` -/
def isArray : Item → Bool
  | .list _ => true
  | _ => false

/-- `[].concat(...arr)` -/
def spread (arr : List Item) : List Item :=
  arr.flatMap fun
    | .list items => items
    | item => [item]

mutual

/-- The number of the parts of an element. -/
def weight : Item → Nat
  | .address _ _ => 1
  | .group _ members => 1 + weightAll members
  | .list items => 1 + weightAll items

/-- The number of the parts of a list. -/
def weightAll : List Item → Nat
  | [] => 0
  | item :: items => weight item + weightAll items

end

theorem weightAll_append (items items' : List Item) :
    weightAll (items ++ items') = weightAll items + weightAll items' := by
  induction items with
  | nil => simp [weightAll]
  | cons item items ih =>
    rw [List.cons_append, weightAll, weightAll, ih]
    omega

/-- Spreading a list takes its brackets away, and nothing else. -/
theorem weightAll_spread (arr : List Item) :
    weightAll (spread arr) + arr.countP isArray = weightAll arr := by
  induction arr with
  | nil => rfl
  | cons item arr ih =>
    rw [spread, List.flatMap_cons, weightAll_append, ← spread, weightAll, List.countP_cons]
    cases item <;> simp only [weight, weightAll, isArray] <;> simp <;> omega

theorem countP_pos_of_spread {arr : List Item} (h : (spread arr).any isArray = true) :
    0 < arr.countP isArray := by
  obtain ⟨item, hitem, hlist⟩ := List.any_eq_true.mp h
  obtain ⟨outer, houter, hmem⟩ := List.mem_flatMap.mp hitem
  refine List.countP_pos_iff.mpr ⟨outer, houter, ?_⟩
  cases outer with
  | list items => rfl
  | address | group =>
    -- an element that is no list is its own part
    rw [← List.mem_singleton.mp hmem]
    exact hlist

theorem weightAll_spread_lt {arr : List Item} (h : (spread arr).any isArray = true) :
    weightAll (spread arr) < weightAll arr := by
  have hcount := countP_pos_of_spread h
  have hsum := weightAll_spread arr
  omega

def flatten (arr : List Item) : List Item :=
  if _h : (spread arr).any isArray = true then flatten (spread arr) else spread arr
termination_by weightAll arr
decreasing_by exact weightAll_spread_lt _h

theorem weightAll_flatten_le (arr : List Item) : weightAll (flatten arr) ≤ weightAll arr := by
  fun_induction flatten arr with
  | case1 arr h ih => exact Nat.le_trans ih (Nat.le_of_lt (weightAll_spread_lt h))
  | case2 arr h =>
    have hsum := weightAll_spread arr
    omega

/-! ## The addresses of a header -/

section convert

variable (str : Strings) (withNames : Bool)

mutual

/-- `convertAddresses` -/
def convertAddresses (addresses : List Item) (addressList : OrderedMap String Normalized) :
    OrderedMap String Normalized :=
  forEach (flatten addresses) addressList
termination_by (weightAll addresses, 1)
decreasing_by
  have hle := weightAll_flatten_le addresses
  rcases Nat.lt_or_eq_of_le hle with hlt | heq
  · exact Prod.Lex.left _ _ hlt
  · rw [heq]
    exact Prod.Lex.right _ Nat.zero_lt_one

/-- The loop of `convertAddresses`. -/
def forEach (addresses : List Item) (addressList : OrderedMap String Normalized) :
    OrderedMap String Normalized :=
  match addresses with
  | [] => addressList
  | .address name address :: rest =>
    if address ≠ "" then
      let normalized := normalize str withNames name address
      forEach rest (addressList.set normalized.key normalized)
    else forEach rest addressList
  | .group _ members :: rest => forEach rest (convertAddresses members addressList)
  -- `flatten` has left no list
  | .list _ :: rest => forEach rest addressList
termination_by (weightAll addresses, 0)
decreasing_by
  all_goals
    simp only [weightAll, weight]
    apply Prod.Lex.left
    omega

end

variable (addressparser : String → List Item)

/-- The parsed form of an element. -/
def HeaderValue.item : HeaderValue → Item
  | .string value => .list (addressparser value)
  | .parsed item => item

def parseAddressses (headerList : List HeaderValue) : List Normalized :=
  (convertAddresses str withNames (headerList.map (HeaderValue.item addressparser))
    OrderedMap.empty).values

/-- `parseAddressList`, with the decoded values of the headers. -/
def parseAddressList (values : List String) : List Normalized :=
  parseAddressses str withNames addressparser (values.map .string)

end convert

end AddressTools

end ZoneMta
