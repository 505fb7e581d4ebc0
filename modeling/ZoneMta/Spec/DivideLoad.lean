import Mathlib
import ZoneMta.Native.AddressPool

/-!
# The shares of a pool

Whether an entry has no ratio is tested by truthiness. So a ratio of 0 counts as none, and the
entry gets the default share; and the default share is only computed, and the shares are only
counted, when there is such an entry.

## Key results

- `divideLoad_ne_nil_iff`: the pools that have something left
- `appearances_eq`: how often an entry appears
- `sharesLoad_iff`: the pools whose load is divided as the documentation has it
- `sharesLoad_zero`: an entry with ratio 0 that appears
-/

namespace ZoneMta

namespace AddressPool

variable {α : Type}

/-! ## Shares -/

namespace Item

@[simp] theorem hasRatio_eq_false {item : Item α} : item.hasRatio = false ↔ item.share = 0 := by
  simp [hasRatio]

@[simp] theorem hasRatio_eq_true {item : Item α} : item.hasRatio = true ↔ item.share ≠ 0 := by
  simp [hasRatio]

theorem share_clamp (item : Item α) : item.clamp.share = min (max item.share 0) 1 := by
  unfold clamp
  split
  · rfl
  · next h =>
    rw [Bool.not_eq_true, hasRatio_eq_false] at h
    simp [h]

theorem share_clamp_nonneg (item : Item α) : 0 ≤ item.clamp.share := by
  rw [share_clamp]
  exact le_min (le_max_right _ _) zero_le_one

theorem share_fill (d : ℚ) (item : Item α) :
    (item.fill d).share = if item.share = 0 then d else item.share := by
  unfold fill
  by_cases h : item.share = 0
  · rw [if_neg (by simp [h]), if_pos h]
    rfl
  · rw [if_pos (by simp [h]), if_neg h]

end Item

variable (pool : List (Item α))

theorem defaultShare_nonneg : 0 ≤ defaultShare pool := by
  refine div_nonneg ?_ (Nat.cast_nonneg _)
  have hmin := min_le_right (customShareRatio pool) 1
  linarith

/-- There is something left for the entries without a ratio. -/
theorem defaultShare_pos (hfree : customShares pool < pool.length)
    (hratio : customShareRatio pool < 1) : 0 < defaultShare pool := by
  rw [defaultShare, min_eq_left hratio.le]
  refine div_pos (by linarith) (Nat.cast_pos.mpr ?_)
  omega

theorem defaultShare_eq_zero (hratio : 1 ≤ customShareRatio pool) : defaultShare pool = 0 := by
  rw [defaultShare, min_eq_right hratio, sub_self, zero_div]

/-- Some entry has no ratio. -/
theorem customShares_lt_iff :
    customShares pool < pool.length ↔ ∃ item ∈ pool, item.hasRatio = false := by
  have hle : customShares pool ≤ pool.length := List.countP_le_length
  have heq : customShares pool = pool.length ↔ ∀ item ∈ pool, item.hasRatio = true :=
    List.countP_eq_length
  constructor
  · intro hlt
    by_contra hall
    refine hlt.ne (heq.mpr fun item hitem => ?_)
    by_contra hratio
    exact hall ⟨item, hitem, Bool.eq_false_iff.mpr hratio⟩
  · rintro ⟨item, hitem, hratio⟩
    refine lt_of_le_of_ne hle fun hall => ?_
    exact Bool.noConfusion (hratio.symm.trans (heq.mp hall item hitem))

/-- The item that an entry becomes. -/
def placed (item : Item α) : Item α :=
  if customShares pool < pool.length then item.clamp.fill (defaultShare pool) else item.clamp

theorem sharedPool_eq : sharedPool pool = pool.map (placed pool) := by
  unfold sharedPool placed
  split <;> rfl

theorem share_placed (hfree : customShares pool < pool.length) (item : Item α) :
    (placed pool item).share =
      if item.clamp.share = 0 then defaultShare pool else item.clamp.share := by
  rw [placed, if_pos hfree, Item.share_fill]

theorem share_placed_nonneg (item : Item α) : 0 ≤ (placed pool item).share := by
  unfold placed
  split
  · rw [Item.share_fill]
    split
    · exact defaultShare_nonneg pool
    · exact item.share_clamp_nonneg
  · exact item.share_clamp_nonneg

/-! ## Items -/

theorem mem_countedShares (hfree : customShares pool < pool.length) {share : ℚ} :
    share ∈ countedShares pool ↔
      share ≠ 0 ∧ ∃ item ∈ pool, (placed pool item).share = share := by
  simp only [countedShares, if_pos hfree, sharedPool_eq, List.mem_map, List.mem_filter,
    Item.hasRatio_eq_true]
  constructor
  · rintro ⟨_, ⟨⟨item, hitem, rfl⟩, hne⟩, rfl⟩
    exact ⟨hne, item, hitem, rfl⟩
  · rintro ⟨hne, item, hitem, rfl⟩
    exact ⟨_, ⟨⟨item, hitem, rfl⟩, hne⟩, rfl⟩

theorem countedShares_pos {share : ℚ} (h : share ∈ countedShares pool) : 0 < share := by
  by_cases hfree : customShares pool < pool.length
  · obtain ⟨hne, item, -, rfl⟩ := (mem_countedShares pool hfree).mp h
    exact lt_of_le_of_ne (share_placed_nonneg pool item) hne.symm
  · rw [countedShares, if_neg hfree] at h
    exact nomatch h

/-- Items are divided up unless nothing is counted. -/
theorem totalItems_pos_iff : 0 < totalItems pool ↔ countedShares pool ≠ [] := by
  unfold totalItems
  split
  · next smallestShare hmin =>
    have hmem := List.min?_mem hmin
    refine iff_of_true ?_ (List.ne_nil_of_mem hmem)
    have hle : smallestShare ≤ (countedShares pool).sum :=
      List.single_le_sum (fun _ h => (countedShares_pos pool h).le) _ hmem
    have hpos := countedShares_pos pool hmem
    exact Int.ceil_pos.mpr (div_pos (hpos.trans_le hle) hpos)
  · next hmin =>
    exact iff_of_false (lt_irrefl 0) (not_not.mpr (List.min?_eq_none_iff.mp hmin))

theorem totalItems_nonneg : 0 ≤ totalItems pool := by
  by_cases h : countedShares pool = []
  · rw [totalItems, h]
    rfl
  · exact ((totalItems_pos_iff pool).mpr h).le

theorem copies_eq (item : Item α) : copies pool item = ⌈totalItems pool * item.share⌉.toNat := by
  unfold copies
  split
  · rfl
  · next h =>
    rw [Bool.not_eq_true, Item.hasRatio_eq_false] at h
    simp [h]

theorem copies_pos {item : Item α} (htotal : 0 < totalItems pool) (hshare : 0 < item.share) :
    0 < copies pool item := by
  rw [copies_eq]
  have htotal' : (0 : ℚ) < totalItems pool := Int.cast_pos.mpr htotal
  have hceil : 0 < ⌈totalItems pool * item.share⌉ := Int.ceil_pos.mpr (mul_pos htotal' hshare)
  omega

theorem copies_mono {item item' : Item α} (hshare : item.share ≤ item'.share) :
    copies pool item ≤ copies pool item' := by
  rw [copies_eq, copies_eq]
  refine Int.toNat_le_toNat (Int.ceil_le_ceil ?_)
  have htotal : (0 : ℚ) ≤ totalItems pool := Int.cast_nonneg (totalItems_nonneg pool)
  exact mul_le_mul_of_nonneg_left hshare htotal

/-- An entry without a ratio, and there is something in the result. -/
theorem exists_share_pos (hfree : customShares pool < pool.length) :
    ∃ item ∈ pool, 0 < (placed pool item).share := by
  by_cases hratio : customShareRatio pool < 1
  · -- the entry without a ratio
    obtain ⟨item, hitem, hnone⟩ := (customShares_lt_iff pool).mp hfree
    refine ⟨item, hitem, ?_⟩
    have hshare : item.clamp.share = 0 := by
      rw [Item.share_clamp, Item.hasRatio_eq_false.mp hnone]
      norm_num
    rw [share_placed pool hfree, if_pos hshare]
    exact defaultShare_pos pool hfree hratio
  · -- one of the others
    by_contra hall
    have hzero : ∀ item ∈ pool, item.clamp.share = 0 := by
      intro item hitem
      by_contra hne
      refine hall ⟨item, hitem, ?_⟩
      rw [share_placed pool hfree, if_neg hne]
      exact lt_of_le_of_ne item.share_clamp_nonneg (Ne.symm hne)
    have hsum : customShareRatio pool = 0 := by
      refine List.sum_eq_zero fun share hshare => ?_
      obtain ⟨item, hitem, rfl⟩ := List.mem_map.mp hshare
      exact hzero item (List.mem_of_mem_filter hitem)
    rw [hsum] at hratio
    exact hratio zero_lt_one

/-- Nothing is left of a pool whose entries all have a ratio. -/
theorem divideLoad_ne_nil_iff :
    divideLoad pool ≠ [] ↔ ∃ item ∈ pool, item.hasRatio = false := by
  rw [← customShares_lt_iff]
  constructor
  · intro hne
    by_contra hfree
    refine hne ?_
    have htotal : totalItems pool = 0 := by
      rw [totalItems, countedShares, if_neg hfree]
      rfl
    simp only [divideLoad, List.flatMap_eq_nil_iff]
    intro item _
    rw [copies_eq, htotal]
    simp
  · intro hfree
    obtain ⟨item, hitem, hshare⟩ := exists_share_pos pool hfree
    have htotal : 0 < totalItems pool := by
      rw [totalItems_pos_iff]
      exact List.ne_nil_of_mem
        ((mem_countedShares pool hfree).mpr ⟨hshare.ne', item, hitem, rfl⟩)
    have hcopies := copies_pos pool htotal hshare
    simp only [divideLoad, ne_eq, List.flatMap_eq_nil_iff, sharedPool_eq, List.mem_map]
    intro hnil
    have hnone := hnil _ ⟨item, hitem, rfl⟩
    rw [List.replicate_eq_nil_iff] at hnone
    omega

/-! ## Appearances -/

/-- The item with other properties. -/
def Item.map {β : Type} (f : α → β) (item : Item α) : Item β := ⟨f item.props, item.ratio⟩

@[simp] theorem Item.share_map {β : Type} (f : α → β) (item : Item α) :
    (item.map f).share = item.share := rfl

theorem Item.clamp_map {β : Type} (f : α → β) (item : Item α) :
    (item.map f).clamp = item.clamp.map f := by
  unfold clamp hasRatio
  rw [share_map]
  split <;> rfl

theorem Item.fill_map {β : Type} (f : α → β) (d : ℚ) (item : Item α) :
    (item.map f).fill d = (item.fill d).map f := by
  unfold fill hasRatio
  rw [share_map]
  split <;> rfl

section map

variable {β : Type} (f : α → β)

/-- Only the ratios matter. -/
theorem customShares_map : customShares (pool.map (Item.map f)) = customShares pool := by
  rw [customShares, List.countP_map]
  rfl

theorem customShareRatio_map :
    customShareRatio (pool.map (Item.map f)) = customShareRatio pool := by
  rw [customShareRatio, List.filter_map, List.map_map]
  have hshare : ∀ item : Item α, (item.map f).clamp.share = item.clamp.share := by
    intro item
    rw [Item.clamp_map, Item.share_map]
  simp only [Function.comp_def, hshare]
  rfl

theorem placed_map (item : Item α) :
    placed (pool.map (Item.map f)) (item.map f) = (placed pool item).map f := by
  simp only [placed, defaultShare, customShares_map, customShareRatio_map, List.length_map]
  split
  · rw [Item.clamp_map, Item.fill_map]
  · rw [Item.clamp_map]

theorem sharedPool_map : sharedPool (pool.map (Item.map f)) =
    (sharedPool pool).map (Item.map f) := by
  rw [sharedPool_eq, sharedPool_eq, List.map_map, List.map_map]
  exact List.map_congr_left fun item _ => placed_map pool f item

theorem countedShares_map :
    countedShares (pool.map (Item.map f)) = countedShares pool := by
  simp only [countedShares, customShares_map, sharedPool_map, List.length_map, List.filter_map,
    List.map_map]
  rfl

theorem copies_map (item : Item α) :
    copies (pool.map (Item.map f)) (item.map f) = copies pool item := by
  simp only [copies_eq, totalItems, countedShares_map, Item.share_map]

/-- The other properties come along. -/
theorem divideLoad_map :
    divideLoad (pool.map (Item.map f)) = (divideLoad pool).map (Item.map f) := by
  simp only [divideLoad, sharedPool_map, List.flatMap_map, List.map_flatMap, copies_map,
    List.map_replicate]

end map

/-- The entries with their positions, for which they stand as objects. -/
def numbered : List (Item (Nat × α)) :=
  pool.zipIdx.map fun (item, i) => item.map fun props => (i, props)

theorem map_numbered : (numbered pool).map (Item.map Prod.snd) = pool := by
  rw [numbered, List.map_map]
  exact List.zipIdx_map_fst 0 pool

/-- How often the `i`-th entry appears in the result. -/
def appearances (i : Nat) : Nat := (divideLoad (numbered pool)).countP (·.props.1 == i)

/-- The result consists of the entries. -/
theorem divideLoad_numbered :
    (divideLoad (numbered pool)).map (Item.map Prod.snd) = divideLoad pool := by
  rw [← divideLoad_map, map_numbered]

/-- The copies of an item in the numbered pool. -/
theorem copies_numbered (item : Item (Nat × α)) :
    copies (numbered pool) (placed (numbered pool) item) =
      copies pool (placed pool (item.map Prod.snd)) := by
  conv_rhs => rw [← map_numbered pool, placed_map, copies_map]

theorem props_placed (item : Item α) : (placed pool item).props = item.props := by
  simp only [placed, Item.clamp, Item.fill]
  split <;> split <;> try split
  all_goals rfl

/-- The result is counted entry by entry. -/
theorem appearances_eq_sum (i : Nat) : appearances pool i =
    (pool.zipIdx.map fun entry =>
      if entry.2 = i then copies pool (placed pool entry.1) else 0).sum := by
  rw [appearances, divideLoad, List.countP_flatMap, sharedPool_eq, List.map_map]
  conv_lhs => rw [numbered, List.map_map]
  refine congrArg List.sum (List.map_congr_left fun entry _ => ?_)
  simp only [Function.comp_apply]
  rw [← numbered, copies_numbered, List.countP_replicate, props_placed]
  simp only [Item.map, beq_iff_eq]

theorem appearances_eq {i : Nat} {item : Item α} (hitem : pool[i]? = some item) :
    appearances pool i = copies pool (placed pool item) := by
  classical
  have hmem : (item, i) ∈ pool.zipIdx := List.mk_mem_zipIdx_iff_getElem?.mpr hitem
  have hnodup : pool.zipIdx.Nodup := by
    refine List.Nodup.of_map Prod.snd ?_
    rw [List.zipIdx_map_snd]
    exact List.nodup_range'
  have hone : @List.count _ instBEqOfDecidableEq (item, i) pool.zipIdx = 1 :=
    @List.count_eq_one_of_mem _ instBEqOfDecidableEq _ _ _ hnodup hmem
  rw [appearances_eq_sum, List.sum_map_eq_nsmul_single (item, i)]
  · rw [hone, one_nsmul, if_pos rfl]
  · rintro ⟨other, j⟩ hne hother
    refine if_neg fun (heq : j = i) => ?_
    subst heq
    rw [List.mk_mem_zipIdx_iff_getElem?, hitem, Option.some.injEq] at hother
    exact hne (by rw [hother])

/-! ## The documented shares -/

/-- The sum of the ratios. -/
def ratioSum : ℚ := (pool.filterMap (·.ratio)).sum

/-- The share of an entry: its ratio, or an equal part of what the ratios leave. -/
def dueShare (item : Item α) : ℚ :=
  match item.ratio with
  | some ratio => ratio
  | none => (1 - ratioSum pool) / (pool.countP (·.ratio.isNone) : ℚ)

/-- The load is divided as the documentation has it. -/
structure SharesLoad : Prop where
  never : ∀ (i : Nat) (item : Item α), pool[i]? = some item → item.ratio = some 0 →
    appearances pool i = 0
  equally : ∀ (i j : Nat) (item item' : Item α), pool[i]? = some item → pool[j]? = some item' →
    item.ratio = none → item'.ratio = none → appearances pool i = appearances pool j
  atLeast : ∀ (i : Nat) (item : Item α), pool[i]? = some item → 0 < dueShare pool item →
    0 < appearances pool i
  ordered : ∀ (i j : Nat) (item item' : Item α), pool[i]? = some item → pool[j]? = some item' →
    dueShare pool item < dueShare pool item' → appearances pool i ≤ appearances pool j

/-- The load is divided by the shares of the entries, if these are the shares that are counted. -/
theorem sharesLoad_of_share (hfree : customShares pool < pool.length)
    (hshare : ∀ item ∈ pool, (placed pool item).share = dueShare pool item) :
    SharesLoad pool where
  never := by
    intro i item hitem hratio
    have hzero : (placed pool item).share = 0 := by
      rw [hshare item (List.mem_of_getElem? hitem), dueShare, hratio]
    rw [appearances_eq pool hitem, copies_eq, hzero]
    simp
  equally := by
    intro i j item item' hitem hitem' hratio hratio'
    rw [appearances_eq pool hitem, appearances_eq pool hitem', copies_eq, copies_eq,
      hshare item (List.mem_of_getElem? hitem), hshare item' (List.mem_of_getElem? hitem'),
      dueShare, dueShare, hratio, hratio']
  atLeast := by
    intro i item hitem hpos
    have hmem := List.mem_of_getElem? hitem
    rw [← hshare item hmem] at hpos
    rw [appearances_eq pool hitem]
    refine copies_pos pool ((totalItems_pos_iff pool).mpr ?_) hpos
    exact List.ne_nil_of_mem ((mem_countedShares pool hfree).mpr ⟨hpos.ne', item, hmem, rfl⟩)
  ordered := by
    intro i j item item' hitem hitem' hlt
    rw [appearances_eq pool hitem, appearances_eq pool hitem']
    refine copies_mono pool ?_
    rw [hshare item (List.mem_of_getElem? hitem), hshare item' (List.mem_of_getElem? hitem')]
    exact hlt.le

section

variable {pool} (hratio : ∀ item ∈ pool, ∀ ratio ∈ item.ratio, 0 ≤ ratio ∧ ratio ≤ 1)

include hratio

/-- Nothing is clamped. -/
theorem share_clamp_of_mem {item : Item α} (hitem : item ∈ pool) :
    item.clamp.share = item.share := by
  rw [Item.share_clamp]
  unfold Item.share
  cases h : item.ratio with
  | none => simp
  | some ratio =>
    obtain ⟨hnonneg, hle⟩ := hratio item hitem ratio h
    rw [Option.getD_some, max_eq_left hnonneg, min_eq_left hle]

theorem customShareRatio_eq : customShareRatio pool = ratioSum pool := by
  unfold customShareRatio ratioSum
  induction pool with
  | nil => rfl
  | cons item pool ih =>
    have hrest := ih fun item' hitem' => hratio item' (List.mem_cons_of_mem item hitem')
    have hclamp := share_clamp_of_mem hratio List.mem_cons_self
    cases h : item.ratio with
    | none =>
      have hfalse : item.hasRatio = false := by simp [Item.share, h]
      rw [List.filter_cons_of_neg (by simp [hfalse]), List.filterMap_cons_none h, hrest]
    | some ratio =>
      have hshare : item.share = ratio := by rw [Item.share, h, Option.getD_some]
      rw [List.filterMap_cons_some h, List.sum_cons]
      by_cases hzero : ratio = 0
      · have hfalse : item.hasRatio = false := by simp [hshare, hzero]
        rw [List.filter_cons_of_neg (by simp [hfalse]), hzero, zero_add, hrest]
      · have htrue : item.hasRatio = true := by simp [hshare, hzero]
        rw [List.filter_cons_of_pos htrue, List.map_cons, List.sum_cons, hclamp, hshare, hrest]

end

/-- The load of a pool with an entry without a ratio is divided as the documentation has it if and
    only if no entry has ratio 0, or the ratios leave nothing. -/
theorem sharesLoad_iff (hnone : ∃ item ∈ pool, item.ratio = none)
    (hratio : ∀ item ∈ pool, ∀ ratio ∈ item.ratio, 0 ≤ ratio ∧ ratio ≤ 1)
    (hsum : ratioSum pool ≤ 1) :
    SharesLoad pool ↔ (∀ item ∈ pool, item.ratio ≠ some 0) ∨ ratioSum pool = 1 := by
  have hfree : customShares pool < pool.length := by
    obtain ⟨item, hitem, hitemNone⟩ := hnone
    exact (customShares_lt_iff pool).mpr ⟨item, hitem, by simp [Item.share, hitemNone]⟩
  have hsums := customShareRatio_eq hratio
  have hplaced : ∀ item ∈ pool, (placed pool item).share =
      if item.share = 0 then defaultShare pool else item.share := by
    intro item hitem
    rw [share_placed pool hfree, share_clamp_of_mem hratio hitem]
  constructor
  · intro hshares
    by_contra hnot
    obtain ⟨hzero, hne⟩ := not_or.mp hnot
    push Not at hzero
    obtain ⟨item, hitem, hitemZero⟩ := hzero
    obtain ⟨i, hi⟩ := List.mem_iff_getElem?.mp hitem
    -- the entry has the default share
    have hshare : 0 < (placed pool item).share := by
      rw [hplaced item hitem, if_pos (by rw [Item.share, hitemZero, Option.getD_some])]
      exact defaultShare_pos pool hfree (hsums ▸ lt_of_le_of_ne hsum hne)
    have htotal := (totalItems_pos_iff pool).mpr (List.ne_nil_of_mem
      ((mem_countedShares pool hfree).mpr ⟨hshare.ne', item, hitem, rfl⟩))
    have happears := appearances_eq pool hi
    rw [hshares.never i item hi hitemZero] at happears
    have hcopies := copies_pos pool htotal hshare
    omega
  · intro hcond
    refine sharesLoad_of_share pool hfree fun item hitem => ?_
    rw [hplaced item hitem]
    rcases hcond with hzero | hone
    · -- the ratios that are falsy are those that are not set
      have htruthy : ∀ item ∈ pool, (item.hasRatio = true ↔ ¬item.ratio.isNone = true) := by
        intro item hitem
        rw [Item.hasRatio_eq_true, Item.share]
        cases h : item.ratio with
        | none => simp
        | some ratio =>
          have hne : ratio ≠ 0 := fun heq => hzero item hitem (heq ▸ h)
          simp [hne]
      have hcount : pool.length - customShares pool = pool.countP (·.ratio.isNone) := by
        have hlength := List.length_eq_countP_add_countP (fun item : Item α => item.ratio.isNone)
          (l := pool)
        have hcustom : customShares pool =
            pool.countP fun item => decide ¬item.ratio.isNone = true :=
          List.countP_congr fun item hitem => by
            rw [htruthy item hitem, decide_eq_true_eq]
        omega
      unfold dueShare
      cases h : item.ratio with
      | none =>
        rw [if_pos (by rw [Item.share, h, Option.getD_none]), defaultShare, hsums,
          min_eq_left hsum, hcount]
      | some ratio =>
        have hshare : item.share = ratio := by rw [Item.share, h, Option.getD_some]
        have hne : ratio ≠ 0 := fun heq => hzero item hitem (heq ▸ h)
        rw [hshare, if_neg hne]
    · -- nothing is left
      have hdefault : defaultShare pool = 0 := defaultShare_eq_zero pool (hsums.trans hone).ge
      unfold dueShare Item.share
      cases h : item.ratio with
      | none => simp [hdefault, hone]
      | some ratio =>
        by_cases hzero : ratio = 0
        · simp [hzero, hdefault]
        · simp [hzero]

/-- Three addresses, and a new one that gets five percent of the messages. -/
def warmUp : List (Item String) :=
  [{ props := "1.2.3.1" }, { props := "1.2.3.2" }, { props := "1.2.3.3" },
    { props := "1.2.3.4", ratio := some (1 / 20) }]

theorem sharesLoad_warmUp : SharesLoad warmUp := by
  have hratio : ∀ item ∈ warmUp, ∀ ratio ∈ item.ratio, 0 ≤ ratio ∧ ratio ≤ 1 := by
    decide +kernel
  exact (sharesLoad_iff warmUp (by decide +kernel) hratio (by decide +kernel)).mpr
    (Or.inl (by decide +kernel))

/-- An address that is not to be used, and one without a ratio: both are used. -/
theorem sharesLoad_zero :
    ¬∀ pool : List (Item String), (∃ item ∈ pool, item.ratio = none) →
      (∀ item ∈ pool, ∀ ratio ∈ item.ratio, 0 ≤ ratio ∧ ratio ≤ 1) → ratioSum pool ≤ 1 →
        SharesLoad pool := by
  intro h
  have hshares := h [{ props := "1.2.3.1", ratio := some 0 }, { props := "1.2.3.2" }]
    (by decide +kernel) (by decide +kernel) (by decide +kernel)
  have hnever := hshares.never 0 _ rfl rfl
  exact absurd hnever (by decide +kernel)

end AddressPool

end ZoneMta
