import ZoneMta.Native.DeferUpdates

/-!
# What a deferral leaves in the document

The bookkeeping of `deferDelivery` next to the updates that the sender has sent. A key of the sender
does not take the place of one that `$set` already has, but `$inc` is merged the other way, and what
is not set in this deferral is not protected: the first time, and the ids of the delivery.

## Key results

- `lookup_deferUpdates`: the update document
- `deferred_iff`: the deferrals that leave the bookkeeping right
- `deferred_countTwice`: an increment of two
-/

namespace ZoneMta

namespace DeferUpdates

open ForStd

variable {now ttl : Int} {first : Bool} {responseData : ResponseData}

/-! ## The update document -/

theorem lookup_toMap (fields : List (String × Bson)) (key : String) :
    (toMap fields).lookup key = fields.lookup key := by
  induction fields with
  | nil => rfl
  | cons field fields ih =>
    obtain ⟨name, v⟩ := field
    show ((toMap fields).insert name v).lookup key = _
    rw [lookup_insert, ih, lookup_cons]

/-- A key of the sender's updates, and the others behind it. -/
theorem addKey_cases {u u' : DeferUpdates} {key : String} {value : Bson}
    (h : u.addKey key value = some u') :
    (isOperator key = false ∧ u'.inc = u.inc ∧ u'.mul = u.mul ∧
      ∀ k, u'.set.lookup k = (u.set.lookup k).or (if k = key then some value else none)) ∨
    (isOperator key = true ∧ u'.set = u.set ∧
      u'.inc = (if key = "$inc" then insertAll u.inc (toMap (assigned value)) else u.inc) ∧
      u'.mul = if key = "$mul" then insertAll u.mul (toMap (assigned value)) else u.mul) := by
  unfold addKey at h
  split at h
  · next hop =>
    -- an operator of the sender is merged, and other operators are kept apart
    refine Or.inr ⟨hop, ?_⟩
    split at h
    · next hinc =>
      obtain rfl := Option.some.inj h
      refine ⟨rfl, (if_pos hinc).symm, ?_⟩
      rw [if_neg (by rw [hinc]; decide)]
    · next hinc =>
      split at h
      · next hmul =>
        obtain rfl := Option.some.inj h
        exact ⟨rfl, (if_neg hinc).symm, (if_pos hmul).symm⟩
      · next hmul =>
        obtain rfl := Option.some.inj h
        exact ⟨rfl, (if_neg hinc).symm, (if_neg hmul).symm⟩
  · next hop =>
    rw [Bool.not_eq_true] at hop
    refine Or.inl ⟨hop, ?_⟩
    split at h
    · exact nomatch h
    · split at h
      · next hset =>
        obtain rfl := Option.some.inj h
        refine ⟨rfl, rfl, fun k => ?_⟩
        -- `$set` has the key, and the value of the sender is dropped
        split
        · next hk =>
          obtain ⟨v, hv⟩ := Option.isSome_iff_exists.mp hset
          rw [hk, hv]
          rfl
        · exact Option.or_none.symm
      · next hset =>
        obtain rfl := Option.some.inj h
        refine ⟨rfl, rfl, fun k => ?_⟩
        rw [lookup_insert]
        split
        · next hk =>
          rw [hk, Option.not_isSome_iff_eq_none.mp hset]
          rfl
        · exact Option.or_none.symm

/-- A key that is no operator, as the sender's updates have it. -/
def plainKey (l : List (Σ _ : String, Bson)) (key : String) : Option Bson :=
  if isOperator key then none else l.dlookup key

/-- A key of an operator of the sender's updates. -/
def operatorKey (l : List (Σ _ : String, Bson)) (operator key : String) : Option Bson :=
  (l.dlookup operator).bind fun value => (assigned value).lookup key

/-- An operator is merged behind the one before. -/
theorem lookup_merge {x : Σ _ : String, Bson} {l : List (Σ _ : String, Bson)}
    (hx : l.dlookup x.1 = none) {operator : String} {map map' : Map String Bson}
    (hmap : map' = if x.1 = operator then insertAll map (toMap (assigned x.2)) else map)
    (key : String) :
    (operatorKey l operator key).or (map'.lookup key) =
      (operatorKey (x :: l) operator key).or (map.lookup key) := by
  unfold operatorKey
  rw [hmap, dlookup_cons]
  split
  · next hop =>
    rw [if_pos hop.symm, ← hop, hx, lookup_insertAll, lookup_toMap]
    rfl
  · next hop => rw [if_neg (Ne.symm hop)]

/-- The update document: a plain key of the sender comes behind what is there, a key of an operator
    before it. -/
theorem lookup_foldlM {l : List (Σ _ : String, Bson)} (hl : l.NodupKeys) {u u' : DeferUpdates}
    (h : l.foldlM (fun u x => u.addKey x.1 x.2) u = some u') (key : String) :
    u'.set.lookup key = (u.set.lookup key).or (plainKey l key) ∧
      u'.inc.lookup key = (operatorKey l "$inc" key).or (u.inc.lookup key) ∧
      u'.mul.lookup key = (operatorKey l "$mul" key).or (u.mul.lookup key) := by
  induction l generalizing u with
  | nil =>
    obtain rfl := Option.some.inj h
    unfold plainKey operatorKey
    simp
  | cons x l ih =>
    rw [List.foldlM_cons] at h
    obtain ⟨u₁, hfirst, hrest⟩ := Option.bind_eq_some_iff.mp h
    -- the keys are distinct: what comes behind says nothing about this one
    obtain ⟨hx, hl⟩ := List.nodupKeys_cons.mp hl
    have hnone : l.dlookup x.1 = none := List.dlookup_eq_none.mpr hx
    obtain ⟨hset, hinc, hmul⟩ := ih hl hrest
    rw [hset, hinc, hmul]
    rcases addKey_cases hfirst with ⟨hop, hinc₁, hmul₁, hset₁⟩ | ⟨hop, hset₁, hinc₁, hmul₁⟩
    · have hne : ∀ operator, isOperator operator = true → x.1 ≠ operator := by
        rintro operator hoperator rfl
        exact Bool.false_ne_true (hop.symm.trans hoperator)
      refine ⟨?_, lookup_merge hnone ?_ key, lookup_merge hnone ?_ key⟩
      · rw [hset₁, Option.or_assoc, plainKey, plainKey, dlookup_cons]
        congr 1
        split
        · next hkey => rw [hkey, hop, hnone]; rfl
        · exact Option.none_or
      · rw [hinc₁, if_neg (hne "$inc" (by decide))]
      · rw [hmul₁, if_neg (hne "$mul" (by decide))]
    · refine ⟨?_, lookup_merge hnone hinc₁ key, lookup_merge hnone hmul₁ key⟩
      rw [hset₁, plainKey, plainKey, dlookup_cons]
      congr 1
      split
      · rfl
      · next hplain => rw [if_neg fun hkey : key = x.1 => hplain (hkey ▸ hop)]

/-! ## The writes -/

/-- What the sender's updates do at a key. -/
def SenderWrites (responseData : ResponseData) (key : String) : UpdateOp → Prop
  | .set v => plainKey (senderUpdates responseData).entries key = some v
  | .inc v => operatorKey (senderUpdates responseData).entries "$inc" key = some v
  | .mul v => operatorKey (senderUpdates responseData).entries "$mul" key = some v

theorem mem_writes {u : DeferUpdates} {key : String} {op : UpdateOp} :
    (key, op) ∈ u.writes ↔
      match op with
      | .set v => u.set.lookup key = some v
      | .inc v => u.inc.lookup key = some v
      | .mul v => u.mul.lookup key = some v := by
  have hmem : ∀ (map : Map String Bson) (v : Bson),
      map.lookup key = some v ↔ ∃ x ∈ map.entries, x.1 = key ∧ x.2 = v := by
    intro map v
    rw [← Option.mem_def, AList.mem_lookup_iff]
    constructor
    · exact fun h => ⟨_, h, rfl, rfl⟩
    · rintro ⟨⟨k, w⟩, hx, rfl, rfl⟩
      exact hx
  cases op <;> simp [writes, hmem]

/-! ### The bookkeeping -/

theorem lookup_bookkeeping_set (key : String) :
    (bookkeeping now ttl first responseData).set.lookup key =
      if key = "_deferred.last" then some (.number now)
      else if key = "_deferred.next" then some (.number (now + ttl))
      else if key = "queued" then some (.date (now + ttl))
      else if key = "locked" then some (.bool false)
      else if first ∧ key = "_deferred.first" then some (.number now)
      else if truthy responseData.response ∧ key = "_deferred.response" then
        some responseData.response
      else if truthy responseData.log ∧ key = "_deferred.log" then some responseData.log
      else none := by
  simp only [bookkeeping, lookup_toMap, List.cons_append, List.nil_append, lookup_cons]
  cases first <;> cases truthy responseData.response <;> cases truthy responseData.log <;>
    simp [lookup_cons]

theorem lookup_bookkeeping_inc (key : String) :
    (bookkeeping now ttl first responseData).inc.lookup key =
      if key = "_deferred.count" then some (.number 1) else none := by
  rw [bookkeeping, lookup_toMap, lookup_cons]
  rfl

section deferUpdates

variable {u : DeferUpdates} (h : deferUpdates now ttl first responseData = some u)
include h

theorem lookup_deferUpdates (key : String) :
    u.set.lookup key = ((bookkeeping now ttl first responseData).set.lookup key).or
        (plainKey (senderUpdates responseData).entries key) ∧
      u.inc.lookup key = (operatorKey (senderUpdates responseData).entries "$inc" key).or
        ((bookkeeping now ttl first responseData).inc.lookup key) ∧
      u.mul.lookup key = operatorKey (senderUpdates responseData).entries "$mul" key := by
  obtain ⟨hset, hinc, hmul⟩ := lookup_foldlM (senderUpdates responseData).nodupKeys h key
  refine ⟨hset, hinc, hmul.trans ?_⟩
  exact Option.or_none

/-- The bookkeeping in `$set` stays. -/
theorem set_mem_writes {key : String} {v : Bson}
    (hkey : (bookkeeping now ttl first responseData).set.lookup key = some v) :
    (key, .set v) ∈ u.writes := by
  rw [mem_writes]
  show u.set.lookup key = some v
  rw [(lookup_deferUpdates h key).1, hkey]
  rfl

/-- The writes at a key that the bookkeeping does not have are those of the sender. -/
theorem mem_writes_sender {key : String}
    (hkey : (bookkeeping now ttl first responseData).set.lookup key = none)
    (hcount : key ≠ "_deferred.count") {op : UpdateOp} :
    (key, op) ∈ u.writes ↔ SenderWrites responseData key op := by
  obtain ⟨hset, hinc, hmul⟩ := lookup_deferUpdates h key
  rw [lookup_bookkeeping_inc, if_neg hcount, Option.or_none] at hinc
  rw [hkey, Option.none_or] at hset
  rw [mem_writes]
  cases op with
  | set v => exact iff_of_eq (congrArg (· = some v) hset)
  | inc v => exact iff_of_eq (congrArg (· = some v) hinc)
  | mul v => exact iff_of_eq (congrArg (· = some v) hmul)

end deferUpdates

/-! ## The document -/

/-- A document of the queue. -/
structure QueueDocument where
  doc : Bson
  id : String
  seq : String
  get_id : doc.get ["id"] = some (.string id)
  get_seq : doc.get ["seq"] = some (.string seq)
  get_deferred : ∀ v, doc.get ["_deferred"] = some v → ∃ fields, v = .object fields
  get_first : ∀ v, doc.get ["_deferred", "first"] = some v → ∃ n, v = .number n

namespace QueueDocument

variable (d : QueueDocument)

theorem open_top (name : String) : d.doc.Open [name] := by
  intro q v hq hne hget
  cases q with
  | nil =>
    -- only an object has an id
    obtain rfl := Option.some.inj hget
    have hid := d.get_id
    cases hdoc : d.doc with
    | object fields => exact ⟨fields, rfl⟩
    | _ => rw [hdoc] at hid; exact nomatch hid
  | cons name' q =>
    obtain ⟨rfl, hrest⟩ := List.cons_prefix_cons.mp hq
    exact absurd (congrArg _ (List.prefix_nil.mp hrest)) hne

theorem open_deferred (name : String) : d.doc.Open ["_deferred", name] := by
  intro q v hq hne hget
  by_cases hq' : q <+: ["_deferred"]
  · by_cases heq : q = ["_deferred"]
    · rw [heq] at hget
      exact d.get_deferred v hget
    · exact d.open_top "_deferred" q v hq' heq hget
  · -- a longer prefix is the path
    have hlength : q.length ≠ 2 := fun hlength => hne (hq.eq_of_length hlength)
    have hle := hq.length_le
    refine absurd (List.prefix_of_prefix_length_le hq ⟨[name], rfl⟩ ?_) hq'
    simp only [List.length_cons, List.length_nil] at hle ⊢
    omega

end QueueDocument

/-- What a deferral should leave in the document. -/
structure Deferred (now ttl : Int) (doc doc' : Bson) : Prop where
  locked : doc'.get ["locked"] = some (.bool false)
  queued : doc'.get ["queued"] = some (.date (now + ttl))
  next : doc'.get ["_deferred", "next"] = some (.number (now + ttl))
  last : doc'.get ["_deferred", "last"] = some (.number now)
  count : doc'.get ["_deferred", "count"] =
    (UpdateOp.inc (.number 1)).result (doc.get ["_deferred", "count"])
  first : ∀ v, doc.get ["_deferred", "first"] = some v →
    doc'.get ["_deferred", "first"] = some v
  id : doc'.get ["id"] = doc.get ["id"]
  seq : doc'.get ["seq"] = doc.get ["seq"]

/-- The sender's updates leave the value at a key. -/
def Leaves (responseData : ResponseData) (key : String) (old : Bson) : Prop :=
  ∀ op, SenderWrites responseData key op → op.result (some old) = some old

/-- The sender's updates leave what is not protected: the count is not incremented by another
    number, the first time and the ids are not changed. -/
structure LeavesBookkeeping (d : QueueDocument) (now : Int) (first : Bool)
    (responseData : ResponseData) : Prop where
  count : ∀ v, SenderWrites responseData "_deferred.count" (.inc v) → v = .number 1
  first : ∀ old, d.doc.get ["_deferred", "first"] = some old →
    if first then old = .number now else Leaves responseData "_deferred.first" old
  id : Leaves responseData "id" (.string d.id)
  seq : Leaves responseData "seq" (.string d.seq)

/-- Updates that have none of the keys leave the bookkeeping, unless it is the deferral that
    overwrites the first time. -/
theorem LeavesBookkeeping.of_not_written {d : QueueDocument} (hnot : ∀ key ∈
      ["_deferred.count", "_deferred.first", "id", "seq"], ∀ op, ¬SenderWrites responseData key op)
    (hfirst : first = true → d.doc.get ["_deferred", "first"] = none) :
    LeavesBookkeeping d now first responseData where
  count v h := absurd h (hnot _ (by decide) _)
  first old hold := by
    cases first with
    | true => exact nomatch hold.symm.trans (hfirst rfl)
    | false => exact fun op h => absurd h (hnot _ (by decide) op)
  id op h := absurd h (hnot _ (by decide) op)
  seq op h := absurd h (hnot _ (by decide) op)

/-- Two increments with one result are the same. -/
theorem eq_of_result_inc {v old : Bson} {n : ℚ} {before : Option Bson}
    (h : (UpdateOp.inc v).result before = some old)
    (hn : (UpdateOp.inc (.number n)).result before = some old) : v = .number n := by
  cases v with
  | number m =>
    cases before with
    | none =>
      have heq : some (Bson.number m) = some (.number n) := h.trans hn.symm
      exact Option.some.inj heq
    | some b =>
      cases b with
      | number k =>
        have heq : some (Bson.number (k + m)) = some (.number (k + n)) := h.trans hn.symm
        injection heq with heq
        injection heq with heq
        rw [add_left_cancel heq]
      | _ => exact nomatch h
  | _ => cases before <;> exact nomatch h

section

variable {update : Bson → List (String × UpdateOp) → Option Bson} (laws : UpdateLaws update)
  {d : QueueDocument} {now ttl : Int} {first : Bool} {responseData : ResponseData}
  {u : DeferUpdates} {doc' : Bson}
  (hu : deferUpdates now ttl first responseData = some u)
  (h : update d.doc u.writes = some doc')

include laws h

/-- What the update writes at a key. -/
theorem get_of_mem_writes {key : String} {op : UpdateOp} (hmem : (key, op) ∈ u.writes)
    (hopen : d.doc.Open (path key)) :
    ∃ v, op.result (d.doc.get (path key)) = some v ∧ doc'.get (path key) = some v :=
  laws.written h _ hmem hopen

/-- A value without parts stays if and only if the writes at its key leave it. -/
theorem get_eq_iff (key : String) {old : Bson} (hold : d.doc.get (path key) = some old)
    (hscalar : old.isScalar = true) (hopen : d.doc.Open (path key))
    (habove : ∀ w ∈ u.writes, path w.1 <+: path key → w.1 = key) :
    doc'.get (path key) = some old ↔
      ∀ op, (key, op) ∈ u.writes → op.result (some old) = some old := by
  constructor
  · intro hget op hmem
    -- a write at the key has its result there
    obtain ⟨v, hv, hget'⟩ := get_of_mem_writes laws h hmem hopen
    rw [hold] at hv
    rw [hv, ← hget', hget]
  · intro hleaves
    by_cases hwrite : ∃ op, (key, op) ∈ u.writes
    · obtain ⟨op, hmem⟩ := hwrite
      obtain ⟨v, hv, hget⟩ := get_of_mem_writes laws h hmem hopen
      rw [hold, hleaves op hmem] at hv
      rw [hget, ← hv]
    · -- no key of the update has anything to do with the path
      rw [laws.frame h (path key), hold]
      rintro ⟨key', op⟩ hw hover
      have hne : key' ≠ key := by
        rintro rfl
        exact hwrite ⟨op, hw⟩
      rcases hover with hpre | hpre
      · exact hne (habove _ hw hpre)
      · have hparts := laws.below h _ hw (path key) old hpre
          (fun heq => hne (path_injective heq.symm)) hold
        exact Bool.false_ne_true (hparts.symm.trans hscalar)

include hu

/-- The bookkeeping in `$set` is in the document. -/
theorem get_of_bookkeeping (key : String) {v : Bson}
    (hkey : (bookkeeping now ttl first responseData).set.lookup key = some v)
    (hopen : d.doc.Open (path key)) : doc'.get (path key) = some v := by
  obtain ⟨v', hv, hget⟩ := get_of_mem_writes laws h (set_mem_writes hu hkey) hopen
  rw [hget, ← hv]
  rfl

/-- A field of the document that the bookkeeping does not have stays if and only if the sender
    leaves it. -/
theorem get_top_iff (key : String) (hpath : path key = [key]) {old : Bson}
    (hold : d.doc.get [key] = some old) (hscalar : old.isScalar = true)
    (hkey : (bookkeeping now ttl first responseData).set.lookup key = none)
    (hcount : key ≠ "_deferred.count") :
    doc'.get [key] = some old ↔ Leaves responseData key old := by
  have habove : ∀ w ∈ u.writes, path w.1 <+: path key → w.1 = key := by
    intro w _ hpre
    refine path_injective (hpre.eq_of_length_le ?_)
    rw [hpath]
    exact List.length_pos_iff.mpr (path_ne_nil w.1)
  have hiff := get_eq_iff laws h key (hpath ▸ hold) hscalar (hpath ▸ d.open_top key) habove
  rw [hpath] at hiff
  rw [hiff]
  exact forall_congr' fun op => imp_congr_left (mem_writes_sender hu hkey hcount)

/-- The count goes up by one if and only if the sender does not increment it by another number. -/
theorem get_count_iff :
    doc'.get ["_deferred", "count"] =
        (UpdateOp.inc (.number 1)).result (d.doc.get ["_deferred", "count"]) ↔
      ∀ v, SenderWrites responseData "_deferred.count" (.inc v) → v = .number 1 := by
  have hinc := (lookup_deferUpdates hu "_deferred.count").2.1
  rw [lookup_bookkeeping_inc, if_pos rfl] at hinc
  -- the number that is added
  obtain ⟨w, hw⟩ : ∃ w, u.inc.lookup "_deferred.count" = some w := by
    rw [hinc]
    cases operatorKey (senderUpdates responseData).entries "$inc" "_deferred.count" with
    | none => exact ⟨_, rfl⟩
    | some v => exact ⟨v, rfl⟩
  have hmem : ("_deferred.count", UpdateOp.inc w) ∈ u.writes := mem_writes.mpr hw
  -- the count is incremented by `w`, which is the sender's number if there is one
  obtain ⟨r, hr, hget⟩ := get_of_mem_writes laws h hmem (d.open_deferred "count")
  have hcount : doc'.get ["_deferred", "count"] = some r := hget
  have hwhen : w = .number 1 ↔
      ∀ v, SenderWrites responseData "_deferred.count" (.inc v) → v = .number 1 := by
    rw [hw] at hinc
    show _ ↔ ∀ v, operatorKey _ _ _ = some v → _
    cases hsender : operatorKey (senderUpdates responseData).entries "$inc" "_deferred.count" with
    | none =>
      rw [hsender] at hinc
      exact iff_of_true (Option.some.inj hinc) fun v hv => nomatch hv
    | some v =>
      rw [hsender] at hinc
      obtain rfl := Option.some.inj hinc
      exact ⟨fun heq v hv => Option.some.inj hv ▸ heq, fun hall => hall _ rfl⟩
  rw [hcount, ← hwhen]
  constructor
  · exact fun heq => eq_of_result_inc hr heq.symm
  · rintro rfl
    exact hr.symm

/-- The first time stays if and only if this deferral does not set it and the sender leaves it. -/
theorem get_first_iff {old : Bson} (hold : d.doc.get ["_deferred", "first"] = some old) :
    doc'.get ["_deferred", "first"] = some old ↔
      if first then old = .number now else Leaves responseData "_deferred.first" old := by
  have hkey : (bookkeeping now ttl first responseData).set.lookup "_deferred.first" = _ :=
    lookup_bookkeeping_set "_deferred.first"
  cases first with
  | true =>
    -- `$set` has the key, with the time of this deferral
    have hget : doc'.get ["_deferred", "first"] = some (.number now) :=
      get_of_bookkeeping laws hu h "_deferred.first" (by rw [hkey]; simp) (d.open_deferred "first")
    rw [hget, if_pos rfl]
    exact ⟨fun heq => (Option.some.inj heq).symm, fun heq => congrArg some heq.symm⟩
  | false =>
    have hscalar : old.isScalar = true := by
      obtain ⟨n, rfl⟩ := d.get_first old hold
      rfl
    -- a key above this one is above the last time too, which every deferral sets
    have hlast : ("_deferred.last", UpdateOp.set (.number now)) ∈ u.writes :=
      set_mem_writes hu (by rw [lookup_bookkeeping_set]; simp)
    have habove : ∀ w ∈ u.writes, path w.1 <+: path "_deferred.first" →
        w.1 = "_deferred.first" := by
      intro w hw hpre
      by_contra hne
      have hshort : path w.1 <+: ["_deferred"] := by
        refine List.prefix_of_prefix_length_le hpre ⟨["first"], rfl⟩ ?_
        by_contra hlong
        refine hne (path_injective (hpre.eq_of_length_le ?_))
        exact not_le.mp hlong
      have hover : Overlap (path w.1) (path "_deferred.last") :=
        Or.inl (hshort.trans ⟨["last"], rfl⟩)
      have hwlast : w ≠ ("_deferred.last", .set (.number now)) := by
        rintro rfl
        exact absurd hpre (show ¬path "_deferred.last" <+: path "_deferred.first" by decide)
      exact laws.not_overlap h hw hlast hwlast hover
    have hiff := get_eq_iff laws h "_deferred.first" hold hscalar (d.open_deferred "first") habove
    rw [if_neg Bool.false_ne_true]
    refine Iff.trans hiff (forall_congr' fun op => imp_congr_left ?_)
    exact mem_writes_sender hu (by rw [hkey]; simp) (by decide)

end

/-- A deferral that succeeds leaves the bookkeeping right if and only if the sender's updates leave
    what is not protected. -/
theorem deferred_iff {update : Bson → List (String × UpdateOp) → Option Bson}
    (laws : UpdateLaws update) (d : QueueDocument) (now ttl : Int) (first : Bool)
    (responseData : ResponseData) {doc' : Bson}
    (h : deferDelivery update d.doc now ttl first responseData = some doc') :
    Deferred now ttl d.doc doc' ↔ LeavesBookkeeping d now first responseData := by
  obtain ⟨u, hu, h⟩ := Option.bind_eq_some_iff.mp h
  have hcount := get_count_iff laws hu h
  have hfirst : ∀ {old}, d.doc.get ["_deferred", "first"] = some old → _ :=
    fun hold => get_first_iff laws hu h hold
  have hid := get_top_iff laws hu h "id" (by decide) d.get_id rfl
    (by rw [lookup_bookkeeping_set]; simp) (by decide)
  have hseq := get_top_iff laws hu h "seq" (by decide) d.get_seq rfl
    (by rw [lookup_bookkeeping_set]; simp) (by decide)
  constructor
  · intro hdeferred
    exact {
      count := hcount.mp hdeferred.count
      first := fun old hold => (hfirst hold).mp (hdeferred.first old hold)
      id := hid.mp (hdeferred.id.trans d.get_id)
      seq := hseq.mp (hdeferred.seq.trans d.get_seq) }
  · intro hleaves
    have hset : ∀ (key : String) {v : Bson},
        (bookkeeping now ttl first responseData).set.lookup key = some v →
        d.doc.Open (path key) → doc'.get (path key) = some v :=
      fun key _ hkey hopen => get_of_bookkeeping laws hu h key hkey hopen
    exact {
      locked := hset "locked" (by rw [lookup_bookkeeping_set]; simp) (d.open_top _)
      queued := hset "queued" (by rw [lookup_bookkeeping_set]; simp) (d.open_top _)
      next := hset "_deferred.next" (by rw [lookup_bookkeeping_set]; simp)
        (d.open_deferred _)
      last := hset "_deferred.last" (by rw [lookup_bookkeeping_set]; simp)
        (d.open_deferred _)
      count := hcount.mpr hleaves.count
      first := fun old hold => (hfirst hold).mpr (hleaves.first old hold)
      id := (hid.mpr hleaves.id).trans d.get_id.symm
      seq := (hseq.mpr hleaves.seq).trans d.get_seq.symm }

/-- A delivery that was deferred three times. -/
def deferredThrice : QueueDocument where
  doc := .object [("id", .string "17c"), ("seq", .string "001"), ("locked", .bool true),
    ("sendingZone", .string "default"),
    ("_deferred", .object [("first", .number 1000), ("count", .number 3)])]
  id := "17c"
  seq := "001"
  get_id := rfl
  get_seq := rfl
  get_deferred _ h := ⟨_, (Option.some.inj h).symm⟩
  get_first _ h := ⟨_, (Option.some.inj h).symm⟩

/-- The other zone that `plugins/README.md` sets. -/
def otherZone : ResponseData where
  updates := .object [("sendingZone", .string "someother")]

/-- An increment of the count. -/
def countTwice : ResponseData where
  updates := .object [("$inc", .object [("_deferred.count", .number 2)])]

theorem deferred_otherZone :
    ∃ doc', deferDelivery applyUpdate deferredThrice.doc 5000 60000 false otherZone = some doc' ∧
      Deferred 5000 60000 deferredThrice.doc doc' := by
  refine ⟨_, rfl, (deferred_iff updateLaws_applyUpdate deferredThrice 5000 60000 false otherZone
    rfl).mpr (.of_not_written ?_ nofun)⟩
  intro key hkey op h
  have hentries : (senderUpdates otherZone).entries = [⟨"sendingZone", .string "someother"⟩] := rfl
  have hplain : plainKey (senderUpdates otherZone).entries key = none := by
    have hne : key ≠ "sendingZone" := by
      rintro rfl
      exact absurd hkey (by decide)
    rw [hentries, plainKey, dlookup_cons, if_neg hne]
    split
    · rfl
    · rfl
  have hoperator : ∀ operator, operator ≠ "sendingZone" →
      operatorKey (senderUpdates otherZone).entries operator key = none := by
    intro operator hne
    rw [hentries, operatorKey, dlookup_cons, if_neg hne]
    rfl
  cases op with
  | set v => exact nomatch hplain.symm.trans h
  | inc v => exact nomatch (hoperator "$inc" (by decide)).symm.trans h
  | mul v => exact nomatch (hoperator "$mul" (by decide)).symm.trans h

theorem deferred_countTwice :
    ¬∀ update, UpdateLaws update → ∀ (d : QueueDocument) (now ttl : Int) (first : Bool)
      (responseData : ResponseData) (doc' : Bson),
      deferDelivery update d.doc now ttl first responseData = some doc' →
      Deferred now ttl d.doc doc' := by
  intro hall
  obtain ⟨doc', h⟩ : ∃ doc', deferDelivery applyUpdate deferredThrice.doc 5000 60000 false
      countTwice = some doc' := ⟨_, rfl⟩
  have hcount := (hall _ updateLaws_applyUpdate deferredThrice _ _ _ _ doc' h).count
  obtain ⟨u, hu, h⟩ := Option.bind_eq_some_iff.mp h
  -- the increment of the sender is the one that counts
  have hone := (get_count_iff updateLaws_applyUpdate hu h).mp hcount (.number 2) rfl
  injection hone with hone
  exact absurd hone (by decide)

end DeferUpdates

end ZoneMta
