import ZoneMta.ForStd.List
import ZoneMta.Spec.PoolCorrect

/-!
# Who has a connection

What the pool has done with the connections is kept beside it. A connection is in use when the
pool has handed it out, or never had it. As long as only connections in use are added, every
connection that the pool still has, in a list or with a list that was dropped, has one timer, and
no other connection has one: so none is handed out twice, and no timer closes one that is in use.

## Key results

- `inv_step`: a step that adds no connection but one in use
- `used_by_one`: what happens to a connection behind the moment at which it was handed out
-/

namespace ZoneMta

open ForStd (run Along run_invariant_along eraseP_eq_filter lookup_insert lookup_erase)

namespace ConnectionPool

/-- What the pool does with a connection. -/
inductive Deed where
  | added (connection : Nat)
  | handedOut (connection : Nat)
  | discarded (connection : Nat)
  | killed (connection : Nat)
deriving Repr, DecidableEq

namespace Deed

def connection : Deed → Nat
  | added connection | handedOut connection | discarded connection | killed connection =>
    connection

/-- The last deed about a connection. -/
def last (deeds : List Deed) (connection : Nat) : Option Deed :=
  (deeds.filter (·.connection = connection)).getLast?

/-- The connection was handed out, or has never been in the pool. -/
def InUse (deeds : List Deed) (connection : Nat) : Prop :=
  ∀ deed, last deeds connection = some deed → deed = .handedOut connection

instance (deeds : List Deed) (connection : Nat) : Decidable (InUse deeds connection) :=
  match h : last deeds connection with
  | none => isTrue fun _ hlast => nomatch h.symm.trans hlast
  | some deed =>
    decidable_of_iff (deed = .handedOut connection)
      ⟨fun heq _ hlast => Option.some.inj (hlast.symm.trans h) ▸ heq, fun hall => hall deed h⟩

theorem last_concat (deeds : List Deed) (deed : Deed) (connection : Nat) :
    last (deeds ++ [deed]) connection =
      if deed.connection = connection then some deed else last deeds connection := by
  rw [last, List.filter_append, last]
  by_cases h : deed.connection = connection
  · have hone : [deed].filter (·.connection = connection) = [deed] :=
      List.filter_cons_of_pos (decide_eq_true h)
    rw [if_pos h, hone, List.getLast?_concat]
  · have hnone : [deed].filter (·.connection = connection) = [] :=
      List.filter_cons_of_neg (by simpa using h)
    rw [if_neg h, hnone, List.append_nil]

/-- What the pool still has was added behind the moment at which it was handed out. -/
theorem mem_of_last {before between : List Deed} {connection : Nat}
    (h : last (before ++ .handedOut connection :: between) connection =
      some (.added connection)) : .added connection ∈ between := by
  induction between using List.reverseRecOn with
  | nil =>
    -- the last deed would be that it was handed out
    rw [last_concat, if_pos (show (handedOut connection).connection = connection from rfl)] at h
    exact nomatch Option.some.inj h
  | append_singleton between deed ih =>
    rw [← List.cons_append, ← List.append_assoc, last_concat] at h
    split at h
    · rw [Option.some.inj h]
      exact List.mem_append_right _ (List.mem_singleton_self _)
    · exact List.mem_append_left _ (ih h)

/-- Between the moment at which a connection was handed out and the next one, or the one at which
    its timer closes it, it was added. -/
def Exclusive (deeds : List Deed) : Prop :=
  ∀ connection before between deed after,
    deeds = before ++ .handedOut connection :: (between ++ deed :: after) →
      deed = .handedOut connection ∨ deed = .killed connection → .added connection ∈ between

theorem exclusive_nil : Exclusive [] := by
  intro connection before between deed after h
  simp at h

theorem Exclusive.concat {deeds : List Deed} (h : Exclusive deeds) {deed : Deed}
    (hdeed : ∀ connection, deed = .handedOut connection ∨ deed = .killed connection →
      last deeds connection = some (.added connection)) : Exclusive (deeds ++ [deed]) := by
  intro connection before between deed' after hsplit hdeed'
  cases after using List.reverseRecOn with
  | nil =>
    -- the last deed
    rw [← List.cons_append, ← List.append_assoc] at hsplit
    obtain ⟨hdeeds, hlast⟩ := List.append_inj' hsplit rfl
    obtain rfl := List.singleton_inj.mp hlast
    have hadded := hdeed connection hdeed'
    rw [hdeeds] at hadded
    exact mem_of_last hadded
  | append_singleton after other _ =>
    -- the last deed is not the second one, so both stand in what was done before
    have hassoc : before ++ .handedOut connection :: (between ++ deed' :: (after ++ [other])) =
        (before ++ .handedOut connection :: (between ++ deed' :: after)) ++ [other] := by simp
    rw [hassoc] at hsplit
    exact h connection before between deed' after (List.append_inj' hsplit rfl).1 hdeed'

end Deed

/-- A pool, and what it has done. -/
structure Used where
  pool : Pool := {}
  deeds : List Deed := []
deriving DecidableEq

namespace Used

/-- What a step does with a connection. -/
def deed (s : Pool) : Pool.Event → Option Deed
  | .add _ connection => some (.added connection)
  | .getConnection key =>
    match s.getConnection key with
    | some (some conn, _) => some (.handedOut conn.connection)
    -- the connection was closed
    | some (none, _) => (s.next key).map fun conn => .discarded conn.connection
    | none => none
  | .close _ => none
  | .timeout timer =>
    (s.timers.find? (·.id == timer)).map fun timer => .killed timer.connection

/-- A step of the pool, and what it does. -/
def step (u : Used) (e : Pool.Event) : Option Used :=
  (u.pool.step e).map fun pool => { pool := pool, deeds := u.deeds ++ (deed u.pool e).toList }

/-- A connection that is added is in use. -/
def AddsInUse (u : Used) : Pool.Event → Prop
  | .add _ connection => Deed.InUse u.deeds connection
  | _ => True

instance (u : Used) : (e : Pool.Event) → Decidable (AddsInUse u e)
  | .add _ connection => inferInstanceAs (Decidable (Deed.InUse u.deeds connection))
  | .getConnection _ => isTrue trivial
  | .close _ => isTrue trivial
  | .timeout _ => isTrue trivial

/-! ## The invariant -/

/-- Every entry of a list has its timer, and every timer is that of a connection that the pool
    still has. -/
structure Inv (u : Used) : Prop where
  pool : Pool.Inv u.pool
  ids : (u.pool.timers.map (·.id)).Nodup
  connections : (u.pool.timers.map (·.connection)).Nodup
  entries : ∀ key, ∀ conn ∈ u.pool.list key, ⟨conn.timer, key, conn.connection⟩ ∈ u.pool.timers
  pooled : ∀ timer ∈ u.pool.timers,
    Deed.last u.deeds timer.connection = some (.added timer.connection)
  exclusive : Deed.Exclusive u.deeds

theorem inv_empty : Inv {} where
  pool := Pool.inv_init
  ids := List.nodup_nil
  connections := List.nodup_nil
  entries _ _ h := nomatch h
  pooled _ h := nomatch h
  exclusive := Deed.exclusive_nil

variable {u : Used} {key : String}

theorem Inv.eq_of_id (h : Inv u) {timer timer' : Timer} (htimer : timer ∈ u.pool.timers)
    (htimer' : timer' ∈ u.pool.timers) (hid : timer.id = timer'.id) : timer = timer' :=
  List.inj_on_of_nodup_map h.ids htimer htimer' hid

theorem Inv.eq_of_connection (h : Inv u) {timer timer' : Timer} (htimer : timer ∈ u.pool.timers)
    (htimer' : timer' ∈ u.pool.timers) (hconnection : timer.connection = timer'.connection) :
    timer = timer' :=
  List.inj_on_of_nodup_map h.connections htimer htimer' hconnection

/-- No list has a connection twice. -/
theorem Inv.nodup_list (h : Inv u) (key : String) :
    ((u.pool.list key).map (·.connection)).Nodup := by
  have hne : (u.pool.list key).Pairwise (·.timer ≠ ·.timer) :=
    (h.pool.pairwise_list key).imp Nat.ne_of_lt
  refine List.pairwise_map.mpr (hne.imp_of_mem fun hconn hconn' hne heq => hne ?_)
  have htimers := h.eq_of_connection (h.entries key _ hconn) (h.entries key _ hconn') heq
  exact congrArg Timer.id htimers

/-- A timer is gone, the entry of its connection as well, and the deed is noted. -/
theorem Inv.leave (h : Inv u) {timer : Timer} (htimer : timer ∈ u.pool.timers) {s : Pool}
    {deed : Deed} (hpool : Pool.Inv s)
    (htimers : s.timers = (u.pool.clearTimeout timer.id).timers)
    (hlists : ∀ key, ∀ conn ∈ s.list key,
      conn ∈ u.pool.list key ∧ ¬(key = timer.connectionKey ∧ conn.connection = timer.connection))
    (hdeed : deed.connection = timer.connection) :
    Inv { pool := s, deeds := u.deeds ++ [deed] } where
  pool := hpool
  ids := by
    rw [htimers]
    exact h.ids.sublist (List.filter_sublist.map _)
  connections := by
    rw [htimers]
    exact h.connections.sublist (List.filter_sublist.map _)
  entries := by
    intro key conn hconn
    obtain ⟨hmem, hother⟩ := hlists key conn hconn
    rw [htimers]
    -- an entry whose timer has the id of the cleared one would be the entry that is gone
    refine List.mem_filter.mpr ⟨h.entries key conn hmem, bne_iff_ne.mpr fun hid => hother ?_⟩
    have heq := h.eq_of_id (h.entries key conn hmem) htimer hid
    exact ⟨congrArg Timer.connectionKey heq, congrArg Timer.connection heq⟩
  pooled := by
    intro other hother
    rw [htimers] at hother
    obtain ⟨hmem, hid⟩ := Pool.mem_clearTimeout hother
    -- connections have one timer each, so the deed is about another connection
    have hne : deed.connection ≠ other.connection := by
      rw [hdeed]
      exact fun heq => hid (congrArg Timer.id (h.eq_of_connection htimer hmem heq).symm)
    rw [Deed.last_concat, if_neg hne]
    exact h.pooled other hmem
  exclusive := by
    refine h.exclusive.concat fun connection hconnection => ?_
    -- the connection had a timer, and so was added last
    have hsame : connection = timer.connection := by
      obtain rfl | rfl := hconnection <;> exact hdeed
    rw [hsame]
    exact h.pooled timer htimer

theorem Inv.add (h : Inv u) (key : String) {connection : Nat}
    (huse : Deed.InUse u.deeds connection) :
    Inv { pool := u.pool.add key connection, deeds := u.deeds ++ [.added connection] } where
  pool := h.pool.add key connection
  ids := by
    rw [Pool.add_eq]
    show (List.map Timer.id (u.pool.timers ++ [_])).Nodup
    rw [List.map_append, List.map_singleton, ← List.concat_eq_append]
    refine h.ids.concat fun hmem => ?_
    -- ids are counted up, and the new one is not given yet
    obtain ⟨timer, htimer, hid⟩ := List.mem_map.mp hmem
    have hlt := (Pool.mem_left.mp (h.pool.timers timer htimer)).1
    rw [hid] at hlt
    exact Nat.lt_irrefl _ hlt
  connections := by
    rw [Pool.add_eq]
    show (List.map Timer.connection (u.pool.timers ++ [_])).Nodup
    rw [List.map_append, List.map_singleton, ← List.concat_eq_append]
    refine h.connections.concat fun hmem => ?_
    -- a connection with a timer is not in use
    obtain ⟨timer, htimer, rfl⟩ := List.mem_map.mp hmem
    exact nomatch huse _ (h.pooled timer htimer)
  entries := by
    intro other conn hconn
    rw [Pool.add_eq] at hconn ⊢
    show _ ∈ u.pool.timers ++ [_]
    unfold Pool.list at hconn
    rw [lookup_insert] at hconn
    split at hconn
    · next hkey =>
      -- the list of the key has the new entry at its end
      obtain hconn | hconn := List.mem_append.mp hconn
      · exact List.mem_append_left _ (hkey ▸ h.entries key conn hconn)
      · rw [List.mem_singleton.mp hconn, hkey]
        exact List.mem_append_right _ (List.mem_singleton_self _)
    · exact List.mem_append_left _ (h.entries other conn hconn)
  pooled := by
    intro timer htimer
    rw [Pool.add_eq] at htimer
    rw [Deed.last_concat]
    split
    · next hconnection => rw [show connection = timer.connection from hconnection]
    · next hne =>
      obtain htimer | htimer := List.mem_append.mp htimer
      · exact h.pooled timer htimer
      · rw [List.mem_singleton.mp htimer] at hne
        exact absurd rfl hne
  exclusive := by
    refine h.exclusive.concat fun other hother => ?_
    obtain hother | hother := hother <;> exact nomatch hother

/-- An entry is taken, with the list it is in. -/
theorem Inv.taken (h : Inv u) {conn : Conn} (hnext : u.pool.next key = some conn) {deed : Deed}
    (hdeed : deed.connection = conn.connection) :
    Inv { pool := u.pool.taken key conn, deeds := u.deeds ++ [deed] } := by
  have hmem : conn ∈ u.pool.list key := List.mem_of_head? hnext
  have hsettled := Pool.settled_taken u.pool key conn
  refine h.leave (h.entries key conn hmem)
    (h.pool.settled (h.pool.lt_of_mem_list hmem) hsettled) hsettled.timers ?_ hdeed
  intro other conn' hconn'
  -- the whole list of the key is dropped, with the entries behind the one that is taken
  unfold Pool.list at hconn' ⊢
  rw [Pool.connectionPool_taken, lookup_erase] at hconn'
  split at hconn'
  · exact nomatch hconn'
  · next hother => exact ⟨hconn', fun hboth => hother hboth.1⟩

/-- A timer fires. -/
theorem Inv.timeout (h : Inv u) {timer : Timer} (htimer : timer ∈ u.pool.timers) :
    Inv { pool := u.pool.timeout timer, deeds := u.deeds ++ [.killed timer.connection] } := by
  have hsettled := Pool.settled_timeout u.pool timer
  refine h.leave htimer
    (h.pool.settled (Pool.mem_left.mp (h.pool.timers timer htimer)).1 hsettled)
    hsettled.timers ?_ rfl
  intro key conn hconn
  have hnodup := h.nodup_list timer.connectionKey
  unfold Pool.list at hconn hnodup ⊢
  rw [Pool.connectionPool_timeout] at hconn
  cases hlookup : u.pool.connectionPool.lookup timer.connectionKey with
  | none =>
    rw [hlookup] at hconn
    -- the timer is that of a dropped list: no entry of its key is left
    refine ⟨hconn, fun hboth => ?_⟩
    rw [hboth.1, hlookup] at hconn
    exact nomatch hconn
  | some connList =>
    rw [hlookup, Option.getD_some] at hnodup
    rw [hlookup] at hconn
    dsimp only at hconn
    split at hconn
    · next hkey =>
      split at hconn
      · exact nomatch hconn
      · -- the only entry of the connection is erased
        have herase : connList.eraseP (fun conn => conn.connection = timer.connection) =
            connList.filter (·.connection != timer.connection) :=
          eraseP_eq_filter hnodup timer.connection
        rw [herase, Option.getD_some] at hconn
        obtain ⟨hmem, hne⟩ := List.mem_filter.mp hconn
        rw [hkey, hlookup, Option.getD_some]
        exact ⟨hmem, fun hboth => bne_iff_ne.mp hne hboth.2⟩
    · next hkey => exact ⟨hconn, fun hboth => hkey hboth.1⟩

/-- A step that adds no connection but one in use. -/
theorem inv_step {u' : Used} {e : Pool.Event} (h : Inv u) (he : AddsInUse u e)
    (hstep : step u e = some u') : Inv u' := by
  obtain ⟨pool, hpool, rfl⟩ := Option.map_eq_some_iff.mp hstep
  cases e with
  | add key connection =>
    obtain rfl := Option.some.inj hpool
    exact h.add key he
  | close connection =>
    -- a connection that closes itself keeps its entry and its timer
    obtain rfl := Option.some.inj hpool
    show Inv { pool := _, deeds := u.deeds ++ [] }
    rw [List.append_nil]
    exact
      { h with
        pool := Pool.inv_step h.pool (e := .close connection) rfl
        entries := h.entries }
  | timeout timer =>
    obtain ⟨found, hfind, rfl⟩ := Option.map_eq_some_iff.mp hpool
    have hdeed : deed u.pool (.timeout timer) = some (.killed found.connection) := by
      rw [deed, hfind, Option.map_some]
    rw [hdeed]
    exact h.timeout (List.mem_of_find?_eq_some hfind)
  | getConnection key =>
    -- the entry that is taken decides; without one there is no deed
    cases hnext : u.pool.next key with
    | none =>
      obtain hnone | hnull := Pool.getConnection_of_next_eq_none hnext
      · have hdeed : deed u.pool (.getConnection key) = none := by simp only [deed, hnone]
        simp only [Pool.step, hnone] at hpool
        rw [hdeed, ← Option.some.inj hpool]
        show Inv { pool := u.pool, deeds := u.deeds ++ [] }
        rw [List.append_nil]
        exact h
      · have hdeed : deed u.pool (.getConnection key) = none := by
          simp only [deed, hnull, hnext, Option.map_none]
        simp only [Pool.step, hnull] at hpool
        rw [hdeed, ← Option.some.inj hpool]
        show Inv { pool := u.pool, deeds := u.deeds ++ [] }
        rw [List.append_nil]
        exact h
    | some conn =>
      have hget := Pool.getConnection_of_next hnext
      simp only [Pool.step, hget] at hpool
      obtain rfl := Option.some.inj hpool
      -- a closed connection leaves the pool as well, but is not handed out
      by_cases hopen : u.pool.isOpen conn = true
      · have hdeed : deed u.pool (.getConnection key) = some (.handedOut conn.connection) := by
          simp only [deed, hget, hopen, if_true]
        rw [hdeed]
        exact h.taken hnext rfl
      · have hdeed : deed u.pool (.getConnection key) = some (.discarded conn.connection) := by
          simp only [deed, hget, hopen, Bool.false_eq_true, if_false, hnext, Option.map_some]
        rw [hdeed]
        exact h.taken hnext rfl

/-- When only connections in use are added, no connection is handed out twice, and no timer closes
    one that was handed out, without an `add` in between. -/
theorem used_by_one {es : List Pool.Event} (hes : Along step AddsInUse {} es)
    (hrun : run step {} es = some u) {connection : Nat} {before between after : List Deed}
    {deed : Deed} (hdeeds : u.deeds = before ++ .handedOut connection :: (between ++ deed :: after))
    (hdeed : deed = .handedOut connection ∨ deed = .killed connection) :
    .added connection ∈ between := by
  have h : Inv u := run_invariant_along (fun _ _ _ h he hstep => inv_step h he hstep)
    inv_empty hes hrun
  exact h.exclusive connection before between deed after hdeeds hdeed

/-- A connection is used twice, and the pool has it when its timer fires. -/
def usedTwice : List Pool.Event :=
  [.add "key" 1, .getConnection "key", .add "key" 1, .add "key" 2, .getConnection "key",
    .add "key" 1, .timeout 3]

theorem used_by_one_example : ∃ u, run step {} usedTwice = some u ∧
    u.deeds = [.added 1] ++ .handedOut 1 ::
      ([.added 1, .added 2, .handedOut 1, .added 1] ++ .killed 1 :: []) ∧
      Deed.added 1 ∈ [Deed.added 1, .added 2, .handedOut 1, .added 1] := by
  have hrun : (run step {} usedTwice).any (fun u => u.deeds = [.added 1] ++ .handedOut 1 ::
      ([.added 1, .added 2, .handedOut 1, .added 1] ++ .killed 1 :: [])) = true := by
    decide +kernel
  obtain ⟨u, hu, hdeeds⟩ := (Option.any_eq_true _ _).mp hrun
  have hdeeds := of_decide_eq_true hdeeds
  exact ⟨u, hu, hdeeds, used_by_one (by decide +kernel) hu hdeeds (Or.inr rfl)⟩

end Used

end ConnectionPool

end ZoneMta
