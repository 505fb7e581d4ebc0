import ZoneMta.ForStd.Transition
import ZoneMta.Native.Pool

/-!
# The pool and its gauge

What the senders get from the pool, and what the master process is told about its size. The pool
forgets a list after the first connection was taken from it, as it asks an array for its `size`. A
connection that is found closed is thrown away without a command, and its timer, which would have
sent one, is cleared.

## Key results

- `drains_iff`: when all connections under a key can be taken
- `step_drift`: by how much a step moves the gauge away from the number of connections
- `gauge_iff`: the runs in which the gauge is the number of connections
- `represents_add`, `represents_take`, `represents_remove`: the pool of the senders
-/

namespace ZoneMta

open ForStd (Map run Along Throughout run_invariant throughout_iff_along lookup_insert lookup_erase)

namespace ConnectionPool

namespace Pool

/-! ## The lists -/

/-- The list under a key. -/
def list (s : Pool) (key : String) : List Conn := (s.connectionPool.lookup key).getD []

/-- The connections under a key that are open. -/
def live (s : Pool) (key : String) : List Conn := (s.list key).filter s.isOpen

/-- The connection that `getConnection` looks at. -/
def next (s : Pool) (key : String) : Option Conn := (s.list key).head?

/-- The entries of which nothing has become yet, by their timers. -/
def left (s : Pool) : List Nat :=
  (List.range s.nextTimer).filter fun timer => !s.fates.any (·.1 == timer)

/-- What the commands say about the size of the pool. -/
def gauge (s : Pool) : Int :=
  s.commands.count ⟨.connPoolSizeGauge, .inc⟩ - s.commands.count ⟨.connPoolSizeGauge, .dec⟩

variable {s s' : Pool} {key : String} {conn : Conn}

/-- The pool after `getConnection` took an entry. -/
def taken (s : Pool) (key : String) (conn : Conn) : Pool :=
  let s := (s.delete key).clearTimeout conn.timer
  if s.isOpen conn then
    ((s.sendCommand .connPoolSizeGauge .dec).sendCommand .connReuseCounter .inc).settle conn.timer
      .handedOut
  else s.settle conn.timer .discarded

theorem lookup_of_next (h : s.next key = some conn) :
    ∃ rest, s.connectionPool.lookup key = some (conn :: rest) := by
  unfold next list at h
  cases hlookup : s.connectionPool.lookup key with
  | none => simp [hlookup] at h
  | some connList =>
    cases connList with
    | nil => simp [hlookup] at h
    | cons first rest =>
      have hfirst : first = conn := by simpa [hlookup] using h
      exact ⟨rest, by rw [hfirst]⟩

theorem getConnection_of_next (h : s.next key = some conn) :
    s.getConnection key =
      some (if s.isOpen conn then some conn else none, s.taken key conn) := by
  obtain ⟨rest, hlookup⟩ := lookup_of_next h
  have hopen : ((s.delete key).clearTimeout conn.timer).isOpen conn = s.isOpen conn := rfl
  simp only [getConnection, hlookup, taken, hopen]
  split <;> rfl

/-- Nothing is taken. -/
theorem getConnection_of_next_eq_none (h : s.next key = none) :
    s.getConnection key = none ∨ s.getConnection key = some (none, s) := by
  unfold next list at h
  cases hlookup : s.connectionPool.lookup key with
  | none => exact Or.inl (by simp [getConnection, hlookup])
  | some connList =>
    cases connList with
    | nil => exact Or.inr (by simp [getConnection, hlookup])
    | cons first rest => simp [hlookup] at h

theorem connectionPool_taken (s : Pool) (key : String) (conn : Conn) :
    (s.taken key conn).connectionPool = s.connectionPool.erase key := by
  unfold taken
  dsimp only
  split <;> rfl

/-! ## Taking the connections -/

/-- The pool after a number of guarded calls. -/
def takes : Nat → Pool → String → Pool
  | 0, s, _ => s
  | n + 1, s, key => takes n (s.take key).2 key

/-- The open connections under a key are taken in their order, and those that are not taken yet
    stay there. -/
structure Drains (s : Pool) (key : String) : Prop where
  returned : ∀ k conn, (s.live key)[k]? = some conn →
    (takes k s key).has key = true ∧ ((takes k s key).take key).1 = some conn
  others : ∀ k, (takes k s key).live key = (s.live key).drop k
  emptied : (takes (s.live key).length s key).has key = false

theorem take_of_next (h : s.next key = some conn) :
    s.take key = (if s.isOpen conn then some conn else none, s.taken key conn) := by
  obtain ⟨rest, hlookup⟩ := lookup_of_next h
  simp only [take, has, hlookup, Option.isSome_some, if_true, getConnection_of_next h,
    Option.getD_some]

theorem take_of_not_has (h : s.has key = false) : s.take key = (none, s) := by
  simp only [take, h, Bool.false_eq_true, if_false]

theorem takes_of_not_has (h : s.has key = false) (n : Nat) : takes n s key = s := by
  induction n with
  | zero => rfl
  | succ n ih => rw [takes, take_of_not_has h, ih]

theorem has_taken (s : Pool) (key : String) (conn : Conn) : (s.taken key conn).has key = false := by
  rw [has, connectionPool_taken, AList.lookup_erase]
  rfl

theorem live_of_not_has (h : s.has key = false) : s.live key = [] := by
  rw [has, Option.isSome_eq_false_iff, Option.isNone_iff_eq_none] at h
  rw [live, list, h]
  rfl

/-- A list of which something is open has a first connection. -/
theorem exists_next (h : s.live key ≠ []) : ∃ conn, s.next key = some conn := by
  unfold live at h
  cases hlist : s.list key with
  | nil => exact absurd (by rw [hlist]; rfl) h
  | cons conn rest => exact ⟨conn, by rw [next, hlist]; rfl⟩

/-- All connections can be taken if and only if there is one, the first of the list. -/
theorem drains_iff_of_live (h : s.live key ≠ []) :
    Drains s key ↔ ∃ conn, s.live key = [conn] ∧ s.next key = some conn := by
  obtain ⟨first, hnext⟩ := exists_next h
  have htake := take_of_next hnext
  have hgone : ∀ k, takes (k + 1) s key = s.taken key first := by
    intro k
    rw [takes, htake, takes_of_not_has (has_taken s key first)]
  constructor
  · intro hdrains
    obtain ⟨conn, rest, hlive⟩ := List.exists_cons_of_ne_nil h
    have hzero : (s.live key)[0]? = some conn := by rw [hlive]; rfl
    -- the first call looks at the first entry only
    have hfirst := (hdrains.returned 0 conn hzero).2
    rw [takes, htake] at hfirst
    have hconn : first = conn := by
      split at hfirst
      · exact Option.some.inj hfirst
      · exact nomatch hfirst
    -- the others are gone after the first call
    have hrest := hdrains.others 1
    rw [hgone 0, live_of_not_has (has_taken s key first), hlive, List.drop_one,
      List.tail_cons] at hrest
    exact ⟨conn, by rw [hlive, ← hrest], by rw [hnext, hconn]⟩
  · rintro ⟨conn, hlive, hconn⟩
    obtain rfl := Option.some.inj (hnext.symm.trans hconn)
    have hopen : s.isOpen first = true := by
      have hmem : first ∈ s.live key := by rw [hlive]; exact List.mem_singleton_self first
      exact (List.mem_filter.mp hmem).2
    have hhas : s.has key = true := by
      obtain ⟨rest, hlookup⟩ := lookup_of_next hnext
      rw [has, hlookup]
      rfl
    -- what is lost with the key has no open connection
    refine ⟨fun k conn hk => ?_, fun k => ?_, ?_⟩
    · rw [hlive] at hk
      cases k with
      | zero =>
        obtain rfl := Option.some.inj hk
        exact ⟨hhas, by rw [takes, htake, if_pos hopen]⟩
      | succ k => simp at hk
    · cases k with
      | zero => rfl
      | succ k =>
        rw [hgone k, live_of_not_has (has_taken s key first), hlive]
        simp
    · rw [hlive]
      show (takes 1 s key).has key = false
      rw [hgone 0, has_taken]

/-! ## The invariant -/

/-- The timers that wait are those of entries that are left, and the lists are in the order of
    `add`. -/
structure Inv (s : Pool) : Prop where
  timers : ∀ timer ∈ s.timers, timer.id ∈ s.left
  fates : ∀ fate ∈ s.fates, fate.1 < s.nextTimer
  entries : ∀ key connList, s.connectionPool.lookup key = some connList →
    ∀ conn ∈ connList, conn.timer < s.nextTimer
  sorted : ∀ key connList, s.connectionPool.lookup key = some connList →
    connList.Pairwise (·.timer < ·.timer)

theorem inv_init : Inv {} where
  timers := by simp
  fates := by simp
  entries := by simp
  sorted := by simp

theorem mem_left {timer : Nat} :
    timer ∈ s.left ↔ timer < s.nextTimer ∧ ∀ fate ∈ s.fates, fate.1 ≠ timer := by
  simp [left]

theorem nodup_left (s : Pool) : s.left.Nodup := List.nodup_range.filter _

/-- Something became of an entry. -/
theorem left_settle (s : Pool) (timer : Nat) (fate : Fate) :
    (s.settle timer fate).left = s.left.erase timer := by
  rw [(nodup_left s).erase_eq_filter]
  unfold left settle
  rw [List.filter_filter]
  refine List.filter_congr fun other _ => ?_
  rw [List.any_append, List.any_cons, List.any_nil, Bool.or_false, Bool.not_or, Bool.and_comm,
    bne, Bool.beq_comm]

/-- `add` appends to the list under the key. -/
theorem add_eq (s : Pool) (key : String) (connection : Nat) :
    s.add key connection =
      { s with
        connectionPool := s.connectionPool.insert key (s.list key ++ [⟨s.nextTimer, connection⟩])
        timers := s.timers ++ [⟨s.nextTimer, key, connection⟩]
        nextTimer := s.nextTimer + 1
        commands := s.commands ++ [⟨.connPoolSizeGauge, .inc⟩] } := by
  cases hlookup : s.connectionPool.lookup key with
  | none => simp [add, sendCommand, set, list, hlookup]
  | some connList => simp [add, sendCommand, set, list, hlookup]

theorem left_add (h : Inv s) (key : String) (connection : Nat) :
    (s.add key connection).left = s.left ++ [s.nextTimer] := by
  have hnew : s.fates.any (·.1 == s.nextTimer) = false := by
    refine List.any_eq_false.mpr fun fate hfate heq => ?_
    have hlt := h.fates fate hfate
    rw [eq_of_beq heq] at hlt
    exact Nat.lt_irrefl _ hlt
  rw [add_eq, left, left, List.range_succ, List.filter_append]
  simp [hnew]

/-- What a command says about the size of the pool. -/
theorem gauge_sendCommand (s : Pool) (metric : Metric) (func : Func) :
    (s.sendCommand metric func).gauge = s.gauge +
      match metric, func with
      | .connPoolSizeGauge, .inc => 1
      | .connPoolSizeGauge, .dec => -1
      | .connReuseCounter, _ => 0 := by
  cases metric <;> cases func <;>
    simp only [gauge, sendCommand, List.count_append, List.count_singleton, beq_iff_eq,
      Command.mk.injEq, reduceCtorEq, and_true, and_false, if_true, if_false] <;> omega

theorem gauge_add (s : Pool) (key : String) (connection : Nat) :
    (s.add key connection).gauge = s.gauge + 1 := by
  have hsent : (s.add key connection).gauge = (s.sendCommand .connPoolSizeGauge .inc).gauge := by
    rw [add_eq]
    rfl
  rw [hsent, gauge_sendCommand]

theorem left_taken (s : Pool) (key : String) (conn : Conn) :
    (s.taken key conn).left = s.left.erase conn.timer := by
  unfold taken
  dsimp only
  split
  · rw [left_settle]
    rfl
  · rw [left_settle]
    rfl

theorem gauge_taken (s : Pool) (key : String) (conn : Conn) :
    (s.taken key conn).gauge = if s.isOpen conn then s.gauge - 1 else s.gauge := by
  have hopen : ((s.delete key).clearTimeout conn.timer).isOpen conn = s.isOpen conn := rfl
  unfold taken
  dsimp only
  rw [hopen]
  split
  · show ((((s.delete key).clearTimeout conn.timer).sendCommand .connPoolSizeGauge
      .dec).sendCommand .connReuseCounter .inc).gauge = s.gauge - 1
    rw [gauge_sendCommand, gauge_sendCommand]
    show s.gauge + -1 + 0 = s.gauge - 1
    omega
  · rfl

/-- The pool when a timer fires, without its connection. -/
theorem left_timeout (s : Pool) (timer : Timer) :
    (s.timeout timer).left = s.left.erase timer.id := by
  unfold timeout
  rw [left_settle]
  dsimp only
  split
  · rfl
  · split <;> rfl

theorem gauge_timeout (s : Pool) (timer : Timer) : (s.timeout timer).gauge = s.gauge - 1 := by
  unfold timeout
  show (sendCommand _ .connPoolSizeGauge .dec).gauge = _
  rw [gauge_sendCommand]
  dsimp only
  split
  · show s.gauge + -1 = s.gauge - 1
    omega
  · split
    · show s.gauge + -1 = s.gauge - 1
      omega
    · show s.gauge + -1 = s.gauge - 1
      omega

/-! ## Steps -/

theorem Inv.lt_of_mem_list (h : Inv s) (hconn : conn ∈ s.list key) : conn.timer < s.nextTimer := by
  unfold list at hconn
  cases hlookup : s.connectionPool.lookup key with
  | none => simp [hlookup] at hconn
  | some connList =>
    rw [hlookup] at hconn
    exact h.entries key connList hlookup conn hconn

theorem Inv.pairwise_list (h : Inv s) (key : String) :
    (s.list key).Pairwise (·.timer < ·.timer) := by
  unfold list
  cases hlookup : s.connectionPool.lookup key with
  | none => exact List.Pairwise.nil
  | some connList => exact h.sorted key connList hlookup

theorem Inv.add (h : Inv s) (key : String) (connection : Nat) : Inv (s.add key connection) where
  timers := by
    intro timer htimer
    rw [left_add h]
    rw [add_eq] at htimer
    obtain htimer | htimer := List.mem_append.mp htimer
    · exact List.mem_append_left _ (h.timers timer htimer)
    · rw [List.mem_singleton.mp htimer]
      exact List.mem_append_right _ (List.mem_singleton_self _)
  fates := by
    rw [add_eq]
    exact fun fate hfate => Nat.lt_succ_of_lt (h.fates fate hfate)
  entries := by
    intro other connList hlookup conn hconn
    rw [add_eq] at hlookup ⊢
    show conn.timer < s.nextTimer + 1
    rw [lookup_insert] at hlookup
    split at hlookup
    · rw [← Option.some.inj hlookup] at hconn
      obtain hconn | hconn := List.mem_append.mp hconn
      · exact Nat.lt_succ_of_lt (h.lt_of_mem_list hconn)
      · rw [List.mem_singleton.mp hconn]
        exact Nat.lt_succ_self _
    · exact Nat.lt_succ_of_lt (h.entries other connList hlookup conn hconn)
  sorted := by
    intro other connList hlookup
    rw [add_eq] at hlookup
    rw [lookup_insert] at hlookup
    split at hlookup
    · rw [← Option.some.inj hlookup]
      -- the new entry has the highest timer
      refine List.pairwise_append.mpr ⟨h.pairwise_list key, List.pairwise_singleton _ _, ?_⟩
      intro conn hconn new hnew
      rw [List.mem_singleton.mp hnew]
      exact h.lt_of_mem_list hconn
    · exact h.sorted other connList hlookup

theorem mem_clearTimeout {timer : Timer} {id : Nat} (h : timer ∈ (s.clearTimeout id).timers) :
    timer ∈ s.timers ∧ timer.id ≠ id := by
  simpa [clearTimeout] using h

/-- Something became of the entry of a timer: the timer is gone, and the lists lose entries
    only. -/
structure Settled (s s' : Pool) (timer : Nat) : Prop where
  timers : s'.timers = (s.clearTimeout timer).timers
  nextTimer : s'.nextTimer = s.nextTimer
  left : s'.left = s.left.erase timer
  fates : ∃ fate, s'.fates = s.fates ++ [(timer, fate)]
  lists : ∀ key connList, s'.connectionPool.lookup key = some connList →
    ∃ connList', s.connectionPool.lookup key = some connList' ∧ connList.Sublist connList'

theorem settled_taken (s : Pool) (key : String) (conn : Conn) :
    Settled s (s.taken key conn) conn.timer := by
  have hlists : ∀ other connList, (s.taken key conn).connectionPool.lookup other = some connList →
      ∃ connList', s.connectionPool.lookup other = some connList' ∧
        connList.Sublist connList' := by
    intro other connList hlookup
    rw [connectionPool_taken, lookup_erase] at hlookup
    split at hlookup
    · exact nomatch hlookup
    · exact ⟨connList, hlookup, List.Sublist.refl _⟩
  have hleft := left_taken s key conn
  unfold taken at hlists hleft ⊢
  dsimp only at hlists hleft ⊢
  split
  · next hopen =>
    rw [if_pos hopen] at hlists hleft
    exact ⟨rfl, rfl, hleft, ⟨.handedOut, rfl⟩, hlists⟩
  · next hopen =>
    rw [if_neg hopen] at hlists hleft
    exact ⟨rfl, rfl, hleft, ⟨.discarded, rfl⟩, hlists⟩

/-- The lists when a timer fires. -/
theorem connectionPool_timeout (s : Pool) (timer : Timer) (key : String) :
    (s.timeout timer).connectionPool.lookup key =
      match s.connectionPool.lookup timer.connectionKey with
      | none => s.connectionPool.lookup key
      | some connList =>
        let connList := connList.eraseP fun conn => conn.connection = timer.connection
        if key = timer.connectionKey then if connList = [] then none else some connList
        else s.connectionPool.lookup key := by
  unfold timeout
  dsimp only [settle, sendCommand]
  split
  · next hlookup =>
    have hlookup' : s.connectionPool.lookup timer.connectionKey = none := hlookup
    rw [hlookup']
    rfl
  · next connList hlookup =>
    have hlookup' : s.connectionPool.lookup timer.connectionKey = some connList := hlookup
    rw [hlookup']
    split
    · next hnil =>
      rw [delete, lookup_erase]
      simp only [hnil, if_true]
      rfl
    · next hnil =>
      rw [set, lookup_insert]
      simp only [hnil, if_false]
      rfl

theorem lookup_timeout (s : Pool) (timer : Timer) (key : String) (connList : List Conn)
    (hlookup : (s.timeout timer).connectionPool.lookup key = some connList) :
    ∃ connList', s.connectionPool.lookup key = some connList' ∧ connList.Sublist connList' := by
  rw [connectionPool_timeout] at hlookup
  split at hlookup
  · exact ⟨connList, hlookup, List.Sublist.refl _⟩
  · next connList' hlist =>
    dsimp only at hlookup
    split at hlookup
    · next hkey =>
      split at hlookup
      · exact nomatch hlookup
      · rw [hkey, ← Option.some.inj hlookup]
        exact ⟨connList', hlist, List.eraseP_sublist⟩
    · exact ⟨connList, hlookup, List.Sublist.refl _⟩

theorem settled_timeout (s : Pool) (timer : Timer) : Settled s (s.timeout timer) timer.id := by
  have hlists := lookup_timeout s timer
  have hleft := left_timeout s timer
  unfold timeout at hlists hleft ⊢
  dsimp only at hlists hleft ⊢
  split
  · next hlookup =>
    simp only [hlookup] at hlists hleft
    exact ⟨rfl, rfl, hleft, ⟨.killed, rfl⟩, hlists⟩
  · next connList hlookup =>
    simp only [hlookup] at hlists hleft
    split
    · next hnil =>
      rw [if_pos hnil] at hlists hleft
      exact ⟨rfl, rfl, hleft, ⟨.killed, rfl⟩, hlists⟩
    · next hnil =>
      rw [if_neg hnil] at hlists hleft
      exact ⟨rfl, rfl, hleft, ⟨.killed, rfl⟩, hlists⟩

theorem Inv.settled (h : Inv s) {timer : Nat} (htimer : timer < s.nextTimer)
    (hs : Settled s s' timer) : Inv s' where
  timers := by
    intro other hother
    rw [hs.timers] at hother
    obtain ⟨hmem, hne⟩ := mem_clearTimeout hother
    rw [hs.left]
    exact (List.mem_erase_of_ne hne).mpr (h.timers other hmem)
  fates := by
    intro fate hfate
    obtain ⟨_, hfates⟩ := hs.fates
    rw [hfates] at hfate
    rw [hs.nextTimer]
    obtain hfate | hfate := List.mem_append.mp hfate
    · exact h.fates fate hfate
    · rw [List.mem_singleton.mp hfate]
      exact htimer
  entries := by
    intro key connList hlookup conn hconn
    obtain ⟨connList', hlookup', hsub⟩ := hs.lists key connList hlookup
    rw [hs.nextTimer]
    exact h.entries key connList' hlookup' conn (hsub.subset hconn)
  sorted := by
    intro key connList hlookup
    obtain ⟨connList', hlookup', hsub⟩ := hs.lists key connList hlookup
    exact (h.sorted key connList' hlookup').sublist hsub

/-- What a step does: it adds, takes or kills an entry, or does nothing to the entries. -/
inductive Goes (s : Pool) : Event → Pool → Prop where
  | add (key : String) (connection : Nat) :
    Goes s (.add key connection) (s.add key connection)
  | taken (key : String) (conn : Conn) (hnext : s.next key = some conn) :
    Goes s (.getConnection key) (s.taken key conn)
  | nothing (key : String) (hnext : s.next key = none) : Goes s (.getConnection key) s
  | close (connection : Nat) :
    Goes s (.close connection) { s with closed := connection :: s.closed }
  | timeout (timer : Timer) (htimer : timer ∈ s.timers) :
    Goes s (.timeout timer.id) (s.timeout timer)

theorem goes_of_step {e : Event} (hs : step s e = some s') : Goes s e s' := by
  cases e with
  | add key connection => exact Option.some.inj hs ▸ .add key connection
  | close connection => exact Option.some.inj hs ▸ .close connection
  | timeout timer =>
    obtain ⟨found, hfind, rfl⟩ := Option.map_eq_some_iff.mp hs
    have hbeq := List.find?_some hfind
    have hid : found.id = timer := eq_of_beq hbeq
    exact hid ▸ .timeout found (List.mem_of_find?_eq_some hfind)
  | getConnection key =>
    cases hnext : s.next key with
    | none =>
      obtain hnone | hnull := getConnection_of_next_eq_none hnext
      · simp only [step, hnone] at hs
        exact Option.some.inj hs ▸ .nothing key hnext
      · simp only [step, hnull] at hs
        exact Option.some.inj hs ▸ .nothing key hnext
    | some conn =>
      simp only [step, getConnection_of_next hnext] at hs
      exact Option.some.inj hs ▸ .taken key conn hnext

theorem inv_step {e : Event} (h : Inv s) (hs : step s e = some s') : Inv s' := by
  cases goes_of_step hs with
  | add key connection => exact h.add key connection
  | taken key conn hnext =>
    -- the timer of an entry is one that `add` has made
    have hmem : conn ∈ s.list key := List.mem_of_head? hnext
    exact h.settled (h.lt_of_mem_list hmem) (settled_taken s key conn)
  | nothing key hnext => exact h
  | close connection => exact ⟨h.timers, h.fates, h.entries, h.sorted⟩
  | timeout timer htimer =>
    exact h.settled (mem_left.mp (h.timers timer htimer)).1 (settled_timeout s timer)

theorem inv_run {es : List Event} (hrun : run step {} es = some s) : Inv s :=
  run_invariant (fun _ _ _ h hs => inv_step h hs) inv_init hrun

/-- The connections under a key can be taken in the order in which they were added, and none is
    lost, if and only if there is one, the first of the list. -/
theorem drains_iff {es : List Event} (hrun : run step {} es = some s) (hlive : s.live key ≠ []) :
    (s.live key).Pairwise (·.timer < ·.timer) ∧
      (Drains s key ↔ ∃ conn, s.live key = [conn] ∧ s.next key = some conn) :=
  ⟨((inv_run hrun).pairwise_list key).sublist List.filter_sublist, drains_iff_of_live hlive⟩

theorem drains_iff_one : ∃ s, run step {} [.add "key" 1] = some s ∧ Drains s "key" := by
  have hrun : run step {} [.add "key" 1] = some (add {} "key" 1) := rfl
  have hlive : (add {} "key" 1).live "key" = [⟨0, 1⟩] := by decide +kernel
  have hdrains := (drains_iff hrun (by rw [hlive]; exact List.cons_ne_nil _ _)).2
  exact ⟨_, hrun, hdrains.mpr ⟨⟨0, 1⟩, hlive, by decide +kernel⟩⟩

/-- Of two open connections the second is gone when the first is taken. -/
theorem not_drains_two : ∃ s, run step {} [.add "key" 1, .add "key" 2] = some s ∧
    s.live "key" = [⟨0, 1⟩, ⟨1, 2⟩] ∧ (s.take "key").1 = some ⟨0, 1⟩ ∧
      (s.take "key").2.has "key" = false := by
  refine ⟨_, rfl, ?_⟩
  decide +kernel

/-! ## The gauge -/

/-- A connection that is taken is open, or its timer has killed it before. -/
def Counted (s : Pool) : Event → Prop
  | .getConnection key =>
    ∀ conn, s.next key = some conn → (s.isOpen conn = true ↔ conn.timer ∈ s.left)
  | _ => True

/-- What a step adds to the difference between the gauge and the number of connections. -/
def drift (s : Pool) : Event → Int
  | .getConnection key =>
    match s.next key with
    | some conn => (if conn.timer ∈ s.left then 1 else 0) - if s.isOpen conn then 1 else 0
    | none => 0
  | _ => 0

theorem drift_eq_zero_iff (s : Pool) (e : Event) : drift s e = 0 ↔ Counted s e := by
  cases e with
  | getConnection key =>
    cases hnext : s.next key with
    | none => simp [drift, Counted, hnext]
    | some conn =>
      by_cases hleft : conn.timer ∈ s.left <;> by_cases hopen : s.isOpen conn = true <;>
        simp [drift, Counted, hnext, hleft, hopen]
  | _ => simp [drift, Counted]

instance (s : Pool) (e : Event) : Decidable (Counted s e) :=
  decidable_of_iff (drift s e = 0) (drift_eq_zero_iff s e)

theorem length_erase_left (s : Pool) (timer : Nat) :
    ((s.left.erase timer).length : Int) =
      s.left.length - if timer ∈ s.left then 1 else 0 := by
  rw [List.length_erase]
  split
  · next hmem =>
    -- something is erased, so the subtraction is not cut off at zero
    have hpos := List.length_pos_of_mem hmem
    omega
  · omega

theorem step_drift {e : Event} (h : Inv s) (hs : step s e = some s') :
    s'.gauge - s'.left.length = s.gauge - s.left.length + drift s e := by
  cases goes_of_step hs with
  | add key connection =>
    show _ = _ + 0
    rw [gauge_add, left_add h, List.length_append, List.length_singleton]
    omega
  | taken key conn hnext =>
    rw [gauge_taken, left_taken, length_erase_left]
    simp only [drift, hnext]
    split <;> omega
  | nothing key hnext =>
    simp only [drift, hnext]
    omega
  | close connection =>
    show s.gauge - s.left.length = s.gauge - s.left.length + 0
    omega
  | timeout timer htimer =>
    show _ = _ + 0
    rw [gauge_timeout, left_timeout, length_erase_left, if_pos (h.timers timer htimer)]
    omega

/-- The gauge is the number of connections that are left in every state of a run if and only if
    every connection that is taken is open, or was killed before. -/
theorem gauge_iff {es : List Event} (hrun : run step {} es = some s) :
    Throughout step (fun s => s.gauge = s.left.length) {} es ↔ Along step Counted {} es := by
  refine throughout_iff_along (I := fun s => Inv s ∧ s.gauge = s.left.length) ?_ ?_
    (fun _ h => h.2) ⟨inv_init, rfl⟩ hrun
  · intro s e s' h hcounted hs
    have hdrift := step_drift h.1 hs
    rw [(drift_eq_zero_iff s e).mpr hcounted, h.2] at hdrift
    exact ⟨inv_step h.1 hs, by omega⟩
  · intro s e s' h hcounted hs heq
    have hdrift := step_drift h.1 hs
    rw [heq, h.2] at hdrift
    exact hcounted ((drift_eq_zero_iff s e).mp (by omega))

/-- The pool loses the second of two connections, and its timer kills it. -/
def lost : List Event :=
  [.add "key" 1, .add "key" 2, .getConnection "key", .timeout 1]

theorem gauge_iff_lost : ∃ s, run step {} lost = some s ∧
    Throughout step (fun s => s.gauge = s.left.length) {} lost := by
  obtain ⟨s, hs⟩ := Option.isSome_iff_exists.mp (by decide +kernel : (run step {} lost).isSome)
  exact ⟨s, hs, (gauge_iff hs).mpr (by decide +kernel)⟩

/-- A connection that is found closed is still counted, and no connection is left. -/
theorem gauge_closed : ∃ s, run step {} [.add "key" 1, .close 1, .getConnection "key"] = some s ∧
    s.gauge = 1 ∧ s.left = [] := by
  refine ⟨_, rfl, ?_⟩
  decide +kernel

/-! ## The pool of the senders -/

/-- The pool of the senders has the connections of the lists. -/
def Represents (w : Senders) (s : Pool) : Prop :=
  ∀ key, w.pool.lookup key = (s.connectionPool.lookup key).map (·.map Conn.connection)

theorem represents_init : Represents {} {} := fun _ => rfl

theorem represents_add {w : Senders} (h : Represents w s) (key : String) (connection : Nat) :
    Represents (w.add key connection) (s.add key connection) := by
  intro other
  -- both append, to the list or to none
  have hlist : (w.pool.lookup key).getD [] = (s.list key).map Conn.connection := by
    rw [h key, list]
    cases s.connectionPool.lookup key <;> rfl
  rw [add_eq, Senders.add]
  simp only [lookup_insert, hlist]
  split
  · simp
  · exact h other

/-- The senders lose the same list. -/
theorem represents_take {w : Senders} (h : Represents w s) (key : String) :
    Represents (w.take key) (s.take key).2 := by
  intro other
  cases hlookup : s.connectionPool.lookup key with
  | none =>
    have hw : w.pool.lookup key = none := by rw [h key, hlookup]; rfl
    have hs : s.has key = false := by rw [has, hlookup]; rfl
    rw [take_of_not_has hs]
    simpa only [Senders.take, hw] using h other
  | some connList =>
    cases connList with
    | nil =>
      have hw : w.pool.lookup key = some [] := by rw [h key, hlookup]; rfl
      have hs : (s.take key).2 = s := by simp [take, has, getConnection, hlookup]
      rw [hs]
      simpa only [Senders.take, hw] using h other
    | cons conn rest =>
      have hw : w.pool.lookup key = some (conn.connection :: rest.map Conn.connection) := by
        rw [h key, hlookup]
        rfl
      have hnext : s.next key = some conn := by rw [next, list, hlookup]; rfl
      rw [take_of_next hnext]
      show _ = ((s.taken key conn).connectionPool.lookup other).map _
      simp only [Senders.take, hw, connectionPool_taken, lookup_erase]
      split
      · rfl
      · exact h other

/-- The entry with the connection of a timer that fires, in both. -/
theorem map_eraseP_connection (connList : List Conn) (connection : Nat) :
    (connList.eraseP fun conn => conn.connection = connection).map Conn.connection =
      (connList.map Conn.connection).erase connection := by
  induction connList with
  | nil => rfl
  | cons conn connList ih =>
    by_cases hconn : conn.connection = connection
    · rw [List.eraseP_cons_of_pos (by simpa using hconn), List.map_cons, hconn,
        List.erase_cons_head]
    · rw [List.eraseP_cons_of_neg (by simpa using hconn), List.map_cons, List.map_cons, ih,
        List.erase_cons_tail (by simpa using hconn)]

theorem represents_remove {w : Senders} (h : Represents w s) (timer : Timer) :
    Represents (w.remove timer.connectionKey timer.connection) (s.timeout timer) := by
  intro other
  rw [connectionPool_timeout]
  cases hlookup : s.connectionPool.lookup timer.connectionKey with
  | none =>
    have hw : w.pool.lookup timer.connectionKey = none := by rw [h, hlookup]; rfl
    simp only [Senders.remove, hw, Option.getD_none, List.erase_nil, List.isEmpty_nil, if_true,
      lookup_erase]
    split
    · next heq => rw [heq, hlookup]; rfl
    · exact h other
  | some connList =>
    have hw : w.pool.lookup timer.connectionKey = some (connList.map Conn.connection) := by
      rw [h, hlookup]
      rfl
    simp only [Senders.remove, hw, Option.getD_some, ← map_eraseP_connection, List.isEmpty_iff,
      List.map_eq_nil_iff]
    by_cases hkey : other = timer.connectionKey
    · rw [if_pos hkey]
      split
      · rw [hkey, AList.lookup_erase]
        rfl
      · rw [hkey, AList.lookup_insert]
        rfl
    · rw [if_neg hkey, ← h other]
      split
      · exact AList.lookup_erase_ne hkey
      · exact AList.lookup_insert_ne hkey

end Pool

end ConnectionPool

end ZoneMta
