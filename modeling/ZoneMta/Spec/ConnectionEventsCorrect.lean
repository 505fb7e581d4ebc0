import ZoneMta.ForStd.Transition
import ZoneMta.Native.ConnectionEvents

/-!
# The events of a connection: correctness

A connection is to emit 'close' once, and to write nothing more once it is closed or closing. The
handler of the socket does not ask whether the connection is closing already, and `send` does not
find out at all.

## Key results

- `closes_once_iff`: in every run, what the connection does is fine exactly as long as the socket
  does not end while the connection is closing, and nothing is sent then
-/

namespace ZoneMta

open ForStd (run Along Throughout)

namespace ConnectionEvents

/-- The connection is closed, or about to be. -/
def Action.Closes : Action → Prop
  | closeCalled | emitClose => True
  | emitError | write _ | socketEnd => False

def Action.Writes : Action → Prop
  | write _ => True
  | closeCalled | emitClose | emitError | socketEnd => False

namespace State

/-- What the connection has done is fine: 'close' was emitted once at most, and behind it, and
behind a call of `close`, nothing was written. -/
structure Fine (s : State) : Prop where
  once : s.log.count .emitClose ≤ 1
  silent : s.log.Pairwise fun a b => a.Closes → ¬b.Writes

def flagged (s : State) : Bool := s.conn._closed || s.conn._closing

/-- The flags say what the log says, and only one of them is set. -/
structure Flags (s : State) : Prop where
  one : s.conn._closed = true → s.conn._closing = false
  emitted : s.flagged = true → .emitClose ∈ s.log
  clear : s.flagged = false → ∀ a ∈ s.log, ¬a.Closes

structure Inv (s : State) : Prop extends Fine s, Flags s

/-! ## The log -/

theorem count_of_clear {log : List Action} (h : ∀ a ∈ log, ¬a.Closes) :
    log.count .emitClose = 0 :=
  List.count_eq_zero.mpr fun hmem => h _ hmem trivial

/-- Behind a log, actions that do not write are silent. -/
theorem silent_append {log actions : List Action}
    (h : log.Pairwise fun a b => a.Closes → ¬b.Writes) (hactions : ∀ a ∈ actions, ¬a.Writes) :
    (log ++ actions).Pairwise fun a b => a.Closes → ¬b.Writes := by
  rw [List.pairwise_append]
  refine ⟨h, List.pairwise_of_forall_mem_list ?_, ?_⟩
  · intro a _ b hb _
    exact hactions b hb
  · intro a _ b hb _
    exact hactions b hb

/-! ## What one step keeps -/

/-- What changes none of the flags, and adds to the log what neither closes nor emits 'close'. -/
theorem Inv.quiet {s s' : State} (h : s.Inv) {actions : List Action}
    (hclosed : s'.conn._closed = s.conn._closed) (hclosing : s'.conn._closing = s.conn._closing)
    (hlog : s'.log = s.log ++ actions) (hcloses : ∀ a ∈ actions, ¬a.Closes)
    (hwrites : s.flagged = true → ∀ a ∈ actions, ¬a.Writes) : s'.Inv := by
  have hflagged : s'.flagged = s.flagged := by simp only [flagged, hclosed, hclosing]
  refine ⟨⟨?_, ?_⟩, ?_, ?_, ?_⟩
  · rw [hlog, List.count_append, count_of_clear hcloses]
    exact h.once
  · rw [hlog]
    cases hf : s.flagged with
    | true => exact silent_append h.silent (hwrites hf)
    | false =>
      -- nothing has closed the connection so far
      apply List.pairwise_of_forall_mem_list
      intro a ha b _ hclose
      cases List.mem_append.mp ha with
      | inl ha => exact absurd hclose (h.clear hf a ha)
      | inr ha => exact absurd hclose (hcloses a ha)
  · rw [hclosed, hclosing]
    exact h.one
  · intro hf
    rw [hlog]
    exact List.mem_append_left _ (h.emitted (hflagged ▸ hf))
  · intro hf a ha
    rw [hlog] at ha
    cases List.mem_append.mp ha with
    | inl ha => exact h.clear (hflagged ▸ hf) a ha
    | inr ha => exact hcloses a ha

/-- What leaves a flag set behind it, and adds to the log what does not write. -/
theorem Inv.closed {s s' : State} (h : s.Inv) {actions : List Action}
    (hone : s'.conn._closed = true → s'.conn._closing = false) (hflagged : s'.flagged = true)
    (hlog : s'.log = s.log ++ actions) (hwrites : ∀ a ∈ actions, ¬a.Writes)
    (hcount : s.log.count .emitClose + actions.count .emitClose ≤ 1)
    (hemitted : .emitClose ∈ s.log ++ actions) : s'.Inv where
  once := by rwa [hlog, List.count_append]
  silent := hlog ▸ silent_append h.silent hwrites
  one := hone
  emitted _ := hlog ▸ hemitted
  clear hf := absurd (hflagged.symm.trans hf) Bool.noConfusion

theorem Inv.close {s : State} (h : s.Inv) : s.close.Inv := by
  cases hf : s.flagged with
  | true =>
    -- the flags stop `close`, which is only recorded
    have hconn : s.close.conn = s.conn := by
      show s.conn.close = s.conn
      exact if_pos hf
    have hlog : s.close.log = s.log ++ [.closeCalled] := by
      show s.log ++ .closeCalled :: (if s.flagged then _ else _) = _
      rw [if_pos hf]
    apply h.closed (hconn ▸ h.one) (by simpa [flagged, hconn] using hf) hlog
    · simp [Action.Writes]
    · simpa using h.once
    · exact List.mem_append_left _ (h.emitted hf)
  | false =>
    have hflags : s.conn._closed = false ∧ s.conn._closing = false := Bool.or_eq_false_iff.mp hf
    have hnone : s.log.count .emitClose = 0 := count_of_clear (h.clear hf)
    -- the first close, from this side
    have hlog : s.close.log = s.log ++
        .closeCalled :: ((if s.conn.destroyed then [] else [.socketEnd]) ++ [.emitClose]) := by
      show s.log ++ .closeCalled :: (if s.flagged then _ else _) = _
      rw [if_neg (by simp [hf])]
    have hconn : s.close.conn._closed = false ∧ s.close.conn._closing = true := by
      simp [State.close, Connection.close, hflags]
    apply h.closed (by simp [hconn.1]) (by simp [flagged, hconn.2]) hlog
    · split <;> simp [Action.Writes]
    · rw [hnone]
      split <;> decide
    · simp

/-- The socket ends while nobody has called `close`. -/
theorem Inv.onClose {s : State} (h : s.Inv) (hclosing : s.conn._closing = false) :
    s.onClose.Inv := by
  unfold State.onClose
  cases hclosed : s.conn._closed with
  | true => exact h
  | false =>
    have hf : s.flagged = false := by simp [flagged, hclosed, hclosing]
    have hnone : s.log.count .emitClose = 0 := count_of_clear (h.clear hf)
    -- the first close, from the other side
    rw [if_neg Bool.false_ne_true]
    apply h.closed (fun _ => rfl) rfl rfl
    · simp [Action.Writes]
    · rw [hnone]
      decide
    · simp

theorem Inv.onError {s : State} (h : s.Inv) (code : Code) : (s.onError code).Inv := by
  cases code with
  | ECONNRESET => exact h.close
  | EPIPE => exact h.close
  | other => exact h.quiet rfl rfl rfl (by simp [Action.Closes]) (by simp [Action.Writes])

/-- What changes neither the flags nor the log. -/
theorem Inv.same {s s' : State} (h : s.Inv) (hclosed : s'.conn._closed = s.conn._closed)
    (hclosing : s'.conn._closing = s.conn._closing) (hlog : s'.log = s.log) : s'.Inv := by
  have hnil : s'.log = s.log ++ [] := by rw [hlog, List.append_nil]
  exact h.quiet hclosed hclosing hnil (by simp) (by simp)

end State

/-! ## The condition -/

section Run

variable {Data : Type} (msgpack : Data → List UInt8)

/-- The socket does not end while the connection is closing, and nothing is sent while it is closing
or closed, unless the socket is destroyed by then or takes nothing. -/
def Sound (s : State) : Event Data → Prop
  | .send data throws =>
    s.flagged = true → s.conn.destroyed = true ∨ encodeFrame msgpack data = none ∨ throws = true
  | .socketEnd | .socketClose => s.conn._closing = false
  | .close | .socketError _ _ | .parserError _ | .dataError _ | .emitted _ | .destroyed => True

theorem inv_send {s : State} (h : s.Inv) {data : Data} {throws : Bool}
    (hsound : Sound msgpack s (.send data throws)) : (s.send msgpack data throws).Inv := by
  unfold State.send
  split
  · exact h.close
  · next hdestroyed =>
    split
    · exact h
    · next chunk hencode =>
      split
      · exact h.close
      · next hthrows =>
        have hclear : s.flagged ≠ true := by
          intro hf
          have := hsound hf
          simp_all
        have hcloses : ∀ a ∈ [Action.write chunk], ¬a.Closes := by simp [Action.Closes]
        exact h.quiet rfl rfl rfl hcloses fun hf => absurd hf hclear

theorem inv_step {s s' : State} {e : Event Data} (h : s.Inv) (hsound : Sound msgpack s e)
    (hstep : step msgpack s e = some s') : s'.Inv := by
  cases e with
  | send data throws =>
    obtain rfl := Option.some.inj hstep
    exact inv_send msgpack h hsound
  | close =>
    obtain rfl := Option.some.inj hstep
    exact h.close
  | socketEnd =>
    obtain rfl := Option.some.inj hstep
    -- the state of the socket is nothing that `onClose` asks for
    have hended : { s with conn := { s.conn with ended := true } }.Inv := h.same rfl rfl rfl
    exact hended.onClose hsound
  | socketClose =>
    obtain rfl := Option.some.inj hstep
    have hended : { s with conn := { s.conn with destroyed := true, ended := true } }.Inv :=
      h.same rfl rfl rfl
    exact hended.onClose hsound
  | socketError code destroyed =>
    obtain rfl := Option.some.inj hstep
    split
    · apply State.Inv.onError
      exact h.same rfl rfl rfl
    · exact h.same rfl rfl rfl
  | parserError code =>
    obtain rfl := Option.some.inj hstep
    split
    · apply State.Inv.onError
      exact h.same rfl rfl rfl
    · exact h
  | dataError code =>
    obtain rfl := Option.some.inj hstep
    apply State.Inv.onError
    exact h.same rfl rfl rfl
  | emitted throws =>
    simp only [step] at hstep
    split at hstep
    · cases hstep
    · obtain rfl := Option.some.inj hstep
      split
      · exact h.same rfl rfl rfl
      · apply State.Inv.close
        exact h.same rfl rfl rfl
  | destroyed =>
    obtain rfl := Option.some.inj hstep
    exact h.same rfl rfl rfl

/-- A step against the condition emits 'close' again, or writes. -/
theorem not_fine_step {s s' : State} {e : Event Data} (h : s.Inv) (hsound : ¬Sound msgpack s e)
    (hstep : step msgpack s e = some s') : ¬s'.Fine := by
  -- a socket that ends while the connection is closing
  have hagain {conn : Connection} (hclosing : ¬s.conn._closing = false)
      (hflags : conn._closed = s.conn._closed) : ¬({ s with conn } : State).onClose.Fine := by
    intro hfine
    have hclosing : s.conn._closing = true := by simpa using hclosing
    have hclosed : s.conn._closed = false := by
      cases hclosed : s.conn._closed with
      | true => exact absurd (hclosing.symm.trans (h.one hclosed)) Bool.noConfusion
      | false => rfl
    have hemitted := h.emitted (by simp [State.flagged, hclosing])
    have honce := hfine.once
    simp only [State.onClose, hflags, hclosed, Bool.false_eq_true, if_false,
      List.count_append] at honce
    have hpos := List.count_pos_iff.mpr hemitted
    simp at honce
    omega
  cases e with
  | send data throws =>
    obtain rfl := Option.some.inj hstep
    -- the frame is encoded and written, although 'close' was emitted
    simp only [Sound, Classical.not_imp, not_or] at hsound
    obtain ⟨hflagged, hdestroyed, hencode, hthrows⟩ := hsound
    intro hfine
    have hsilent := hfine.silent
    cases hchunk : encodeFrame msgpack data with
    | none => exact hencode hchunk
    | some chunk =>
      simp only [State.send, hdestroyed, hchunk, hthrows, Bool.false_eq_true, if_false,
        List.pairwise_append] at hsilent
      exact hsilent.2.2 _ (h.emitted hflagged) _ (List.mem_singleton_self _) trivial trivial
  | socketEnd =>
    obtain rfl := Option.some.inj hstep
    exact hagain hsound rfl
  | socketClose =>
    obtain rfl := Option.some.inj hstep
    exact hagain hsound rfl
  | _ => exact absurd trivial hsound

theorem inv_init : State.Inv {} where
  once := Nat.zero_le 1
  silent := List.Pairwise.nil
  one h := nomatch h
  emitted h := nomatch h
  clear _ _ ha := absurd ha List.not_mem_nil

/-- What a connection does is fine exactly as long as its socket does not end while it is closing,
and nothing is sent once it is closing or closed. -/
theorem closes_once_iff {es : List (Event Data)} {s : State}
    (hrun : run (step msgpack) {} es = some s) :
    Throughout (step msgpack) State.Fine {} es ↔ Along (step msgpack) (Sound msgpack) {} es :=
  ForStd.throughout_iff_along (fun _ _ _ h hsound => inv_step msgpack h hsound)
    (fun _ _ _ h hsound => not_fine_step msgpack h hsound) (fun _ h => h.toFine) inv_init hrun

end Run

/-! ## Closing from this side -/

open ForStd.MsgPack (Value encode)

/-- What a server sends to its clients when it is closed. -/
def closeCommand : Value := .map ["cmd"] [.str "close"]

/-- The peer closes the connection behind a command. -/
def closedByPeer : List (Event Value) :=
  [.send closeCommand false, .socketEnd, .close, .socketClose]

/-- What the connection has done then. -/
def closedState : State where
  conn := { _closed := true, destroyed := true, ended := true }
  log := [.write (uint32LE 11 ++ encode closeCommand), .emitClose, .closeCalled]

theorem closes_once_closedByPeer : run (step encode) {} closedByPeer = some closedState ∧
    (Throughout (step encode) State.Fine {} closedByPeer ↔
      Along (step encode) (Sound encode) {} closedByPeer) := by
  have hrun : run (step encode) {} closedByPeer = some closedState := by rfl
  exact ⟨hrun, closes_once_iff encode hrun⟩

/-- With `close` called on this side, the socket closes and 'close' is emitted again; and `send`
still writes. -/
theorem not_closes_once :
    (∃ s, run (step encode) {} [.close, .socketClose] = some s ∧ ¬s.Fine) ∧
    ∃ s, run (step encode) {} [.close, .send closeCommand false] = some s ∧ ¬s.Fine := by
  constructor
  · exact ⟨_, rfl, fun h => absurd h.once (by decide)⟩
  · refine ⟨_, rfl, fun h => ?_⟩
    have hsilent := h.silent
    rw [List.pairwise_iff_forall_sublist] at hsilent
    exact hsilent (a := .emitClose) (b := .write (uint32LE 11 ++ encode closeCommand)) (by decide)
      trivial trivial

end ConnectionEvents

end ZoneMta
