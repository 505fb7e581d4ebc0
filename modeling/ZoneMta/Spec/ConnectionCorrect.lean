import ZoneMta.Native.Connection
import ZoneMta.Spec.FrameParserCorrect

/-!
# The frames of a data channel

`encode` writes a frame of any size that four bytes can hold, and the parser of the peer reports
a frame of more than 3 MB as an error, which ends the channel. A message is accepted with 2 MB of
header lines, and every line of the list that is stored and sent repeats the names of its keys.

## Key results

- `inv_step`: what has arrived is a part of the frames that were sent
- `accepts_iff`: the channels that never end with an error of the parser
- `accepts_manyHeaders`: the envelope of a message with many short header lines
-/

namespace ZoneMta

open ForStd (run)

namespace Channel

variable {Data : Type} {msgpack : Data → List UInt8} {s s' : Channel Data}

/-! ## The channel -/

theorem encodeFrames_concat (ds : List Data) (data : Data) :
    encodeFrames ((ds ++ [data]).map msgpack) =
      encodeFrames (ds.map msgpack) ++ (uint32LE (msgpack data).length ++ msgpack data) := by
  have hnil : encodeFrames [] = [] := rfl
  rw [List.map_append, List.map_singleton, FrameParser.encodeFrames_append,
    FrameParser.encodeFrames_cons, hnil, List.append_nil]

/-- The frames that were sent are in the socket, and a part of them has arrived at the parser. -/
structure Inv (msgpack : Data → List UInt8) (s : Channel Data) : Prop where
  written : s.written = encodeFrames (s.sent.map msgpack)
  arrived : s.receiver.arrived <+: s.written
  parses : ∃ es, run FrameParser.step .init es = some s.receiver

theorem inv_init (msgpack : Data → List UInt8) : Inv msgpack {} :=
  ⟨rfl, List.nil_prefix, [], rfl⟩

theorem inv_send (hs : Inv msgpack s) (data : Data) (throws : Bool) :
    Inv msgpack (s.send msgpack data throws) := by
  unfold send encodeFrame
  split
  · exact ⟨hs.written, hs.arrived, hs.parses⟩
  · by_cases hlt : (msgpack data).length < 2 ^ 32
    · dsimp only
      rw [if_pos hlt]
      dsimp only
      split
      · exact ⟨hs.written, hs.arrived, hs.parses⟩
      · split
        · exact hs
        · refine ⟨?_, hs.arrived.trans (List.prefix_append ..), hs.parses⟩
          show s.written ++ _ = encodeFrames ((s.sent ++ [data]).map msgpack)
          rw [hs.written, encodeFrames_concat]
    · dsimp only
      rw [if_neg hlt]
      exact hs

/-- The next bytes of the socket arrive. -/
theorem arrived_take (h : s.receiver.arrived <+: s.written) (n : Nat) :
    s.receiver.arrived ++ (s.written.drop s.receiver.arrived.length).take n <+: s.written := by
  obtain ⟨rest, hrest⟩ := h
  rw [← hrest, List.drop_left, List.prefix_append_right_inj]
  exact List.take_prefix n rest

/-- Every step keeps the invariant. -/
theorem inv_step {e : Event Data} (hs : Inv msgpack s) (h : s.step msgpack e = some s') :
    Inv msgpack s' := by
  have hreceive : ∀ {event w}, FrameParser.step s.receiver event = some w →
      w.arrived <+: s.written → Inv msgpack { s with receiver := w } := by
    rintro event w hstep harrived
    obtain ⟨es, hes⟩ := hs.parses
    exact ⟨hs.written, harrived, es ++ [event], ForStd.run_concat.mpr ⟨_, hes, hstep⟩⟩
  cases e with
  | send data throws =>
    obtain rfl := Option.some.inj h
    exact inv_send hs data throws
  | close =>
    obtain rfl := Option.some.inj h
    exact ⟨hs.written, hs.arrived, hs.parses⟩
  | closed destroyed =>
    obtain rfl := Option.some.inj h
    exact ⟨hs.written, hs.arrived, hs.parses⟩
  | arrive n =>
    simp only [step, Option.map_eq_some_iff] at h
    obtain ⟨w, hstep, rfl⟩ := h
    obtain rfl := Option.some.inj hstep
    exact hreceive hstep (arrived_take hs.arrived n)
  | receive event =>
    cases event with
    | data bytes => exact nomatch h
    | _ =>
      obtain ⟨w, hstep, rfl⟩ := Option.map_eq_some_iff.mp h
      exact hreceive hstep (FrameParser.arrived_step_of_ne (by simp) hstep ▸ hs.arrived)

/-! ## The parser of the peer -/

/-- The parser has reported no error, which would close the channel, and has handed over only
    values that were sent. -/
structure Accepts (msgpack : Data → List UInt8) (s : Channel Data) : Prop where
  errors : s.receiver.errors = []
  frames : ∀ frame, .handler frame ∈ s.receiver.log → ∃ data ∈ s.sent, frame = msgpack data

theorem mem_exchange {frame : List UInt8} {ps : List (List UInt8)}
    (h : .handler frame ∈ FrameParser.exchange ps) : frame ∈ ps := by
  obtain ⟨p, hp, hmem⟩ := List.mem_flatMap.mp h
  rcases List.mem_pair.mp hmem with heq | heq
  · rw [FrameParser.Entry.handler.inj heq]
    exact hp
  · exact nomatch heq

/-- Values that fit are accepted. -/
theorem accepts_of_fits (hmsgpack : ∀ data, msgpack data ≠ []) (hs : Inv msgpack s)
    (hfits : ∀ data ∈ s.sent, (msgpack data).length ≤ MAX_ALLOWED_FRAME_SIZE) :
    Accepts msgpack s := by
  have hps : FrameParser.Allowed (s.sent.map msgpack) := by
    intro p hp
    obtain ⟨data, hdata, rfl⟩ := List.mem_map.mp hp
    exact ⟨List.length_pos_iff.mpr (hmsgpack data), hfits data hdata⟩
  obtain ⟨es, hes⟩ := hs.parses
  have hinv := FrameParser.inv_run hps hes (hs.written ▸ hs.arrived)
  refine ⟨?_, fun frame hframe => ?_⟩
  · obtain ⟨cut, rest, hat, -⟩ := hinv
    exact hat.errors
  · obtain ⟨data, hdata, heq⟩ := List.mem_map.mp (mem_exchange (hinv.log_mono.subset hframe))
    exact ⟨data, hdata, heq.symm⟩

/-! ## A frame that is too big -/

/-- A channel over which values were sent, and of which nothing has arrived yet. -/
def filled (msgpack : Data → List UInt8) (ds : List Data) : Channel Data :=
  { sent := ds, written := encodeFrames (ds.map msgpack) }

/-- Values that four bytes can count are sent. -/
theorem run_sends {ds : List Data} (hds : ∀ data ∈ ds, (msgpack data).length < 2 ^ 32) :
    run (step msgpack) {} (ds.map (.send · false)) = some (filled msgpack ds) := by
  induction ds using List.reverseRecOn with
  | nil => rfl
  | append_singleton ds data ih =>
    have hlt := hds data (by simp)
    have hfront := ih fun d hd => hds d (List.mem_append_left _ hd)
    rw [List.map_append, List.map_singleton]
    refine ForStd.run_concat.mpr ⟨_, hfront, ?_⟩
    have hframe : encodeFrame msgpack data =
        some (uint32LE (msgpack data).length ++ msgpack data) := if_pos hlt
    simp only [step, send, hframe, filled, Bool.false_eq_true, if_false]
    rw [encodeFrames_concat]

variable (msgpack) in
/-- The event loop of the peer runs. -/
theorem run_receives {es : List FrameParser.Event} {w : FrameParser.World}
    (hes : ∀ e ∈ es, ∀ bytes, e ≠ .data bytes)
    (hrun : run FrameParser.step s.receiver es = some w) :
    run (step msgpack) s (es.map .receive) = some { s with receiver := w } := by
  induction es generalizing s with
  | nil => rw [← Option.some.inj hrun]; rfl
  | cons e es ih =>
    obtain ⟨w₁, hstep, hrun⟩ := ForStd.run_cons_eq_some.mp hrun
    refine ForStd.run_cons_eq_some.mpr ⟨{ s with receiver := w₁ }, ?_, ?_⟩
    · cases e with
      | data bytes => exact absurd rfl (hes _ List.mem_cons_self bytes)
      | _ => exact Option.map_eq_some_iff.mpr ⟨w₁, hstep, rfl⟩
    · exact ih (fun e' he' => hes e' (List.mem_cons_of_mem e he')) hrun

variable (msgpack) in
/-- The next bytes of the socket arrive. -/
theorem step_arrive {bytes rest : List UInt8}
    (hwritten : s.written = s.receiver.arrived ++ (bytes ++ rest)) :
    s.step msgpack (.arrive bytes.length) =
      (FrameParser.step s.receiver (.data bytes)).map fun w => { s with receiver := w } := by
  simp only [step, hwritten, List.drop_left, List.take_left]

/-- A value that is too big makes the parser report an error, once all before it has arrived. -/
theorem exists_error (hmsgpack : ∀ data, msgpack data ≠ []) (ds rest : List Data) {data : Data}
    (hds : ∀ data ∈ ds, (msgpack data).length ≤ MAX_ALLOWED_FRAME_SIZE)
    (hbig : MAX_ALLOWED_FRAME_SIZE < (msgpack data).length)
    (hlt : ∀ d ∈ ds ++ data :: rest, (msgpack d).length < 2 ^ 32) :
    ∃ es s, run (step msgpack) {} es = some s ∧ s.sent = ds ++ data :: rest ∧
      s.receiver.errors ≠ [] := by
  have hps : FrameParser.Allowed (ds.map msgpack) := by
    intro p hp
    obtain ⟨d, hd, rfl⟩ := List.mem_map.mp hp
    exact ⟨List.length_pos_iff.mpr (hmsgpack d), hds d hd⟩
  obtain ⟨c, hc⟩ : ∃ c, c = filled msgpack (ds ++ data :: rest) := ⟨_, rfl⟩
  have hsends := hc ▸ run_sends hlt
  have hreceiver : c.receiver = .init := by rw [hc, filled]
  have hsent : c.sent = ds ++ data :: rest := by rw [hc, filled]
  have hwritten : c.written = encodeFrames (ds.map msgpack) ++
      (uint32LE (msgpack data).length ++ (msgpack data ++ encodeFrames (rest.map msgpack))) := by
    rw [hc, filled, List.map_append, FrameParser.encodeFrames_append, List.map_cons,
      FrameParser.encodeFrames_cons]
  -- the frames in front of the value arrive, and the parser of the peer hands them over
  obtain ⟨w₀, hw₀⟩ : ∃ w, FrameParser.step .init (.data (encodeFrames (ds.map msgpack))) = some w :=
    ⟨_, rfl⟩
  have harrived₀ : w₀.arrived = encodeFrames (ds.map msgpack) := by
    obtain rfl := Option.some.inj hw₀
    rfl
  have hrun₀ : run FrameParser.step .init [.data (encodeFrames (ds.map msgpack))] = some w₀ :=
    ForStd.run_cons_eq_some.mpr ⟨w₀, hw₀, rfl⟩
  have hfront : FrameParser.Inv (ds.map msgpack) w₀ :=
    FrameParser.inv_run hps hrun₀ (harrived₀ ▸ List.prefix_refl _)
  obtain ⟨es, w, hes, hrun, hidle, hinv, harrived⟩ := hfront.exists_idle hps
  rw [harrived₀] at harrived
  obtain ⟨hframe, hchunklen⟩ := hinv.clean hidle harrived
  -- the header of the value arrives
  obtain ⟨w₁, w₂, hdata, hreadable, herrors⟩ :=
    FrameParser.rejects hidle hframe hchunklen hbig (hlt data (by simp))
  have hfirst := step_arrive msgpack (s := c) (by rw [hreceiver]; exact hwritten)
  have hreceives := run_receives msgpack (s := { c with receiver := w₀ }) hes hrun
  have hheader := step_arrive msgpack (s := { c with receiver := w })
    (harrived.symm ▸ hwritten)
  have hrun₂ : run FrameParser.step w₁ [.readable 3] = some w₂ :=
    ForStd.run_cons_eq_some.mpr ⟨w₂, hreadable, rfl⟩
  have hread := run_receives msgpack (s := { c with receiver := w₁ }) (by simp) hrun₂
  rw [hreceiver, hw₀] at hfirst
  rw [hdata] at hheader
  -- the parts of the run, from the last one
  have hlast := ForStd.run_cons_eq_some.mpr ⟨_, hheader, hread⟩
  have hbehind := ForStd.run_cons_eq_some.mpr ⟨_, hfirst, (ForStd.run_append ..).trans
    (Option.bind_eq_some_iff.mpr ⟨_, hreceives, hlast⟩)⟩
  refine ⟨_, _, (ForStd.run_append ..).trans (Option.bind_eq_some_iff.mpr ⟨_, hsends, hbehind⟩),
    hsent, fun hnil => ?_⟩
  simp [herrors] at hnil

/-- One value that is too big is not accepted. -/
theorem not_accepts_of_big (hmsgpack : ∀ data, msgpack data ≠ []) {data : Data}
    (hbig : MAX_ALLOWED_FRAME_SIZE < (msgpack data).length) (hlt : (msgpack data).length < 2 ^ 32) :
    ¬∀ es s, run (step msgpack) {} es = some s → s.sent = [data] → Accepts msgpack s := by
  intro hall
  obtain ⟨es, s, hrun, hsent, herrors⟩ := exists_error hmsgpack [] []
    (fun _ h => absurd h List.not_mem_nil) hbig (fun d hd => List.mem_singleton.mp hd ▸ hlt)
  exact herrors (hall es s hrun hsent).errors

/-- All channels over which these values are sent accept them, if and only if each of them is
    encoded in at most 3 MB. -/
theorem accepts_iff (hmsgpack : ∀ data, msgpack data ≠ []) (ds : List Data)
    (hds : ∀ data ∈ ds, (msgpack data).length < 2 ^ 32) :
    (∀ es s, run (step msgpack) {} es = some s → s.sent = ds → Accepts msgpack s) ↔
      ∀ data ∈ ds, (msgpack data).length ≤ MAX_ALLOWED_FRAME_SIZE := by
  constructor
  · intro hall
    -- the first value that is too big, if there is one
    cases hfind : ds.find? fun data => MAX_ALLOWED_FRAME_SIZE < (msgpack data).length with
    | none => simpa using hfind
    | some data =>
      obtain ⟨hbig, front, rest, rfl, hfront⟩ := List.find?_eq_some_iff_append.mp hfind
      obtain ⟨es, s, hrun, hsent, herrors⟩ :=
        exists_error hmsgpack _ _ (fun d hd => by simpa using hfront d hd) (of_decide_eq_true hbig) hds
      exact absurd (hall es s hrun hsent).errors herrors
  · intro hfits es s hrun hsent
    have hinv : Inv msgpack s :=
      ForStd.run_invariant (fun _ _ _ hs h => inv_step hs h) (inv_init msgpack) hrun
    exact accepts_of_fits hmsgpack hinv (hsent ▸ hfits)

/-- A short command, which is sent whatever happens. -/
theorem accepts_iff_index :
    (ForStd.MsgPack.encode (.str "INDEX")).length = 6 ∧
      ∀ es s, run (step ForStd.MsgPack.encode) {} es = some s → s.sent = [.str "INDEX"] →
        Accepts ForStd.MsgPack.encode s :=
  ⟨by decide +kernel,
    (accepts_iff ForStd.MsgPack.encode_ne_nil [.str "INDEX"] (by decide +kernel)).mpr
      (by decide +kernel)⟩

/-- Header lines of five bytes. -/
def manyHeaders (n : Nat) : List HeaderLine := List.replicate n { key := "a", line := "a:b" }

theorem headSize_manyHeaders (n : Nat) : headSize (manyHeaders n) = n * 5 + 2 := by
  have hline : ("a:b".toUTF8.size + 2) = 5 := by decide +kernel
  rw [headSize, manyHeaders, List.map_replicate, List.sum_replicate_nat, hline]

/-- The envelope of a message with `n` of these lines. -/
def pushManyHeaders (n : Nat) : ForStd.MsgPack.Value :=
  pushCommand 2 "15a" (envelopeValue [("from", .str "a@b.c")] (manyHeaders n))

/-- Every line is sent with the names of its keys. -/
theorem length_pushManyHeaders (n : Nat) :
    n * 16 ≤ (ForStd.MsgPack.encode (pushManyHeaders n)).length ∧
      (ForStd.MsgPack.encode (pushManyHeaders n)).length < n * 16 + 100 := by
  have hline : (ForStd.MsgPack.encode (HeaderLine.toValue { key := "a", line := "a:b" })).length =
      16 := by decide +kernel
  have hlines := ForStd.MsgPack.length_encodeList_replicate
    (HeaderLine.toValue { key := "a", line := "a:b" }) n
  rw [hline, ← List.map_replicate] at hlines
  have hcount := ForStd.MsgPack.length_header_le 0x90 0x10 0xdc 0xdd (manyHeaders n).length
  -- the keys and the other values
  have hsmall : (ForStd.MsgPack.encode (pushCommand 2 "15a" (.map ["headers", "from"]
      [.nil, .str "a@b.c"]))).length = 52 := by decide +kernel
  simp only [pushCommand, ForStd.MsgPack.encode, ForStd.MsgPack.encodeFields, List.length_append,
    List.length_cons, List.length_nil] at hsmall
  simp only [pushManyHeaders, pushCommand, envelopeValue, ForStd.MsgPack.encode,
    ForStd.MsgPack.encodeFields, List.length_append, List.map_cons, List.map_nil,
    List.length_cons, List.length_nil, List.length_map]
  simp only [manyHeaders, hlines] at hcount ⊢
  omega

/-- A message with a header block of less than 2 MB is accepted, and its envelope is not. -/
theorem accepts_manyHeaders :
    headSize (manyHeaders 200000) ≤ MAX_HEAD_SIZE ∧
    ¬∀ es s, run (step ForStd.MsgPack.encode) {} es = some s → s.sent = [pushManyHeaders 200000] →
      Accepts ForStd.MsgPack.encode s := by
  have hlength := length_pushManyHeaders 200000
  refine ⟨by rw [headSize_manyHeaders, MAX_HEAD_SIZE]; omega, ?_⟩
  refine not_accepts_of_big ForStd.MsgPack.encode_ne_nil ?_ ?_
  · rw [MAX_ALLOWED_FRAME_SIZE]
    omega
  · omega

end Channel

end ZoneMta
