import ZoneMta.ForStd.Transition
import ZoneMta.Native.FrameParser

/-!
# FrameParser correctness

Whatever the socket returns for each `read`, and whatever the event loop does next, the
parser has cut the arrived bytes at frame borders (`At`) and is in one of four phases
(`Phase`): idle, about to read, holding a frame for the handler, or waiting for the
handler. What the handler has seen is read off the phase.

## Key results

- `inv_step`: one turn of the event loop keeps the invariant
- `exists_idle`: the turns that are due come to an end
- `rejects`: a frame that is too long is an error
- `frameParser_delivers`: the handler sees the frames in order, each once
-/

namespace ZoneMta

namespace FrameParser

/-! ## The invariant -/

/-- The handler has seen the frames one after the other and called `next` for each. -/
def exchange (ps : List (List UInt8)) : List Entry :=
  ps.flatMap fun p => [.handler p, .next]

/-- The bytes of the header that was read last. -/
def headerBytes (frame : Nat) : List UInt8 := if frame = 0 then [] else uint32LE frame

/-- The parser has cut off the frames `cut` and looks at `chunk`. -/
structure At (ps : List (List UInt8)) (w : World) (chunk : List UInt8)
    (cut rest : List (List UInt8)) : Prop where
  split : ps = cut ++ rest
  stream : w.arrived <+: encodeFrames ps
  arrived : w.arrived = encodeFrames cut ++
    (headerBytes w.parser.frame ++ (w.parser.chunks.flatten ++ (chunk ++ w.unread)))
  chunklen : w.parser.chunklen = w.parser.chunks.flatten.length
  errors : w.errors = []

/-- What the parser is about to do. -/
inductive Phase (w : World) (cut : List (List UInt8)) : Prop where
  | idle (processing : w.parser.processing = false) (immediates : w.immediates = [])
      (handlers : w.handlers = 0) (log : w.log = exchange cut)
      (chunklen : w.parser.frame = 0 → w.parser.chunklen < 4)
  | reading (processing : w.parser.processing = true) (immediates : w.immediates = [.read])
      (handlers : w.handlers = 0) (log : w.log = exchange cut)
  | holding (cut' : List (List UInt8)) (p : List UInt8) (processing : w.parser.processing = true)
      (immediates : w.immediates = [.processFrame p]) (handlers : w.handlers = 0)
      (log : w.log = exchange cut') (eq : cut = cut' ++ [p])
  | handling (cut' : List (List UInt8)) (p : List UInt8) (processing : w.parser.processing = true)
      (immediates : w.immediates = []) (handlers : w.handlers = 1)
      (log : w.log = exchange cut' ++ [.handler p]) (eq : cut = cut' ++ [p])

/-- The header that was read belongs to the next frame, which is not complete yet. -/
def Expecting (w : World) (rest : List (List UInt8)) : Prop :=
  w.parser.frame ≠ 0 → ∃ p rest', rest = p :: rest' ∧ p.length = w.parser.frame ∧
    w.parser.chunklen < w.parser.frame

/-- The invariant. -/
structure Inv (ps : List (List UInt8)) (w : World) : Prop where
  exists_at : ∃ cut rest, At ps w [] cut rest ∧ Expecting w rest ∧ Phase w cut

/-- Nothing else is going on while `read` runs. -/
structure Quiet (w : World) (cut : List (List UInt8)) : Prop where
  processing : w.parser.processing = true
  immediates : w.immediates = []
  handlers : w.handlers = 0
  log : w.log = exchange cut

/-- The work left for a callback. -/
def immediateWeight : Immediate → Nat
  | .read => 1
  | .processFrame _ => 3

/-- The work left for the bytes and callbacks. -/
def weight (w : World) : Nat :=
  6 * w.unread.length + 4 * w.parser.chunklen + (if w.parser.frame = 0 then 0 else 1) +
    (w.immediates.map immediateWeight).sum + 2 * w.handlers

/-- The frame sizes that are allowed. -/
def Allowed (ps : List (List UInt8)) : Prop :=
  ∀ p ∈ ps, 1 ≤ p.length ∧ p.length ≤ MAX_ALLOWED_FRAME_SIZE

theorem exchange_concat (ps : List (List UInt8)) (p : List UInt8) :
    exchange (ps ++ [p]) = exchange ps ++ [.handler p, .next] := by
  simp [exchange]

theorem encodeFrames_append (ps qs : List (List UInt8)) :
    encodeFrames (ps ++ qs) = encodeFrames ps ++ encodeFrames qs :=
  ForStd.frames_append ps qs

theorem encodeFrames_cons (p : List UInt8) (ps : List (List UInt8)) :
    encodeFrames (p :: ps) = uint32LE p.length ++ (p ++ encodeFrames ps) :=
  ForStd.frames_cons p ps

section

variable {ps cut rest : List (List UInt8)} {w : World} {chunk : List UInt8}

/-- The bytes behind the cut frames. -/
theorem At.behind (h : At ps w chunk cut rest) :
    headerBytes w.parser.frame ++ (w.parser.chunks.flatten ++ (chunk ++ w.unread)) <+:
      encodeFrames rest := by
  have := h.stream
  rwa [h.arrived, h.split, encodeFrames_append, List.prefix_append_right_inj] at this

theorem Allowed.of_split (hps : Allowed ps) (h : ps = cut ++ rest) : Allowed rest :=
  fun p hp => hps p (by rw [h]; exact List.mem_append_right cut hp)

theorem length_lt_of_allowed {p : List UInt8} (hps : Allowed (p :: rest)) :
    p.length < 2 ^ 32 := by
  have := (hps p List.mem_cons_self).2
  simp only [MAX_ALLOWED_FRAME_SIZE] at this
  omega

/-- The bytes behind a header that was read. -/
theorem At.behind_header {p : List UInt8} (h : At ps w chunk cut (p :: rest))
    (hframe : w.parser.frame = p.length) (hp : 1 ≤ p.length) :
    w.parser.chunks.flatten ++ (chunk ++ w.unread) <+: p ++ encodeFrames rest := by
  have hbehind := h.behind
  rwa [headerBytes, if_neg (by omega), hframe, encodeFrames_cons, List.prefix_append_right_inj]
    at hbehind

/-! ## `getFrame` and the body -/

theorem takeChunks_pushChunk {p : FrameParser} (h : p.chunklen = p.chunks.flatten.length)
    (chunk : List UInt8) :
    takeChunks (pushChunk p chunk) =
      (p.chunks.flatten ++ chunk, { p with chunks := [], chunklen := 0 }) := by
  have hflat : (p.chunks ++ [chunk]).flatten = p.chunks.flatten ++ chunk := by simp
  have hlen : p.chunklen + chunk.length = (p.chunks ++ [chunk]).flatten.length := by
    rw [hflat, List.length_append, h]
  rw [takeChunks, pushChunk, hlen, bufferConcat_length, hflat]

/-- A complete frame is cut off. -/
theorem getFrame_spec {p : List UInt8} (h : At ps w chunk cut (p :: rest))
    (hq : Quiet w cut) (hframe : w.parser.frame = p.length) (hp : 1 ≤ p.length)
    (hchunks : w.parser.chunks.flatten = []) (hlen : p.length ≤ chunk.length) :
    Inv ps (getFrame w chunk) ∧
      weight (getFrame w chunk) ≤
        6 * w.unread.length + 4 * (w.parser.chunklen + chunk.length) := by
  have hbehind := h.behind_header hframe hp
  rw [hchunks, List.nil_append] at hbehind
  obtain ⟨c, rfl, hc⟩ := ForStd.prefix_split hbehind hlen
  have hzero : w.parser.chunklen = 0 := by simp [h.chunklen, hchunks]
  have hsplit : ps = cut ++ [p] ++ rest := by rw [h.split, List.append_assoc]; rfl
  have harrived : w.arrived = encodeFrames (cut ++ [p]) ++ (c ++ w.unread) := by
    rw [h.arrived, headerBytes, if_neg (by omega), hframe, hchunks, encodeFrames_append,
      encodeFrames_cons]
    simp [encodeFrames]
  unfold getFrame
  split
  · next heq =>
    obtain rfl : c = [] := by
      rw [hframe, List.length_append] at heq
      exact List.length_eq_zero_iff.mp (by omega)
    rw [List.append_nil]
    refine ⟨⟨cut ++ [p], rest, ⟨hsplit, h.stream, ?_, h.chunklen, h.errors⟩, ?_, ?_⟩, ?_⟩
    · simpa [setImmediate, headerBytes, hchunks] using harrived
    · exact fun hne => absurd rfl hne
    · exact .holding cut p hq.processing (by simp [setImmediate, hq.immediates]) hq.handlers
        hq.log rfl
    · simp [weight, setImmediate, hzero, hq.immediates, hq.handlers, immediateWeight]
      omega
  · have htake : (p ++ c).take w.parser.frame = p := by rw [hframe, List.take_left]
    have hdrop : (p ++ c).drop w.parser.frame = c := by rw [hframe, List.drop_left]
    rw [htake, hdrop]
    refine ⟨⟨cut ++ [p], rest, ⟨hsplit, h.stream, ?_, ?_, h.errors⟩, ?_, ?_⟩, ?_⟩
    · simpa [setImmediate, pushChunk, headerBytes, hchunks] using harrived
    · simp [setImmediate, pushChunk, hzero, hchunks]
    · exact fun hne => absurd rfl hne
    · exact .holding cut p hq.processing (by simp [setImmediate, hq.immediates]) hq.handlers
        hq.log rfl
    · simp [weight, setImmediate, pushChunk, hzero, hq.immediates, hq.handlers, immediateWeight]
      omega

/-- A chunk behind the header. -/
theorem readBody_spec {p : List UInt8} (h : At ps w chunk cut (p :: rest))
    (hq : Quiet w cut) (hframe : w.parser.frame = p.length) (hp : 1 ≤ p.length) :
    Inv ps (readBody w chunk) ∧
      weight (readBody w chunk) ≤
        6 * w.unread.length + 4 * (w.parser.chunklen + chunk.length) + 2 := by
  unfold readBody
  split
  · next hshort =>
    refine ⟨⟨cut, p :: rest, ⟨h.split, h.stream, ?_, ?_, h.errors⟩, ?_, ?_⟩, ?_⟩
    · simpa [setImmediate, pushChunk] using h.arrived
    · simp [setImmediate, pushChunk, h.chunklen]
    · exact fun _ => ⟨p, rest, rfl, hframe.symm, hshort⟩
    · exact .reading hq.processing (by simp [setImmediate, hq.immediates]) hq.handlers hq.log
    · have hne : ¬w.parser.frame = 0 := by omega
      simp [weight, setImmediate, pushChunk, hq.immediates, hq.handlers, immediateWeight, hne]
  · next hfull =>
    split
    · -- the chunks that wait are put in front
      rw [takeChunks_pushChunk h.chunklen]
      have h' : At ps { w with parser := { w.parser with chunks := [], chunklen := 0 } }
          (w.parser.chunks.flatten ++ chunk) cut (p :: rest) :=
        ⟨h.split, h.stream, by simpa using h.arrived, rfl, h.errors⟩
      have hlen : p.length ≤ (w.parser.chunks.flatten ++ chunk).length := by
        rw [List.length_append, ← h.chunklen]
        omega
      obtain ⟨hinv, hweight⟩ := getFrame_spec h' ⟨hq.processing, hq.immediates, hq.handlers, hq.log⟩
        hframe hp rfl hlen
      refine ⟨hinv, ?_⟩
      rw [List.length_append, ← h.chunklen] at hweight
      simp only at hweight ⊢
      omega
    · next hzero =>
      have hzero : w.parser.chunklen = 0 := not_not.mp hzero
      have hflat : w.parser.chunks.flatten = [] := by
        rw [← List.length_eq_zero_iff, ← h.chunklen, hzero]
      have hlen : p.length ≤ chunk.length := by omega
      obtain ⟨hinv, hweight⟩ := getFrame_spec h hq hframe hp hflat hlen
      exact ⟨hinv, by omega⟩

/-! ## The header -/

/-- A chunk with a complete header. -/
theorem readHeader_spec (hps : Allowed ps) (h : At ps w chunk cut rest) (hq : Quiet w cut)
    (hframe : w.parser.frame = 0) (hchunks : w.parser.chunks.flatten = [])
    (hlen : 4 ≤ chunk.length) :
    Inv ps (readHeader w chunk) ∧
      weight (readHeader w chunk) < 6 * w.unread.length + 4 * chunk.length := by
  have hzero : w.parser.chunklen = 0 := by simp [h.chunklen, hchunks]
  have hbehind := h.behind
  rw [headerBytes, if_pos hframe, hchunks, List.nil_append, List.nil_append] at hbehind
  cases rest with
  | nil =>
    have := hbehind.length_le
    rw [List.length_append] at this
    simp only [encodeFrames, ForStd.frames_nil, List.length_nil] at this
    omega
  | cons p rest =>
    have hallowed := hps.of_split h.split
    obtain ⟨hp, hmax⟩ := hallowed p List.mem_cons_self
    rw [encodeFrames_cons] at hbehind
    obtain ⟨c, rfl, hc⟩ := ForStd.prefix_split hbehind (by simpa using hlen)
    have hread := readUInt32LE_uint32LE (length_lt_of_allowed hallowed) c
    have hne : ¬p.length = 0 := by omega
    simp only [readHeader, hread, List.length_append, length_uint32LE]
    rw [if_neg (by omega)]
    have h' : At ps { w with parser := { w.parser with frame := p.length } } c cut (p :: rest) := by
      refine ⟨h.split, h.stream, ?_, h.chunklen, h.errors⟩
      rw [h.arrived]
      simp [headerBytes, hframe, hchunks, hne]
    split
    · -- the body starts in the same chunk
      have hdrop : (uint32LE p.length ++ c).drop 4 = c := List.drop_left' (length_uint32LE _)
      rw [hdrop]
      obtain ⟨hinv, hweight⟩ := readBody_spec h'
        ⟨hq.processing, hq.immediates, hq.handlers, hq.log⟩ rfl hp
      simp only at hweight
      exact ⟨hinv, by omega⟩
    · next hshort =>
      obtain rfl : c = [] := List.length_eq_zero_iff.mp (by omega)
      refine ⟨⟨cut, p :: rest, ⟨h'.split, h'.stream, h'.arrived, h'.chunklen, h'.errors⟩, ?_, ?_⟩, ?_⟩
      · intro _
        refine ⟨p, rest, rfl, rfl, ?_⟩
        simp only [setImmediate, hzero]
        omega
      · exact .reading hq.processing (by simp [setImmediate, hq.immediates]) hq.handlers hq.log
      · simp [weight, setImmediate, hq.immediates, hq.handlers, immediateWeight, hne, hzero]

/-- A chunk that `read` has got. -/
theorem readChunk_spec (hps : Allowed ps) (h : At ps w chunk cut rest) (he : Expecting w rest)
    (hq : Quiet w cut) :
    Inv ps (readChunk w chunk) ∧
      weight (readChunk w chunk) ≤ 6 * w.unread.length +
        4 * (w.parser.chunklen + chunk.length) + (if w.parser.frame = 0 then 0 else 1) + 1 := by
  unfold readChunk
  split
  · next hframe =>
    split
    · -- the header is not complete
      refine ⟨⟨cut, rest, ⟨h.split, h.stream, ?_, ?_, h.errors⟩, ?_, ?_⟩, ?_⟩
      · simpa [setImmediate, pushChunk] using h.arrived
      · simp [setImmediate, pushChunk, h.chunklen]
      · exact fun hne => absurd hframe hne
      · exact .reading hq.processing (by simp [setImmediate, hq.immediates]) hq.handlers hq.log
      · simp [weight, setImmediate, pushChunk, hq.immediates, hq.handlers, immediateWeight, hframe]
    · next hlen =>
      split
      · rw [takeChunks_pushChunk h.chunklen]
        have h' : At ps { w with parser := { w.parser with chunks := [], chunklen := 0 } }
            (w.parser.chunks.flatten ++ chunk) cut rest :=
          ⟨h.split, h.stream, by simpa using h.arrived, rfl, h.errors⟩
        have hlen' : 4 ≤ (w.parser.chunks.flatten ++ chunk).length := by
          rw [List.length_append, ← h.chunklen]
          omega
        obtain ⟨hinv, hweight⟩ := readHeader_spec hps h'
          ⟨hq.processing, hq.immediates, hq.handlers, hq.log⟩ hframe rfl hlen'
        rw [List.length_append, ← h.chunklen] at hweight
        change _ < 6 * w.unread.length + 4 * (w.parser.chunklen + chunk.length) at hweight
        exact ⟨hinv, Nat.le_of_lt (Nat.lt_of_lt_of_le hweight (by omega))⟩
      · next hzero =>
        have hzero : w.parser.chunklen = 0 := not_not.mp hzero
        have hflat : w.parser.chunks.flatten = [] := by
          rw [← List.length_eq_zero_iff, ← h.chunklen, hzero]
        obtain ⟨hinv, hweight⟩ := readHeader_spec hps h hq hframe hflat (by omega)
        exact ⟨hinv, by omega⟩
  · next hframe =>
    obtain ⟨p, rest', rfl, hp, -⟩ := he hframe
    obtain ⟨hinv, hweight⟩ := readBody_spec h hq hp.symm (by omega)
    exact ⟨hinv, by omega⟩

/-! ## `read` and the event loop -/

theorem read_piled {k : Nat} (hframe : w.parser.frame = 0) (hlen : 4 ≤ w.parser.chunklen)
    (hchunklen : w.parser.chunklen = w.parser.chunks.flatten.length) :
    read w k = readHeader
      { w with parser := { w.parser with processing := true, chunks := [], chunklen := 0 } }
      w.parser.chunks.flatten := by
  simp only [read, takeChunks]
  rw [if_pos ⟨hframe, hlen⟩, hchunklen, bufferConcat_length, readChunk, if_pos hframe,
    if_neg (by simp only; omega), if_neg (not_not.mpr rfl)]

theorem read_null {k : Nat} (hpiled : ¬(w.parser.frame = 0 ∧ w.parser.chunklen ≥ 4))
    (h : w.unread = []) :
    read w k = { w with parser := { w.parser with processing := false, hasData := false } } := by
  simp only [read, socketRead]
  rw [if_neg hpiled, if_pos h]

theorem read_chunk {k : Nat} (hpiled : ¬(w.parser.frame = 0 ∧ w.parser.chunklen ≥ 4))
    (h : w.unread ≠ []) :
    read w k = readChunk
      { w with parser := { w.parser with processing := true }, unread := w.unread.drop (k + 1) }
      (w.unread.take (k + 1)) := by
  simp only [read, socketRead]
  rw [if_neg hpiled, if_neg h]

/-- `read` keeps the invariant and makes progress if there is something to read. -/
theorem read_spec (hps : Allowed ps) (h : At ps w [] cut rest) (he : Expecting w rest)
    (himm : w.immediates = []) (hhandlers : w.handlers = 0) (hlog : w.log = exchange cut)
    (k : Nat) :
    Inv ps (read w k) ∧ weight (read w k) ≤ weight w ∧
      (w.unread ≠ [] → weight (read w k) < weight w) := by
  have hw : weight w = 6 * w.unread.length + 4 * w.parser.chunklen +
      (if w.parser.frame = 0 then 0 else 1) := by
    simp [weight, himm, hhandlers]
  by_cases hpiled : w.parser.frame = 0 ∧ w.parser.chunklen ≥ 4
  · -- enough data already piled up
    obtain ⟨hframe, hlen⟩ := hpiled
    rw [read_piled hframe hlen h.chunklen]
    have h' : At ps { w with parser :=
        { w.parser with processing := true, chunks := [], chunklen := 0 } }
        w.parser.chunks.flatten cut rest :=
      ⟨h.split, h.stream, by simpa using h.arrived, rfl, h.errors⟩
    have hlen' : 4 ≤ w.parser.chunks.flatten.length := by rw [← h.chunklen]; exact hlen
    obtain ⟨hinv, hweight⟩ := readHeader_spec hps h' ⟨rfl, himm, hhandlers, hlog⟩ hframe rfl hlen'
    rw [← h.chunklen] at hweight
    change _ < 6 * w.unread.length + 4 * w.parser.chunklen at hweight
    exact ⟨hinv, by omega, fun _ => by omega⟩
  · by_cases hunread : w.unread = []
    · rw [read_null hpiled hunread]
      refine ⟨⟨cut, rest, ⟨h.split, h.stream, h.arrived, h.chunklen, h.errors⟩, he, ?_⟩, ?_, ?_⟩
      · refine .idle rfl himm hhandlers hlog fun hframe => ?_
        exact Nat.not_le.mp fun hlen => hpiled ⟨hframe, hlen⟩
      · exact Nat.le_refl _
      · exact fun hne => absurd hunread hne
    · rw [read_chunk hpiled hunread]
      have hpos := List.length_pos_iff.mpr hunread
      have h' : At ps { w with
          parser := { w.parser with processing := true }, unread := w.unread.drop (k + 1) }
          (w.unread.take (k + 1)) cut rest :=
        ⟨h.split, h.stream, by simpa using h.arrived, h.chunklen, h.errors⟩
      obtain ⟨hinv, hweight⟩ := readChunk_spec hps h' he ⟨rfl, himm, hhandlers, hlog⟩
      change _ ≤ 6 * (w.unread.drop (k + 1)).length +
        4 * (w.parser.chunklen + (w.unread.take (k + 1)).length) +
        (if w.parser.frame = 0 then 0 else 1) + 1 at hweight
      rw [List.length_drop, List.length_take] at hweight
      exact ⟨hinv, by omega, fun _ => by omega⟩

/-- The event is due: the socket has data for a parser that waits for `readable`, a callback
    is left to the event loop, or a handler will call `next`. -/
def Due (w : World) : Event → Prop
  | .data _ => False
  | .readable _ => w.parser.processing = false ∧ w.unread ≠ []
  | .immediate _ => w.immediates ≠ []
  | .next _ => w.handlers ≠ 0

/-- The parser is idle: `read` has returned for want of data, and none came since. -/
def Idle (w : World) : Prop := w.parser.processing = false ∧ w.unread = []

theorem Phase.congr {w' : World} (h : Phase w cut)
    (hprocessing : w'.parser.processing = w.parser.processing)
    (hframe : w'.parser.frame = w.parser.frame) (hchunklen : w'.parser.chunklen = w.parser.chunklen)
    (himm : w'.immediates = w.immediates) (hhandlers : w'.handlers = w.handlers)
    (hlog : w'.log = w.log) : Phase w' cut := by
  cases h with
  | idle h1 h2 h3 h4 h5 =>
    refine .idle (hprocessing.trans h1) (himm.trans h2) (hhandlers.trans h3) (hlog.trans h4) ?_
    rw [hframe, hchunklen]
    exact h5
  | reading h1 h2 h3 h4 =>
    exact .reading (hprocessing.trans h1) (himm.trans h2) (hhandlers.trans h3) (hlog.trans h4)
  | holding cut' p h1 h2 h3 h4 h5 =>
    exact .holding cut' p (hprocessing.trans h1) (himm.trans h2) (hhandlers.trans h3)
      (hlog.trans h4) h5
  | handling cut' p h1 h2 h3 h4 h5 =>
    exact .handling cut' p (hprocessing.trans h1) (himm.trans h2) (hhandlers.trans h3)
      (hlog.trans h4) h5

theorem inv_data {bytes : List UInt8} (h : Inv ps w)
    (hstream : w.arrived ++ bytes <+: encodeFrames ps) :
    Inv ps { w with arrived := w.arrived ++ bytes, unread := w.unread ++ bytes } := by
  obtain ⟨cut, rest, hat, he, hphase⟩ := h
  refine ⟨cut, rest, ⟨hat.split, hstream, ?_, hat.chunklen, hat.errors⟩, he, ?_⟩
  · simp only [hat.arrived, List.append_assoc, List.nil_append]
  · exact hphase.congr rfl rfl rfl rfl rfl rfl

/-- A turn of the event loop that brings no data keeps the invariant, and makes progress if it
    was due. -/
theorem step_spec (hps : Allowed ps) (h : Inv ps w) {e : Event} (hdata : ∀ bytes, e ≠ .data bytes)
    {w' : World} (hstep : step w e = some w') :
    Inv ps w' ∧ (Due w e → weight w' < weight w) := by
  obtain ⟨cut, rest, hat, he, hphase⟩ := h
  cases e with
  | data bytes => exact absurd rfl (hdata bytes)
  | readable k =>
    simp only [step] at hstep
    split at hstep
    · next hprocessing =>
      obtain rfl := Option.some.inj hstep
      refine ⟨⟨cut, rest, ⟨hat.split, hat.stream, hat.arrived, hat.chunklen, hat.errors⟩, he, ?_⟩, ?_⟩
      · exact hphase.congr rfl rfl rfl rfl rfl rfl
      · exact fun hdue => absurd hdue.1 (by simp [hprocessing])
    · next hprocessing =>
      obtain rfl := Option.some.inj hstep
      cases hphase with
      | idle _ himm hhandlers hlog _ =>
        obtain ⟨hinv, -, hlt⟩ := read_spec (w := { w with parser :=
          { w.parser with hasData := true } }) hps
          ⟨hat.split, hat.stream, hat.arrived, hat.chunklen, hat.errors⟩ he himm hhandlers hlog k
        exact ⟨hinv, fun hdue => hlt hdue.2⟩
      | reading h1 => exact absurd h1 hprocessing
      | holding _ _ h1 => exact absurd h1 hprocessing
      | handling _ _ h1 => exact absurd h1 hprocessing
  | immediate k =>
    cases hphase with
    | idle _ himm => simp [step, himm] at hstep
    | reading _ himm hhandlers hlog =>
      simp only [step, himm, Option.some.injEq] at hstep
      subst hstep
      obtain ⟨hinv, hle, -⟩ := read_spec (w := { w with immediates := [] }) hps
        ⟨hat.split, hat.stream, hat.arrived, hat.chunklen, hat.errors⟩ he rfl hhandlers hlog k
      refine ⟨hinv, fun _ => Nat.lt_of_le_of_lt hle ?_⟩
      simp [weight, himm, immediateWeight]
    | holding cut' p hprocessing himm hhandlers hlog heq =>
      simp only [step, himm, Option.some.injEq] at hstep
      subst hstep
      refine ⟨⟨cut, rest, ⟨hat.split, hat.stream, hat.arrived, hat.chunklen, hat.errors⟩, he, ?_⟩, ?_⟩
      · exact .handling cut' p hprocessing rfl (by simp [processFrame, hhandlers])
          (by simp [processFrame, hlog]) heq
      · intro _
        simp only [weight, processFrame, himm, hhandlers, immediateWeight, List.map_cons,
          List.map_nil, List.sum_cons, List.sum_nil]
        omega
    | handling _ _ _ himm => simp [step, himm] at hstep
  | next k =>
    cases hphase with
    | idle _ _ hhandlers => simp [step, hhandlers] at hstep
    | reading _ _ hhandlers => simp [step, hhandlers] at hstep
    | holding _ _ _ _ hhandlers => simp [step, hhandlers] at hstep
    | handling cut' p hprocessing himm hhandlers hlog heq =>
      simp only [step, hhandlers, Option.some.injEq] at hstep
      subst hstep
      have hlog' : w.log ++ [.next] = exchange cut := by
        rw [hlog, heq, exchange_concat, List.append_assoc]
        rfl
      obtain ⟨hinv, hle, -⟩ := read_spec (w := { w with handlers := 0, log := w.log ++ [.next] }) hps
        ⟨hat.split, hat.stream, hat.arrived, hat.chunklen, hat.errors⟩ he himm rfl hlog' k
      refine ⟨hinv, fun _ => Nat.lt_of_le_of_lt hle ?_⟩
      simp [weight, hhandlers]

theorem arrived_getFrame (w : World) (chunk : List UInt8) :
    (getFrame w chunk).arrived = w.arrived := by
  unfold getFrame; split <;> rfl

theorem arrived_readBody (w : World) (chunk : List UInt8) :
    (readBody w chunk).arrived = w.arrived := by
  unfold readBody
  split
  · rfl
  · split <;> exact arrived_getFrame _ _

theorem arrived_readHeader (w : World) (chunk : List UInt8) :
    (readHeader w chunk).arrived = w.arrived := by
  by_cases hmax : readUInt32LE chunk > MAX_ALLOWED_FRAME_SIZE
  · simp only [readHeader, if_pos hmax]
  · simp only [readHeader, if_neg hmax]
    split
    · rw [arrived_readBody]
    · rfl

theorem arrived_readChunk (w : World) (chunk : List UInt8) :
    (readChunk w chunk).arrived = w.arrived := by
  unfold readChunk
  split
  · split
    · rfl
    · split <;> exact arrived_readHeader _ _
  · exact arrived_readBody _ _

theorem arrived_read (w : World) (k : Nat) : (read w k).arrived = w.arrived := by
  unfold read
  simp only
  split
  · exact arrived_readChunk _ _
  · unfold socketRead
    by_cases h : w.unread = []
    · simp only [h, if_true]
    · simp only [h, if_false]
      exact arrived_readChunk _ _

/-- Only data changes what has arrived. -/
theorem arrived_step_of_ne {w w' : World} {e : Event} (hdata : ∀ bytes, e ≠ .data bytes)
    (hstep : step w e = some w') : w'.arrived = w.arrived := by
  cases e with
  | data bytes => exact absurd rfl (hdata bytes)
  | readable k =>
    simp only [step] at hstep
    split at hstep <;> obtain rfl := Option.some.inj hstep
    · rfl
    · rw [arrived_read]
  | immediate k =>
    simp only [step] at hstep
    split at hstep
    · simp at hstep
    · obtain rfl := Option.some.inj hstep
      rw [arrived_read]
    · obtain rfl := Option.some.inj hstep
      rfl
  | next k =>
    simp only [step] at hstep
    split at hstep
    · simp at hstep
    · obtain rfl := Option.some.inj hstep
      rw [arrived_read]

theorem arrived_step {w w' : World} {e : Event} (hstep : step w e = some w') :
    w.arrived <+: w'.arrived := by
  cases e with
  | data bytes =>
    obtain rfl := Option.some.inj hstep
    exact List.prefix_append _ _
  | _ =>
    have harrived := arrived_step_of_ne (by simp) hstep
    exact harrived ▸ List.prefix_rfl

/-- One turn of the event loop keeps the invariant. -/
theorem inv_step (hps : Allowed ps) {e : Event} {w' : World}
    (h : w.arrived <+: encodeFrames ps → Inv ps w) (hstep : step w e = some w')
    (hstream : w'.arrived <+: encodeFrames ps) : Inv ps w' := by
  have hinv := h ((arrived_step hstep).trans hstream)
  cases e with
  | data bytes =>
    obtain rfl := Option.some.inj hstep
    exact inv_data hinv hstream
  | readable k => exact (step_spec hps hinv (fun _ => by simp) hstep).1
  | immediate k => exact (step_spec hps hinv (fun _ => by simp) hstep).1
  | next k => exact (step_spec hps hinv (fun _ => by simp) hstep).1

theorem inv_init (ps : List (List UInt8)) : Inv ps World.init :=
  ⟨[], ps, ⟨rfl, List.nil_prefix, rfl, rfl, rfl⟩, fun h => absurd rfl h,
    .idle rfl rfl rfl rfl fun _ => by decide⟩

/-- The invariant after every run. -/
theorem inv_run (hps : Allowed ps) {es : List Event} (hrun : ForStd.run step World.init es = some w)
    (hstream : w.arrived <+: encodeFrames ps) : Inv ps w :=
  ForStd.run_invariant (I := fun w => w.arrived <+: encodeFrames ps → Inv ps w)
    (fun _ _ _ h hstep => inv_step hps h hstep) (fun _ => inv_init ps) hrun hstream

/-! ## What the handler sees -/

theorem exchange_mono (h : ps = cut ++ rest) : exchange cut <+: exchange ps := by
  rw [h, exchange, exchange, List.flatMap_append]
  exact List.prefix_append _ _

/-- The handler sees the frames in order, each once, and a frame only after the `next` of the
    frame before. -/
theorem Inv.log_mono (h : Inv ps w) : w.log <+: exchange ps := by
  obtain ⟨cut, rest, hat, -, hphase⟩ := h
  cases hphase with
  | idle _ _ _ hlog => exact hlog ▸ exchange_mono hat.split
  | reading _ _ _ hlog => exact hlog ▸ exchange_mono hat.split
  | holding cut' p _ _ _ hlog heq =>
    have hsplit : ps = cut' ++ (p :: rest) := by
      rw [hat.split, heq, List.append_assoc]
      rfl
    exact hlog ▸ exchange_mono hsplit
  | handling cut' p _ _ _ hlog heq =>
    have hpre : exchange cut' ++ [.handler p] <+: exchange cut := by
      rw [heq, exchange_concat, List.prefix_append_right_inj]
      exact List.prefix_append [Entry.handler p] [Entry.next]
    exact hlog ▸ hpre.trans (exchange_mono hat.split)

/-- An idle parser has delivered the frames that are complete in what has arrived. -/
theorem Inv.log_idle (h : Inv ps w) (hidle : Idle w) :
    w.log = exchange (ForStd.complete uint32LE ps w.arrived.length) := by
  obtain ⟨cut, rest, hat, he, hphase⟩ := h
  obtain ⟨hprocessing, hunread⟩ := hidle
  cases hphase with
  | idle _ _ _ hlog hchunklen =>
    have hlen : w.arrived.length = (encodeFrames cut).length +
        ((headerBytes w.parser.frame).length + w.parser.chunklen) := by
      rw [hat.arrived, hat.chunklen, hunread]
      simp only [List.length_append, List.length_nil, Nat.add_zero]
    -- the bytes behind the frames that were cut off are not enough for the next one
    have hrest : ForStd.complete uint32LE rest
        ((headerBytes w.parser.frame).length + w.parser.chunklen) = [] := by
      refine ForStd.complete_eq_nil fun p qs hpq => ?_
      rw [List.length_append, length_uint32LE]
      by_cases hframe : w.parser.frame = 0
      · have := hchunklen hframe
        rw [headerBytes, if_pos hframe, List.length_nil]
        omega
      · obtain ⟨p', rest', hrest, hp', hlt⟩ := he hframe
        obtain ⟨rfl, -⟩ : p = p' ∧ qs = rest' := by simpa [hpq] using hrest
        rw [headerBytes, if_neg hframe, length_uint32LE]
        omega
    rw [hlog, hat.split, hlen, encodeFrames, ForStd.complete_append, hrest, List.append_nil]
  | reading h1 => rw [h1] at hprocessing; simp at hprocessing
  | holding _ _ h1 => rw [h1] at hprocessing; simp at hprocessing
  | handling _ _ h1 => rw [h1] at hprocessing; simp at hprocessing

/-- A parser that is not idle has an event due. -/
theorem Inv.exists_due (h : Inv ps w) (hidle : ¬Idle w) :
    ∃ e, Due w e ∧ (step w e).isSome = true := by
  obtain ⟨cut, rest, -, -, hphase⟩ := h
  cases hphase with
  | idle h1 =>
    have hunread : w.unread ≠ [] := fun h0 => hidle ⟨h1, h0⟩
    exact ⟨.readable 0, ⟨h1, hunread⟩, by simp [step, h1]⟩
  | reading _ himm => exact ⟨.immediate 0, by simp [Due, himm], by simp [step, himm]⟩
  | holding _ _ _ himm => exact ⟨.immediate 0, by simp [Due, himm], by simp [step, himm]⟩
  | handling _ _ _ _ hhandlers => exact ⟨.next 0, by simp [Due, hhandlers], by simp [step, hhandlers]⟩

/-- Without more data the parser becomes idle. -/
theorem Inv.exists_idle (hps : Allowed ps) (h : Inv ps w) : ∃ es w',
    (∀ e ∈ es, ∀ bytes, e ≠ .data bytes) ∧ ForStd.run step w es = some w' ∧ Idle w' ∧ Inv ps w' ∧
      w'.arrived = w.arrived := by
  -- each turn that is due makes progress
  induction hweight : weight w using Nat.strong_induction_on generalizing w with
  | _ n ih =>
    by_cases hidle : Idle w
    · exact ⟨[], w, fun e he => absurd he List.not_mem_nil, rfl, hidle, h, rfl⟩
    · obtain ⟨e, hdue, hsome⟩ := h.exists_due hidle
      obtain ⟨w₁, hstep⟩ := Option.isSome_iff_exists.mp hsome
      have hdata : ∀ bytes, e ≠ .data bytes := by
        rintro bytes rfl
        exact hdue
      obtain ⟨hinv, hlt⟩ := step_spec hps h hdata hstep
      obtain ⟨es, w', hes, hrun, hidle', hinv', harrived⟩ :=
        ih (weight w₁) (hweight ▸ hlt hdue) hinv rfl
      refine ⟨e :: es, w', ?_, ForStd.run_cons_eq_some.mpr ⟨w₁, hstep, hrun⟩, hidle', hinv', ?_⟩
      · intro e' he'
        rcases List.mem_cons.mp he' with rfl | he'
        · exact hdata
        · exact hes e' he'
      · rw [harrived, arrived_step_of_ne hdata hstep]

/-- An idle parser that has got the whole stream keeps nothing of it. -/
theorem Inv.clean (h : Inv ps w) (hidle : Idle w) (harrived : w.arrived = encodeFrames ps) :
    w.parser.frame = 0 ∧ w.parser.chunklen = 0 := by
  obtain ⟨cut, rest, hat, he, hphase⟩ := h
  obtain ⟨hprocessing, hunread⟩ := hidle
  have hrest : headerBytes w.parser.frame ++ (w.parser.chunks.flatten ++ ([] ++ w.unread)) =
      encodeFrames rest := by
    have := hat.arrived.symm.trans harrived
    rwa [hat.split, encodeFrames_append, List.append_cancel_left_eq] at this
  have hlen := congrArg List.length hrest
  simp only [List.length_append, ← hat.chunklen, hunread, List.length_nil, Nat.add_zero] at hlen
  by_cases hframe : w.parser.frame = 0
  · refine ⟨hframe, ?_⟩
    rw [headerBytes, if_pos hframe, List.length_nil, Nat.zero_add] at hlen
    cases hphase with
    | idle _ _ _ _ hchunklen =>
      have hlt := hchunklen hframe
      cases rest with
      | nil => exact hlen
      | cons p rest =>
        rw [encodeFrames_cons, List.length_append, length_uint32LE] at hlen
        omega
    | reading h1 => exact nomatch h1.symm.trans hprocessing
    | holding _ _ h1 => exact nomatch h1.symm.trans hprocessing
    | handling _ _ h1 => exact nomatch h1.symm.trans hprocessing
  · -- the frame that was begun is not complete
    obtain ⟨p, rest', rfl, hp, hlt⟩ := he hframe
    rw [encodeFrames_cons, List.length_append, List.length_append, length_uint32LE, headerBytes,
      if_neg hframe, length_uint32LE] at hlen
    omega

/-- A parser that keeps nothing reports a header that is too big. -/
theorem read_reject {n : Nat} (hframe : w.parser.frame = 0) (hchunklen : w.parser.chunklen = 0)
    (hunread : w.unread = uint32LE n) (hn : MAX_ALLOWED_FRAME_SIZE < n) (hlt : n < 2 ^ 32) :
    (read w 3).errors = w.errors ++ [n] := by
  have hread := readUInt32LE_uint32LE hlt []
  rw [List.append_nil] at hread
  rw [read_chunk (fun hpiled => by omega) (by simp [hunread, uint32LE])]
  have htake : w.unread.take (3 + 1) = uint32LE n := by
    rw [hunread]
    rfl
  rw [htake, readChunk, if_pos hframe, if_neg (by simp [hchunklen]), if_neg (by simp [hchunklen])]
  simp only [readHeader, hread, if_pos hn]

theorem rejects {n : Nat} (hidle : Idle w) (hframe : w.parser.frame = 0)
    (hchunklen : w.parser.chunklen = 0) (hn : MAX_ALLOWED_FRAME_SIZE < n) (hlt : n < 2 ^ 32) :
    ∃ w₁ w₂, step w (.data (uint32LE n)) = some w₁ ∧ step w₁ (.readable 3) = some w₂ ∧
      w₂.errors = w.errors ++ [n] := by
  obtain ⟨hprocessing, hunread⟩ := hidle
  have hdata : w.unread ++ uint32LE n = uint32LE n := by rw [hunread, List.nil_append]
  refine ⟨_, _, rfl, if_neg (by simp [hprocessing]), ?_⟩
  exact read_reject (w := { w with
    parser := { w.parser with hasData := true }
    arrived := w.arrived ++ uint32LE n
    unread := w.unread ++ uint32LE n }) hframe hchunklen hdata hn hlt

end

/-- Whatever prefix of the stream has arrived, and in whatever pieces it was read: the handler
    has seen the frames in order, each once and only after the `next` of the frame before;
    once the parser is idle, it has seen exactly the frames that are complete in the prefix,
    all of them if the whole stream has arrived; and until then there is an event due, of
    which only finitely many can follow each other. -/
theorem frameParser_delivers (ps : List (List UInt8))
    (hps : ∀ p ∈ ps, 1 ≤ p.length ∧ p.length ≤ MAX_ALLOWED_FRAME_SIZE) (es : List Event)
    (w : World) (hrun : ForStd.run step World.init es = some w)
    (hstream : w.arrived <+: encodeFrames ps) :
    w.log <+: exchange ps ∧
    (Idle w → w.log = exchange (ForStd.complete uint32LE ps w.arrived.length)) ∧
    (Idle w → w.arrived = encodeFrames ps → w.log = exchange ps) ∧
    (¬Idle w → ∃ e, Due w e ∧ (step w e).isSome = true) ∧
    (∀ e w', Due w e → step w e = some w' → weight w' < weight w) := by
  have hinv := inv_run hps hrun hstream
  refine ⟨hinv.log_mono, hinv.log_idle, fun hidle harrived => ?_, hinv.exists_due, ?_⟩
  · rw [hinv.log_idle hidle, harrived, encodeFrames, ForStd.complete_length]
  · intro e w' hdue hstep
    refine (step_spec hps hinv (fun bytes he => ?_) hstep).2 hdue
    rw [he] at hdue
    exact hdue

/-- A frame of two bytes that arrives in two pieces and is read byte by byte. -/
def exampleEvents : List Event :=
  [.data [2, 0, 0], .readable 7, .data [0, 5, 6], .immediate 0, .immediate 0, .immediate 0,
    .immediate 0, .next 0]

/-- The world after the events. -/
def exampleWorld : World where
  parser := { FrameParser.init with id := 1 }
  arrived := [2, 0, 0, 0, 5, 6]
  unread := []
  immediates := []
  handlers := 0
  log := [.handler [5, 6], .next]
  errors := []

theorem frameParser_delivers_example : exampleWorld.log = exchange [[5, 6]] :=
  (frameParser_delivers [[5, 6]] (by decide) exampleEvents exampleWorld (by decide)
    (by decide)).2.2.1 ⟨rfl, rfl⟩ (by decide)

end FrameParser

end ZoneMta
