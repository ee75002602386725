import AudioReach.SpfCircBuf.Lane

/-!
# Writing one frame

A frame write that gets past the marked chunks and the readers changes one frame of the ring, and
takes the writer to the next.  The lane is turned by one, and a reader that had nothing to read has
something to read then.  The four ways in which `_circ_buf_write_one_frame` can end are
`FrameEnds`.
-/

namespace AudioReach.SpfCircBuf

open Function (update update_idem update_of_ne update_self)
open List Option

/-! ## Buffers with the same ring -/

/-- A chunk without what is in its frames. -/
def Chunk.shape (c : Chunk) : Chunk := { c with frame := fun _ => blankFrame }

/-- Two buffers differ in the contents of their frames, in the position of the writer and in the
readers at most. -/
structure CircBuf.SameRing (b b' : CircBuf) : Prop where
  header : b'.frameHeaderSize = b.frameHeaderSize
  us : b'.circBufSizeInUs = b.circBufSizeInUs
  preferred : b'.preferredChunkSize = b.preferredChunkSize
  list : b'.chunkList = b.chunkList
  count : b'.numChunks = b.numChunks
  bytes : b'.circBufSizeBytes = b.circBufSizeBytes
  mf : b'.wr.operatingMf = b.wr.operatingMf
  container : b'.wr.containerFrameSizeInUs = b.wr.containerFrameSizeInUs
  chunk : ∀ n, (b'.chunk n).map Chunk.shape = (b.chunk n).map Chunk.shape

section SameRing

variable {b b' : CircBuf} {allow : Bool} {n : ℕ} {c d : Chunk}

lemma Chunk.of_shape (h : d.shape = c.shape) : d.size = c.size ∧ d.frameSize = c.frameSize ∧
    d.numChannels = c.numChannels ∧ d.marked = c.marked ∧ d.recreate = c.recreate ∧
      d.bytes = c.bytes ∧ (c.Usable → d.Usable) := by
  simp only [Chunk.shape, Chunk.mk.injEq] at h
  obtain ⟨hsize, hnum, hframe, hrec, hdes, -, hch, -⟩ := h
  refine ⟨hsize, hframe, hch, ?_, hrec, ?_, ?_⟩
  · rw [Chunk.marked, Chunk.marked, hrec, hdes]
  · rw [Chunk.bytes, Chunk.bytes, hnum, hframe]
  · intro hu
    exact ⟨hframe ▸ hu.frameSize, hframe ▸ hu.small, hnum ▸ hu.numFrames, hch ▸ hu.numChannels⟩

section

variable (h : b.SameRing b')
include h

lemma CircBuf.SameRing.chunk_some (hd : b'.chunk n = some d) :
    ∃ c, b.chunk n = some c ∧ d.shape = c.shape := by
  have hshape := h.chunk n
  rw [hd] at hshape
  cases hc : b.chunk n with
  | none => simp [hc] at hshape
  | some c => exact ⟨c, rfl, by simpa [hc] using hshape⟩

lemma CircBuf.SameRing.alive (hc : b.chunk n = some c) :
    ∃ d, b'.chunk n = some d ∧ d.shape = c.shape := by
  have hshape := h.chunk n
  rw [hc] at hshape
  cases hd : b'.chunk n with
  | none => simp [hd] at hshape
  | some d => exact ⟨d, rfl, by simpa [hd] using hshape⟩

lemma CircBuf.SameRing.chunkFrameSize (m : ℕ) : b'.chunkFrameSize m = b.chunkFrameSize m := by
  rw [CircBuf.chunkFrameSize, CircBuf.chunkFrameSize, h.header]

lemma CircBuf.SameRing.frames (hshape : d.shape = c.shape) :
    b'.framesIn d = b.framesIn c ∧ b'.framePositions d = b.framePositions c := by
  obtain ⟨hsize, hframe, -⟩ := Chunk.of_shape hshape
  unfold framePositions framesIn
  rw [h.chunkFrameSize, hsize, hframe]
  exact ⟨rfl, rfl⟩

lemma CircBuf.SameRing.freshChunk : b'.freshChunk = b.freshChunk := by
  unfold CircBuf.freshChunk computeChunkInfo allocateChunk
  simp only [h.mf, h.us, h.container, h.preferred, h.chunkFrameSize]

lemma CircBuf.SameRing.freshStops : b'.freshStops = b.freshStops := by
  funext n
  unfold CircBuf.freshStops frameStops
  rw [h.freshChunk]
  cases b.freshChunk with
  | none => rfl
  | some c => simp only [(h.frames rfl).2]

lemma CircBuf.SameRing.stopsOf : b'.stopsOf = b.stopsOf := by
  funext n
  unfold CircBuf.stopsOf
  cases hc : b.chunk n with
  | none =>
    have hshape := h.chunk n
    rw [hc, map_none, map_eq_none_iff] at hshape
    rw [hshape]
  | some c =>
    obtain ⟨d, hd, hshape⟩ := h.alive hc
    obtain ⟨-, hframe, hch, hmark, hrec, -⟩ := Chunk.of_shape hshape
    simp only [hd, hmark, hframe, hch, hrec, frameStops, (h.frames hshape).2]

lemma CircBuf.SameRing.bytesOf : b'.bytesOf = b.bytesOf ∧ b'.mostBytes = b.mostBytes := by
  have hbytes : b'.bytesOf = b.bytesOf := by
    funext n
    unfold CircBuf.bytesOf
    cases hc : b.chunk n with
    | none =>
      have hshape := h.chunk n
      rw [hc, map_none, map_eq_none_iff] at hshape
      rw [hshape]
    | some c =>
      obtain ⟨d, hd, hshape⟩ := h.alive hc
      rw [hd]
      exact (Chunk.of_shape hshape).2.2.2.2.2.1
  refine ⟨hbytes, ?_⟩
  funext n
  unfold mostBytes
  rw [hbytes, h.freshChunk]

lemma CircBuf.SameRing.linked (hb : b.Linked) : b'.Linked where
  nodup := h.list ▸ hb.nodup
  alive n hn := by
    rw [h.list] at hn
    obtain ⟨c, hc⟩ := hb.alive n hn
    obtain ⟨d, hd, -⟩ := h.alive hc
    exact ⟨d, hd⟩

end

/-- What a reader has to be like after a frame write. -/
structure CircBuf.ReaderOk (b : CircBuf) (allow : Bool) (rd : Client) : Prop where
  /-- It is at a frame, and has read no more of it than there is. -/
  frame : ∃ n ∈ b.chunkList, ∃ c, b.chunk n = some c ∧ rd.pos.chunkNode = some n ∧
    rd.pos.framePosition ∈ b.framePositions c ∧
      rd.pos.frameOffset ≤ (c.frame rd.pos.framePosition).actualDataLen
  word : rd.unreadBytes < wordSize
  /-- In the middle of a frame, it has something to read. -/
  midway : 0 < rd.pos.frameOffset → rd.unreadBytes ≠ 0
  count : allow = false ∨ 0 < rd.pos.frameOffset → rd.unreadBytes + 65536 ≤ wordSize

lemma CircBuf.Ready.readerOk (hb : b.Ready allow) {rd : Client} (hrd : rd ∈ b.readers) :
    b.ReaderOk allow rd :=
  ⟨hb.sound.reader rd hrd, hb.sound.words.1 rd hrd, hb.midway rd hrd, hb.counts rd hrd⟩

/-- A buffer with the same ring can still be written. -/
lemma CircBuf.SameRing.ready (h : b.SameRing b') (hb : b.Ready allow)
    (hreaders : ∀ rd ∈ b'.readers, b'.ReaderOk allow rd)
    (hlens : ∀ n d, b'.chunk n = some d → ∀ p, (d.frame p).actualDataLen ≤ 65535)
    (hwriter : ∃ x ∈ b'.chunkList, ∃ d, b'.chunk x = some d ∧ ∃ k < b'.framesIn d,
      b'.wr.pos = ⟨some x, k * b'.chunkFrameSize d.frameSize, 0⟩ ∧ (d.marked = true → k = 0)) :
    b'.Ready allow where
  sound := {
    nodup := h.list ▸ hb.sound.nodup
    count := by rw [h.count, h.list, hb.sound.count]
    alive := (h.linked hb.sound.linked).alive
    reader := fun rd hrd => (hreaders rd hrd).frame
    words := ⟨fun rd hrd => (hreaders rd hrd).word, hlens⟩ }
  writer := hwriter
  chunks := by
    intro n hn d hd
    obtain ⟨c, hc, hshape⟩ := h.chunk_some hd
    rw [h.list] at hn
    obtain ⟨-, -, -, hmark, -, -, husable⟩ := Chunk.of_shape hshape
    obtain ⟨hu, hfresh⟩ := hb.chunks n hn c hc
    refine ⟨husable hu, fun hmarked => ?_⟩
    rw [h.freshChunk]
    exact hfresh (hmark ▸ hmarked)
  size := by rw [h.bytes, h.list, h.bytesOf.1, hb.size]
  room := by
    rw [h.list, h.bytesOf.2]
    exact hb.room
  midway := fun rd hrd => (hreaders rd hrd).midway
  counts := fun rd hrd => (hreaders rd hrd).count

end SameRing

/-! ## The readers at the frame of the writer -/

section Detect

variable {b : CircBuf} {allow : Bool} {x p : ℕ} {c : Chunk} {f : Frame}

/-- The loop over the readers passes over this one. -/
def CircBuf.Skipped (b : CircBuf) (rd : Client) : Prop :=
  rd.unreadBytes = 0 ∨ rd.pos.chunkNode ≠ b.wr.pos.chunkNode ∨
    rd.pos.framePosition ≠ b.wr.pos.framePosition

instance (b : CircBuf) (rd : Client) : Decidable (b.Skipped rd) :=
  inferInstanceAs (Decidable (_ ∨ _))

lemma CircBuf.heldBy_frame (hwr : b.wr.pos = ⟨some x, p, 0⟩) (size channels : ℕ) (rd : Client) :
    (Stop.frame x p size channels).heldBy rd.place = true ↔ ¬ b.Skipped rd := by
  rw [Skipped, hwr, Stop.heldBy, Bool.and_eq_true, Bool.and_eq_true, Bool.not_eq_true',
    decide_eq_true_iff, decide_eq_true_iff]
  simp only [Client.place_node, Client.place_position, Client.place_idle, decide_eq_false_iff_not]
  tauto

lemma CircBuf.any_heldBy_frame (hwr : b.wr.pos = ⟨some x, p, 0⟩) (size channels : ℕ) :
    (b.places allow).any (Stop.frame x p size channels).heldBy = true ↔
      allow = false ∧ ∃ rd ∈ b.readers, ¬ b.Skipped rd := by
  cases allow with
  | true => simp [places]
  | false =>
    simp only [places, Bool.false_eq_true, if_false, true_and, List.any_map, List.any_eq_true,
      Function.comp_apply, heldBy_frame hwr]

lemma CircBuf.overflowLoop_cons_skipped {rd : Client} {rds rds' : List Client} {res : Result}
    {left : Bool} (h : b.Skipped rd) (hrest : b.overflowLoop allow rds = some (res, rds', left)) :
    b.overflowLoop allow (rd :: rds) = some (res, rd :: rds', left) := by
  have hcond : rd.unreadBytes = 0 ∨ rd.pos.chunkNode ≠ b.wr.pos.chunkNode ∨
      rd.pos.framePosition ≠ b.wr.pos.framePosition := h
  rw [overflowLoop, if_pos hcond, hrest]
  rfl

lemma CircBuf.overflowLoop_skipped {rds : List Client} (h : ∀ rd ∈ rds, b.Skipped rd) :
    b.overflowLoop allow rds = some (success, rds, false) := by
  induction rds with
  | nil => rfl
  | cons rd rds ih =>
    have hrest := ih fun r hr => h r (mem_cons_of_mem rd hr)
    exact overflowLoop_cons_skipped (h rd mem_cons_self) hrest

/-- A reader is, and overflow is not allowed. -/
lemma CircBuf.overflowLoop_held {rds : List Client} (hframe : b.frameAt ⟨some x, p, 0⟩ = some f)
    (hwr : b.wr.pos = ⟨some x, p, 0⟩) (h : ∃ rd ∈ rds, ¬ b.Skipped rd) :
    b.overflowLoop false rds = some (overrun, rds, true) := by
  induction rds with
  | nil =>
    obtain ⟨rd, hrd, -⟩ := h
    cases hrd
  | cons rd rds ih =>
    by_cases hskip : b.Skipped rd
    · have hrest : ∃ rd ∈ rds, ¬ b.Skipped rd := by
        obtain ⟨r, hr, hheld⟩ := h
        rcases mem_cons.mp hr with rfl | hr
        · exact absurd hskip hheld
        · exact ⟨r, hr, hheld⟩
      exact overflowLoop_cons_skipped hskip (ih hrest)
    · have hat : b.frameAt rd.pos = some f := by
        have hnode : rd.pos.chunkNode = some x ∧ rd.pos.framePosition = p := by
          unfold Skipped at hskip
          rw [hwr] at hskip
          push Not at hskip
          exact hskip.2
        rw [← hframe, frameAt, frameAt, hnode.1, hnode.2]
      have hcond : ¬ (rd.unreadBytes = 0 ∨ rd.pos.chunkNode ≠ b.wr.pos.chunkNode ∨
          rd.pos.framePosition ≠ b.wr.pos.framePosition) := hskip
      rw [overflowLoop, if_neg hcond, hat]
      rfl

/-- A reader after the loop, when overflow is allowed: it stays, or is at the start of a frame. -/
lemma CircBuf.overflowLoop_allowed (hb : b.Linked) {rds : List Client}
    (h : ∀ rd ∈ rds, b.ReaderOk true rd) :
    ∃ res rds', b.overflowLoop true rds = some (res, rds', false) ∧
      (res = success ∨ res = overrun) ∧ ∀ rd' ∈ rds', b.ReaderOk true rd' ∧
        (b.Skipped rd' ∧ rd' ∈ rds ∨ rd'.pos.frameOffset = 0) := by
  induction rds with
  | nil => exact ⟨success, [], rfl, Or.inl rfl, fun rd hrd => absurd hrd not_mem_nil⟩
  | cons rd rds ih =>
    obtain ⟨res, rds', hloop, hres, hrest⟩ := ih fun r hr => h r (mem_cons_of_mem rd hr)
    have hrest' : ∀ rd' ∈ rds', b.ReaderOk true rd' ∧
        (b.Skipped rd' ∧ rd' ∈ rd :: rds ∨ rd'.pos.frameOffset = 0) := by
      intro rd' hrd'
      obtain ⟨hok, hcase⟩ := hrest rd' hrd'
      exact ⟨hok, hcase.imp_left fun hs => ⟨hs.1, mem_cons_of_mem rd hs.2⟩⟩
    have hok := h rd mem_cons_self
    by_cases hskip : b.Skipped rd
    · refine ⟨res, rd :: rds', overflowLoop_cons_skipped hskip hloop, hres, ?_⟩
      intro rd' hrd'
      rcases mem_cons.mp hrd' with rfl | hrd'
      · exact ⟨hok, Or.inl ⟨hskip, mem_cons_self⟩⟩
      · exact hrest' rd' hrd'
    · obtain ⟨n, hn, d, hd, hnode, hframe, hoff⟩ := hok.frame
      obtain ⟨k, hk, hpos⟩ := (b.mem_framePositions d).mp hframe
      have hat : b.frameAt rd.pos = some (d.frame rd.pos.framePosition) := by
        simp [frameAt, hnode, hd]
      have hposition : rd.pos = ⟨some n, k * b.chunkFrameSize d.frameSize, rd.pos.frameOffset⟩ := by
        rw [hpos, ← hnode]
      obtain ⟨y, e, j, hadvance, hy, he, hj, -, -⟩ := advance_around (f := fun n => [n].flatMap
        fun n => (b.chunk n).elim [] b.framePositions) hb hn hd (by simp [hd, framePositions]) hk
        rd.pos.frameOffset
      rw [← hposition] at hadvance
      refine ⟨res ||| overrun, { rd with
        pos := ⟨some y, j * b.chunkFrameSize e.frameSize, 0⟩
        unreadBytes := sub32 rd.unreadBytes
          ((d.frame rd.pos.framePosition).actualDataLen - rd.pos.frameOffset) } :: rds',
        ?_, ?_, ?_⟩
      · have hcond : ¬ (rd.unreadBytes = 0 ∨ rd.pos.chunkNode ≠ b.wr.pos.chunkNode ∨
            rd.pos.framePosition ≠ b.wr.pos.framePosition) := hskip
        rw [overflowLoop, if_neg hcond, hat]
        simp only [bind_eq_bind, bind_some, Bool.not_true, Bool.false_eq_true,
          if_false, Nat.not_lt.mpr hoff, gt_iff_lt, hadvance, hloop, Option.pure_def]
      · right
        rcases hres with rfl | rfl <;> rfl
      · intro rd' hrd'
        rcases mem_cons.mp hrd' with rfl | hrd'
        · refine ⟨⟨⟨y, hy, e, he, rfl, ?_, Nat.zero_le _⟩, ?_, ?_, ?_⟩, Or.inr rfl⟩
          · exact (b.mem_framePositions e).mpr ⟨j, hj, rfl⟩
          · change sub32 _ _ < wordSize
            unfold sub32 wordSize
            omega
          · exact fun hlt => absurd hlt (Nat.lt_irrefl 0)
          · rintro (hfalse | hlt)
            · cases hfalse
            · exact absurd hlt (Nat.lt_irrefl 0)
        · exact hrest' rd' hrd'

end Detect

/-! ## One frame with new contents -/

section OneFrame

variable {b b' : CircBuf} {allow : Bool} {x p k : ℕ} {c : Chunk} {f : Frame}

lemma CircBuf.setFrame_setFrame (g : Frame) :
    (b.setFrame x c p f).setFrame x { c with frame := update c.frame p f } p g =
      b.setFrame x c p g := by
  simp only [setFrame, update_idem]

lemma CircBuf.setFrame_chunk_self : (b.setFrame x c p f).chunk x =
    some { c with frame := update c.frame p f } := update_self _ _ _

/-- The chunks when only one frame has changed. -/
structure CircBuf.OneFrame (b : CircBuf) (x p : ℕ) (b' : CircBuf) : Prop extends b.SameRing b' where
  frame : ∀ n c, b.chunk n = some c → ∃ d, b'.chunk n = some d ∧ d.shape = c.shape ∧
    ∀ q, n ≠ x ∨ q ≠ p → d.frame q = c.frame q
  small : ∀ d, b'.chunk x = some d → (d.frame p).actualDataLen ≤ 65535

lemma CircBuf.oneFrame_setFrame (hc : b.chunk x = some c) (rds : List Client)
    (hf : f.actualDataLen ≤ 65535) :
    b.OneFrame x p ({ b with readers := rds }.setFrame x c p f) where
  header := rfl
  us := rfl
  preferred := rfl
  list := rfl
  count := rfl
  bytes := rfl
  mf := rfl
  container := rfl
  chunk := by
    intro n
    by_cases hn : n = x
    · subst hn
      rw [setFrame_chunk_self, hc]
      rfl
    · simp only [setFrame, update_of_ne hn]
  frame := by
    intro n d hd
    by_cases hn : n = x
    · subst hn
      obtain rfl : c = d := Option.some.inj (hc.symm.trans hd)
      refine ⟨_, setFrame_chunk_self, rfl, fun q hq => ?_⟩
      exact update_of_ne (hq.resolve_left fun h => h rfl) _ _
    · refine ⟨d, ?_, rfl, fun _ _ => rfl⟩
      simp only [setFrame, update_of_ne hn, hd]
  small := by
    intro d hd
    rw [setFrame_chunk_self, Option.some.injEq] at hd
    rw [← hd]
    change ((update c.frame p f) p).actualDataLen ≤ 65535
    rw [update_self]
    exact hf

lemma CircBuf.OneFrame.readerOk (h : b.OneFrame x p b') {rd : Client} (hok : b.ReaderOk allow rd)
    (hat : rd.pos.chunkNode = some x → rd.pos.framePosition = p → rd.pos.frameOffset = 0) :
    b'.ReaderOk allow rd := by
  obtain ⟨n, hn, d, hd, hnode, hframe, hoff⟩ := hok.frame
  obtain ⟨e, he, hshape, hother⟩ := h.frame n d hd
  refine ⟨⟨n, h.list ▸ hn, e, he, hnode, ?_, ?_⟩, hok.word, hok.midway, hok.count⟩
  · rw [(h.frames hshape).2]
    exact hframe
  · by_cases hplace : n = x ∧ rd.pos.framePosition = p
    · rw [hat (hnode.trans (congrArg some hplace.1)) hplace.2]
      exact Nat.zero_le _
    · rw [hother _ (by tauto)]
      exact hoff

lemma CircBuf.OneFrame.lens (h : b.OneFrame x p b') (hb : b.Ready allow) {n : ℕ} {d : Chunk}
    (hd : b'.chunk n = some d) (q : ℕ) : (d.frame q).actualDataLen ≤ 65535 := by
  by_cases hplace : n = x ∧ q = p
  · obtain ⟨rfl, rfl⟩ := hplace
    exact h.small d hd
  · obtain ⟨c, hc, -⟩ := h.chunk_some hd
    obtain ⟨e, he, -, hother⟩ := h.frame n c hc
    obtain rfl : e = d := Option.some.inj (he.symm.trans hd)
    rw [hother q (by tauto)]
    exact hb.sound.words.2 n c hc q

lemma CircBuf.ReaderOk.countUnread {rd : Client} {len : ℕ} (hok : b.ReaderOk allow rd)
    (hsize : 0 < b.circBufSizeBytes ∧ b.circBufSizeBytes + 65536 ≤ wordSize)
    (hlen : len ≤ 65535) : b.ReaderOk allow (b.countUnread len rd) where
  frame := hok.frame
  word := by
    change min _ b.circBufSizeBytes < wordSize
    omega
  midway := by
    intro hoff
    have hne := hok.midway hoff
    have hcount := hok.count (Or.inr hoff)
    have hadd : add32 rd.unreadBytes len = rd.unreadBytes + len := by
      unfold add32 wordSize at *
      omega
    change min (add32 rd.unreadBytes len) b.circBufSizeBytes ≠ 0
    omega
  count := by
    intro _
    change min (add32 rd.unreadBytes len) b.circBufSizeBytes + 65536 ≤ wordSize
    omega

/-- Whether it has something to read. -/
lemma CircBuf.ReaderOk.place_countUnread {rd : Client} {len : ℕ} (hok : b.ReaderOk false rd)
    (hsize : 0 < b.circBufSizeBytes) (hlen : len ≤ 65535) :
    (b.countUnread len rd).place = if 0 < len then rd.place.used else rd.place := by
  have hcount := hok.count (Or.inl rfl)
  have hadd : add32 rd.unreadBytes len = rd.unreadBytes + len := by
    unfold add32 wordSize at *
    omega
  have hunread : (b.countUnread len rd).unreadBytes =
      min (rd.unreadBytes + len) b.circBufSizeBytes := by
    rw [← hadd]
    rfl
  have hplace : (b.countUnread len rd).place =
      ⟨rd.pos.chunkNode, rd.pos.framePosition, (b.countUnread len rd).unreadBytes = 0⟩ := rfl
  rw [hplace, hunread]
  by_cases hpos : 0 < len
  · have hne : ¬ min (rd.unreadBytes + len) b.circBufSizeBytes = 0 := by omega
    rw [if_pos hpos, decide_eq_false hne]
    rfl
  · have hiff : min (rd.unreadBytes + len) b.circBufSizeBytes = 0 ↔ rd.unreadBytes = 0 := by omega
    rw [if_neg hpos]
    simp only [hiff]
    rfl

/-- The buffer after the writer has moved on. -/
def CircBuf.moved (b : CircBuf) (pos : Position) (len : ℕ) (readers : List Client) : CircBuf :=
  { { b with wr := { b.wr with pos } }.incWriteByteCounter len with readers }

lemma CircBuf.Ready.size_pos (hb : b.Ready allow) : 0 < b.circBufSizeBytes := by
  obtain ⟨x, hx, c, hc, -⟩ := hb.writer
  have hpos := (hb.chunks x hx c hc).1.bytes_pos
  rw [← CircBuf.bytesOf_eq hc] at hpos
  rw [hb.size]
  exact hpos.trans_le (single_le_sum (by simp) _ (List.mem_map_of_mem hx))

end OneFrame

/-! ## The data of the channels -/

/-- There are data for a channel: its pointer is not NULL, or there is a value to repeat. -/
def Source.has (src : Source) (scratch : ℕ → Option (List UInt8)) (ch : ℕ) : Bool :=
  match src with
  | .data _ => (scratch ch).isSome
  | .memset _ => true

section Fill

variable {src : Source} {scratch : ℕ → Option (List UInt8)} {len : ℕ}

lemma Source.bytesFor_isSome (ch : ℕ) :
    (src.bytesFor scratch len ch).isSome = src.has scratch ch := by
  cases src <;> cases h : scratch ch <;> simp [bytesFor, has, h]

lemma fillChannels_snd (chs : List ℕ) (data : ℕ → List UInt8) :
    (fillChannels src scratch len chs data).2 = chs.all (src.has scratch) := by
  induction chs generalizing data with
  | nil => rfl
  | cons ch chs ih =>
    have hhas : (src.bytesFor scratch len ch).isSome = src.has scratch ch :=
      src.bytesFor_isSome ch
    rw [fillChannels, all_cons, ← hhas]
    cases hbytes : src.bytesFor scratch len ch with
    | none => rfl
    | some bytes =>
      exact ih _

lemma fillChannels_of_not_mem {chs : List ℕ} {ch : ℕ} (h : ch ∉ chs) (data : ℕ → List UInt8) :
    (fillChannels src scratch len chs data).1 ch = data ch := by
  induction chs generalizing data with
  | nil => rfl
  | cons d chs ih =>
    rw [mem_cons, not_or] at h
    rw [fillChannels]
    cases hbytes : src.bytesFor scratch len d with
    | none => rfl
    | some bytes =>
      refine (ih h.2 _).trans ?_
      rw [update_of_ne h.1]

lemma fillChannels_zero {n : ℕ} (hn : 0 < n) {bytes : List UInt8}
    (hbytes : src.bytesFor scratch len 0 = some bytes) (data : ℕ → List UInt8) :
    (fillChannels src scratch len (range n) data).1 0 = bytes := by
  obtain ⟨n, rfl⟩ := Nat.exists_eq_add_of_lt hn
  rw [Nat.zero_add, range_succ_eq_map, fillChannels, hbytes]
  refine (fillChannels_of_not_mem ?_ _).trans (update_self _ _ _)
  simp

end Fill

/-! ## How a frame write ends -/

/-- No frame can be come to, or the one that is come to is held. -/
def CircBuf.Blocked (b : CircBuf) (alloc : ℕ → Bool) (allow : Bool) : Prop :=
  ∀ f rest places, b.passed alloc allow = some (f :: rest, places) → places.any f.heldBy = true

/-- The bytes of the first channel that go into a frame. -/
def Source.firstBytes (src : Source) (scratch : ℕ → Option (List UInt8)) (len : ℕ) : List UInt8 :=
  (src.bytesFor scratch len 0).getD []

/-- How `_circ_buf_write_one_frame` ends for a number of bytes. -/
inductive FrameEnds (alloc : ℕ → Bool) (allow : Bool) (src : Source) (s : WriteState) (len : ℕ) :
    Option (Result × ℕ × WriteState) → Prop
  /-- There is no frame left, or no memory for one. -/
  | lost (hpass : s.buf.passed alloc allow = none) : FrameEnds alloc allow src s len none
  /-- A reader holds the frame: nothing is taken. -/
  | refused {res : Result} {b : CircBuf} (hallow : allow = false) (hres : res ≠ fail)
      (ready : b.Ready allow) (hblocked : s.buf.Blocked alloc allow)
      (hblocked' : b.Blocked alloc allow) :
      FrameEnds alloc allow src s len (some (res, 0, { s with buf := b }))
  /-- A channel has no data: the bytes are reported, and the writer stays. -/
  | unfilled {res : Result} {b : CircBuf} {f : Stop} {rest : List Stop} {places : List Place}
      (hres : res ≠ fail) (ready : b.Ready allow)
      (hpass : s.buf.passed alloc allow = some (f :: rest, places))
      (hfree : places.any f.heldBy = false)
      (hmissing : ¬ ∀ i < f.channels, src.has s.scratch i = true) (hsize : 0 < f.size) :
      FrameEnds alloc allow src s len (some (res, min len f.size, { s with buf := b }))
  /-- The frame is filled. -/
  | filled {res : Result} {b : CircBuf} {f : Stop} {rest : List Stop} {places : List Place}
      (hres : res ≠ fail) (ready : b.Ready allow) (fresh : b.freshStops = s.buf.freshStops)
      (hpass : s.buf.passed alloc allow = some (f :: rest, places))
      (hfree : places.any f.heldBy = false)
      (hhas : ∀ i < f.channels, src.has s.scratch i = true) (hsize : 0 < f.size)
      (hstops : b.stops = rest ++ [f]) (hplaces : b.places allow = places.map Place.used) :
      FrameEnds alloc allow src s len (some (res, min len f.size, { s with
        buf := b
        stored := s.stored ++ (src.firstBytes s.scratch (min len f.size)).take (min len f.size) }))

section Ends

variable {alloc : ℕ → Bool} {allow : Bool} {src : Source} {s : WriteState} {len x p k : ℕ}
  {b b₁ : CircBuf} {c : Chunk} {res : Result} {rds : List Client}

/-- The readers let the writer through to the frame. -/
lemma CircBuf.Ready.detect_through (hb : b.Ready allow) (hwr : b.wr.pos = ⟨some x, p, 0⟩)
    (hc : b.chunk x = some c) (hfree : allow = false → ∀ rd ∈ b.readers, b.Skipped rd) :
    ∃ res rds, b.detectAndHandleOverflow allow =
        some (res, { b with readers := rds }.setFrame x c p (c.frame p).cleared) ∧
      (res = success ∨ allow = true ∧ res = overrun) ∧ (allow = false → rds = b.readers) ∧
      ∀ rd ∈ rds, b.ReaderOk allow rd ∧ (rd.pos.chunkNode = some x → rd.pos.framePosition = p →
        rd.pos.frameOffset = 0) := by
  have hidle : ∀ rd ∈ b.readers, b.Skipped rd → rd.pos.chunkNode = some x →
      rd.pos.framePosition = p → rd.pos.frameOffset = 0 := by
    intro rd hrd hskip hnode hframe
    have hzero : rd.unreadBytes = 0 := by
      rw [Skipped, hwr] at hskip
      rcases hskip with hzero | hne | hne
      · exact hzero
      · exact absurd hnode hne
      · exact absurd hframe hne
    by_contra hoff
    exact hb.midway rd hrd (Nat.pos_of_ne_zero hoff) hzero
  cases allow with
  | false =>
    refine ⟨success, b.readers, ?_, Or.inl rfl, fun _ => rfl, fun rd hrd => ⟨hb.readerOk hrd, ?_⟩⟩
    · rw [detectAndHandleOverflow, overflowLoop_skipped (hfree rfl)]
      simp [hwr, hc]
    · exact hidle rd hrd (hfree rfl rd hrd)
  | true =>
    obtain ⟨res, rds, hloop, hres, hrds⟩ :=
      overflowLoop_allowed hb.sound.linked fun rd hrd => hb.readerOk hrd
    refine ⟨res, rds, ?_, hres.imp_right fun h => ⟨rfl, h⟩, fun h => absurd h Bool.noConfusion,
      fun rd hrd => ?_⟩
    · rw [detectAndHandleOverflow, hloop]
      simp [hwr, hc]
    · obtain ⟨hok, hcase⟩ := hrds rd hrd
      refine ⟨hok, fun hnode hframe => ?_⟩
      rcases hcase with ⟨hskip, hmem⟩ | hzero
      · exact hidle rd hmem hskip hnode hframe
      · exact hzero

lemma writeOneFrame_none
    (hloop : CircBuf.recreateLoop alloc allow (s.buf.chunkList.length + 1) s.buf = none) :
    writeOneFrame alloc allow src s len = none := by
  rw [writeOneFrame, hloop]
  rfl

lemma writeOneFrame_held
    (hloop : CircBuf.recreateLoop alloc false (s.buf.chunkList.length + 1) s.buf =
      some (overrun, b)) :
    writeOneFrame alloc false src s len = some (success, 0, { s with buf := b }) := by
  rw [writeOneFrame, hloop]
  rfl

lemma writeOneFrame_refused
    (hloop : CircBuf.recreateLoop alloc false (s.buf.chunkList.length + 1) s.buf =
      some (success, b)) (hwr : b.wr.pos = ⟨some x, p, 0⟩) (hc : b.chunk x = some c)
    (hch : 0 < c.numChannels) (hdetect : b.detectAndHandleOverflow false = some (overrun, b)) :
    writeOneFrame alloc false src s len = some (overrun, 0,
      { s with buf := { b with readers := b.readers.map (b.countUnread 0) } }) := by
  have hne : ¬ c.numChannels = 0 := by omega
  rw [writeOneFrame, hloop]
  simp [hwr, hc, hdetect, hne, success, overrun]

/-- No reader keeps the writer from the frame. -/
lemma writeOneFrame_through
    (hloop : CircBuf.recreateLoop alloc allow (s.buf.chunkList.length + 1) s.buf =
      some (success, b)) (hwr : b.wr.pos = ⟨some x, p, 0⟩) (hc : b.chunk x = some c)
    (hch : 0 < c.numChannels)
    (hdetect : b.detectAndHandleOverflow allow =
      some (res, { b with readers := rds }.setFrame x c p (c.frame p).cleared))
    (hres : res = success ∨ allow = true ∧ res = overrun)
    (hzero : src.has s.scratch 0 = true) {data : ℕ → List UInt8} {done : Bool}
    (hfill : fillChannels src s.scratch (min len c.frameSize) (range c.numChannels)
      (c.frame p).data = (data, done))
    (hb₁ : b₁ = { b with readers := rds }.setFrame x c p ⟨false, min len c.frameSize, data⟩) :
    writeOneFrame alloc allow src s len =
      if done then
        (b₁.advanceToNextFrame ⟨some x, p, 0⟩).map fun pos =>
          (res, min len c.frameSize, { s with
            buf := b₁.moved pos (min len c.frameSize) (rds.map (b.countUnread (min len c.frameSize)))
            stored := s.stored ++ (data 0).take (min len c.frameSize) })
      else some (res, min len c.frameSize, { s with buf := b₁ }) := by
  have hne : ¬ c.numChannels = 0 := by omega
  have hcond : (!allow && decide (res = overrun)) = false := by
    rcases hres with rfl | ⟨rfl, -⟩
    · simp [success, overrun]
    · rfl
  have hcond' : (!allow && decide (success = overrun)) = false := by simp [success, overrun]
  have hsome : (src.bytesFor s.scratch (min len c.frameSize) 0).isNone = false := by
    rw [← not_isSome, src.bytesFor_isSome, hzero]
    rfl
  have hself := CircBuf.setFrame_chunk_self (b := { b with readers := rds }) (x := x) (p := p)
    (c := c) (f := (c.frame p).cleared)
  have hwr' : ({ b with readers := rds }.setFrame x c p (c.frame p).cleared).wr.pos =
      ⟨some x, p, 0⟩ := hwr
  have hdata : (update c.frame p (c.frame p).cleared p).data = (c.frame p).data := by
    rw [update_self]
    rfl
  have hmeta : (update c.frame p (c.frame p).cleared p).hasMetadata = false := by
    rw [update_self]
    rfl
  have hwr₁ : b₁.wr.pos = ⟨some x, p, 0⟩ := by
    rw [hb₁]
    exact hwr
  rw [writeOneFrame, hloop]
  simp only [bind_eq_bind, bind_some, hcond', Bool.false_eq_true, if_false, hwr,
    gt_iff_lt, Nat.lt_irrefl, hc, hdetect, hcond, hself, hwr', hdata, hmeta, hfill, hne, hsome,
    false_or, CircBuf.setFrame_setFrame, Option.pure_def, ← hb₁, hwr₁]
  cases done with
  | false => rfl
  | true =>
    cases hadvance : b₁.advanceToNextFrame ⟨some x, p, 0⟩ with
    | none => rfl
    | some pos =>
      subst hb₁
      rfl

/-- Filling a frame turns the lane by one. -/
lemma CircBuf.OneFrame.moved (hone : b.OneFrame x p b₁) (ready : b.Ready allow)
    (hwr : b.wr.pos = ⟨some x, p, 0⟩) (hx : x ∈ b.chunkList) (hc : b.chunk x = some c)
    (hmark : c.marked = false) (hk : k < b.framesIn c)
    (hp : p = k * b.chunkFrameSize c.frameSize) (hlen : 0 < len ∧ len ≤ 65535)
    (hrds : allow = false → rds = b.readers)
    (hok : ∀ rd ∈ rds, b.ReaderOk allow rd ∧ (rd.pos.chunkNode = some x →
      rd.pos.framePosition = p → rd.pos.frameOffset = 0)) :
    ∃ pos, b₁.advanceToNextFrame ⟨some x, p, 0⟩ = some pos ∧
      (b₁.moved pos len (rds.map (b.countUnread len))).Ready allow ∧
      (b₁.moved pos len (rds.map (b.countUnread len))).freshStops = b.freshStops ∧
      (b₁.moved pos len (rds.map (b.countUnread len))).stops = b.stops.rotate 1 ∧
      (b₁.moved pos len (rds.map (b.countUnread len))).places allow =
        (b.places allow).map Place.used := by
  obtain ⟨d, hd, hshape⟩ := hone.toSameRing.alive hc
  have hmark₁ : d.marked = false := (Chunk.of_shape hshape).2.2.2.1.trans hmark
  have hk₁ : k < b₁.framesIn d := by rwa [(hone.toSameRing.frames hshape).1]
  have hx₁ : x ∈ b₁.chunkList := hone.list ▸ hx
  have hp₁ : k * b₁.chunkFrameSize d.frameSize = p := by
    rw [hone.toSameRing.chunkFrameSize, (Chunk.of_shape hshape).2.1, hp]
  have hlengths : (b₁.stopsOf x).length = b₁.framesIn d := by
    rw [stopsOf_unmarked hd hmark₁, length_frameStops]
  obtain ⟨y, e, j, hadvance, hy, he, hj, hplace, hlap⟩ := advance_around
    (hone.toSameRing.linked ready.sound.linked) hx₁ hd hlengths hk₁ 0
  rw [hp₁] at hadvance
  refine ⟨_, hadvance, ?_⟩
  obtain ⟨b₂, hb₂⟩ : ∃ b₂, b₂ = b₁.moved ⟨some y, j * b₁.chunkFrameSize e.frameSize, 0⟩ len
    (rds.map (b.countUnread len)) := ⟨_, rfl⟩
  rw [← hb₂]
  have hchunk : b₂.chunk = b₁.chunk := by rw [hb₂]; rfl
  have hlist : b₂.chunkList = b₁.chunkList := by rw [hb₂]; rfl
  have hheader : b₂.frameHeaderSize = b₁.frameHeaderSize := by rw [hb₂]; rfl
  have hpos : b₂.wr.pos = ⟨some y, j * b₂.chunkFrameSize e.frameSize, 0⟩ := by
    rw [CircBuf.chunkFrameSize, hheader, hb₂]
    rfl
  have hsame : b.SameRing b₂ := by
    rw [hb₂]
    exact ⟨hone.header, hone.us, hone.preferred, hone.list, hone.count, hone.bytes, hone.mf,
      hone.container, hone.chunk⟩
  have hone₂ : b.OneFrame x p b₂ := by
    refine ⟨hsame, ?_, ?_⟩
    · rw [hchunk]
      exact hone.frame
    · rw [hchunk]
      exact hone.small
  refine ⟨hsame.ready ready ?_ (fun n e he q => hone₂.lens ready he q) ?_, hsame.freshStops, ?_, ?_⟩
  · intro rd' hrd'
    rw [hb₂] at hrd'
    obtain ⟨rd, hrd, rfl⟩ := List.mem_map.mp hrd'
    exact hone₂.readerOk
      ((hok rd hrd).1.countUnread ⟨ready.size_pos, ready.size_le⟩ hlen.2) (hok rd hrd).2
  · refine ⟨y, hlist ▸ hy, e, hchunk ▸ he, j, ?_, hpos, fun hmarked => ?_⟩
    · rw [framesIn, CircBuf.chunkFrameSize, hheader]
      exact hj
    · rcases hplace with rfl | hzero
      · obtain rfl : d = e := Option.some.inj (hd.symm.trans he)
        rw [hmark₁] at hmarked
        cases hmarked
      · exact hzero
  · have hwr' : b.wr.pos = ⟨some x, k * b.chunkFrameSize c.frameSize, 0⟩ := by rw [hwr, hp]
    have haround : ∀ (z i : ℕ), b₂.around b₂.stopsOf z i = b.around b.stopsOf z i := by
      intro z i
      rw [hsame.stopsOf, CircBuf.around, CircBuf.around, hsame.list]
    have haround₁ : ∀ (z i : ℕ), b₁.around b₁.stopsOf z i = b.around b.stopsOf z i := by
      intro z i
      rw [hone.toSameRing.stopsOf, CircBuf.around, CircBuf.around, hone.list]
    rw [stops_eq hpos (by rw [hchunk, he]), haround, ← haround₁, hlap, haround₁, stops_eq hwr' hc]
  · cases allow with
    | true => rfl
    | false =>
      rw [hb₂]
      simp only [places, Bool.false_eq_true, if_false, moved, hrds rfl, List.map_map]
      apply map_congr_left
      intro rd hrd
      exact ((ready.readerOk hrd).place_countUnread ready.size_pos hlen.2).trans (if_pos hlen.1)

lemma CircBuf.Ready.countZero (hb : b.Ready false) :
    { b with readers := b.readers.map (b.countUnread 0) }.Ready false ∧
      { b with readers := b.readers.map (b.countUnread 0) }.passed alloc false =
        b.passed alloc false := by
  set b' : CircBuf := { b with readers := b.readers.map (b.countUnread 0) } with hb'
  have hsame : b.SameRing b' := ⟨rfl, rfl, rfl, rfl, rfl, rfl, rfl, rfl, fun _ => rfl⟩
  have hplaces : b'.places false = b.places false := by
    simp only [hb', places, Bool.false_eq_true, if_false, List.map_map]
    apply map_congr_left
    intro rd hrd
    exact ((hb.readerOk hrd).place_countUnread hb.size_pos (Nat.zero_le _)).trans (if_neg (by simp))
  constructor
  · refine hsame.ready hb ?_ hb.sound.words.2 hb.writer
    intro rd' hrd'
    obtain ⟨rd, hrd, rfl⟩ := List.mem_map.mp hrd'
    have hok := (hb.readerOk hrd).countUnread ⟨hb.size_pos, hb.size_le⟩ (Nat.zero_le 65535)
    exact ⟨hok.frame, hok.word, hok.midway, hok.count⟩
  · rw [passed, passed, hsame.freshStops, hplaces]
    rfl

/-- **One frame.**  A frame write does to the buffer what `Takes` does to its lane, or ends in one
of the other three ways. -/
theorem CircBuf.Ready.frameEnds (hb : s.buf.Ready allow) (hlen : 0 < len)
    (hzero : src.has s.scratch 0 = true) :
    FrameEnds alloc allow src s len (writeOneFrame alloc allow src s len) := by
  have hloop : s.buf.LoopEnds alloc allow
      (recreateLoop alloc allow (s.buf.chunkList.length + 1) s.buf) := hb.loopEnds
  generalize hout : recreateLoop alloc allow (s.buf.chunkList.length + 1) s.buf = out at hloop
  cases hloop with
  | lost hpass =>
    rw [writeOneFrame_none hout]
    exact .lost hpass
  | held hallow ready fresh hpass hpass' =>
    subst hallow
    rw [writeOneFrame_held hout]
    refine .refused rfl (by decide) ready ?_ ?_
    · intro f rest places hsome
      rw [hpass] at hsome
      cases hsome
    · intro f rest places hsome
      rw [hpass'] at hsome
      cases hsome
  | @through b ready fresh hpass front =>
    obtain ⟨x, c, hnode, hc, hmark⟩ := front
    obtain ⟨k, hk, hwr, hx, rest, hstops⟩ := ready.stops_frame hnode hc hmark
    have husable := (ready.chunks x hx c hc).1
    rw [hstops] at hpass
    have hheld := @any_heldBy_frame b allow _ _ hwr c.frameSize c.numChannels
    by_cases hfree : allow = false ∧ ∃ rd ∈ b.readers, ¬ b.Skipped rd
    · -- a reader is at the frame
      obtain ⟨rfl, hreader⟩ := hfree
      have hframe : b.frameAt ⟨some x, k * b.chunkFrameSize c.frameSize, 0⟩ =
          some (c.frame (k * b.chunkFrameSize c.frameSize)) := by
        simp [frameAt, hc]
      have hdetect : b.detectAndHandleOverflow false = some (overrun, b) := by
        rw [detectAndHandleOverflow, overflowLoop_held hframe hwr hreader]
        rfl
      rw [writeOneFrame_refused hout hwr hc husable.numChannels hdetect]
      obtain ⟨hready, hsame⟩ := @CircBuf.Ready.countZero alloc b ready
      refine .refused rfl (by decide) hready ?_ ?_
      · intro f rest' places hsome
        rw [hpass, Option.some.injEq, Prod.mk.injEq, List.cons.injEq] at hsome
        rw [← hsome.1.1, ← hsome.2]
        exact hheld.mpr ⟨rfl, hreader⟩
      · intro f rest' places hsome
        rw [hsame, passed, hstops, pass, Option.some.injEq, Prod.mk.injEq, List.cons.injEq] at hsome
        rw [← hsome.1.1, ← hsome.2]
        exact hheld.mpr ⟨rfl, hreader⟩
    · have hskip : allow = false → ∀ rd ∈ b.readers, b.Skipped rd := by
        intro hallow rd hrd
        by_contra hne
        exact hfree ⟨hallow, rd, hrd, hne⟩
      have hnone : (b.places allow).any (Stop.frame x (k * b.chunkFrameSize c.frameSize)
          c.frameSize c.numChannels).heldBy = false := by
        rw [← Bool.not_eq_true, hheld]
        exact hfree
      obtain ⟨res, rds, hdetect, hres, hrds, hok⟩ := ready.detect_through hwr hc hskip
      obtain ⟨data, done, hfill⟩ : ∃ data done, fillChannels src s.scratch (min len c.frameSize)
          (range c.numChannels) (c.frame (k * b.chunkFrameSize c.frameSize)).data =
            (data, done) := ⟨_, _, rfl⟩
      have hdone : done = (range c.numChannels).all (src.has s.scratch) := by
        have hall : (fillChannels src s.scratch (min len c.frameSize) (range c.numChannels)
            (c.frame (k * b.chunkFrameSize c.frameSize)).data).2 =
            (range c.numChannels).all (src.has s.scratch) := fillChannels_snd _ _
        rw [← hall, hfill]
      obtain ⟨b₁, hb₁⟩ : ∃ b₁, b₁ = { b with readers := rds }.setFrame x c
          (k * b.chunkFrameSize c.frameSize) ⟨false, min len c.frameSize, data⟩ := ⟨_, rfl⟩
      have hsmall : min len c.frameSize ≤ 65535 := (Nat.min_le_right _ _).trans husable.small
      have hone : b.OneFrame x (k * b.chunkFrameSize c.frameSize) b₁ := by
        rw [hb₁]
        exact oneFrame_setFrame hc rds hsmall
      have hreaders : ∀ rd ∈ rds, b₁.ReaderOk allow rd := fun rd hrd =>
        hone.readerOk (hok rd hrd).1 (hok rd hrd).2
      have hresult := writeOneFrame_through hout hwr hc husable.numChannels hdetect hres hzero
        hfill hb₁
      have hnotFail : res ≠ fail := by
        rcases hres with rfl | ⟨-, rfl⟩ <;> decide
      have hchunk₁ : ∃ d, b₁.chunk x = some d ∧ d.shape = c.shape := hone.toSameRing.alive hc
      obtain ⟨d, hd, hshape⟩ := hchunk₁
      have hwr₁ : b₁.wr.pos = ⟨some x, k * b₁.chunkFrameSize d.frameSize, 0⟩ := by
        rw [hone.toSameRing.chunkFrameSize, (Chunk.of_shape hshape).2.1, ← hwr, hb₁]
        rfl
      have hmark₁ : d.marked = false := (Chunk.of_shape hshape).2.2.2.1.trans hmark
      have hk₁ : k < b₁.framesIn d := by
        rw [(hone.toSameRing.frames hshape).1]
        exact hk
      have hx₁ : x ∈ b₁.chunkList := hone.list ▸ hx
      rw [hresult]
      cases done with
      | false =>
        refine .unfilled hnotFail ?_ hpass hnone ?_
          husable.frameSize
        · refine hone.toSameRing.ready ready ?_ (fun n e he q => hone.lens ready he q) ?_
          · intro rd hrd
            apply hreaders
            rw [hb₁] at hrd
            exact hrd
          · refine ⟨x, hx₁, d, hd, k, hk₁, hwr₁, fun hmarked => ?_⟩
            rw [hmark₁] at hmarked
            cases hmarked
        · intro hall
          have htrue : (range c.numChannels).all (src.has s.scratch) = true := by
            rw [List.all_eq_true]
            exact fun i hi => hall i (mem_range.mp hi)
          rw [htrue] at hdone
          cases hdone
      | true =>
        have hhas : ∀ i < c.numChannels, src.has s.scratch i = true := by
          intro i hi
          exact List.all_eq_true.mp hdone.symm i (mem_range.mpr hi)
        have hbytes : ∃ bytes, src.bytesFor s.scratch (min len c.frameSize) 0 = some bytes := by
          rw [← isSome_iff_exists, src.bytesFor_isSome, hzero]
        obtain ⟨bytes, hbytes⟩ := hbytes
        have hdata : data 0 = src.firstBytes s.scratch (min len c.frameSize) := by
          have hfirst := fillChannels_zero husable.numChannels hbytes
            (c.frame (k * b.chunkFrameSize c.frameSize)).data
          rw [hfill] at hfirst
          rw [Source.firstBytes, hbytes]
          exact hfirst
        obtain ⟨pos, hadvance, hready, hfresh, hturn, hplaces⟩ := hone.moved ready hwr hx hc hmark hk
          rfl ⟨lt_min hlen husable.frameSize, hsmall⟩ hrds hok
        rw [if_pos rfl, hadvance, map_some, hdata]
        refine .filled hnotFail hready
          (hfresh.trans fresh) hpass hnone hhas husable.frameSize ?_ hplaces
        rw [hturn, hstops, rotate_cons_succ, rotate_zero]

end Ends

end AudioReach.SpfCircBuf
