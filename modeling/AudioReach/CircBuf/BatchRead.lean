import AudioReach.CircBuf.StreamRead

/-!
# Batches of the audio dam

In batch mode a stream reader waits until a whole batch is unread and then reads it in as many
calls as it takes, each with its own output buffers.  `pending_batch_bytes` is meant to be the
part of the batch that is still to be delivered.

A run is any sequence of writes to the channels and of calls of `audio_dam_stream_read`.  The
state has one more component than the code: the bytes that were delivered to each channel
since the batch began.  The counter of the code is decremented by the fill level of the first
output buffer, so the two add up to the batch only as long as this buffer was empty before the
call and the channels agree on what they give.
-/

namespace AudioReach.AudioDam

open AudioReach.Library
open List

/-! ## Runs -/

/-- `circ_buf_write` to the buffer of a channel. -/
def Channel.write (ch : Channel) (data : List UInt8) : Channel :=
  let b := ({ ch.buf with readers := ch.rd :: ch.buf.readers }.writeUtil data).2
  { ch with buf := { b with readers := b.readers.tail }, rd := b.readers.headD ch.rd }

/-- A call of a writer or of the stream reader. -/
inductive BatchCall
  /-- A writer writes to channel `i`. -/
  | write (i : ℕ) (data : List UInt8)
  /-- `audio_dam_stream_read` with an output buffer for each requested channel. -/
  | read (outs : List OutBuf)
  deriving DecidableEq, Repr

/-- The state between calls. -/
structure BatchState where
  reader : StreamReader
  /-- Its channels, with the output buffers of the last call. -/
  channels : List Channel
  /-- What was delivered since the batch began to each channel that every call since then
  requested. -/
  delivered : List ℕ
  /-- `is_batch_sent` of the last call. -/
  isBatchSent : Bool
  deriving DecidableEq, Repr

namespace BatchState

/-- The requested batch in bytes. -/
def requestedBatch (s : BatchState) : ℕ :=
  computeBufferSizeInBytes s.reader.drv s.reader.dataBatchingUs

/-- The channels that are requested, with their output buffers. -/
def requested (s : BatchState) (outs : List OutBuf) : List Channel :=
  zipWith (fun ch out => { ch with out := out }) s.channels outs

/-- The call. -/
def outcome (s : BatchState) (outs : List OutBuf) : ReadOutcome :=
  streamRead s.reader (s.requested outs)

/-- The bytes that a call stored behind the output of each requested channel. -/
def stored (before after : List Channel) : List ℕ :=
  zipWith (fun ch ch' => ch'.out.data.length - ch.out.data.length) before after

/-- The account of the batch after a call: a call that finds no batch on its way starts it. -/
def deliveredAfter (s : BatchState) (outs : List OutBuf) : List ℕ :=
  let chs := s.requested outs
  if chs = [] then s.delivered
  else
    zipWith (· + ·) (if s.reader.pendingBatchBytes = 0 then chs.map fun _ => 0 else s.delivered)
      (stored chs (s.outcome outs).channels)

/-- One call. -/
def step (s : BatchState) : BatchCall → BatchState
  | .write i data =>
    match s.channels[i]? with
    | none => s
    | some ch => { s with channels := s.channels.set i (ch.write data), isBatchSent := false }
  | .read outs =>
    { reader := (s.outcome outs).reader
      channels := (s.outcome outs).channels ++ s.channels.drop outs.length
      delivered := s.deliveredAfter outs
      isBatchSent := (s.outcome outs).isBatchSent }

/-- What is asked of a state between calls. -/
structure BatchRight (s : BatchState) : Prop where
  pending_le : s.reader.pendingBatchBytes ≤ s.requestedBatch
  /-- While a batch is on its way, what is pending is the part that was not delivered. -/
  pending : s.reader.pendingBatchBytes ≠ 0 → s.delivered ≠ [] ∧
    ∀ n ∈ s.delivered, n + s.reader.pendingBatchBytes = s.requestedBatch
  /-- When `is_batch_sent` is set, a whole batch was delivered. -/
  sent : s.isBatchSent = true → s.delivered ≠ [] ∧ ∀ n ∈ s.delivered, n = s.requestedBatch
  /-- A call that finds no batch on its way and less than a batch unread delivers nothing. -/
  idle : ∀ outs, s.reader.pendingBatchBytes = 0 →
    (∀ ch ∈ (s.requested outs).head?, ch.rd.unreadBytes < s.requestedBatch) →
      (s.outcome outs).channels = s.requested outs

/-- The condition on a call.  If it reads a part of a batch, either nothing is taken from the
channels before one of them ends the call, or the first output buffer is empty, and all
channels give the same number of bytes, no more than are pending. -/
def StaysInBatch (s : BatchState) : BatchCall → Prop
  | .write _ _ => True
  | .read outs => ∀ ch ∈ (s.requested outs).head?, BatchDue s.reader ch →
      let request := bytesRequested s.reader ch
      NothingTakenUntilFailure s.reader.drv request (s.requested outs) ∨
        ch.out.actualDataLen = 0 ∧ ∃ n ≤ pendingBatch s.reader, ∀ ch' ∈ s.requested outs,
          ¬ RoundFails s.reader.drv request ch' ∧ bytesTaken s.reader.drv request ch' = n

end BatchState

/-! ## What a call keeps -/

/-- The reader and the writer of the channel are on the ring. -/
structure Channel.Sound (ch : Channel) : Prop where
  ready : ch.Ready
  writer : ch.buf.chunks ≠ [] → OnRing ch.buf.chunks ch.buf.wrPos

lemma handleOverflow_onRing {chunks : List (List UInt8)} {rd : ReadClient} {n : ℕ}
    (h : OnRing chunks rd.pos) : OnRing chunks (handleOverflow chunks n rd).pos := by
  unfold handleOverflow readAdvance
  dsimp only
  split
  · split
    · exact h
    · split
      · exact h
      · split
        · exact h
        · rename_i pos hshift
          unfold positionShiftForward at hshift
          split at hshift
          · cases hshift
          · split at hshift
            · cases hshift
              exact h
            · exact (shiftLoop_spec h hshift).1
  · exact h

lemma capCounter_le (size counter n : ℕ) : capCounter size counter n ≤ size := by
  unfold capCounter
  dsimp only
  split
  · exact Nat.le_refl _
  · omega

/-- A write keeps the channel sound. -/
lemma Channel.Sound.write {ch : Channel} (h : ch.Sound) (data : List UInt8) :
    (ch.write data).Sound := by
  unfold Channel.write CircBuf.writeUtil
  by_cases hnil : ch.buf.chunks = []
  · rw [if_pos hnil]
    exact ⟨⟨h.ready.onRing, h.ready.unread_le⟩, h.writer⟩
  rw [if_neg hnil]
  by_cases hbig : data.length > CircBuf.size { ch.buf with readers := ch.rd :: ch.buf.readers }
  · rw [if_pos hbig]
    exact ⟨⟨h.ready.onRing, h.ready.unread_le⟩, h.writer⟩
  rw [if_neg hbig]
  split
  · exact ⟨⟨h.ready.onRing, h.ready.unread_le⟩, h.writer⟩
  · rename_i chunks' wrPos' hloop
    obtain ⟨hsizes, hwriter, -, -⟩ :=
      dataCopyLoop_spec (h.writer hnil) (Nat.le_of_not_lt hbig) hloop
    have hreader := (handleOverflow_onRing (n := data.length) (h.ready.onRing hnil)).congr hsizes
    refine ⟨⟨fun _ => hreader, ?_⟩, fun _ => hwriter⟩
    refine Nat.le_trans (capCounter_le _ _ _) ?_
    exact Nat.le_of_eq (circBufSize_congr hsizes)

section

variable {drv : Driver} {bytesReqToRead : ℕ} {scratch : List UInt8} {ch ch' : Channel}
  {chs chs' : List Channel}

/-- What is no longer unread is behind the output. -/
structure Conserves (ch ch' : Channel) : Prop where
  ready : ch'.Ready
  buf : ch'.buf = ch.buf
  total : ch'.out.data.length + ch'.rd.unreadBytes = ch.out.data.length + ch.rd.unreadBytes

section

variable (bytesReqToRead : ℕ) (scratch : List UInt8) (hpcm : drv.isRawCompressed = false)
include hpcm

lemma readChannel_conserves (h : ch.Ready) :
    Conserves ch (readChannel drv bytesReqToRead scratch ch).2.2 := by
  obtain ⟨htakes, hready, hfails, hread, hout⟩ := readChannel_spec drv bytesReqToRead scratch h
  refine ⟨hready, htakes.buf, ?_⟩
  by_cases hok : (readChannel drv bytesReqToRead scratch ch).1 = .eok
  · have hunread := htakes.unread
    have hlength := length_nextBytes h (n := bytesTaken drv bytesReqToRead ch) (by omega)
    rw [(hread hok).stored hpcm, length_append, hlength]
    omega
  · -- samples fail only when there are none
    have hdry := hfails.mp hok
    unfold RoundFails at hdry
    rw [hpcm] at hdry
    have hzero : bytesTaken drv bytesReqToRead ch = 0 :=
      Nat.le_zero.mp (hdry.2.2 ▸ bytesTaken_le)
    rw [hout hok, htakes.still hzero]

lemma streamReadUtil_conserves (h : ∀ ch ∈ chs, ch.Ready) :
    List.Forall₂ Conserves chs (streamReadUtil drv bytesReqToRead scratch chs).2.2 := by
  induction chs generalizing scratch with
  | nil => exact .nil
  | cons ch chs ih =>
    obtain ⟨hch, hchs⟩ := forall_mem_cons.mp h
    have hround := readChannel_conserves bytesReqToRead scratch hpcm hch
    unfold streamReadUtil
    dsimp only
    split
    · exact .cons hround (ih _ hchs)
    · exact .cons hround (List.forall₂_same.mpr fun ch' hmem => ⟨hchs ch' hmem, rfl, rfl⟩)

end

lemma head_actualDataLen_lt (ch' : Channel) (hpcm : drv.isRawCompressed = false)
    (hok : (streamReadUtil drv bytesReqToRead scratch (ch :: chs)).1 = .eok) :
    ((streamReadUtil drv bytesReqToRead scratch (ch :: chs)).2.2.headD ch').out.actualDataLen <
      uint32Size := by
  unfold streamReadUtil at hok ⊢
  dsimp only at hok ⊢
  split
  · rename_i hround
    unfold readChannel at hround ⊢
    dsimp only at hround ⊢
    rw [hpcm] at hround ⊢
    split
    · rename_i hunder
      rw [if_pos hunder] at hround
      cases hround
    · exact Nat.mod_lt _ (by decide)
  · rename_i hround
    rw [if_neg hround] at hok
    exact absurd hok hround

lemma stored_eq {n : ℕ} (hconserves : List.Forall₂ Conserves chs chs')
    (hunread : List.Forall₂ (fun ch ch' => ch'.rd.unreadBytes + n = ch.rd.unreadBytes) chs chs') :
    ∀ count ∈ BatchState.stored chs chs', count = n := by
  have hstored := List.Forall₂.mp (S := fun ch ch' =>
      ch'.out.data.length - ch.out.data.length = n) (fun ch ch' hc hu => by
        have htotal := hc.total
        omega) hconserves hunread
  unfold BatchState.stored
  clear hconserves hunread
  induction hstored with
  | nil => exact fun _ hmem => absurd hmem not_mem_nil
  | cons hhead _ ih =>
    rw [zipWith_cons_cons, forall_mem_cons]
    exact ⟨hhead, ih⟩

end

namespace BatchState

variable {s : BatchState} {outs : List OutBuf}

/-- The account after a call that stored `n` bytes for each channel: if it added up to the
batch with `m + n` pending bytes, it adds up with `m`. -/
lemma account_add {base counts : List ℕ} {batch m n : ℕ} (hne : base ≠ []) (hcounts : counts ≠ [])
    (hbase : ∀ b ∈ base, b + (m + n) = batch) (hn : ∀ c ∈ counts, c = n) :
    zipWith (· + ·) base counts ≠ [] ∧ ∀ d ∈ zipWith (· + ·) base counts, d + m = batch := by
  refine ⟨fun hnil => ?_, ?_⟩
  · rcases zipWith_eq_nil_iff.mp hnil with h | h
    · exact hne h
    · exact hcounts h
  · clear hne hcounts
    induction base generalizing counts with
    | nil => exact fun _ hmem => absurd hmem not_mem_nil
    | cons b base ih =>
      cases counts with
      | nil => exact fun _ hmem => absurd hmem not_mem_nil
      | cons c counts =>
        obtain ⟨hb, hbase⟩ := forall_mem_cons.mp hbase
        obtain ⟨hc, hn⟩ := forall_mem_cons.mp hn
        rw [zipWith_cons_cons, forall_mem_cons]
        refine ⟨?_, ih hbase hn⟩
        omega

lemma outcome_idle (hbatch : s.reader.isBatchStreaming = true)
    (hpending : s.reader.pendingBatchBytes = 0)
    (hless : ∀ ch ∈ (s.requested outs).head?, ch.rd.unreadBytes < s.requestedBatch) :
    (s.outcome outs).channels = s.requested outs := by
  unfold outcome
  cases hreq : s.requested outs with
  | nil => rfl
  | cons ch chs =>
    rw [hreq] at hless
    have hnot : ¬ BatchDue s.reader ch := by
      rintro (hc | hc)
      · exact hc hpending
      · exact absurd hc (Nat.not_le.mpr (hless ch rfl))
    rw [streamRead_of_not_due hbatch hnot]

/-- What holds between the calls of a run. -/
structure BatchInv (s : BatchState) : Prop where
  pcm : s.reader.drv.isRawCompressed = false
  batchMode : s.reader.isBatchStreaming = true
  sound : ∀ ch ∈ s.channels, ch.Sound
  right : BatchRight s

lemma BatchInv.base (h : BatchInv s) {chs : List Channel} (hne : chs ≠ []) :
    let base := if s.reader.pendingBatchBytes = 0 then chs.map fun _ => 0 else s.delivered
    base ≠ [] ∧ ∀ b ∈ base, b + pendingBatch s.reader = s.requestedBatch := by
  unfold pendingBatch
  by_cases hpending : s.reader.pendingBatchBytes = 0
  · rw [if_pos hpending, if_pos hpending]
    refine ⟨fun hnil => hne (map_eq_nil_iff.mp hnil), fun b hb => ?_⟩
    obtain ⟨_, _, rfl⟩ := mem_map.mp hb
    exact Nat.zero_add _
  · rw [if_neg hpending, if_neg hpending]
    exact h.right.pending hpending

lemma BatchInv.pendingBatch_le (h : BatchInv s) : pendingBatch s.reader ≤ s.requestedBatch := by
  unfold pendingBatch
  split
  · exact Nat.le_refl _
  · exact h.right.pending_le

lemma requestedBatch_lt (hpcm : s.reader.drv.isRawCompressed = false) :
    s.requestedBatch < uint32Size := by
  unfold requestedBatch computeBufferSizeInBytes
  rw [hpcm]
  exact Nat.mod_lt _ (by decide)

lemma BatchInv.requested_sound (h : BatchInv s) (outs : List OutBuf) :
    ∀ ch ∈ s.requested outs, ch.Sound := by
  intro ch hmem
  obtain ⟨i, hi, rfl⟩ := getElem_of_mem hmem
  unfold requested at hi ⊢
  rw [length_zipWith] at hi
  rw [getElem_zipWith]
  have hsound := h.sound _ (getElem_mem (Nat.lt_of_lt_of_le hi (Nat.min_le_left _ _)))
  exact ⟨⟨hsound.ready.onRing, hsound.ready.unread_le⟩, hsound.writer⟩

lemma sound_of_conserves {chs chs' : List Channel} (h : List.Forall₂ Conserves chs chs')
    (hsound : ∀ ch ∈ chs, ch.Sound) : ∀ ch' ∈ chs', ch'.Sound := by
  induction h with
  | nil => exact fun _ hmem => absurd hmem not_mem_nil
  | cons hhead _ ih =>
    obtain ⟨hch, hchs⟩ := forall_mem_cons.mp hsound
    refine forall_mem_cons.mpr ⟨⟨hhead.ready, ?_⟩, ih hchs⟩
    rw [hhead.buf]
    exact hch.writer

/-- **A part of a batch.** The call stores the same number of bytes for each channel, and so
many fewer are pending; `is_batch_sent` is set when none are left. -/
lemma BatchInv.outcome_due (h : BatchInv s) {ch : Channel} {chs : List Channel}
    (hreq : s.requested outs = ch :: chs) (hdue : BatchDue s.reader ch)
    (hcall : StaysInBatch s (.read outs)) :
    let o := s.outcome outs
    (o.reader.drv = s.reader.drv ∧ o.reader.isBatchStreaming = s.reader.isBatchStreaming ∧
      o.reader.dataBatchingUs = s.reader.dataBatchingUs) ∧
    List.Forall₂ Conserves (ch :: chs) o.channels ∧
    ∃ n, (∀ count ∈ stored (ch :: chs) o.channels, count = n) ∧
      o.reader.pendingBatchBytes + n = pendingBatch s.reader ∧
      (o.isBatchSent = true → o.reader.pendingBatchBytes = 0) := by
  have hready : ∀ ch' ∈ ch :: chs, ch'.Ready := fun ch' hmem =>
    (h.requested_sound outs ch' (hreq ▸ hmem)).ready
  have hcond := hcall ch (by rw [hreq]; rfl) hdue
  rw [hreq] at hcond
  have hlt : pendingBatch s.reader < uint32Size :=
    Nat.lt_of_le_of_lt h.pendingBatch_le (requestedBatch_lt h.pcm)
  unfold outcome
  rw [hreq, streamRead_of_due h.batchMode hdue]
  generalize bytesRequested s.reader ch = request at hcond
  have hconserves := streamReadUtil_conserves request s.reader.scratch h.pcm hready
  obtain ⟨hiff, hall⟩ := streamReadUtil_eok s.reader.drv request s.reader.scratch hready
  have herror := streamReadUtil_error s.reader.drv request s.reader.scratch hready
  refine ⟨⟨rfl, rfl, rfl⟩, hconserves, ?_⟩
  rcases hcond with hnothing | ⟨hempty, n, hle, hn⟩
  · -- the call ends before anything is taken
    obtain ⟨ch', hmem, hfails⟩ := hnothing.exists_fails
    have hcode : (streamReadUtil s.reader.drv request s.reader.scratch (ch :: chs)).1 ≠ .eok :=
      fun hok => hiff.mp hok ch' hmem hfails
    have hstill := (herror hcode).mpr hnothing
    refine ⟨0, stored_eq hconserves (hstill.imp fun _ _ heq => by rw [heq]; rfl), ?_, ?_⟩
    · rw [if_neg hcode]
      rfl
    · intro hsent
      exact absurd (of_decide_eq_true hsent).1 hcode
  · -- all channels give `n` bytes
    have hok := hiff.mpr fun ch' hmem => (hn ch' hmem).1
    have hread := (forall₂_readBy_iff (hall hok) n).mpr fun ch' hmem => (hn ch' hmem).2
    refine ⟨n, stored_eq hconserves (hread.imp fun _ _ hby => hby.unread), ?_, ?_⟩
    · -- the length of the first output, empty before, is what was stored
      have hlength := head_actualDataLen_lt ch h.pcm hok
      obtain ⟨ch', chs', hby, -, hgot⟩ := List.forall₂_cons_left_iff.mp hread
      have hreported := hby.reported
      rw [hempty, h.pcm, Nat.zero_add] at hreported
      simp only [hok, if_true]
      rw [hgot] at hlength ⊢
      rw [headD_cons] at hlength ⊢
      have heq : ch'.out.actualDataLen = n :=
        Nat.ModEq.eq_of_lt_of_lt hreported hlength (Nat.lt_of_le_of_lt hle hlt)
      rw [heq]
      have hsub : pendingBatch s.reader + uint32Size - n =
          pendingBatch s.reader - n + uint32Size := by omega
      rw [hsub, Nat.add_mod_right, Nat.mod_eq_of_lt (by omega)]
      omega
    · intro hsent
      exact (of_decide_eq_true hsent).2

/-- A call of the stream reader keeps the invariant. -/
lemma BatchInv.read (h : BatchInv s) (hcall : StaysInBatch s (.read outs)) :
    BatchInv (s.step (.read outs)) := by
  have hdrop : ∀ ch ∈ s.channels.drop outs.length, ch.Sound := fun ch hmem =>
    h.sound ch (mem_of_mem_drop hmem)
  have hsound := h.requested_sound outs
  cases hreq : s.requested outs with
  | nil =>
    -- no channel is requested
    have hstep : s.step (.read outs) =
        { s with channels := s.channels.drop outs.length, isBatchSent := false } := by
      unfold step deliveredAfter outcome
      dsimp only
      rw [if_pos hreq, hreq]
      rfl
    rw [hstep]
    refine ⟨h.pcm, h.batchMode, hdrop, ?_⟩
    exact ⟨h.right.pending_le, h.right.pending, fun hsent => Bool.noConfusion hsent,
      fun outs' hpending hless => outcome_idle h.batchMode hpending hless⟩
  | cons ch chs =>
    have hne : s.requested outs ≠ [] := by
      rw [hreq]
      exact cons_ne_nil _ _
    have hdelivered : s.deliveredAfter outs = zipWith (· + ·)
        (if s.reader.pendingBatchBytes = 0 then (ch :: chs).map fun _ => 0 else s.delivered)
        (stored (ch :: chs) (s.outcome outs).channels) := by
      unfold deliveredAfter
      rw [if_neg hne, hreq]
    by_cases hdue : BatchDue s.reader ch
    · obtain ⟨⟨hdrv, hmode, hus⟩, hconserves, n, hcounts, hpending, hsent⟩ :=
        h.outcome_due hreq hdue hcall
      obtain ⟨hbase_ne, hbase⟩ := h.base (cons_ne_nil ch chs)
      have hstored : stored (ch :: chs) (s.outcome outs).channels ≠ [] := by
        obtain ⟨ch', chs', -, -, hchs'⟩ := List.forall₂_cons_left_iff.mp hconserves
        rw [hchs']
        exact cons_ne_nil _ _
      rw [← hpending] at hbase
      have haccount := account_add hbase_ne hstored hbase hcounts
      rw [← hdelivered] at haccount
      have hbatch : (s.step (.read outs)).requestedBatch = s.requestedBatch := by
        change computeBufferSizeInBytes (s.outcome outs).reader.drv
          (s.outcome outs).reader.dataBatchingUs = _
        rw [hdrv, hus]
        rfl
      refine ⟨hdrv ▸ h.pcm, hmode ▸ h.batchMode, ?_, ?_⟩
      · refine forall_mem_append.mpr ⟨?_, hdrop⟩
        exact sound_of_conserves hconserves (hreq ▸ hsound)
      · refine ⟨?_, fun _ => ?_, fun hset => ?_, fun outs' hpending hless => ?_⟩
        · have hle := h.pendingBatch_le
          change (s.outcome outs).reader.pendingBatchBytes ≤ _
          omega
        · rw [hbatch]
          exact haccount
        · rw [hbatch]
          refine ⟨haccount.1, fun d hd => ?_⟩
          have hd := haccount.2 d hd
          rwa [hsent hset, Nat.add_zero] at hd
        · exact outcome_idle (hmode ▸ h.batchMode) hpending hless
    · have hidle : streamRead s.reader (ch :: chs) = _ :=
        streamRead_of_not_due h.batchMode hdue
      rw [← hreq] at hidle
      have houtcome : s.outcome outs = _ := hidle
      have hpending : s.reader.pendingBatchBytes = 0 := by
        by_contra hc
        exact hdue (Or.inl hc)
      have hstep : s.step (.read outs) =
          { reader := s.reader
            channels := s.requested outs ++ s.channels.drop outs.length
            delivered := s.deliveredAfter outs
            isBatchSent := false } := by
        unfold step
        dsimp only
        rw [houtcome]
      rw [hstep]
      refine ⟨h.pcm, h.batchMode, forall_mem_append.mpr ⟨hsound, hdrop⟩, ?_⟩
      exact ⟨h.right.pending_le, fun hc => absurd hpending hc, fun hset => Bool.noConfusion hset,
        fun outs' hzero hless => outcome_idle h.batchMode hzero hless⟩

/-- A call stays in the batch when the first output buffer is empty and has space, and all
channels have the same number of unread bytes and room for the request. -/
lemma staysInBatch_of_equal (unread : ℕ) {ch : Channel}
    (hpcm : s.reader.drv.isRawCompressed = false) (hhead : (s.requested outs).head? = some ch)
    (hempty : ch.out.actualDataLen = 0) (hrequest : 0 < bytesRequested s.reader ch)
    (hunread : 0 < unread) (hequal : ∀ ch' ∈ s.requested outs, ch'.rd.unreadBytes = unread ∧
      bytesRequested s.reader ch ≤ ch'.buf.size) :
    StaysInBatch s (.read outs) := by
  intro ch₀ hch₀ _
  rw [hhead, Option.mem_some_iff] at hch₀
  subst hch₀
  refine Or.inr ⟨hempty, min (bytesRequested s.reader ch) unread, ?_, fun ch' hmem => ?_⟩
  · refine Nat.le_trans (Nat.min_le_left _ _) ?_
    unfold bytesRequested
    split
    · exact Nat.min_le_left _ _
    · exact Nat.zero_le _
  · obtain ⟨hch', hsize⟩ := hequal ch' hmem
    generalize bytesRequested s.reader ch = request at hrequest hsize
    have hasked : maxReadFrameLen s.reader.drv request ch'.out = request := by
      unfold maxReadFrameLen
      rw [hpcm, if_neg Bool.false_ne_true, if_pos (Nat.pos_iff_ne_zero.mp hrequest)]
    unfold RoundFails bytesTaken
    rw [hasked, hch', hpcm, if_neg Bool.false_ne_true, if_neg (Nat.not_lt.mpr hsize)]
    refine ⟨?_, rfl⟩
    rintro ⟨-, -, hzero⟩
    omega

lemma BatchInv.write (h : BatchInv s) (i : ℕ) (data : List UInt8) :
    BatchInv (s.step (.write i data)) := by
  unfold step
  dsimp only
  split
  · exact h
  · rename_i ch hch
    have hsound := (h.sound ch (mem_of_getElem? hch)).write data
    refine ⟨h.pcm, h.batchMode, fun ch' hmem => ?_, ?_⟩
    · rcases mem_or_eq_of_mem_set hmem with hold | rfl
      · exact h.sound ch' hold
      · exact hsound
    · exact ⟨h.right.pending_le, h.right.pending, fun hset => Bool.noConfusion hset,
        fun outs hzero hless => outcome_idle h.batchMode hzero hless⟩

lemma BatchInv.step (h : BatchInv s) (call : BatchCall) (hcall : StaysInBatch s call) :
    BatchInv (s.step call) := by
  cases call with
  | write i data => exact h.write i data
  | read outs => exact h.read hcall

end BatchState

/-- **Batches are delivered whole.** In every run of writes and reads, from any state of the
channels in which no batch is on its way: if every call that reads a part of a batch finds the
first output buffer empty and the channels giving the same number of bytes within the batch,
or takes nothing, then the pending bytes are always the part of the batch that was not
delivered, `is_batch_sent` is set when the whole batch was, and nothing is delivered as long
as less than a batch is unread. -/
theorem audioDamStreamBatchRead_whole (s : BatchState) (calls : List BatchCall)
    (hpcm : s.reader.drv.isRawCompressed = false)
    (hbatch : s.reader.isBatchStreaming = true)
    (hpending : s.reader.pendingBatchBytes = 0) (hsent : s.isBatchSent = false)
    (hsound : ∀ ch ∈ s.channels, ch.Sound)
    (hcalls : Meets BatchState.step BatchState.StaysInBatch s calls) :
    Along BatchState.step BatchState.BatchRight s calls := by
  have hinit : s.BatchInv := by
    refine ⟨hpcm, hbatch, hsound, ?_⟩
    refine ⟨?_, fun hc => absurd hpending hc, fun hset => ?_, fun outs hzero hless => ?_⟩
    · rw [hpending]
      exact Nat.zero_le _
    · rw [hsent] at hset
      cases hset
    · exact BatchState.outcome_idle hbatch hzero hless
  exact (along_of_meets (fun s call h hcall => h.step call hcall) hinit hcalls).mono
    fun _ h => h.right

/-! ## Two runs -/

/-- A reader of batches of four bytes. -/
def fourByteBatches : StreamReader :=
  { drv := pcmDriver, scratch := [], isBatchStreaming := true, dataBatchingUs := 2000,
    pendingBatchBytes := 0 }

/-- Two channels with a batch of unread bytes each. -/
def twoFullChannels : BatchState :=
  { reader := fourByteBatches
    channels := [fourByteChannel 4, fourByteChannel 4]
    delivered := []
    isBatchSent := false }

/-- An output buffer of four bytes of which the first ones are filled. -/
def filledOutBuf (data : List UInt8) : OutBuf :=
  { data := data, actualDataLen := data.length, maxDataLen := 4 }

lemma twoFullChannels_sound : ∀ ch ∈ twoFullChannels.channels, ch.Sound := by
  have hsound : (fourByteChannel 4).Sound :=
    ⟨fourByteChannel_ready (Nat.le_refl 4), fun _ => ⟨Nat.zero_lt_one, Nat.zero_le _⟩⟩
  intro ch hmem
  change ch ∈ [fourByteChannel 4, fourByteChannel 4] at hmem
  rw [mem_pair, or_self] at hmem
  rw [hmem]
  exact hsound

/-- An empty output buffer of half a batch. -/
def halfOutBuf : OutBuf := { data := [], actualDataLen := 0, maxDataLen := 2 }

/-- A batch is read in two calls, and the byte that is written then is left alone. -/
theorem audioDamStreamBatchRead_whole_two :
    Along BatchState.step BatchState.BatchRight twoFullChannels
      [.read [halfOutBuf, halfOutBuf], .read [halfOutBuf, halfOutBuf], .write 0 [7],
        .read [halfOutBuf, halfOutBuf]] := by
  refine audioDamStreamBatchRead_whole twoFullChannels _ rfl rfl rfl rfl twoFullChannels_sound
    ⟨?_, ?_, trivial, ?_, trivial⟩
  · exact BatchState.staysInBatch_of_equal 4 rfl rfl rfl (by decide) (by decide) (by decide)
  · exact BatchState.staysInBatch_of_equal 2 rfl rfl rfl (by decide) (by decide) (by decide)
  · -- one byte is unread, less than a batch
    intro ch hch hdue
    obtain rfl := Option.some.inj hch
    rcases hdue with hpending | hunread
    · exact absurd rfl hpending
    · exact absurd hunread (by decide)

/-- **Stale data count as delivered.** The output buffers hold two bytes before the call; two
more are read, and `is_batch_sent` is set for a batch of four. -/
theorem not_audioDamStreamBatchRead_whole :
    ¬ ∀ (s : BatchState) (calls : List BatchCall), s.reader.drv.isRawCompressed = false →
      s.reader.isBatchStreaming = true → s.reader.pendingBatchBytes = 0 →
      s.isBatchSent = false → (∀ ch ∈ s.channels, ch.Sound) →
        Along BatchState.step BatchState.BatchRight s calls := by
  intro hall
  have hright := (hall twoFullChannels [.read [filledOutBuf [8, 9], filledOutBuf [8, 9]]] rfl rfl
    rfl rfl twoFullChannels_sound).last
  have hcount : ∀ n ∈ [2, 2], n = 4 := (hright.sent (by decide)).2
  exact absurd (hcount 2 mem_cons_self) (by decide)

end AudioReach.AudioDam
