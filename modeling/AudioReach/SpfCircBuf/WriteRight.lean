import AudioReach.SpfCircBuf.WriteFrame

/-!
# The loop over the frames

`_circ_buf_write_data` repeats the frame write until nothing is left.  `WriteRight` is what it is
for: it ends, it has stored what it reports, and what is left could not be stored without running
over a reader.  `writeData_right_iff` says that this is so exactly if the lane of the buffer takes
all the bytes.  If it does not, the loop goes on for ever at a frame that is held, runs into a
chunk that could not be made, or reports bytes for which a new channel had no data.
-/

namespace AudioReach.SpfCircBuf

open List

/-! ## What the function is for -/

/-- The first bytes of the data of the first channel. -/
def Source.first (src : Source) (n : ℕ) : List UInt8 :=
  match src with
  | .data bufs => (bufs 0).take n
  | .memset value => replicate n value

/-- The buffer of the first channel holds the bytes that are to be written. -/
def Source.Holds (src : Source) (n : ℕ) : Prop :=
  match src with
  | .data bufs => n ≤ (bufs 0).length
  | .memset _ => True

/-- The function ends and reports what it has stored, which is all of the data unless a reader
would be overrun. -/
def WriteRight (alloc : ℕ → Bool) (allow : Bool) (src : Source) (b : CircBuf)
    (scratch : ℕ → Option (List UInt8)) (bytesToWrite : ℕ) : Prop :=
  ∃ n res left s, (∀ rounds ≥ n, writeLoop alloc allow src bytesToWrite rounds ⟨b, scratch, []⟩
      bytesToWrite success = some (res, left, s)) ∧
    s.stored = src.first (bytesToWrite - left) ∧
      (left = 0 ∨ allow = false ∧ s.buf.Blocked alloc allow)

/-- The frames that the writer has before it take the bytes. -/
def CircBuf.TakesBytes (b : CircBuf) (alloc : ℕ → Bool) (allow : Bool) (src : Source)
    (scratch : ℕ → Option (List UInt8)) (bytesToWrite : ℕ) : Prop :=
  Takes b.freshStops alloc b.stops (b.places allow) (src.has scratch) bytesToWrite

section Pieces

variable {src : Source} {scratch : ℕ → Option (List UInt8)} {m n k : ℕ}

lemma Source.length_first (h : src.Holds n) (hm : m ≤ n) : (src.first m).length = m := by
  cases src with
  | data bufs => exact length_take_of_le (hm.trans h)
  | memset value => exact length_replicate

lemma Source.length_firstBytes_take : ((src.firstBytes scratch n).take n).length ≤ n :=
  length_take_le _ _

lemma Source.has_setScratch (channels i : ℕ) :
    src.has (src.setScratch channels m scratch) i = (decide (i < channels) || src.has scratch i) := by
  cases src with
  | memset value => simp [has]
  | data bufs =>
    by_cases hi : i < channels
    · simp [has, setScratch, hi]
    · simp [has, setScratch, hi]

lemma Source.first_append {channels : ℕ} (hch : 0 < channels) :
    src.first m ++ (src.firstBytes (src.setScratch channels m scratch) k).take k =
      src.first (m + k) := by
  cases src with
  | memset value =>
    simp [first, firstBytes, bytesFor, setScratch, hch]
  | data bufs =>
    simp [first, firstBytes, bytesFor, setScratch, hch, take_add]

end Pieces

/-! ## The loop -/

section Loop

variable {alloc : ℕ → Bool} {allow : Bool} {src : Source} {total : ℕ} {s s' : WriteState}
  {left left' : ℕ} {res res' : Result}

lemma CircBuf.Ready.entry {b : CircBuf} (hb : b.Ready allow) :
    ∃ x c entry rest, b.wr.pos.chunkNode = some x ∧ b.chunk x = some c ∧ c.Usable ∧
      b.stops = entry :: rest ∧ entry.size = c.frameSize ∧ entry.channels = c.numChannels := by
  obtain ⟨x, hx, c, hc, k, hk, hwr, hfirst⟩ := hb.writer
  have hnode : b.wr.pos.chunkNode = some x := by rw [hwr]
  have husable := (hb.chunks x hx c hc).1
  cases hmark : c.marked with
  | false =>
    obtain ⟨_, _, _, _, rest, hstops⟩ := hb.stops_frame hnode hc hmark
    exact ⟨x, c, _, rest, hnode, hc, husable, hstops, rfl, rfl⟩
  | true =>
    obtain rfl := hfirst hmark
    rw [Nat.zero_mul] at hwr
    exact ⟨x, c, _, _, hnode, hc, husable, stops_marked hwr hc hmark, rfl, rfl⟩

/-- One round of the loop. -/
lemma CircBuf.Ready.writeLoop_succ (hb : s.buf.Ready allow) (hleft : 0 < left) :
    ∃ entry rest scratch out, s.buf.stops = entry :: rest ∧
      scratch = src.setScratch entry.channels (total - left) s.scratch ∧ 0 < entry.channels ∧
      0 < entry.size ∧ FrameEnds alloc allow src { s with scratch } (min left entry.size) out ∧
      ∀ rounds res, writeLoop alloc allow src total (rounds + 1) s left res =
        out.bind fun (res, len, s) =>
          if res = fail then some (res, left, s)
          else writeLoop alloc allow src total rounds s (left - len) res := by
  obtain ⟨x, c, entry, rest, hnode, hc, husable, hstops, hsize, hchannels⟩ := hb.entry
  have hpos : 0 < entry.size := by
    rw [hsize]
    exact husable.frameSize
  have hch : 0 < entry.channels := by
    rw [hchannels]
    exact husable.numChannels
  refine ⟨entry, rest, src.setScratch entry.channels (total - left) s.scratch,
    writeOneFrame alloc allow src
      { s with scratch := src.setScratch entry.channels (total - left) s.scratch }
      (min left entry.size), hstops, rfl, hch, hpos, ?_, ?_⟩
  · refine CircBuf.Ready.frameEnds
      hb (lt_min hleft hpos) ?_
    rw [Source.has_setScratch, decide_eq_true hch, Bool.true_or]
  · intro rounds res
    rw [writeLoop, if_neg (Nat.pos_iff_ne_zero.mp hleft), hnode]
    simp only [Option.bind_eq_bind, Option.bind_some, hc, hsize, hchannels]

lemma CircBuf.Ready.writeLoop_blocked (hb : s.buf.Ready allow) (hleft : 0 < left)
    (hblocked : s.buf.Blocked alloc allow) (rounds : ℕ) :
    writeLoop alloc allow src total rounds s left res = none := by
  induction rounds generalizing s res with
  | zero => rfl
  | succ rounds ih =>
    obtain ⟨entry, rest, scratch, out, -, -, -, -, hends, heq⟩ :=
      @CircBuf.Ready.writeLoop_succ alloc allow src total s left hb hleft
    rw [heq]
    cases hends with
    | lost hpass => rfl
    | @refused res₁ b hallow hres ready hbefore hafter =>
      change (if res₁ = fail then _ else _) = none
      rw [if_neg hres]
      exact ih ready hafter
    | unfilled hres ready hpass hfree hmissing hsize =>
      exact absurd (hblocked _ _ _ hpass) (by simp [hfree])
    | filled hres ready fresh hpass hfree hhas hsize hstops hplaces =>
      exact absurd (hblocked _ _ _ hpass) (by simp [hfree])

/-- No more is stored than is reported. -/
lemma CircBuf.Ready.writeLoop_stored (hb : s.buf.Ready allow) {rounds : ℕ}
    (h : writeLoop alloc allow src total rounds s left res = some (res', left', s')) :
    s'.stored.length + left' ≤ s.stored.length + left := by
  induction rounds generalizing s left res with
  | zero => cases h
  | succ rounds ih =>
    rcases Nat.eq_zero_or_pos left with rfl | hleft
    · obtain ⟨-, rfl, rfl⟩ := h
      exact le_rfl
    · obtain ⟨entry, rest, scratch, out, -, -, -, -, hends, heq⟩ :=
        @CircBuf.Ready.writeLoop_succ alloc allow src total s left hb hleft
      rw [heq] at h
      cases hends with
      | lost hpass => cases h
      | @refused res₁ b hallow hres ready hbefore hafter =>
        change (if res₁ = fail then _ else _) = _ at h
        rw [if_neg hres] at h
        exact ih (s := { s with buf := b, scratch }) ready h
      | @unfilled res₁ b f rest places hres ready hpass hfree hmissing hsize =>
        change (if res₁ = fail then _ else _) = _ at h
        rw [if_neg hres] at h
        have hle := ih ready h
        exact hle.trans (Nat.add_le_add_left (Nat.sub_le _ _) _)
      | @filled res₁ b f rest places hres ready fresh hpass hfree hhas hsize hstops hplaces =>
        change (if res₁ = fail then _ else _) = _ at h
        rw [if_neg hres] at h
        refine (ih ready h).trans ?_
        rw [length_append]
        have hpiece := @Source.length_firstBytes_take src scratch (min (min left entry.size) f.size)
        dsimp only at hpiece ⊢
        omega

/-- **Enough room.**  A lane that takes the bytes is filled with them. -/
lemma Takes.writeLoop {fresh : ℕ → List Stop} {stops : List Stop} {places : List Place}
    {buffers : ℕ → Bool} (h : Takes fresh alloc stops places buffers left) :
    ∀ {s : WriteState} {m : ℕ} {res : Result}, s.buf.Ready allow → s.buf.freshStops = fresh →
      s.buf.stops = stops → s.buf.places allow = places → src.has s.scratch = buffers →
      m + left = total → s.stored = src.first m →
      ∃ n res' s', (∀ rounds ≥ n, SpfCircBuf.writeLoop alloc allow src total rounds s left res =
        some (res', 0, s')) ∧ s'.stored = src.first total := by
  induction h with
  | done =>
    intro s m res hb _ _ _ _ htotal hstored
    refine ⟨1, res, s, fun rounds hrounds => ?_, ?_⟩
    · obtain ⟨rounds, rfl⟩ := Nat.exists_eq_add_of_le' hrounds
      rw [SpfCircBuf.writeLoop, if_pos rfl]
    · rw [hstored, ← htotal, Nat.add_zero]
  | @frame entry stops places buffers left f rest places' hleft hpass hfree hbuffers hrest ih =>
    intro s m res hb hfresh hstops hplaces hhas htotal hstored
    obtain ⟨entry₀, rest₀, scratch, out, hstops₀, hscratch, hch, hpos, hends, heq⟩ :=
      @CircBuf.Ready.writeLoop_succ alloc allow src total s left hb hleft
    rw [hstops, List.cons.injEq] at hstops₀
    obtain ⟨rfl, rfl⟩ := hstops₀
    have hpassed : s.buf.passed alloc allow = some (f :: rest, places') := by
      rw [CircBuf.passed, hfresh, hstops, hplaces, hpass]
    have hscratchHas : ∀ i, src.has scratch i = (decide (i < entry.channels) || buffers i) := by
      intro i
      rw [hscratch, Source.has_setScratch, hhas]
    cases hends with
    | lost hnone =>
      have hsome : (none : Option (List Stop × List Place)) = some (f :: rest, places') :=
        hnone.symm.trans hpassed
      cases hsome
    | refused hallow hres ready hbefore hafter =>
      exact absurd (hbefore _ _ _ hpassed) (by simp [hfree])
    | @unfilled res₁ b g rest₁ places₁ hres ready hpass₁ hfree₁ hmissing hsize =>
      have hsame : some (g :: rest₁, places₁) = some (f :: rest, places') :=
        hpass₁.symm.trans hpassed
      obtain ⟨⟨rfl, -⟩, -⟩ := hsame
      refine absurd (fun i hi => ?_) hmissing
      rw [hscratchHas, Bool.or_eq_true, decide_eq_true_iff]
      exact hbuffers i hi
    | @filled res₁ b g rest₁ places₁ hres ready fresh hpass₁ hfree₁ hhas₁ hsize hstops₁ hplaces₁ =>
      have hsame : some (g :: rest₁, places₁) = some (f :: rest, places') :=
        hpass₁.symm.trans hpassed
      rw [Option.some.injEq, Prod.mk.injEq, List.cons.injEq] at hsame
      obtain ⟨⟨rfl, rfl⟩, rfl⟩ := hsame
      set k := min (min left entry.size) g.size with hk
      have hm : total - left = m := by omega
      obtain ⟨n, res', s', hrun, hstored'⟩ := @ih
        ⟨b, scratch, s.stored ++ (src.firstBytes scratch k).take k⟩ (m + k) res₁
        ready (fresh.trans hfresh) hstops₁ hplaces₁ (funext hscratchHas) (by omega) (by
          rw [hstored, hscratch, hm]
          exact Source.first_append hch)
      refine ⟨n + 1, res', s', fun rounds hrounds => ?_, hstored'⟩
      obtain ⟨r, rfl⟩ := Nat.exists_eq_add_of_le' hrounds
      rw [← Nat.add_assoc, heq]
      change (if res₁ = fail then _ else _) = _
      rw [if_neg hres]
      exact hrun (r + n) (Nat.le_add_left _ _)

/-- **Not enough room.**  If the loop has stored what it reports, the lane took the bytes. -/
lemma CircBuf.Ready.takes_of_writeLoop (hb : s.buf.Ready allow) {m : ℕ} (htotal : m + left = total)
    (hholds : src.Holds total) (hstored : s.stored = src.first m) {n : ℕ}
    (hrun : ∀ rounds ≥ n, writeLoop alloc allow src total rounds s left res =
      some (res', left', s')) (hright : s'.stored = src.first (total - left')) :
    Takes s.buf.freshStops alloc s.buf.stops (s.buf.places allow) (src.has s.scratch) left := by
  induction left using Nat.strong_induction_on generalizing s m res n with
  | _ left ih =>
    rcases Nat.eq_zero_or_pos left with rfl | hleft
    · exact .done
    · obtain ⟨entry, rest, scratch, out, hstops, hscratch, hch, hpos, hends, heq⟩ :=
        @CircBuf.Ready.writeLoop_succ alloc allow src total s left hb hleft
      have hend := hrun (n + 1) (Nat.le_succ n)
      rw [heq] at hend
      have hscratchHas : ∀ i, src.has scratch i =
          (decide (i < entry.channels) || src.has s.scratch i) := by
        intro i
        rw [hscratch, Source.has_setScratch]
      cases hends with
      | lost hnone => cases hend
      | @refused res₁ b hallow hres ready hbefore hafter =>
        change (if res₁ = fail then _ else _) = _ at hend
        rw [if_neg hres] at hend
        have hnever : SpfCircBuf.writeLoop alloc allow src total n { s with buf := b, scratch }
            left res₁ = none :=
          CircBuf.Ready.writeLoop_blocked ready hleft hafter n
        cases hnever.symm.trans hend
      | @unfilled res₁ b f rest₁ places₁ hres ready hpass hfree hmissing hsize =>
        change (if res₁ = fail then _ else _) = _ at hend
        rw [if_neg hres] at hend
        have hless := CircBuf.Ready.writeLoop_stored ready hend
        have hm : s.stored.length = m := by
          rw [hstored]
          exact Source.length_first hholds (by omega)
        have hk : 0 < min (min left entry.size) f.size := lt_min (lt_min hleft hpos) hsize
        have hlen : s'.stored.length = total - left' := by
          rw [hright]
          exact Source.length_first hholds (Nat.sub_le _ _)
        dsimp only at hless
        omega
      | @filled res₁ b f rest₁ places₁ hres ready fresh hpass hfree hhas hsize hstops₁ hplaces₁ =>
        have hk : 0 < min (min left entry.size) f.size := lt_min (lt_min hleft hpos) hsize
        have hm : total - left = m := by omega
        have hnext := @ih (left - min (min left entry.size) f.size) (by omega)
          ⟨b, scratch, s.stored ++ (src.firstBytes scratch
            (min (min left entry.size) f.size)).take (min (min left entry.size) f.size)⟩ res₁
          ready (m + min (min left entry.size) f.size)
          (show m + min (min left entry.size) f.size +
            (left - min (min left entry.size) f.size) = total by omega) (by
            rw [hstored, hscratch, hm]
            exact Source.first_append hch) n (by
            intro rounds hrounds
            have hround := hrun (rounds + 1) (by omega)
            rw [heq] at hround
            change (if res₁ = fail then _ else _) = _ at hround
            rwa [if_neg hres] at hround)
        rw [fresh, hstops₁, hplaces₁, funext hscratchHas] at hnext
        rw [hstops]
        refine .frame hleft ?_ hfree ?_ hnext
        · rw [← hstops]
          exact hpass
        · intro i hi
          have hi' := hhas i hi
          rwa [hscratchHas, Bool.or_eq_true, decide_eq_true_iff] at hi'

end Loop

/-- **Writing data.**  The function ends, and reports what it has stored, exactly if the frames
that the writer has before it take all the bytes: before that, no frame may be held by a reader
when overflow is not allowed, there has to be memory for each chunk that is recreated, not all
chunks may be destroyed, and no recreated chunk may have a channel without data. -/
theorem writeData_right_iff {alloc : ℕ → Bool} {allow : Bool} {src : Source} {b : CircBuf}
    {scratch : ℕ → Option (List UInt8)} {bytesToWrite : ℕ} (hb : b.Ready allow)
    (hholds : src.Holds bytesToWrite) :
    WriteRight alloc allow src b scratch bytesToWrite ↔
      b.TakesBytes alloc allow src scratch bytesToWrite := by
  have hnone : ([] : List UInt8) = src.first 0 := by cases src <;> rfl
  constructor
  · rintro ⟨n, res, left, s, hrun, hstored, -⟩
    exact CircBuf.Ready.takes_of_writeLoop (s := ⟨b, scratch, []⟩) hb (Nat.zero_add _) hholds hnone
      hrun hstored
  · intro htakes
    obtain ⟨n, res, s, hrun, hstored⟩ := @Takes.writeLoop alloc allow src bytesToWrite
      bytesToWrite _ _ _ _ htakes ⟨b, scratch, []⟩ 0 success hb rfl rfl rfl rfl
      (Nat.zero_add _) hnone
    exact ⟨n, res, 0, s, hrun, hstored, Or.inl rfl⟩

/-! ## A full buffer -/

/-- One chunk of two frames that are full.  The reader has read nothing and is where the writer
is. -/
def fullBuf : CircBuf where
  frameHeaderSize := 44
  circBufSizeInUs := 500
  circBufSizeBytes := 8
  preferredChunkSize := 112
  numChunks := 1
  chunkList := [0]
  chunk n := if n = 0 then some (pairChunk false 4 4) else none
  wr := ⟨0, 0, ⟨some 0, 0, 0⟩, 0, some ⟨16, 8000, 1⟩, 250⟩
  writeByteCounter := 8
  readers := [⟨0, 0, ⟨some 0, 0, 0⟩, 8, none, 0⟩]

lemma fullBuf_ready (allow : Bool) : fullBuf.Ready allow where
  sound := {
    nodup := by decide
    count := rfl
    alive := by
      intro n hn
      obtain rfl := mem_singleton.mp hn
      exact ⟨_, rfl⟩
    reader := by
      intro rd hrd
      obtain rfl := mem_singleton.mp hrd
      exact ⟨0, by decide, pairChunk false 4 4, rfl, rfl, by decide, Nat.zero_le _⟩
    words := by
      refine ⟨?_, ?_⟩
      · intro rd hrd
        obtain rfl := mem_singleton.mp hrd
        decide
      · intro n c hc p
        by_cases hzero : n = 0
        · obtain rfl : pairChunk false 4 4 = c := by simpa [fullBuf, hzero] using hc
          dsimp only [pairChunk]
          split <;> decide
        · simp [fullBuf, hzero] at hc }
  writer := ⟨0, by decide, pairChunk false 4 4, rfl, 0, by decide, rfl, fun _ => rfl⟩
  chunks := by
    intro n hn c hc
    obtain rfl := mem_singleton.mp hn
    obtain rfl : pairChunk false 4 4 = c := Option.some.inj hc
    exact ⟨⟨by decide, by decide, by decide, by decide⟩, fun h => absurd h (by decide)⟩
  size := by decide
  room := by decide +kernel
  midway := by
    intro rd hrd hoff
    obtain rfl := mem_singleton.mp hrd
    exact absurd hoff (Nat.lt_irrefl 0)
  counts := by
    intro rd hrd _
    obtain rfl := mem_singleton.mp hrd
    decide

lemma fullBuf_stops : fullBuf.stops = [.frame 0 0 4 1, .frame 0 56 4 1] := by decide

theorem writeData_right_iff_fullBuf :
    WriteRight (fun _ => true) true (.memset 0) fullBuf (fun _ => none) 4 := by
  have hholds : (Source.memset 0).Holds 4 := trivial
  refine (writeData_right_iff (fullBuf_ready true) hholds).mpr ?_
  exact .frame (by decide) rfl rfl (fun i hi => Or.inl hi) .done

/-- **A write that never ends.**  With overflow forbidden the full buffer takes no byte, and the
loop asks again and again. -/
theorem not_writeData_right : ¬ ∀ (alloc : ℕ → Bool) (allow : Bool) (src : Source) (b : CircBuf)
      (scratch : ℕ → Option (List UInt8)) (bytesToWrite : ℕ), b.Ready allow →
        src.Holds bytesToWrite → WriteRight alloc allow src b scratch bytesToWrite := by
  intro h
  obtain ⟨n, res, left, s, hrun, -⟩ := h (fun _ => true) false (.memset 0) fullBuf (fun _ => none) 4
    (fullBuf_ready false) trivial
  have hblocked : fullBuf.Blocked (fun _ => true) false := by
    intro f rest places hsome
    rw [CircBuf.passed, fullBuf_stops, pass, Option.some.injEq, Prod.mk.injEq,
      List.cons.injEq] at hsome
    rw [← hsome.1.1, ← hsome.2]
    decide
  have hnever : writeLoop (fun _ => true) false (.memset 0) 4 n ⟨fullBuf, fun _ => none, []⟩ 4
      success = none :=
    CircBuf.Ready.writeLoop_blocked (fullBuf_ready false) (by decide) hblocked n
  cases hnever.symm.trans (hrun n le_rfl)

end AudioReach.SpfCircBuf
