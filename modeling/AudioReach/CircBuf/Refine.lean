import AudioReach.CircBuf.Walk
import AudioReach.Library.Runs
import AudioReach.Library.Window

/-!
# What the circular buffer does

The purpose of the buffer is told by `ByteLog`: it remembers all bytes that were written, and
for each reader a number, the count of last bytes that this reader has not read.  Chunks,
positions and the memory do not occur in it.  `Represents` relates the buffer to its log, and
the calls of the two give the same answers: `circBuf_refines`.

The relation says where a reader is: `size - unread` bytes after the writer.  A full turn
ends where it began, which is why an empty and a full reader are both at the writer.
-/

namespace AudioReach

open AudioReach.Library
open List

/-! ## The log -/

/-- The bytes that were written, and how many of the last of them each reader has to read. -/
structure ByteLog where
  size : ℕ
  /-- The buffer has a chunk; otherwise every call fails. -/
  hasChunk : Bool
  written : List UInt8
  unread : List ℕ

/-- A call of a client. -/
inductive CircBufCall
  /-- `circ_buf_write`. -/
  | write (data : List UInt8)
  /-- `circ_buf_memset`. -/
  | memset (writeValue : UInt8) (numBytes : ℕ)
  /-- `circ_buf_read` by reader `i`. -/
  | read (i bytesToRead : ℕ)
  /-- `circ_buf_read_adjust` by reader `i`. -/
  | readAdjust (i readOffset : ℕ) (forceAdjust : Bool)
  deriving DecidableEq, Repr

/-- The answer to a call: the result code, the bytes that were read and, for an adjustment,
the actual count of unread bytes. -/
structure CircBufAnswer where
  result : CircBufResult
  bytes : List UInt8
  /-- `*actual_unread_bytes_ptr`. -/
  actual : ℕ
  deriving DecidableEq, Repr

namespace ByteLog

/-- The log of a new buffer. -/
def init (chunks : List (List UInt8)) (numReaders : ℕ) : ByteLog :=
  { size := circBufSize chunks
    hasChunk := !chunks.isEmpty
    written := []
    unread := replicate numReaders 0 }

/-- The bytes are appended, and each reader has more to read, up to the size of the buffer. -/
def write (l : ByteLog) (data : List UInt8) : CircBufAnswer × ByteLog :=
  if !l.hasChunk || decide (data.length > l.size) then (⟨.fail, [], 0⟩, l)
  else
    (⟨if l.unread.any fun u => data.length > l.size - u then .overrun else .success, [], 0⟩,
      { l with
        written := l.written ++ data
        unread := l.unread.map fun u => min (u + data.length) l.size })

/-- The reader gets the oldest of its unread bytes. -/
def read (l : ByteLog) (i bytesToRead : ℕ) : CircBufAnswer × ByteLog :=
  match l.unread[i]? with
  | none => (⟨.fail, [], 0⟩, l)
  | some u =>
    if !l.hasChunk || decide (bytesToRead > l.size) then (⟨.fail, [], 0⟩, l)
    else if bytesToRead > u ∧ u = 0 then (⟨.underrun, [], 0⟩, l)
    else
      (⟨.success, (l.written.rtake u).take (min bytesToRead u), 0⟩,
        { l with unread := l.unread.set i (u - min bytesToRead u) })

/-- The reader goes on with its last `readOffset` unread bytes; if it is forced, with the last
`readOffset` bytes that were written and are in the buffer. -/
def readAdjust (l : ByteLog) (i readOffset : ℕ) (forceAdjust : Bool) : CircBufAnswer × ByteLog :=
  match l.unread[i]? with
  | none => (⟨.fail, [], 0⟩, l)
  | some u =>
    let available := if forceAdjust then min l.written.length l.size else u
    (⟨if l.hasChunk then .success else .fail, [], min readOffset available⟩,
      { l with unread := l.unread.set i (min readOffset available) })

/-- One call. -/
def call (l : ByteLog) : CircBufCall → CircBufAnswer × ByteLog
  | .write data => l.write data
  | .memset writeValue numBytes => l.write (replicate numBytes writeValue)
  | .read i bytesToRead => l.read i bytesToRead
  | .readAdjust i readOffset forceAdjust => l.readAdjust i readOffset forceAdjust

end ByteLog

/-! ## The buffer as a component -/

namespace CircBuf

/-- Replace reader `i`. -/
def setReader (b : CircBuf) (i : ℕ) (rd : ReadClient) : CircBuf :=
  { b with readers := b.readers.set i rd }

/-- One call. -/
def call (b : CircBuf) : CircBufCall → CircBufAnswer × CircBuf
  | .write data => (⟨(b.writeUtil data).1, [], 0⟩, (b.writeUtil data).2)
  | .memset writeValue numBytes =>
    (⟨(b.memset writeValue numBytes).1, [], 0⟩, (b.memset writeValue numBytes).2)
  | .read i bytesToRead =>
    match b.readers[i]? with
    | none => (⟨.fail, [], 0⟩, b)
    | some rd =>
      let out := b.readClient rd bytesToRead
      (⟨out.1, out.2.1, 0⟩, b.setReader i out.2.2)
  | .readAdjust i readOffset forceAdjust =>
    match b.readers[i]? with
    | none => (⟨.fail, [], 0⟩, b)
    | some rd =>
      let out := b.readAdjustClient rd readOffset forceAdjust
      (⟨out.1, [], out.2.1⟩, b.setReader i out.2.2)

end CircBuf

/-! ## The relation -/

/-- A reader with `u` bytes to read is `u` bytes behind the writer. -/
structure ReaderAt (chunks : List (List UInt8)) (wrPos : ChunkPos) (available : ℕ)
    (rd : ReadClient) (u : ℕ) : Prop where
  onRing : chunks ≠ [] → OnRing chunks rd.pos
  unread : rd.unreadBytes = u
  le : u ≤ available
  distance : ringDistance chunks rd.pos ≡ ringDistance chunks wrPos + (circBufSize chunks - u)
    [MOD circBufSize chunks]

/-- The buffer represents the log. -/
structure Represents (b : CircBuf) (l : ByteLog) : Prop where
  size : l.size = b.size
  hasChunk : l.hasChunk = !b.chunks.isEmpty
  onRing : b.chunks ≠ [] → OnRing b.chunks b.wrPos
  /-- The counter says how many bytes are in the buffer. -/
  counter : b.writeByteCounter = min l.written.length b.size
  /-- Seen from the writer the memory ends with the last bytes that were written. -/
  window : SameEnd (min l.written.length b.size) (ringView b.chunks b.wrPos) l.written
  readers : List.Forall₂
    (ReaderAt b.chunks b.wrPos (min l.written.length b.size)) b.readers l.unread

lemma Represents.next_bytes {b : CircBuf} {l : ByteLog} (h : Represents b l) {rd : ReadClient}
    {u : ℕ} (hrd : ReaderAt b.chunks b.wrPos (min l.written.length b.size) rd u) :
    (ringView b.chunks rd.pos).take u = l.written.rtake u := by
  have hlen : (ringView b.chunks b.wrPos).length = circBufSize b.chunks := length_ringView
  have hle : u ≤ circBufSize b.chunks :=
    Nat.le_trans hrd.le (Nat.min_le_right _ _)
  rw [ringView_of_modEq hrd.distance, ← hlen, take_rotate_sub (by omega), h.window u hrd.le]

/-! ## Moving a reader -/

lemma positionShiftForward_spec {chunks : List (List UInt8)} {pos : ChunkPos} {n : ℕ}
    (h : OnRing chunks pos) (hn : n ≤ circBufSize chunks) :
    ∃ pos', positionShiftForward chunks pos n = some pos' ∧ OnRing chunks pos' ∧
      ringDistance chunks pos' ≡ ringDistance chunks pos + n [MOD circBufSize chunks] := by
  unfold positionShiftForward
  rw [if_neg (Nat.not_lt.mpr hn)]
  split
  · rename_i hturn
    refine ⟨pos, rfl, h, ?_⟩
    rcases hturn with rfl | rfl
    · exact (Nat.add_mod_right _ _).symm
    · rfl
  · have hsome : (shiftLoop chunks (walkRounds chunks) pos n).isSome :=
      shiftLoop_isSome (Nat.le_trans hn (circBufSize_le_ringReach h))
    obtain ⟨pos', hloop⟩ := Option.isSome_iff_exists.mp hsome
    exact ⟨pos', hloop, shiftLoop_spec h hloop⟩

lemma capCounter_eq {size counter n : ℕ} (hsize : 2 * size < uint32Size) (hcounter : counter ≤ size)
    (hn : n ≤ size) : capCounter size counter n = min (counter + n) size := by
  unfold capCounter
  rw [Nat.mod_eq_of_lt (by omega)]
  dsimp only
  split
  · omega
  · omega

section Reader

variable {chunks : List (List UInt8)} {wrPos : ChunkPos} {available : ℕ} {rd : ReadClient}
  {u n : ℕ}

section

variable (h : ReaderAt chunks wrPos available rd u) (havailable : available ≤ circBufSize chunks)
include h havailable

/-- A reader that goes on by `n` bytes has `n` fewer to read. -/
lemma ReaderAt.advanced (hn : n ≤ u) {pos' : ChunkPos} (hon : OnRing chunks pos')
    (hmove : ringDistance chunks pos' ≡ ringDistance chunks rd.pos + n [MOD circBufSize chunks]) :
    ReaderAt chunks wrPos available ⟨pos', rd.unreadBytes - n⟩ (u - n) := by
  have hle := h.le
  refine ⟨fun _ => hon, by rw [h.unread], by omega, hmove.trans ?_⟩
  refine (h.distance.add_right n).trans ?_
  have heq : ringDistance chunks wrPos + (circBufSize chunks - u) + n =
      ringDistance chunks wrPos + (circBufSize chunks - (u - n)) := by omega
  rw [heq]

lemma readAdvance_spec (hne : chunks ≠ []) (hn : n ≤ u) : (readAdvance chunks rd n).1 = .success ∧
      ReaderAt chunks wrPos available (readAdvance chunks rd n).2 (u - n) := by
  have hle := h.le
  obtain ⟨pos', hshift, hon, hmove⟩ := positionShiftForward_spec (n := n) (h.onRing hne) (by omega)
  unfold readAdvance
  rw [if_neg hne, if_neg (by rw [h.unread]; omega), hshift]
  exact ⟨rfl, h.advanced havailable hn hon hmove⟩

lemma handleOverflow_spec (hne : chunks ≠ []) (hn : n ≤ circBufSize chunks) :
    ReaderAt chunks wrPos available (handleOverflow chunks n rd)
      (min u (circBufSize chunks - n)) := by
  have hle := h.le
  unfold handleOverflow
  rw [h.unread]
  dsimp only
  split
  · have hadvance := (readAdvance_spec h havailable hne
      (n := n - (circBufSize chunks - u)) (by omega)).2
    have heq : u - (n - (circBufSize chunks - u)) = min u (circBufSize chunks - n) := by omega
    rwa [heq] at hadvance
  · have heq : min u (circBufSize chunks - n) = u := by omega
    rwa [heq]

/-- A write of `n` bytes: the writer moves on by `n`, and the reader by what it drops. -/
lemma ReaderAt.written (hne : chunks ≠ []) (hn : n ≤ circBufSize chunks)
    (hsize : 2 * circBufSize chunks < uint32Size) {chunks' : List (List UInt8)} {wrPos' : ChunkPos}
    (hsizes : chunks.map List.length = chunks'.map List.length)
    (hmove : ringDistance chunks' wrPos' ≡ ringDistance chunks' wrPos + n [MOD circBufSize chunks'])
    :
    ReaderAt chunks' wrPos' (min (available + n) (circBufSize chunks))
      { handleOverflow chunks n rd with
        unreadBytes :=
          capCounter (circBufSize chunks) (handleOverflow chunks n rd).unreadBytes n }
      (min (u + n) (circBufSize chunks)) := by
  have hover := handleOverflow_spec h havailable hne hn
  have hle := h.le
  have hsize' := circBufSize_congr hsizes
  refine ⟨fun _ => (hover.onRing hne).congr hsizes, ?_, by omega, ?_⟩
  · dsimp only
    rw [hover.unread, capCounter_eq hsize (by omega) hn]
    omega
  · have hdistance := hover.distance
    rw [ringDistance_congr hsizes, ringDistance_congr hsizes] at hdistance
    refine Nat.ModEq.trans ?_ (hmove.symm.add_right _)
    rw [← hsize']
    refine hdistance.trans ?_
    have heq : ringDistance chunks' wrPos + (circBufSize chunks - min u (circBufSize chunks - n)) =
        ringDistance chunks' wrPos + n +
          (circBufSize chunks - min (u + n) (circBufSize chunks)) := by
      omega
    rw [heq]

end

end Reader

/-! ## Lists of readers -/

section Forall₂

variable {α β : Type*} {R : α → β → Prop} {xs : List α} {ys : List β}

lemma any_of_forall₂ (h : List.Forall₂ R xs ys) {p : α → Bool} {q : β → Bool}
    (hpq : ∀ x y, R x y → p x = q y) : xs.any p = ys.any q := by
  induction h with
  | nil => rfl
  | cons hxy _ ih => rw [any_cons, any_cons, hpq _ _ hxy, ih]

lemma getElem?_of_forall₂ (h : List.Forall₂ R xs ys) (i : ℕ) :
    (xs[i]? = none ∧ ys[i]? = none) ∨ ∃ x y, xs[i]? = some x ∧ ys[i]? = some y ∧ R x y := by
  induction h generalizing i with
  | nil => exact Or.inl ⟨rfl, rfl⟩
  | cons hxy _ ih =>
    cases i with
    | zero => exact Or.inr ⟨_, _, rfl, rfl, hxy⟩
    | succ i => exact ih i

lemma forall₂_set (h : List.Forall₂ R xs ys) {x : α} {y : β} (hxy : R x y) (i : ℕ) :
    List.Forall₂ R (xs.set i x) (ys.set i y) := by
  induction h generalizing i with
  | nil => exact List.Forall₂.nil
  | cons hhead htail ih =>
    cases i with
    | zero => exact List.Forall₂.cons hxy htail
    | succ i => exact List.Forall₂.cons hhead (ih i)

end Forall₂

/-! ## The calls keep the relation -/

section Calls

variable {b : CircBuf} {l : ByteLog} (h : Represents b l)

include h

omit h in
lemma available_le : min l.written.length b.size ≤ circBufSize b.chunks :=
  Nat.min_le_right _ _

lemma Represents.hasChunk_iff : l.hasChunk = true ↔ b.chunks ≠ [] := by
  rw [h.hasChunk, Bool.not_eq_true', isEmpty_eq_false_iff]

/-- A write. -/
lemma Represents.write (hsize : 2 * b.size < uint32Size) (data : List UInt8) :
    (b.writeUtil data).1 = (l.write data).1.result ∧
      Represents (b.writeUtil data).2 (l.write data).2 := by
  unfold CircBuf.writeUtil ByteLog.write
  by_cases hchunk : b.chunks = []
  · have hno : l.hasChunk = false := by
      rw [h.hasChunk, hchunk]
      rfl
    simp only [hchunk, hno, if_true, Bool.not_false, Bool.true_or]
    exact ⟨trivial, h⟩
  have hyes := h.hasChunk_iff.mpr hchunk
  by_cases hbig : data.length > b.size
  · simp only [hchunk, hbig, hyes, h.size, if_true, if_false, decide_true, Bool.or_true]
    exact ⟨trivial, h⟩
  have hfit : data.length ≤ circBufSize b.chunks := Nat.le_of_not_lt hbig
  have hon := h.onRing hchunk
  obtain ⟨⟨chunks', wrPos'⟩, hloop⟩ := Option.isSome_iff_exists.mp
    (dataCopyLoop_isSome hon (Nat.le_trans hfit (circBufSize_le_ringReach hon)))
  obtain ⟨hsizes, hon', hmove, hview⟩ := dataCopyLoop_spec hon hfit hloop
  have hrun : dataCopyLoop (walkRounds b.chunks) b.chunks b.wrPos data =
      some (chunks', wrPos') := hloop
  simp only [hchunk, hbig, hyes, h.size, hrun, if_false, decide_false, Bool.not_true,
    Bool.or_false, Bool.false_eq_true]
  have hsize' : circBufSize chunks' = circBufSize b.chunks := (circBufSize_congr hsizes).symm
  have hmove' := hmove
  rw [ringDistance_congr hsizes b.wrPos, ← hsize'] at hmove'
  have hwindow : ringView chunks' wrPos' =
      (ringView b.chunks b.wrPos).drop data.length ++ data := by
    rw [ringView_of_modEq hmove', hview, rotate_append_length_eq]
  have hcount : min (l.written ++ data).length (circBufSize b.chunks) =
      min (min l.written.length (circBufSize b.chunks) + data.length) (circBufSize b.chunks) := by
    rw [length_append]
    omega
  refine ⟨?_, ?_⟩
  · have hany : b.readers.any (fun rd => data.length > b.size - rd.unreadBytes) =
        l.unread.any (fun u => data.length > b.size - u) :=
      any_of_forall₂ h.readers fun rd u hrd => by rw [hrd.unread]
    rw [hany]
  · refine
      { size := ?_, hasChunk := ?_, onRing := fun _ => hon', counter := ?_, window := ?_,
        readers := ?_ }
    · exact hsize'.symm
    · rw [eq_comm, Bool.not_eq_true', isEmpty_eq_false_iff]
      rintro rfl
      exact absurd hon'.node_lt (Nat.not_lt_zero _)
    · change capCounter b.size b.writeByteCounter data.length =
        min (l.written ++ data).length (circBufSize chunks')
      rw [capCounter_eq hsize (by rw [h.counter]; exact available_le) hfit, h.counter, hsize',
        hcount]
      rfl
    · change SameEnd (min (l.written ++ data).length (circBufSize chunks'))
        (ringView chunks' wrPos') (l.written ++ data)
      have hpush := h.window.push data
      rw [length_ringView] at hpush
      rw [hwindow, hsize', hcount]
      exact hpush
    · change List.Forall₂ (ReaderAt chunks' wrPos'
        (min (l.written ++ data).length (circBufSize chunks'))) _ _
      rw [List.forall₂_map_left_iff, List.forall₂_map_right_iff]
      rw [hsize', hcount]
      exact h.readers.imp fun rd u hrd =>
        hrd.written available_le hchunk hfit hsize hsizes hmove'

lemma Represents.setReader {rd : ReadClient} {u : ℕ}
    (hrd : ReaderAt b.chunks b.wrPos (min l.written.length b.size) rd u) (i : ℕ) :
    Represents (b.setReader i rd) { l with unread := l.unread.set i u } :=
  { size := h.size
    hasChunk := h.hasChunk
    onRing := h.onRing
    counter := h.counter
    window := h.window
    readers := forall₂_set h.readers hrd i }

omit h in
lemma CircBuf.setReader_self {i : ℕ} {rd : ReadClient} (hi : b.readers[i]? = some rd) :
    b.setReader i rd = b := by
  obtain ⟨hlt, hget⟩ := List.getElem?_eq_some_iff.mp hi
  unfold CircBuf.setReader
  rw [← hget, set_getElem_self hlt]

/-- A read. -/
lemma Represents.read (i bytesToRead : ℕ) :
    (b.call (.read i bytesToRead)).1 = (l.read i bytesToRead).1 ∧
      Represents (b.call (.read i bytesToRead)).2 (l.read i bytesToRead).2 := by
  unfold CircBuf.call ByteLog.read
  rcases getElem?_of_forall₂ h.readers i with ⟨hnone, hnone'⟩ | ⟨rd, u, hrd, hu, hat⟩
  · simp only [hnone, hnone']
    exact ⟨trivial, h⟩
  simp only [hrd, hu]
  unfold CircBuf.readClient
  by_cases hbad : b.chunks = [] ∨ bytesToRead > b.size
  · have hbad' : (!l.hasChunk || decide (bytesToRead > l.size)) = true := by
      rw [Bool.or_eq_true, decide_eq_true_eq, h.size, Bool.not_eq_true', ← Bool.not_eq_true,
        h.hasChunk_iff, not_ne_iff]
      exact hbad
    simp only [hbad, hbad', if_true, CircBuf.setReader_self hrd]
    exact ⟨trivial, h⟩
  have hgood : (!l.hasChunk || decide (bytesToRead > l.size)) = false := by
    rw [← Bool.not_eq_true, Bool.or_eq_true, decide_eq_true_eq, h.size, Bool.not_eq_true',
      ← Bool.not_eq_true, h.hasChunk_iff, not_ne_iff]
    exact hbad
  simp only [hbad, hgood, if_false, Bool.false_eq_true, hat.unread]
  by_cases hunder : bytesToRead > u ∧ u = 0
  · rw [if_pos hunder, if_pos hunder]
    rw [CircBuf.setReader_self hrd]
    exact ⟨rfl, h⟩
  rw [if_neg hunder, if_neg hunder]
  push Not at hbad
  have hn : (if bytesToRead > u then u else bytesToRead) = min bytesToRead u := by
    split
    · omega
    · omega
  rw [hn]
  have hsize : min bytesToRead u ≤ circBufSize b.chunks :=
    Nat.le_trans (Nat.min_le_left _ _) hbad.2
  have hon := hat.onRing hbad.1
  obtain ⟨⟨out, pos'⟩, hloop⟩ := Option.isSome_iff_exists.mp
    (readLoop_isSome (Nat.le_trans hsize (circBufSize_le_ringReach hon)))
  obtain ⟨hon', hout, hmove⟩ := readLoop_spec hon hsize hloop
  have hrun : readLoop b.chunks (walkRounds b.chunks) rd.pos (min bytesToRead u) =
      some (out, pos') := hloop
  simp only [hrun]
  have hbytes : out = (l.written.rtake u).take (min bytesToRead u) := by
    rw [hout, ← h.next_bytes hat, take_take, Nat.min_assoc, Nat.min_self]
  refine ⟨by rw [hbytes], h.setReader ?_ i⟩
  have hmoved := hat.advanced available_le (Nat.min_le_right bytesToRead u) hon' hmove
  rwa [hat.unread] at hmoved

/-- A forced reset puts the reader at the oldest byte in the buffer. -/
lemma Represents.readClientReset (rd : ReadClient) :
    ReaderAt b.chunks b.wrPos (min l.written.length b.size) (b.readClientReset rd)
      (min l.written.length b.size) := by
  have hcounter := h.counter
  have hle : min l.written.length b.size ≤ circBufSize b.chunks := available_le
  have hmin : min b.writeByteCounter b.size = min l.written.length b.size := by
    rw [hcounter]
    exact Nat.min_eq_left hle
  unfold CircBuf.readClientReset
  rw [hmin, hcounter]
  dsimp only
  split
  · -- the size is not zero, so there is a chunk
    rename_i hlt
    have hne : b.chunks ≠ [] := by
      intro hnil
      rw [CircBuf.size, hnil] at hlt
      exact absurd hlt (Nat.not_lt_zero _)
    obtain ⟨pos', hshift, hon, hmove⟩ := positionShiftForward_spec
      (n := b.size - min l.written.length b.size) (h.onRing hne) (Nat.sub_le _ _)
    rw [hshift]
    exact ⟨fun _ => hon, rfl, Nat.le_refl _, hmove⟩
  · rename_i hfull
    have heq : circBufSize b.chunks - min l.written.length b.size = 0 :=
      Nat.sub_eq_zero_of_le (Nat.le_of_not_lt hfull)
    refine ⟨h.onRing, rfl, Nat.le_refl _, ?_⟩
    rw [heq, Nat.add_zero]

/-- An adjustment. -/
lemma Represents.readAdjust (i readOffset : ℕ) (forceAdjust : Bool) :
    (b.call (.readAdjust i readOffset forceAdjust)).1 = (l.readAdjust i readOffset forceAdjust).1 ∧
      Represents (b.call (.readAdjust i readOffset forceAdjust)).2
        (l.readAdjust i readOffset forceAdjust).2 := by
  unfold CircBuf.call ByteLog.readAdjust
  rcases getElem?_of_forall₂ h.readers i with ⟨hnone, hnone'⟩ | ⟨rd, u, hrd, hu, hat⟩
  · simp only [hnone, hnone']
    exact ⟨trivial, h⟩
  simp only [hrd, hu]
  -- the reader before the advance, forced or not
  have hfrom : ReaderAt b.chunks b.wrPos (min l.written.length b.size)
      (if forceAdjust then b.readClientReset rd else rd)
      (if forceAdjust then min l.written.length l.size else u) := by
    rw [h.size]
    cases forceAdjust with
    | true => exact h.readClientReset rd
    | false => exact hat
  unfold CircBuf.readAdjustClient
  generalize (if forceAdjust then b.readClientReset rd else rd) = start at hfrom ⊢
  generalize (if forceAdjust then min l.written.length l.size else u) = available at hfrom ⊢
  have hle := hfrom.le
  have hoffset : (if readOffset > available then available else readOffset) =
      min readOffset available := by
    split
    · omega
    · omega
  simp only [hfrom.unread, hoffset]
  by_cases hchunk : b.chunks = []
  · -- nothing is in a buffer without chunks
    have hzero : available = 0 := by
      have hsize : b.size = 0 := by
        rw [CircBuf.size, hchunk]
        rfl
      omega
    have hno : l.hasChunk = false := by
      rw [h.hasChunk, hchunk]
      rfl
    have hadvance : readAdvance b.chunks start (available - min readOffset available) =
        (.fail, start) := by
      rw [readAdvance, if_pos hchunk]
    rw [hzero] at hfrom
    refine ⟨?_, ?_⟩
    · simp [hadvance, hno]
    · rw [hadvance, hzero, Nat.min_zero]
      exact h.setReader hfrom i
  · obtain ⟨hresult, hreader⟩ := readAdvance_spec hfrom available_le hchunk
      (Nat.sub_le available (min readOffset available))
    have heq : available - (available - min readOffset available) =
        min readOffset available := by omega
    rw [heq] at hreader
    refine ⟨?_, h.setReader hreader i⟩
    simp [hresult, h.hasChunk_iff.mpr hchunk]

end Calls

lemma represents_init (chunks : List (List UInt8)) (numReaders : ℕ) :
    Represents (CircBuf.init chunks numReaders) (ByteLog.init chunks numReaders) where
  size := rfl
  hasChunk := rfl
  onRing := fun hne => ⟨length_pos_iff.mpr hne, Nat.zero_le _⟩
  counter := (Nat.zero_min _).symm
  window := by
    exact sameEnd_zero _ _
  readers := by
    refine List.forall₂_iff_get.mpr ⟨by simp [CircBuf.init, ByteLog.init], fun i _ _ => ?_⟩
    simp only [CircBuf.init, ByteLog.init, get_eq_getElem, getElem_replicate]
    refine ⟨fun hne => ⟨length_pos_iff.mpr hne, Nat.zero_le _⟩, rfl, Nat.zero_le _, ?_⟩
    exact (Nat.add_mod_right _ _).symm

lemma Represents.call {b : CircBuf} {l : ByteLog} (h : Represents b l)
    (hsize : 2 * b.size < uint32Size) (c : CircBufCall) :
    (b.call c).1 = (l.call c).1 ∧ Represents (b.call c).2 (l.call c).2 := by
  have hwrite : ∀ data, (⟨(b.writeUtil data).1, [], 0⟩ : CircBufAnswer) = (l.write data).1 ∧
      Represents (b.writeUtil data).2 (l.write data).2 := by
    intro data
    obtain ⟨hresult, hnext⟩ := h.write hsize data
    refine ⟨?_, hnext⟩
    rw [hresult]
    unfold ByteLog.write
    split
    · rfl
    · rfl
  cases c with
  | write data => exact hwrite data
  | memset writeValue numBytes => exact hwrite (replicate numBytes writeValue)
  | read i bytesToRead => exact h.read i bytesToRead
  | readAdjust i readOffset forceAdjust => exact h.readAdjust i readOffset forceAdjust

/-- No call changes the size. -/
lemma ByteLog.size_call (l : ByteLog) (c : CircBufCall) : (l.call c).2.size = l.size := by
  have hwrite : ∀ data, (l.write data).2.size = l.size := by
    intro data
    unfold ByteLog.write
    split
    · rfl
    · rfl
  cases c with
  | write data => exact hwrite data
  | memset writeValue numBytes => exact hwrite (replicate numBytes writeValue)
  | read i bytesToRead =>
    unfold ByteLog.call ByteLog.read
    dsimp only
    split
    · rfl
    · split
      · rfl
      · split
        · rfl
        · rfl
  | readAdjust i readOffset forceAdjust =>
    unfold ByteLog.call ByteLog.readAdjust
    dsimp only
    split
    · rfl
    · rfl

/-- Each reader has the count of the log, and its next bytes are the last ones written. -/
def ReadersInStep (b : CircBuf) (l : ByteLog) : Prop :=
  List.Forall₂ (fun rd u => rd.unreadBytes = u ∧ u ≤ min l.written.length b.size ∧
    (ringView b.chunks rd.pos).take u = l.written.rtake u) b.readers l.unread

/-- **The circular buffer.** For every list of chunks of less than 2 GiB in all, any number of
readers and every sequence of calls, the buffer gives the answers of the log of all bytes
written, and after them the next unread bytes of each reader are exactly as many of the last
bytes written. -/
theorem circBuf_refines (chunks : List (List UInt8)) (numReaders : ℕ)
    (hsize : 2 * circBufSize chunks < uint32Size) (calls : List CircBufCall) :
    answers CircBuf.call (CircBuf.init chunks numReaders) calls =
        answers ByteLog.call (ByteLog.init chunks numReaders) calls ∧
      ReadersInStep (run (after CircBuf.call) (CircBuf.init chunks numReaders) calls)
        (run (after ByteLog.call) (ByteLog.init chunks numReaders) calls) := by
  have hsim := answers_simulate
    (R := fun b l => Represents b l ∧ 2 * b.size < uint32Size) (fun b l c hR _ => by
      obtain ⟨hanswer, hnext⟩ := hR.1.call hR.2 c
      refine ⟨hanswer, hnext, ?_⟩
      rw [← hnext.size, ByteLog.size_call, hR.1.size]
      exact hR.2)
    ⟨represents_init chunks numReaders, hsize⟩
    (meets_of_forall (C := fun _ _ => True) (fun _ _ => trivial) _ calls)
  obtain ⟨hanswers, hlast, -⟩ := hsim
  refine ⟨hanswers, hlast.readers.imp fun rd u hrd => ⟨hrd.unread, hrd.le, ?_⟩⟩
  exact hlast.next_bytes hrd

/-! ### What does not hold -/

/-- The bytes that a call writes, if it fits. -/
def CircBufCall.data : CircBufCall → List UInt8
  | .write data => data
  | .memset writeValue numBytes => replicate numBytes writeValue
  | .read _ _ => []
  | .readAdjust _ _ _ => []

lemma CircBuf.writeUtil_counter {b : CircBuf} {data : List UInt8} (hon : OnRing b.chunks b.wrPos)
    (hfit : data.length ≤ b.size) :
    OnRing (b.writeUtil data).2.chunks (b.writeUtil data).2.wrPos ∧
      (b.writeUtil data).2.size = b.size ∧
      (b.writeUtil data).2.writeByteCounter = capCounter b.size b.writeByteCounter data.length ∧
      (b.writeUtil data).2.readers.length = b.readers.length := by
  have hchunk : b.chunks ≠ [] := by
    intro hnil
    have hlt := hon.node_lt
    rw [hnil] at hlt
    exact absurd hlt (Nat.not_lt_zero _)
  obtain ⟨⟨chunks', wrPos'⟩, hloop⟩ := Option.isSome_iff_exists.mp
    (dataCopyLoop_isSome hon (Nat.le_trans hfit (circBufSize_le_ringReach hon)))
  obtain ⟨hsizes, hon', -⟩ := dataCopyLoop_spec hon hfit hloop
  have hrun : dataCopyLoop (walkRounds b.chunks) b.chunks b.wrPos data =
      some (chunks', wrPos') := hloop
  unfold CircBuf.writeUtil
  rw [if_neg hchunk, if_neg (Nat.not_lt.mpr hfit), hrun]
  exact ⟨hon', (circBufSize_congr hsizes).symm, rfl, length_map _⟩

lemma CircBuf.readAdjustClient_of_counter_zero {b : CircBuf} (hcounter : b.writeByteCounter = 0)
    (rd : ReadClient) (readOffset : ℕ) : (b.readAdjustClient rd readOffset true).2.1 = 0 := by
  have hunread : (b.readClientReset rd).unreadBytes = 0 := by
    unfold CircBuf.readClientReset
    rw [hcounter, Nat.zero_min]
    dsimp only
    split
    · split
      · rfl
      · rfl
    · rfl
  simp [CircBuf.readAdjustClient, hunread]

/-- A read of more bytes than the buffer has fails, also when there are unread bytes; and
when the size is 2 GiB the counter of written bytes wraps around, so that a forced adjustment
finds nothing to read in a full buffer. -/
theorem not_circBuf_read_any_length_nor_any_size :
    (¬ ∀ (chunks : List (List UInt8)) (calls : List CircBufCall) (bytesToRead : ℕ),
      (∀ c ∈ calls, c.data.length ≤ circBufSize chunks) →
      ((run (after CircBuf.call) (CircBuf.init chunks 1) calls).call
        (.read 0 bytesToRead)).1.bytes =
        ((run (after CircBuf.call) (CircBuf.init chunks 1) calls).readers.flatMap fun rd =>
          ((calls.flatMap CircBufCall.data).rtake rd.unreadBytes).take
            (min bytesToRead rd.unreadBytes))) ∧
    ¬ ∀ (chunks : List (List UInt8)) (calls : List CircBufCall) (readOffset : ℕ),
      (∀ c ∈ calls, c.data.length ≤ circBufSize chunks) →
      ((run (after CircBuf.call) (CircBuf.init chunks 1) calls).call
        (.readAdjust 0 readOffset true)).1.actual =
        min readOffset (min (calls.flatMap CircBufCall.data).length (circBufSize chunks)) := by
  constructor
  · intro hall
    exact absurd (hall [[0]] [.write [7]] 2 (by decide)) (by decide)
  · intro hall
    have hhalf : ∃ k, 2 * k = uint32Size := ⟨2147483648, rfl⟩
    obtain ⟨k, hk⟩ := hhalf
    have hpos : 0 < k := by
      unfold uint32Size at hk
      omega
    have hsize : circBufSize [replicate k 0] = k := by
      simp [circBufSize]
    have hinit : OnRing [replicate k 0] ⟨0, 0⟩ := ⟨Nat.one_pos, Nat.zero_le _⟩
    have hfit : (replicate k (1 : UInt8)).length ≤ (CircBuf.init [replicate k 0] 1).size := by
      rw [length_replicate]
      exact hsize.ge
    obtain ⟨hon, hsize₁, hcounter₁, hreaders₁⟩ := CircBuf.writeUtil_counter hinit hfit
    rw [← hsize₁] at hfit
    obtain ⟨-, -, hcounter₂, hreaders₂⟩ := CircBuf.writeUtil_counter hon hfit
    have hcalls := hall [replicate k 0] [.memset 1 k, .memset 1 k] k (by
      intro c hc
      have hcase : c = .memset 1 k := by simpa using hc
      rw [hcase, hsize, CircBufCall.data, length_replicate])
    have hwrapped : ((CircBuf.init [replicate k 0] 1).writeUtil
        (replicate k 1)).2.writeByteCounter = k := by
      rw [hcounter₁, length_replicate]
      change capCounter (circBufSize [replicate k 0]) 0 k = k
      rw [hsize, capCounter, Nat.zero_add, Nat.mod_eq_of_lt (by omega), if_neg (by omega)]
    rw [hwrapped, hsize₁, length_replicate] at hcounter₂
    have hzero : capCounter (CircBuf.init [replicate k 0] 1).size k k = 0 := by
      change capCounter (circBufSize [replicate k 0]) k k = 0
      have hdouble : k + k = uint32Size := by omega
      rw [hsize, capCounter, hdouble, Nat.mod_self, if_neg (by omega)]
    rw [hzero] at hcounter₂
    rw [hreaders₁] at hreaders₂
    -- the answer after the two writes, against what was written
    change (CircBuf.call (((CircBuf.init [replicate k 0] 1).writeUtil
      (replicate k 1)).2.writeUtil (replicate k 1)).2 (.readAdjust 0 k true)).1.actual = _ at hcalls
    generalize (((CircBuf.init [replicate k 0] 1).writeUtil
      (replicate k 1)).2.writeUtil (replicate k 1)).2 = b at hcalls hcounter₂ hreaders₂
    obtain ⟨rd, hrd⟩ := length_eq_one_iff.mp hreaders₂
    have hactual : (b.call (.readAdjust 0 k true)).1.actual = 0 := by
      unfold CircBuf.call
      rw [hrd]
      exact CircBuf.readAdjustClient_of_counter_zero hcounter₂ rd k
    simp only [flatMap_cons, flatMap_nil, CircBufCall.data, append_nil,
      length_append, length_replicate] at hcalls
    omega

/-- Two readers of a buffer of two chunks: one reads across the chunks, the other is set back
to bytes it has read. -/
theorem circBuf_refines_two_chunks : 2 * circBufSize [[0, 0], [0]] < uint32Size ∧
    answers CircBuf.call (CircBuf.init [[0, 0], [0]] 2)
        [.write [1, 2], .read 1 2, .write [3, 4], .read 0 3, .readAdjust 1 2 true] =
      answers ByteLog.call (ByteLog.init [[0, 0], [0]] 2)
        [.write [1, 2], .read 1 2, .write [3, 4], .read 0 3, .readAdjust 1 2 true] ∧
    ReadersInStep (run (after CircBuf.call) (CircBuf.init [[0, 0], [0]] 2)
        [.write [1, 2], .read 1 2, .write [3, 4], .read 0 3, .readAdjust 1 2 true])
      (run (after ByteLog.call) (ByteLog.init [[0, 0], [0]] 2)
        [.write [1, 2], .read 1 2, .write [3, 4], .read 0 3, .readAdjust 1 2 true]) :=
  ⟨by decide, circBuf_refines [[0, 0], [0]] 2 (by decide)
    [.write [1, 2], .read 1 2, .write [3, 4], .read 0 3, .readAdjust 1 2 true]⟩

end AudioReach
