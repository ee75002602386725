import Mathlib.Data.List.Rotate
import Mathlib.Data.Nat.ModEq
import AudioReach.CircBuf.Model

/-!
# Positions on the ring of chunks

Seen from a position the chunks are one cyclic list: the rest of the chunk, the chunks after
it, those before it and the start of the chunk.  This list, `ringView`, is the flat memory
rotated by the distance of the position from the head.  The loops of the buffer walk along
it, whatever the chunk sizes are: shifting by `n` bytes adds `n` to the distance, reading
takes the first bytes of the view, and writing replaces them.

Distances are compared modulo the size of the buffer, so that a position behind the last byte
and one at the head are the same.
-/

namespace AudioReach

open List

/-- The distance of a position from the head. -/
def ringDistance (chunks : List (List UInt8)) (pos : ChunkPos) : ℕ :=
  circBufSize (chunks.take pos.node) + pos.offset

/-- The memory as it is seen from a position. -/
def ringView (chunks : List (List UInt8)) (pos : ChunkPos) : List UInt8 :=
  chunks.flatten.rotate (ringDistance chunks pos)

/-- The position is in a chunk, or at its end. -/
structure OnRing (chunks : List (List UInt8)) (pos : ChunkPos) : Prop where
  node_lt : pos.node < chunks.length
  offset_le : pos.offset ≤ (chunkAt chunks pos.node).length

variable {chunks chunks' : List (List UInt8)} {pos : ChunkPos}

/-! ## Sizes -/

lemma length_flatten_chunks (chunks : List (List UInt8)) :
    chunks.flatten.length = circBufSize chunks :=
  length_flatten

lemma circBufSize_append (xs ys : List (List UInt8)) :
    circBufSize (xs ++ ys) = circBufSize xs + circBufSize ys := by
  simp [circBufSize]

variable {node n rounds counter k : ℕ} {pos' : ChunkPos} {data : List UInt8}

lemma chunkAt_eq (h : node < chunks.length) : chunkAt chunks node = chunks[node] := by
  simp [chunkAt, h]

lemma chunks_split (h : pos.node < chunks.length) :
    chunks = chunks.take pos.node ++ chunkAt chunks pos.node :: chunks.drop (pos.node + 1) := by
  rw [chunkAt_eq h, ← drop_eq_getElem_cons h, take_append_drop]

lemma circBufSize_take_succ (h : node < chunks.length) : circBufSize (chunks.take (node + 1)) =
      circBufSize (chunks.take node) + (chunkAt chunks node).length := by
  rw [take_succ_eq_append_getElem h, circBufSize_append, chunkAt_eq h]
  simp [circBufSize]

section

variable (h : chunks.map List.length = chunks'.map List.length)
include h

lemma ringDistance_congr (pos : ChunkPos) : ringDistance chunks pos = ringDistance chunks' pos := by
  simp [ringDistance, circBufSize, map_take, h]

lemma circBufSize_congr : circBufSize chunks = circBufSize chunks' := by
  rw [circBufSize, circBufSize, h]

end

lemma OnRing.congr (hpos : OnRing chunks pos)
    (h : chunks.map List.length = chunks'.map List.length) : OnRing chunks' pos := by
  have hlength : chunks.length = chunks'.length := by
    simpa using congrArg List.length h
  have hlt := hpos.node_lt
  refine ⟨hlength ▸ hlt, ?_⟩
  have hchunk : (chunks.map List.length)[pos.node]? = (chunks'.map List.length)[pos.node]? := by
    rw [h]
  rw [getElem?_map, getElem?_map, getElem?_eq_getElem hlt,
    getElem?_eq_getElem (hlength ▸ hlt)] at hchunk
  have hle := hpos.offset_le
  rw [chunkAt_eq hlt] at hle
  rw [chunkAt_eq (hlength ▸ hlt)]
  simp only [Option.map_some, Option.some.injEq] at hchunk
  omega

/-! ## The view -/

lemma length_ringView : (ringView chunks pos).length = circBufSize chunks := by
  rw [ringView, length_rotate, length_flatten_chunks]

lemma ringView_of_modEq
    (h : ringDistance chunks pos' ≡ ringDistance chunks pos + n [MOD circBufSize chunks]) :
    ringView chunks pos' = (ringView chunks pos).rotate n := by
  unfold ringView
  rw [rotate_rotate, ← rotate_mod, ← rotate_mod _ (_ + n), length_flatten_chunks, h]

lemma ringView_eq (h : OnRing chunks pos) :
    ringView chunks pos = (chunkAt chunks pos.node).drop pos.offset ++
      ((chunks.drop (pos.node + 1)).flatten ++
        ((chunks.take pos.node).flatten ++ (chunkAt chunks pos.node).take pos.offset)) := by
  have hflatten : chunks.flatten =
      ((chunks.take pos.node).flatten ++ (chunkAt chunks pos.node).take pos.offset) ++
        ((chunkAt chunks pos.node).drop pos.offset ++ (chunks.drop (pos.node + 1)).flatten) := by
    conv_lhs => rw [chunks_split h.node_lt]
    simp only [flatten_append, flatten_cons, append_assoc]
    rw [← append_assoc (List.take _ _) (List.drop _ _), take_append_drop]
  have hdistance : ringDistance chunks pos = ((chunks.take pos.node).flatten ++
        (chunkAt chunks pos.node).take pos.offset).length := by
    rw [length_append, length_flatten_chunks, length_take,
      Nat.min_eq_left h.offset_le, ringDistance]
  unfold ringView
  rw [hdistance, hflatten, rotate_append_length_eq, append_assoc]

lemma take_ringView (h : OnRing chunks pos)
    (hn : n ≤ ((chunkAt chunks pos.node).drop pos.offset).length) :
    (ringView chunks pos).take n = ((chunkAt chunks pos.node).drop pos.offset).take n := by
  rw [ringView_eq h, take_append_of_le_length hn]

/-! ## Moving along -/

section

variable (h : OnRing chunks pos)
include h

lemma OnRing.advance (hn : n ≤ (chunkAt chunks pos.node).length - pos.offset) :
    OnRing chunks { pos with offset := pos.offset + n } := by
  have hle := h.offset_le
  refine ⟨h.node_lt, ?_⟩
  change pos.offset + n ≤ (chunkAt chunks pos.node).length
  omega

lemma OnRing.next : OnRing chunks ⟨nextChunkNode chunks pos.node, 0⟩ := by
  refine ⟨?_, Nat.zero_le _⟩
  have := h.node_lt
  unfold nextChunkNode
  split
  · assumption
  · change 0 < _
    omega

lemma ringDistance_next : ringDistance chunks ⟨nextChunkNode chunks pos.node, 0⟩ ≡
      ringDistance chunks pos + ((chunkAt chunks pos.node).length - pos.offset)
        [MOD circBufSize chunks] := by
  have hle := h.offset_le
  have hend : ringDistance chunks pos + ((chunkAt chunks pos.node).length - pos.offset) =
      circBufSize (chunks.take (pos.node + 1)) := by
    rw [circBufSize_take_succ h.node_lt, ringDistance]
    omega
  rw [hend, ringDistance, nextChunkNode]
  split
  · rfl
  · rename_i hlast
    rw [take_of_length_le (Nat.le_of_not_lt hlast)]
    exact (Nat.modEq_zero_iff_dvd.mpr (Nat.dvd_refl _)).symm

/-- The loop that shifts a position adds to its distance. -/
lemma shiftLoop_spec (hloop : shiftLoop chunks rounds pos counter = some pos') :
    OnRing chunks pos' ∧
      ringDistance chunks pos' ≡ ringDistance chunks pos + counter [MOD circBufSize chunks] := by
  induction rounds generalizing pos counter with
  | zero => cases hloop
  | succ rounds ih =>
    unfold shiftLoop at hloop
    split at hloop
    · rename_i hzero
      cases hloop
      exact ⟨h, by rw [hzero, Nat.add_zero]⟩
    · dsimp only at hloop
      split at hloop
      · rename_i hlt
        obtain ⟨hon, hmod⟩ := ih (h.advance (Nat.le_of_lt hlt)) hloop
        refine ⟨hon, hmod.trans ?_⟩
        rw [Nat.add_zero, ringDistance, ringDistance, ← Nat.add_assoc]
      · rename_i hge
        obtain ⟨hon, hmod⟩ := ih h.next hloop
        refine ⟨hon, hmod.trans ?_⟩
        refine ((ringDistance_next h).add_right _).trans ?_
        rw [Nat.add_assoc, Nat.add_sub_cancel' (Nat.le_of_not_lt hge)]

/-- The loop that reads copies the first bytes of the view and shifts the position. -/
lemma readLoop_spec {out : List UInt8} (hcounter : counter ≤ circBufSize chunks)
    (hloop : readLoop chunks rounds pos counter = some (out, pos')) :
    OnRing chunks pos' ∧ out = (ringView chunks pos).take counter ∧
      ringDistance chunks pos' ≡ ringDistance chunks pos + counter [MOD circBufSize chunks] := by
  induction rounds generalizing pos counter out with
  | zero => cases hloop
  | succ rounds ih =>
    unfold readLoop at hloop
    split at hloop
    · rename_i hzero
      cases hloop
      exact ⟨h, by simp [hzero], by rw [hzero, Nat.add_zero]⟩
    · dsimp only at hloop
      split at hloop
      · rename_i hlt
        obtain ⟨⟨out', pos''⟩, hrest, heq⟩ := Option.map_eq_some_iff.mp hloop
        cases heq
        rw [length_drop] at hlt
        obtain ⟨hon, hout, hmod⟩ := ih (h.advance (Nat.le_of_lt hlt)) (Nat.zero_le _) hrest
        refine ⟨hon, ?_, hmod.trans ?_⟩
        · rw [hout, take_zero, append_nil, take_ringView h (by simpa using hlt.le)]
        · rw [Nat.add_zero, ringDistance, ringDistance, ← Nat.add_assoc]
      · rename_i hge
        obtain ⟨⟨out', pos''⟩, hrest, heq⟩ := Option.map_eq_some_iff.mp hloop
        cases heq
        obtain ⟨hon, hout, hmod⟩ := ih h.next (Nat.le_trans (Nat.sub_le _ _) hcounter) hrest
        have hnext := ringDistance_next h
        rw [← length_drop] at hnext
        refine ⟨hon, ?_, hmod.trans ?_⟩
        · -- the view from the next chunk is this view, rotated by the rest of the chunk
          have hview := ringView_of_modEq hnext
          rw [ringView_eq h, rotate_append_length_eq] at hview
          have htotal : (ringView chunks pos).length = circBufSize chunks := length_ringView
          rw [ringView_eq h] at htotal ⊢
          rw [hout, hview]
          generalize (chunkAt chunks pos.node).drop pos.offset = rest at hge htotal ⊢
          generalize (chunks.drop (pos.node + 1)).flatten ++ _ = tail at htotal ⊢
          rw [length_append] at htotal
          have hfit : (tail ++ rest).take (counter - rest.length) =
              tail.take (counter - rest.length) := take_append_of_le_length (by omega)
          rw [hfit, take_append, take_of_length_le (Nat.le_of_not_lt hge)]
        · refine (hnext.add_right _).trans ?_
          rw [Nat.add_assoc, Nat.add_sub_cancel' (Nat.le_of_not_lt hge)]

end

/-! ## Writing -/

lemma length_storeAt {chunk : List UInt8} {offset : ℕ} (h : offset + data.length ≤ chunk.length) :
    (storeAt chunk offset data).length = chunk.length := by
  simp only [storeAt, length_append, length_take, length_drop]
  omega

lemma chunkAt_set (h : node < chunks.length) (chunk : List UInt8) :
    chunkAt (chunks.set node chunk) node = chunk := by
  rw [chunkAt_eq (by simpa using h), getElem_set_self]

lemma map_length_set_storeAt {offset : ℕ} (h : node < chunks.length)
    (hfit : offset + data.length ≤ (chunkAt chunks node).length) :
    (chunks.set node (storeAt (chunkAt chunks node) offset data)).map List.length =
      chunks.map List.length := by
  rw [map_set, length_storeAt hfit, chunkAt_eq h]
  refine ext_getElem (by simp) fun i _ _ => ?_
  by_cases hi : node = i
  · subst hi
    simp
  · simp [hi]

lemma ringView_set_storeAt (h : OnRing chunks pos)
    (hfit : pos.offset + data.length ≤ (chunkAt chunks pos.node).length) :
    ringView (chunks.set pos.node (storeAt (chunkAt chunks pos.node) pos.offset data)) pos =
      data ++ (ringView chunks pos).drop data.length := by
  have hon := h.congr (map_length_set_storeAt h.node_lt hfit).symm
  have hdrop : (storeAt (chunkAt chunks pos.node) pos.offset data).drop pos.offset =
      data ++ (chunkAt chunks pos.node).drop (pos.offset + data.length) := by
    rw [storeAt, append_assoc, drop_left' (by simp [h.offset_le])]
  have htake : (storeAt (chunkAt chunks pos.node) pos.offset data).take pos.offset =
      (chunkAt chunks pos.node).take pos.offset := by
    rw [storeAt, append_assoc, take_left' (by simp [h.offset_le])]
  rw [ringView_eq hon, ringView_eq h, chunkAt_set h.node_lt, hdrop, htake,
    drop_append_of_le_length (by rw [length_drop]; omega), drop_drop,
    append_assoc, take_set_of_le (Nat.le_refl _),
    drop_set_of_lt (Nat.lt_succ_self _)]

/-- Two pieces stored one after the other are stored as one. -/
lemma ringView_of_pieces {chunks₁ : List (List UInt8)} {first rest : List UInt8}
    (hsizes₁ : chunks.map List.length = chunks₁.map List.length)
    (hsizes : chunks₁.map List.length = chunks'.map List.length)
    (hmove : ringDistance chunks pos' ≡ ringDistance chunks pos + first.length
      [MOD circBufSize chunks]) (hfit : first.length + rest.length ≤ circBufSize chunks)
    (hfirst : ringView chunks₁ pos = first ++ (ringView chunks pos).drop first.length)
    (hrest : ringView chunks' pos' = rest ++ (ringView chunks₁ pos').drop rest.length) :
    ringView chunks' pos =
      (first ++ rest) ++ (ringView chunks pos).drop (first ++ rest).length := by
  have hmove₁ := hmove
  rw [ringDistance_congr hsizes₁, ringDistance_congr hsizes₁, circBufSize_congr hsizes₁]
    at hmove₁
  have hmove' := hmove₁
  rw [ringDistance_congr hsizes, ringDistance_congr hsizes, circBufSize_congr hsizes] at hmove'
  have htotal : (ringView chunks pos).length = circBufSize chunks := length_ringView
  -- compare the views from the second position, where both pieces are seen
  apply rotate_injective first.length
  dsimp only
  rw [← ringView_of_modEq hmove', hrest, ringView_of_modEq hmove₁, hfirst,
    rotate_append_length_eq, append_assoc first, rotate_append_length_eq,
    drop_append_of_le_length (by rw [length_drop]; omega), drop_drop,
    length_append, append_assoc]

/-- The loop that writes replaces the first bytes of the view, keeps the chunk sizes and
shifts the position. -/
lemma dataCopyLoop_spec (h : OnRing chunks pos) (hdata : data.length ≤ circBufSize chunks)
    (hloop : dataCopyLoop rounds chunks pos data = some (chunks', pos')) :
    chunks.map List.length = chunks'.map List.length ∧ OnRing chunks' pos' ∧
      ringDistance chunks' pos' ≡ ringDistance chunks pos + data.length [MOD circBufSize chunks] ∧
      ringView chunks' pos = data ++ (ringView chunks pos).drop data.length := by
  induction rounds generalizing chunks pos data with
  | zero => cases hloop
  | succ rounds ih =>
    have hle := h.offset_le
    unfold dataCopyLoop at hloop
    split at hloop
    · rename_i hzero
      cases hloop
      rw [eq_nil_of_length_eq_zero hzero]
      exact ⟨rfl, h, Nat.ModEq.refl _, rfl⟩
    · dsimp only at hloop
      split at hloop
      · -- the rest of the data goes into this chunk
        rename_i hlt
        have hfit : pos.offset + data.length ≤ (chunkAt chunks pos.node).length := by omega
        have hsizes₁ := (map_length_set_storeAt h.node_lt hfit).symm
        have hon₁ := (h.advance (Nat.le_of_lt hlt)).congr hsizes₁
        obtain ⟨hsizes, hon, hmod, hview⟩ := ih hon₁ (Nat.zero_le _) hloop
        have hmove : ringDistance chunks { pos with offset := pos.offset + data.length } ≡
            ringDistance chunks pos + data.length [MOD circBufSize chunks] := by
          rw [ringDistance, ringDistance, Nat.add_assoc]
        refine ⟨hsizes₁.trans hsizes, hon, ?_, ?_⟩
        · rw [← ringDistance_congr hsizes₁, ← circBufSize_congr hsizes₁] at hmod
          exact hmod.trans hmove
        · have hpieces := ringView_of_pieces hsizes₁ hsizes hmove (by simpa using hdata)
            (ringView_set_storeAt h hfit) hview
          rwa [append_nil] at hpieces
      · rename_i hge
        have hleft : (data.take ((chunkAt chunks pos.node).length - pos.offset)).length =
            (chunkAt chunks pos.node).length - pos.offset := by
          rw [length_take]
          omega
        generalize hfirst : data.take ((chunkAt chunks pos.node).length - pos.offset) = first
          at hloop hleft
        generalize hrest : data.drop ((chunkAt chunks pos.node).length - pos.offset) = rest
          at hloop
        have hsplit : data = first ++ rest := by
          rw [← hfirst, ← hrest, take_append_drop]
        rw [hsplit, length_append] at hdata
        have hfit : pos.offset + first.length ≤ (chunkAt chunks pos.node).length := by omega
        have hsizes₁ := (map_length_set_storeAt h.node_lt hfit).symm
        have hon₁ := h.next.congr hsizes₁
        have hfits : rest.length ≤ circBufSize
            (chunks.set pos.node (storeAt (chunkAt chunks pos.node) pos.offset first)) := by
          rw [← circBufSize_congr hsizes₁]
          omega
        obtain ⟨hsizes, hon, hmod, hview⟩ := ih hon₁ hfits hloop
        have hmove := ringDistance_next h
        rw [← hleft] at hmove
        refine ⟨hsizes₁.trans hsizes, hon, ?_, ?_⟩
        · rw [← ringDistance_congr hsizes₁, ← circBufSize_congr hsizes₁] at hmod
          refine hmod.trans ((hmove.add_right _).trans ?_)
          rw [hsplit, length_append, Nat.add_assoc]
        · rw [hsplit]
          exact ringView_of_pieces hsizes₁ hsizes hmove hdata (ringView_set_storeAt h hfit) hview

/-! ## The loops come to an end -/

/-- The bytes that a walk passes in `k` rounds. -/
def ringReach (chunks : List (List UInt8)) : ℕ → ChunkPos → ℕ
  | 0, _ => 0
  | k + 1, pos => (chunkAt chunks pos.node).length - pos.offset +
      ringReach chunks k ⟨nextChunkNode chunks pos.node, 0⟩

lemma ringReach_of_le (k node : ℕ) (h : node + k ≤ chunks.length) :
    circBufSize (chunks.take node) + ringReach chunks k ⟨node, 0⟩ =
      circBufSize (chunks.take (node + k)) := by
  induction k generalizing node with
  | zero => rfl
  | succ k ih =>
    have hlt : node < chunks.length := by omega
    rw [ringReach, Nat.sub_zero, ← Nat.add_assoc, ← circBufSize_take_succ hlt]
    by_cases hlast : node + 1 < chunks.length
    · have hnext : nextChunkNode chunks node = node + 1 := if_pos hlast
      rw [hnext, ih (node + 1) (by omega), Nat.add_right_comm, Nat.add_assoc]
    · have hk : k = 0 := by omega
      rw [hk]
      rfl

lemma ringReach_add (h : node < chunks.length) (m : ℕ) (hk : node + k = chunks.length) :
    ringReach chunks (k + m) ⟨node, 0⟩ =
      ringReach chunks k ⟨node, 0⟩ + ringReach chunks m ⟨0, 0⟩ := by
  induction k generalizing node with
  | zero => omega
  | succ k ih =>
    rw [Nat.add_right_comm, ringReach, ringReach, Nat.add_assoc]
    by_cases hlast : node + 1 < chunks.length
    · have hnext : nextChunkNode chunks node = node + 1 := if_pos hlast
      rw [hnext, ih hlast (by omega)]
    · have hnext : nextChunkNode chunks node = 0 := if_neg hlast
      have hk : k = 0 := by omega
      rw [hnext, hk, Nat.zero_add, ringReach, Nat.zero_add]

lemma circBufSize_le_ringReach (h : OnRing chunks pos) :
    circBufSize chunks ≤ ringReach chunks (chunks.length + 1) pos := by
  have hnext := h.next.node_lt
  dsimp only at hnext
  rw [ringReach]
  generalize nextChunkNode chunks pos.node = node at hnext
  have hround : ringReach chunks chunks.length ⟨node, 0⟩ = circBufSize chunks := by
    have hsplit : chunks.length = (chunks.length - node) + node := by omega
    have hrest : node + (chunks.length - node) = chunks.length := by omega
    have hfirst := ringReach_of_le (chunks.length - node) node hrest.le
    have hsecond := ringReach_of_le node 0 (Nat.zero_add node ▸ hnext.le)
    have hadd := ringReach_add hnext node hrest
    rw [← hsplit] at hadd
    rw [Nat.add_sub_cancel' hnext.le, take_length] at hfirst
    rw [take_zero, Nat.zero_add] at hsecond
    have hzero : circBufSize [] = 0 := rfl
    omega
  omega

lemma shiftLoop_isSome (h : counter ≤ ringReach chunks k pos) :
    (shiftLoop chunks (k + 1) pos counter).isSome := by
  induction k generalizing pos counter with
  | zero =>
    rw [ringReach, Nat.le_zero] at h
    rw [shiftLoop, if_pos h]
    rfl
  | succ k ih =>
    rw [ringReach] at h
    rw [shiftLoop]
    split
    · rfl
    · dsimp only
      split
      · exact ih (Nat.zero_le _)
      · exact ih (by omega)

lemma readLoop_isSome (h : counter ≤ ringReach chunks k pos) :
    (readLoop chunks (k + 1) pos counter).isSome := by
  induction k generalizing pos counter with
  | zero =>
    rw [ringReach, Nat.le_zero] at h
    rw [readLoop, if_pos h]
    rfl
  | succ k ih =>
    rw [ringReach] at h
    rw [readLoop]
    split
    · rfl
    · dsimp only
      split
      · rw [Option.isSome_map]
        exact ih (Nat.zero_le _)
      · rw [Option.isSome_map]
        refine ih ?_
        rw [length_drop]
        omega

lemma ringReach_congr (h : chunks.map List.length = chunks'.map List.length) (k : ℕ)
    (pos : ChunkPos) : ringReach chunks k pos = ringReach chunks' k pos := by
  have hlength : chunks.length = chunks'.length := by
    simpa using congrArg List.length h
  have hchunk : ∀ node, (chunkAt chunks node).length = (chunkAt chunks' node).length := by
    intro node
    have hget : ((chunks.map List.length)[node]?).getD 0 =
        ((chunks'.map List.length)[node]?).getD 0 := by rw [h]
    have hlen : ∀ chunk : Option (List UInt8),
        (chunk.map List.length).getD 0 = (chunk.getD []).length := by
      intro chunk
      cases chunk with
      | none | some _ => rfl
    rwa [getElem?_map, getElem?_map, hlen, hlen] at hget
  induction k generalizing pos with
  | zero => rfl
  | succ k ih => rw [ringReach, ringReach, hchunk, nextChunkNode, nextChunkNode, hlength, ih]

lemma dataCopyLoop_isSome (hon : OnRing chunks pos) (h : data.length ≤ ringReach chunks k pos) :
    (dataCopyLoop (k + 1) chunks pos data).isSome := by
  induction k generalizing chunks pos data with
  | zero =>
    rw [ringReach, Nat.le_zero] at h
    rw [dataCopyLoop, if_pos h]
    rfl
  | succ k ih =>
    have hle := hon.offset_le
    rw [ringReach] at h
    rw [dataCopyLoop]
    split
    · rfl
    · dsimp only
      split
      · rename_i hlt
        have hfit : pos.offset + data.length ≤ (chunkAt chunks pos.node).length := by omega
        have hsizes := (map_length_set_storeAt hon.node_lt hfit).symm
        exact ih ((hon.advance (Nat.le_of_lt hlt)).congr hsizes) (Nat.zero_le _)
      · have hfit : pos.offset +
            (data.take ((chunkAt chunks pos.node).length - pos.offset)).length ≤
              (chunkAt chunks pos.node).length := by
          rw [length_take]
          omega
        have hsizes := (map_length_set_storeAt hon.node_lt hfit).symm
        refine ih (hon.next.congr hsizes) ?_
        rw [← ringReach_congr hsizes, length_drop]
        omega

end AudioReach
