import AudioReach.SpfCircBuf.Recreate

/-!
# Once around the ring

A lap is what a client passes that moves from frame to frame until it is back where it was: the
rest of its chunk, the chunks that follow around the ring, and the frames of its chunk that are
before it.  Moving to the next frame turns the lap by one.
-/

namespace AudioReach.SpfCircBuf

open List

/-- What `f` gives for each chunk node, once around the ring from the `k`th entry of `x` on. -/
def CircBuf.around {α : Type} (b : CircBuf) (f : ℕ → List α) (x k : ℕ) : List α :=
  ((x :: nodesAfter b.chunkList x).flatMap f).rotate k

/-- What a client can rely on when it moves: the nodes are distinct and have their chunks. -/
structure CircBuf.Linked (b : CircBuf) : Prop where
  nodup : b.chunkList.Nodup
  alive : ∀ n ∈ b.chunkList, ∃ c, b.chunk n = some c

lemma CircBuf.Sound.linked {b : CircBuf} (h : b.Sound) : b.Linked := ⟨h.nodup, h.alive⟩

section Around

variable {b : CircBuf} {α : Type} {f : ℕ → List α} {x k : ℕ} {c : Chunk}

/-- A lap from the next node is the lap with the entries of this node at its end. -/
lemma CircBuf.around_next (hnd : b.chunkList.Nodup) (hx : x ∈ b.chunkList) {y : ℕ}
    (hy : b.nextChunkNode x = some y) :
    y ∈ b.chunkList ∧ b.around f y 0 = b.around f x (f x).length := by
  rw [nextChunkNode_eq hnd hx, Option.some.injEq] at hy
  have hturn := isRotated_nodesAfter hnd hx
  rw [around, around, rotate_zero, flatMap_cons (x := x), rotate_append_length_eq]
  cases hafter : nodesAfter b.chunkList x with
  | nil =>
    obtain rfl : x = y := by simpa [hafter] using hy
    refine ⟨hx, ?_⟩
    simp [hafter]
  | cons z t =>
    obtain rfl : z = y := by simpa [hafter] using hy
    rw [hafter] at hturn
    have hnext : nodesAfter b.chunkList z = t ++ [x] := by
      apply nodesAfter_of_isRotated hnd
      have hrot : x :: z :: t ~r z :: t ++ [x] := by
        simpa using @isRotated_append _ [x] (z :: t)
      exact hturn.trans hrot
    refine ⟨hturn.mem_iff.mpr (by simp), ?_⟩
    rw [hnext]
    simp

/-- **Turning the lap.**  A client that moves to the next frame passes the first entry of its
lap. -/
lemma CircBuf.advance_around (hb : b.Linked) (hx : x ∈ b.chunkList) (hc : b.chunk x = some c)
    (hlen : (f x).length = b.framesIn c) (hk : k < b.framesIn c) (o : ℕ) :
    ∃ y d j, b.advanceToNextFrame ⟨some x, k * b.chunkFrameSize c.frameSize, o⟩ =
        some ⟨some y, j * b.chunkFrameSize d.frameSize, 0⟩ ∧
      y ∈ b.chunkList ∧ b.chunk y = some d ∧ j < b.framesIn d ∧ (y = x ∨ j = 0) ∧
      b.around f y j = (b.around f x k).rotate 1 := by
  rw [advance_frame hc]
  by_cases hlast : k + 1 < b.framesIn c
  · refine ⟨x, c, k + 1, congrArg some (if_pos hlast), hx, hc, hlast, Or.inl rfl, ?_⟩
    rw [around, around, rotate_rotate]
  · obtain ⟨y, hy⟩ : ∃ y, b.nextChunkNode x = some y := ⟨_, nextChunkNode_eq hb.nodup hx⟩
    obtain ⟨hmem, haround⟩ := around_next hb.nodup hx hy
    obtain ⟨d, hd⟩ := hb.alive y hmem
    refine ⟨y, d, 0, ?_, hmem, hd, b.framesIn_pos d, Or.inr rfl, ?_⟩
    · rw [if_neg hlast, hy, Nat.zero_mul]
    · have hfull : (f x).length = k + 1 := by omega
      rw [haround, around, around, rotate_rotate, hfull]

lemma CircBuf.head?_around (hk : k < (f x).length) : (b.around f x k).head? = (f x)[k]? := by
  rw [around, flatMap_cons, head?_rotate (by rw [length_append]; omega), getElem?_append_left hk]

end Around

end AudioReach.SpfCircBuf
