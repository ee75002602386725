import Mathlib.Data.List.GetD
import AudioReach.Gpr.Packet

/-!
# The packet pool query

`__gpr_cmd_get_gpr_packet_info_v2` of `gpr_drv.c` writes one entry for each packet pool.
Its two loops share the running index: the static loop leaves it at the number of static
pools, and the dynamic loop goes on from there, as index into the caller's array and into
the array of dynamic pools alike.  So it is right when one of the two kinds is missing.
With both kinds present the first dynamic pools are skipped, and as many entries at the end
stay as the caller left them.

The pools' layout does not change after the initialisation, so this is so after any calls.
-/

namespace AudioReach

open Library List

/-! ## The query -/

/-- An entry of the caller's `packet_pool_info_arr`. -/
structure GprPacketPoolEntry where
  info : GprPacketPoolInfo
  /-- The `reserved` word. -/
  reserved : UInt32
  deriving DecidableEq, Repr

/-- What the query leaves behind. -/
structure GprPacketInfoReply where
  /-- `*num_packet_pools`, if the pointer was given. -/
  numPacketPools : Option UInt32
  /-- `packet_pool_info_arr`, if the pointer was given. -/
  packetPoolInfoArr : Option (ℕ → GprPacketPoolEntry)
  reads : List GprPool

namespace GprCtxt

/-- The entry of a static pool. -/
def staticPoolEntry (ctx : GprCtxt) (idx : ℕ) : GprPacketPoolEntry :=
  ⟨⟨false, (ctx.staticPoolArr idx).heapIndex, (ctx.staticPoolArr idx).numPackets,
    (ctx.staticPoolArr idx).bufSize⟩, 0⟩

/-- The entry of a dynamic pool. -/
def dynPoolEntry (ctx : GprCtxt) (idx : ℕ) : GprPacketPoolEntry :=
  ⟨⟨true, (ctx.dynPoolArr idx).heapIndex, (ctx.dynPoolArr idx).maxNumPackets,
    (ctx.dynPoolArr idx).bufSize⟩, 0⟩

/-- `__gpr_cmd_get_gpr_packet_info_v2`.  Both pointers may be null.  `idx` runs from zero
over the static pools and from their number on over the dynamic ones. -/
def gprCmdGetGprPacketInfoV2 (ctx : GprCtxt) (wantsNum : Bool)
    (arr : Option (ℕ → GprPacketPoolEntry)) : ArResult × GprPacketInfoReply :=
  let numPools := UInt32.ofNat (ctx.numStaticPacketPools + ctx.numDynPacketPools)
  let statics := range ctx.numStaticPacketPools
  let dynamics := range' ctx.numStaticPacketPools (ctx.numDynPacketPools - ctx.numStaticPacketPools)
  (.eok,
    { numPacketPools := if wantsNum then some numPools else none
      packetPoolInfoArr := arr.map fun entries =>
        let entries := statics.foldl
          (fun entries idx => Function.update entries idx (ctx.staticPoolEntry idx)) entries
        dynamics.foldl
          (fun entries idx => Function.update entries idx (ctx.dynPoolEntry idx)) entries
      reads := if arr.isSome then statics.map .static ++ dynamics.map .dyn else [] })

/-! ## What the caller expects -/

/-- The entries a configuration asks for: the static pools, then the dynamic ones. -/
def expectedEntries (pools : List GprPacketPoolInfo) : List GprPacketPoolEntry :=
  (pools.filter (fun p => !p.isDynamic) ++ pools.filter (fun p => p.isDynamic)).map (⟨·, 0⟩)

/-- The query reports the configured pools into every array and stays inside the arrays of
pools. -/
structure ReportsPools (ctx : GprCtxt) (pools : List GprPacketPoolInfo) : Prop where
  count : ∀ arr, (ctx.gprCmdGetGprPacketInfoV2 true arr).2.numPacketPools =
    some (UInt32.ofNat pools.length)
  entries : ∀ arr, ∃ out,
    (ctx.gprCmdGetGprPacketInfoV2 true (some arr)).2.packetPoolInfoArr = some out ∧
      (range pools.length).map out = expectedEntries pools
  reads : ∀ arr, ∀ pool ∈ (ctx.gprCmdGetGprPacketInfoV2 true arr).2.reads, match pool with
    | .static idx => idx < ctx.numStaticPacketPools
    | .dyn idx => idx < ctx.numDynPacketPools

/-! ## Loops that fill an array -/

/-- A loop that writes entry `i` in round `i`. -/
lemma foldl_update_apply {α : Type*} (f : ℕ → α) (idxs : List ℕ) (arr : ℕ → α) (j : ℕ) :
    idxs.foldl (fun arr i => Function.update arr i (f i)) arr j =
      if j ∈ idxs then f j else arr j := by
  induction idxs generalizing arr with
  | nil => simp
  | cons i idxs ih =>
    rw [foldl_cons, ih]
    by_cases hj : j ∈ idxs
    · simp [hj]
    · by_cases hji : j = i
      · simp [hji]
      · simp [hj, hji]

lemma packetPoolInfoArr_eq (ctx : GprCtxt) (wantsNum : Bool) (arr : ℕ → GprPacketPoolEntry) :
    (ctx.gprCmdGetGprPacketInfoV2 wantsNum (some arr)).2.packetPoolInfoArr = some fun j =>
      if j < ctx.numStaticPacketPools then ctx.staticPoolEntry j
      else if j < ctx.numDynPacketPools then ctx.dynPoolEntry j
      else arr j := by
  unfold gprCmdGetGprPacketInfoV2
  simp only [Option.map_some, Option.some.injEq]
  funext j
  rw [foldl_update_apply, foldl_update_apply]
  simp only [mem_range, mem_range'_1]
  by_cases hs : j < ctx.numStaticPacketPools
  · have hd : ¬ (ctx.numStaticPacketPools ≤ j ∧ j < ctx.numStaticPacketPools +
        (ctx.numDynPacketPools - ctx.numStaticPacketPools)) := fun h => absurd hs (not_lt.mpr h.1)
    rw [if_neg hd, if_pos hs, if_pos hs]
  · by_cases hd : j < ctx.numDynPacketPools
    · rw [if_pos (by omega), if_neg hs, if_pos hd]
    · rw [if_neg (by omega), if_neg hs, if_neg hs, if_neg hd]

lemma reads_in_range (ctx : GprCtxt) (wantsNum : Bool) (arr : Option (ℕ → GprPacketPoolEntry)) :
    ∀ pool ∈ (ctx.gprCmdGetGprPacketInfoV2 wantsNum arr).2.reads, match pool with
      | .static idx => idx < ctx.numStaticPacketPools
      | .dyn idx => idx < ctx.numDynPacketPools := by
  intro pool hpool
  unfold gprCmdGetGprPacketInfoV2 at hpool
  dsimp only at hpool
  split at hpool
  · rcases mem_append.mp hpool with h | h
    · obtain ⟨idx, hidx, rfl⟩ := mem_map.mp h
      exact mem_range.mp hidx
    · obtain ⟨idx, hidx, rfl⟩ := mem_map.mp h
      have := mem_range'_1.mp hidx
      omega
  · cases hpool

/-! ## The pools' layout stays -/

/-- The context knows the configured pools. -/
structure KnowsPools (ctx : GprCtxt) (pools : List GprPacketPoolInfo) : Prop where
  numStatic : ctx.numStaticPacketPools = (pools.filter (fun p => !p.isDynamic)).length
  numDyn : ctx.numDynPacketPools = (pools.filter (fun p => p.isDynamic)).length
  static : ∀ i p, (pools.filter (fun p => !p.isDynamic))[i]? = some p →
    ctx.staticPoolEntry i = ⟨p, 0⟩
  dyn : ∀ i p, (pools.filter (fun p => p.isDynamic))[i]? = some p → ctx.dynPoolEntry i = ⟨p, 0⟩

/-- Two contexts of which the query reports the same. -/
structure SameEntries (ctx ctx' : GprCtxt) : Prop where
  numStatic : ctx'.numStaticPacketPools = ctx.numStaticPacketPools
  numDyn : ctx'.numDynPacketPools = ctx.numDynPacketPools
  static : ctx'.staticPoolEntry = ctx.staticPoolEntry
  dyn : ctx'.dynPoolEntry = ctx.dynPoolEntry

namespace SameEntries

variable {ctx ctx' ctx'' : GprCtxt}

lemma refl (ctx : GprCtxt) : SameEntries ctx ctx := ⟨rfl, rfl, rfl, rfl⟩

lemma trans (h : SameEntries ctx ctx') (h' : SameEntries ctx' ctx'') : SameEntries ctx ctx'' :=
  ⟨h'.numStatic.trans h.numStatic, h'.numDyn.trans h.numDyn, h'.static.trans h.static,
    h'.dyn.trans h.dyn⟩

lemma setFreeQ (ctx : GprCtxt) (idx : ℕ) (queue : List ℕ) :
    SameEntries ctx (ctx.setStatic idx { ctx.staticPoolArr idx with freeQ := queue }) := by
  refine ⟨rfl, rfl, ?_, rfl⟩
  funext j
  by_cases hj : j = idx
  · subst hj
    simp [staticPoolEntry, setStatic]
  · simp [staticPoolEntry, setStatic, hj]

lemma setCurr (ctx : GprCtxt) (idx : ℕ) (curr : UInt32) :
    SameEntries ctx (ctx.setCurr idx curr) := by
  refine ⟨rfl, rfl, rfl, ?_⟩
  funext j
  by_cases hj : j = idx
  · subst hj
    simp [dynPoolEntry, GprCtxt.setCurr]
  · simp [dynPoolEntry, GprCtxt.setCurr, hj]

end SameEntries

variable {ctx : GprCtxt}

lemma sameEntries_allocStatic (ctx : GprCtxt) (packetSize heapIndex : UInt32) :
    SameEntries ctx (ctx.allocStatic packetSize heapIndex).2.2 := by
  unfold allocStatic
  split
  · exact .refl ctx
  · next idx _ =>
    simp only [gprMemqAlloc]
    split
    · exact .refl ctx
    · exact .setFreeQ ctx idx _

lemma sameEntries_gprAllocateDynamicPacket (ctx : GprCtxt) (packet : Option GprPacket)
    (size : UInt32) (outcome : GprMallocOutcome) :
    SameEntries ctx (ctx.gprAllocateDynamicPacket packet size outcome).2 := by
  cases outcome <;> exact ⟨rfl, rfl, rfl, rfl⟩

lemma sameEntries_allocDynamic (packetSize heapIndex : UInt32) (mallocs : ℕ → GprMallocOutcome)
    (idxs : List ℕ) (found : Option GprPacket × List GprPool × GprCtxt) :
    SameEntries found.2.2 (allocDynamic packetSize heapIndex mallocs idxs found).2.2 := by
  induction idxs generalizing found with
  | nil => exact .refl _
  | cons idx rest ih =>
    obtain ⟨packet, charged, ctx⟩ := found
    unfold allocDynamic
    split
    · have hmalloc := ctx.sameEntries_gprAllocateDynamicPacket packet packetSize (mallocs idx)
      split
      · next ctx' heq =>
        rw [heq] at hmalloc
        exact hmalloc
      · next packet' ctx' heq =>
        rw [heq] at hmalloc
        have hrest := ih (some packet', charged ++ [.dyn idx],
          ctx'.setCurr idx ((ctx'.dynPoolArr idx).currNumPackets + 1))
        exact (hmalloc.trans (.setCurr ctx' idx _)).trans hrest
    · exact ih (packet, charged, ctx)

/-- `__gpr_cmd_alloc_v2` keeps the layout. -/
lemma sameEntries_gprCmdAllocV2 (ctx : GprCtxt) (allocSize heapIndex : UInt32)
    (mallocs : ℕ → GprMallocOutcome) :
    SameEntries ctx (ctx.gprCmdAllocV2 allocSize heapIndex mallocs).2.2 := by
  have hstatic := ctx.sameEntries_allocStatic (gprPktHeaderByteSize + allocSize) heapIndex
  have hfound : SameEntries ctx
      (if (ctx.allocStatic (gprPktHeaderByteSize + allocSize) heapIndex).1 = none then
        allocDynamic (gprPktHeaderByteSize + allocSize) heapIndex mallocs
          (range ctx.numDynPacketPools)
          (none, [], (ctx.allocStatic (gprPktHeaderByteSize + allocSize) heapIndex).2.2)
      else ctx.allocStatic (gprPktHeaderByteSize + allocSize) heapIndex).2.2 := by
    split
    · exact hstatic.trans (sameEntries_allocDynamic _ _ mallocs _
        (none, [], (ctx.allocStatic (gprPktHeaderByteSize + allocSize) heapIndex).2.2))
    · exact hstatic
  unfold gprCmdAllocV2
  dsimp only
  split
  · next heq =>
    rw [heq] at hfound
    exact hfound
  · next heq =>
    rw [heq] at hfound
    exact ⟨hfound.numStatic, hfound.numDyn, hfound.static, hfound.dyn⟩

/-- `__gpr_cmd_free` keeps the layout. -/
lemma sameEntries_gprCmdFree (packet : GprPacket) : SameEntries ctx (ctx.gprCmdFree packet).2 := by
  have htaken : SameEntries ctx { ctx with
      live := ctx.live.filter (fun l => l.packet ≠ packet)
      returned := ctx.returned ++ [packet] } := ⟨rfl, rfl, rfl, rfl⟩
  unfold gprCmdFree
  cases packet with
  | unit idx u =>
    dsimp only
    split
    · unfold gprMemqFree
      dsimp only
      split
      · exact htaken
      · exact htaken.trans (.setFreeQ _ idx _)
    · exact htaken
  | dyn address =>
    dsimp only
    split
    · next idx _ =>
      refine htaken.trans (.trans ?_ (.setCurr _ idx _))
      exact ⟨rfl, rfl, rfl, rfl⟩
    · exact htaken

/-- `__gpr_cmd_end_command` keeps the layout. -/
lemma sameEntries_gprCmdEndCommand (packet : GprPacket) (opcode : UInt32)
    (mallocs : ℕ → GprMallocOutcome) (sendRc : ArResult) :
    SameEntries ctx (ctx.gprCmdEndCommand packet opcode mallocs sendRc).2 := by
  unfold gprCmdEndCommand
  split
  · have halloc := ctx.sameEntries_gprCmdAllocV2 8 (ctx.responseHeapIndex packet) mallocs
    split
    · next response ctx' heq =>
      rw [heq] at halloc
      split
      · exact halloc.trans (sameEntries_gprCmdFree packet)
      · exact (halloc.trans (sameEntries_gprCmdFree response)).trans (sameEntries_gprCmdFree packet)
    · next ctx' heq =>
      rw [heq] at halloc
      exact halloc.trans (sameEntries_gprCmdFree packet)
  · exact sameEntries_gprCmdFree packet

lemma sameEntries_step (call : GprPacketCall) : SameEntries ctx (ctx.step call) := by
  cases call with
  | alloc allocSize heapIndex mallocs =>
    exact ctx.sameEntries_gprCmdAllocV2 allocSize heapIndex mallocs
  | free packet => exact sameEntries_gprCmdFree packet
  | endCommand packet opcode mallocs sendRc =>
    exact sameEntries_gprCmdEndCommand packet opcode mallocs sendRc

lemma KnowsPools.of_same {ctx' : GprCtxt} {pools : List GprPacketPoolInfo}
    (h : ctx.KnowsPools pools) (hsame : SameEntries ctx ctx') : ctx'.KnowsPools pools where
  numStatic := hsame.numStatic.trans h.numStatic
  numDyn := hsame.numDyn.trans h.numDyn
  static i p hp := by rw [hsame.static, h.static i p hp]
  dyn i p hp := by rw [hsame.dyn, h.dyn i p hp]

/-- The initialisation splits the configuration into the two arrays. -/
lemma gprDrvInternalInitV2_knows {entrySize : ℕ} {mallocOk : Bool} {receiveDone : ArResult}
    {pools : List GprPacketPoolInfo}
    (hinit : gprDrvInternalInitV2 entrySize mallocOk receiveDone pools = .ok ctx) :
    ctx.KnowsPools pools ∧ pools.length ≤ 128 := by
  unfold gprDrvInternalInitV2 at hinit
  dsimp only at hinit
  split at hinit
  · cases hinit
  · next hlength =>
    split_ifs at hinit
    obtain rfl := Except.ok.inj hinit
    refine ⟨⟨rfl, rfl, ?_, ?_⟩, not_lt.mp hlength⟩
    · intro i p hp
      have hkind : p.isDynamic = false := by
        simpa using (mem_filter.mp (mem_of_getElem? hp)).2
      have hentry : ((pools.filter (fun p => !p.isDynamic)).map
          (GprPacketPoolInfo.staticPool entrySize)).getD i default = p.staticPool entrySize := by
        rw [getD_eq_getElem?_getD, getElem?_map, hp]
        rfl
      simp only [staticPoolEntry, hentry, GprPacketPoolInfo.staticPool]
      rw [← hkind]
    · intro i p hp
      have hkind : p.isDynamic = true := by
        simpa using (mem_filter.mp (mem_of_getElem? hp)).2
      have hentry : ((pools.filter (fun p => p.isDynamic)).map
          GprPacketPoolInfo.dynPool).getD i default = p.dynPool := by
        rw [getD_eq_getElem?_getD, getElem?_map, hp]
        rfl
      simp only [dynPoolEntry, hentry, GprPacketPoolInfo.dynPool]
      rw [← hkind]

lemma KnowsPools.run {pools : List GprPacketPoolInfo} (h : ctx.KnowsPools pools)
    (calls : List GprPacketCall) : (run GprCtxt.step ctx calls).KnowsPools pools := by
  induction calls generalizing ctx with
  | nil => exact h
  | cons call calls ih => exact ih (h.of_same (sameEntries_step call))

/-! ## When the query is right -/

variable {pools : List GprPacketPoolInfo}

section

variable (h : ctx.KnowsPools pools)
include h

lemma KnowsPools.length_eq : pools.length = ctx.numStaticPacketPools + ctx.numDynPacketPools := by
  have hsplit := length_eq_length_filter_add (l := pools) (fun p => p.isDynamic)
  rw [h.numStatic, h.numDyn, hsplit, Nat.add_comm]

lemma KnowsPools.count (arr : Option (ℕ → GprPacketPoolEntry)) :
    (ctx.gprCmdGetGprPacketInfoV2 true arr).2.numPacketPools =
      some (UInt32.ofNat pools.length) := by
  rw [h.length_eq]
  rfl

/-- Pools of one kind are all reported. -/
lemma KnowsPools.reports_of_uniform
    (hkind : (∀ p ∈ pools, p.isDynamic = false) ∨ ∀ p ∈ pools, p.isDynamic = true) :
    ctx.ReportsPools pools := by
  refine ⟨h.count, fun arr => ⟨_, packetPoolInfoArr_eq ctx true arr, ?_⟩, reads_in_range ctx true⟩
  rcases hkind with hstatic | hdyn
  · have hall : pools.filter (fun p => !p.isDynamic) = pools :=
      filter_eq_self.mpr fun p hp => by simp [hstatic p hp]
    have hnone : pools.filter (fun p => p.isDynamic) = [] :=
      filter_eq_nil_iff.mpr fun p hp => by simp [hstatic p hp]
    rw [expectedEntries, hall, hnone, append_nil]
    refine ext_getElem (by simp) fun i hi hi' => ?_
    have hlt : i < pools.length := by simpa using hi
    have hentry := h.static i pools[i] (by rw [hall, getElem?_eq_getElem hlt])
    have hnum : i < ctx.numStaticPacketPools := by rw [h.numStatic, hall]; exact hlt
    simp [hnum, hentry]
  · have hall : pools.filter (fun p => p.isDynamic) = pools :=
      filter_eq_self.mpr fun p hp => by simp [hdyn p hp]
    have hnone : pools.filter (fun p => !p.isDynamic) = [] :=
      filter_eq_nil_iff.mpr fun p hp => by simp [hdyn p hp]
    rw [expectedEntries, hall, hnone, nil_append]
    refine ext_getElem (by simp) fun i hi hi' => ?_
    have hlt : i < pools.length := by simpa using hi
    have hentry := h.dyn i pools[i] (by rw [hall, getElem?_eq_getElem hlt])
    have hnum : i < ctx.numDynPacketPools := by rw [h.numDyn, hall]; exact hlt
    have hnot : ¬ i < ctx.numStaticPacketPools := by
      rw [h.numStatic, hnone]
      exact Nat.not_lt_zero i
    simp [hnum, hnot, hentry]

/-- With both kinds present the last entry is not written. -/
lemma KnowsPools.not_reports_of_mixed (hstatic : 0 < ctx.numStaticPacketPools)
    (hdyn : 0 < ctx.numDynPacketPools) : ¬ ctx.ReportsPools pools := by
  intro hreports
  obtain ⟨out, hout, hentries⟩ := hreports.entries fun _ => ⟨⟨false, 0, 0, 0⟩, 0⟩
  rw [packetPoolInfoArr_eq] at hout
  obtain rfl := Option.some.inj hout
  obtain ⟨statics, hstatics⟩ : ∃ ps, ps = pools.filter (fun p => !p.isDynamic) := ⟨_, rfl⟩
  obtain ⟨dynamics, hdynamics⟩ : ∃ ps, ps = pools.filter (fun p => p.isDynamic) := ⟨_, rfl⟩
  have hnumStatic : ctx.numStaticPacketPools = statics.length := by rw [h.numStatic, hstatics]
  have hnumDyn : ctx.numDynPacketPools = dynamics.length := by rw [h.numDyn, hdynamics]
  have hlen := h.length_eq
  -- the last entry belongs to the last dynamic pool
  have hlast : ctx.numDynPacketPools - 1 < dynamics.length := by omega
  have hpool : (expectedEntries pools)[pools.length - 1]? =
      some ⟨dynamics[ctx.numDynPacketPools - 1], 0⟩ := by
    have hindex : pools.length - 1 = statics.length + (ctx.numDynPacketPools - 1) := by omega
    rw [expectedEntries, ← hstatics, ← hdynamics, getElem?_map, hindex,
      getElem?_append_right (by omega),
      Nat.add_sub_cancel_left, getElem?_eq_getElem hlast]
    rfl
  have hkind : dynamics[ctx.numDynPacketPools - 1].isDynamic = true := by
    have hall : ∀ p ∈ dynamics, p.isDynamic = true := fun p hp => by
      rw [hdynamics] at hp
      exact (mem_filter.mp hp).2
    exact hall _ (getElem_mem hlast)
  rw [← hentries, getElem?_map, getElem?_range (by omega), Option.map_some,
    if_neg (by omega), if_neg (by omega)] at hpool
  have hsame := congrArg (fun e => e.info.isDynamic) (Option.some.inj hpool)
  rw [hkind] at hsame
  exact Bool.false_ne_true hsame

end

/-- **The pool query.**  After the initialisation has accepted a list of pools, and after any
calls on them, the query reports every pool, the static ones first, exactly when the pools
are all static or all dynamic. -/
theorem gprCmdGetGprPacketInfoV2_reports_iff {entrySize : ℕ} {mallocOk : Bool}
    {receiveDone : ArResult} (hinit : gprDrvInternalInitV2 entrySize mallocOk receiveDone pools =
      .ok ctx) (calls : List GprPacketCall) :
    (run GprCtxt.step ctx calls).ReportsPools pools ↔
      (∀ p ∈ pools, p.isDynamic = false) ∨ ∀ p ∈ pools, p.isDynamic = true := by
  have hknows := (gprDrvInternalInitV2_knows hinit).1.run calls
  refine ⟨fun hreports => ?_, hknows.reports_of_uniform⟩
  by_contra hmixed
  push Not at hmixed
  obtain ⟨⟨d, hd, hdyn⟩, ⟨s, hs, hstatic⟩⟩ := hmixed
  refine hknows.not_reports_of_mixed ?_ ?_ hreports
  · rw [hknows.numStatic]
    exact length_pos_of_mem (mem_filter.mpr ⟨hs, by simpa using hstatic⟩)
  · rw [hknows.numDyn]
    exact length_pos_of_mem (mem_filter.mpr ⟨hd, by simpa using hdyn⟩)

/-- Two static pools, asked for after one allocation. -/
theorem gprCmdGetGprPacketInfoV2_reports_static :
    ∃ ctx, gprDrvInternalInitV2 16 true .eok [⟨false, 0, 4, 512⟩, ⟨false, 1, 2, 4096⟩] = .ok ctx ∧
      (run GprCtxt.step ctx [.alloc 100 0 fun _ => .ok]).ReportsPools
        [⟨false, 0, 4, 512⟩, ⟨false, 1, 2, 4096⟩] :=
  ⟨_, rfl, (@gprCmdGetGprPacketInfoV2_reports_iff _ [⟨false, 0, 4, 512⟩, ⟨false, 1, 2, 4096⟩] 16
    true .eok rfl _).mpr (.inl (by decide))⟩

/-- One static and one dynamic pool: the second entry is never written. -/
theorem not_gprCmdGetGprPacketInfoV2_reports :
    ¬ ∀ (entrySize : ℕ) (mallocOk : Bool) (receiveDone : ArResult)
        (pools : List GprPacketPoolInfo) (ctx : GprCtxt),
      gprDrvInternalInitV2 entrySize mallocOk receiveDone pools = .ok ctx →
      ctx.ReportsPools pools := by
  intro h
  obtain ⟨out, hout, hentries⟩ := (h 16 true .eok [⟨false, 0, 4, 512⟩, ⟨true, 0, 8, 1024⟩] _
    rfl).entries fun _ => ⟨⟨false, 0, 0, 0⟩, 7⟩
  obtain rfl := Option.some.inj hout
  revert hentries
  decide

end GprCtxt

end AudioReach
