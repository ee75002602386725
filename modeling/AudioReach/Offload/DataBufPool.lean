import AudioReach.ArResult
import AudioReach.Library.Runs

/-!
# The data buffer pools of an offloaded graph

The container that stands for a graph on another processor exchanges data with it through buffers
in shared memory.  Each read port and each write port has a pool of such buffers.  A node of a pool
is taken when its buffer is sent to the satellite and given back when the satellite is done.

`spdm_alloc_ipc_data_buffers` is called whenever the size of the buffers of a port is known anew.
It notes the size and adds or removes nodes until the pool has the required number.  Memory is
given only to the nodes that were just added: a node that finds its buffer too small gets a new one
when it is taken.

The loop of `spdm_alloc_data_pool_shm` goes on as long as it finds a node that waits for memory,
so it is a function of the number of rounds that are allowed.
-/

namespace AudioReach

open Function (update)

/-- `sdm_ipc_data_type_t`. -/
inductive IpcDataType
  | ipcWriteData
  | ipcReadData
  deriving DecidableEq, Repr

/-- `data_buf_pool_node_t`. -/
structure DataBufPoolNode where
  dataBufSize : UInt32
  offset : UInt32
  token : UInt32
  bufInUse : Bool
  pendingAlloc : Bool
  metaDataBufSize : UInt32
  /-- The size of the shared memory of `ipc_data_buf`, if there is any. -/
  shmAllocSize : Option UInt32
  deriving Repr

/-- `shmem_data_buf_pool_t`. -/
structure ShmemDataBufPool where
  bufSize : UInt32
  reqNumDataBuf : UInt32
  numDataBufInList : UInt32
  portDbList : List Addr
  deriving Repr

/-- The pool of a port that was just created. -/
def ShmemDataBufPool.empty : ShmemDataBufPool := ⟨0, 0, 0, []⟩

/-- A port is a read port or a write port, with an index. -/
abbrev PortKey := IpcDataType × ℕ

/-- What `spgm_info_t` holds of the data ports, and the nodes on the heap. -/
structure SpgmInfo where
  baseToken : UInt32
  tokenInstance : UInt32
  pool : PortKey → ShmemDataBufPool
  /-- The node that is being worked on, `active_buf_node_ptr`. -/
  activeBufNode : PortKey → Option Addr
  nodes : Addr → DataBufPoolNode
  liveNodes : List Addr
  next : Addr
  /-- The answers of the allocators to come; all later ones grant. -/
  grants : List Bool

namespace SpgmInfo

/-- A graph whose ports have just been created. -/
def init (baseToken : UInt32) (grants : List Bool) : SpgmInfo where
  baseToken := baseToken
  tokenInstance := 0
  pool _ := .empty
  activeBufNode _ := none
  nodes _ := ⟨0, 0, 0, false, false, 0, none⟩
  liveNodes := []
  next := 1
  grants := grants

/-- Change the pool of a port. -/
def updPool (w : SpgmInfo) (key : PortKey) (f : ShmemDataBufPool → ShmemDataBufPool) : SpgmInfo :=
  { w with pool := update w.pool key (f (w.pool key)) }

/-- Change a node. -/
def updNode (w : SpgmInfo) (a : Addr) (f : DataBufPoolNode → DataBufPoolNode) : SpgmInfo :=
  { w with nodes := update w.nodes a (f (w.nodes a)) }

/-- Set the active node of a port. -/
def setActive (w : SpgmInfo) (key : PortKey) (a : Option Addr) : SpgmInfo :=
  { w with activeBufNode := update w.activeBufNode key a }

/-- Does the next allocation succeed? -/
def granted (w : SpgmInfo) : Bool := w.grants.head?.getD true

/-- The next answer is used. -/
def ask (w : SpgmInfo) : SpgmInfo := { w with grants := w.grants.tail }

end SpgmInfo

/-- `GAURD_PROTECTION_BYTES`. -/
def guardProtectionBytes : UInt32 := 128

/-- `SPDM_MAX_IO_PORTS`. -/
def spdmMaxIoPorts : ℕ := 8

/-- `ALIGN_128_BYTES`. -/
def align128Bytes (a : UInt32) : UInt32 := (a + 127) &&& 0xFFFFFF80

/-! ## Nodes -/

namespace SpgmInfo

/-- `sgm_get_unique_token`. -/
def sgmGetUniqueToken (w : SpgmInfo) : UInt32 × SpgmInfo :=
  let counter := w.tokenInstance + 1
  (w.baseToken + (counter <<< 16),
    { w with tokenInstance := if counter = 0xFF then 0 else counter })

/-- `spdm_get_data_buf_node`. -/
def spdmGetDataBufNode (w : SpgmInfo) (key : PortKey) (token : UInt32) : Option Addr :=
  (w.pool key).portDbList.find? fun a => (w.nodes a).token == token

/-- `spdm_get_available_data_buf_node`. -/
def spdmGetAvailableDataBufNode (w : SpgmInfo) (key : PortKey) : Option Addr :=
  (w.pool key).portDbList.find? fun a => !(w.nodes a).bufInUse

/-- `spdm_get_empty_data_buf_node`. -/
def spdmGetEmptyDataBufNode (w : SpgmInfo) (key : PortKey) : Option Addr :=
  (w.pool key).portDbList.find? fun a => (w.nodes a).pendingAlloc

/-- `sgm_shmem_alloc` for a node. -/
def sgmShmemAlloc (w : SpgmInfo) (size : UInt32) (a : Addr) : ArResult × SpgmInfo :=
  if w.granted then
    (.eok, w.ask.updNode a fun n => { n with shmAllocSize := some size })
  else
    (.enomemory, w.ask)

/-- `sgm_shmem_free` for a node. -/
def sgmShmemFree (w : SpgmInfo) (a : Addr) : SpgmInfo :=
  w.updNode a fun n => { n with shmAllocSize := none }

/-- `sgm_util_add_node_to_list`. -/
def sgmUtilAddNodeToList (w : SpgmInfo) (key : PortKey) (a : Addr) : ArResult × SpgmInfo :=
  if w.granted then
    (.eok, w.ask.updPool key fun p =>
      { p with portDbList := p.portDbList ++ [a], numDataBufInList := p.numDataBufInList + 1 })
  else
    (.efailed, w.ask)

/-- `sgm_util_remove_node_from_list`. -/
def sgmUtilRemoveNodeFromList (w : SpgmInfo) (key : PortKey) (a : Addr) : SpgmInfo :=
  if a ∈ (w.pool key).portDbList then
    w.updPool key fun p =>
      { p with portDbList := p.portDbList.erase a, numDataBufInList := p.numDataBufInList - 1 }
  else
    w

/-- `posal_memory_malloc` of a node, with the fields set before it is added to the list. -/
def newNode (w : SpgmInfo) (token : UInt32) : SpgmInfo :=
  { w with
    nodes := update w.nodes w.next ⟨0, 0, token, false, true, 0, none⟩
    liveNodes := w.liveNodes ++ [w.next]
    next := w.next + 1 }

/-! ## The allocation of a pool -/

/-- `spdm_add_node_to_data_pool`. -/
def spdmAddNodeToDataPool (key : PortKey) : ℕ → SpgmInfo → ArResult × SpgmInfo
  | 0, w => (.eok, w)
  | n + 1, w =>
    if w.granted then
      let t := w.ask.sgmGetUniqueToken
      match (t.2.newNode t.1).sgmUtilAddNodeToList key t.2.next with
      | (.eok, w) => spdmAddNodeToDataPool key n w
      -- the node is not freed
      | (result, w) => (result, w)
    else
      (.enomemory, w.ask)

/-- `spdm_alloc_data_pool_shm`, with so many rounds of its loop. -/
def spdmAllocDataPoolShm (key : PortKey) : ℕ → SpgmInfo → Option (ArResult × SpgmInfo)
  | 0, _ => none
  | rounds + 1, w =>
    match w.spdmGetEmptyDataBufNode key with
    | none => some (.eok, w)
    | some a =>
      if (w.nodes a).shmAllocSize = none then
        match w.sgmShmemAlloc ((w.pool key).bufSize + 2 * guardProtectionBytes) a with
        | (.eok, w) =>
          spdmAllocDataPoolShm key rounds (w.updNode a fun n =>
            { n with dataBufSize := (w.pool key).bufSize, pendingAlloc := false })
        | (result, w) => some (result, w)
      else
        spdmAllocDataPoolShm key rounds (w.updNode a fun n => { n with pendingAlloc := true })

/-- `spdm_destroy_buffer_node`. -/
def spdmDestroyBufferNode (w : SpgmInfo) (key : PortKey) (a : Addr) : SpgmInfo :=
  (w.sgmShmemFree a).sgmUtilRemoveNodeFromList key a

/-- The loop of `spdm_remove_node_from_data_pool`. -/
def removeNodes (key : PortKey) : ℕ → SpgmInfo → ArResult × SpgmInfo
  | 0, w => (.eok, w)
  | n + 1, w =>
    match w.spdmGetAvailableDataBufNode key with
    | none => (.eunexpected, w)
    | some a =>
      let w := w.spdmDestroyBufferNode key a
      removeNodes key n { w with liveNodes := w.liveNodes.erase a }

/-- `spdm_remove_node_from_data_pool`. -/
def spdmRemoveNodeFromDataPool (w : SpgmInfo) (key : PortKey) (n : UInt32) : ArResult × SpgmInfo :=
  if (w.pool key).numDataBufInList < (w.pool key).reqNumDataBuf then (.eunexpected, w)
  else removeNodes key n.toNat w

/-- `spdm_update_data_buf_list`; the flag that says whether the size has changed is not used. -/
def spdmUpdateDataBufList (rounds : ℕ) (w : SpgmInfo) (key : PortKey) :
    Option (ArResult × SpgmInfo) :=
  let num := (w.pool key).numDataBufInList
  let req := (w.pool key).reqNumDataBuf
  if num < req then
    match spdmAddNodeToDataPool key (req - num).toNat w with
    | (.eok, w) => spdmAllocDataPoolShm key rounds w
    | (result, w) => some (result, w)
  else if req < num then
    some (w.spdmRemoveNodeFromDataPool key (num - req))
  else
    some (.eok, w)

/-- `spdm_update_num_ipc_buffers`. -/
def spdmUpdateNumIpcBuffers (w : SpgmInfo) (key : PortKey) : SpgmInfo :=
  w.updPool key fun p => { p with reqNumDataBuf := 1 }

/-- `spdm_update_buffer_size`. -/
def spdmUpdateBufferSize (w : SpgmInfo) (key : PortKey) (newBufSize : UInt32) : SpgmInfo :=
  w.updPool key fun p => { p with bufSize := align128Bytes newBufSize }

/-- `spdm_alloc_ipc_data_buffers`. -/
def spdmAllocIpcDataBuffers (rounds : ℕ) (w : SpgmInfo) (newBufSize : UInt32) (portIndex : ℕ)
    (dataType : IpcDataType) : Option (ArResult × SpgmInfo) :=
  if spdmMaxIoPorts ≤ portIndex then some (.eunexpected, w)
  else
    spdmUpdateDataBufList rounds
      ((w.spdmUpdateNumIpcBuffers (dataType, portIndex)).spdmUpdateBufferSize
        (dataType, portIndex) newBufSize)
      (dataType, portIndex)

/-! ## Buffers taken and given back -/

/-- `spdm_get_databuf_from_rd_datapool` and `spdm_get_databuf_from_wr_datapool`. -/
def spdmGetDatabufFromDatapool (w : SpgmInfo) (key : PortKey) : ArResult × SpgmInfo :=
  match w.activeBufNode key with
  | some _ => (.ealready, w)
  | none =>
    match w.spdmGetAvailableDataBufNode key with
    | none => (.efailed, w)
    | some a => (.eok, w.setActive key (some a))

/-- `spdm_recreate_rd_data_buffer`. -/
def spdmRecreateRdDataBuffer (w : SpgmInfo) (key : PortKey) (a : Addr) : ArResult × SpgmInfo :=
  let w := w.sgmShmemFree a
  let newDataBufSize := align128Bytes (w.nodes a).metaDataBufSize +
    align128Bytes (w.pool key).bufSize + 3 * guardProtectionBytes
  match w.sgmShmemAlloc newDataBufSize a with
  | (.eok, w) => (.eok, w.updNode a fun n => { n with dataBufSize := (w.pool key).bufSize })
  | (result, w) => (result, w)

/-- The end of `spdm_send_read_data_buffer`; `sent` says whether `sgm_ipc_send_data_pkt`
succeeds. -/
def sendPkt (w : SpgmInfo) (a : Addr) (sent : Bool) : ArResult × SpgmInfo :=
  if sent then (.eok, w.updNode a fun n => { n with bufInUse := true }) else (.efailed, w)

/-- `spdm_send_read_data_buffer`. -/
def spdmSendReadDataBuffer (w : SpgmInfo) (portIndex : ℕ) (a : Addr) (sent : Bool) :
    ArResult × SpgmInfo :=
  let key : PortKey := (.ipcReadData, portIndex)
  if (w.nodes a).bufInUse || (w.nodes a).offset != 0 then (.efailed, w)
  else
    let createRdPoolBuf := (w.nodes a).metaDataBufSize == 0
    let w := if createRdPoolBuf then w.updNode a fun n => { n with metaDataBufSize := 2048 } else w
    if (w.nodes a).dataBufSize < (w.pool key).bufSize || createRdPoolBuf then
      match w.spdmRecreateRdDataBuffer key a with
      | (.eok, w) => w.sendPkt a sent
      | (result, w) => (result, w)
    else
      w.sendPkt a sent

/-- One round of `sgm_send_n_read_buffers` and of `sgm_send_all_read_buffers`. -/
def sgmSendReadBuffer (w : SpgmInfo) (portIndex : ℕ) (sent : Bool) : SpgmInfo :=
  match w.spdmGetDatabufFromDatapool (.ipcReadData, portIndex) with
  | (.eok, w) =>
    match w.activeBufNode (.ipcReadData, portIndex) with
    | some a =>
      let w := w.updNode a fun n => { n with bufInUse := false, offset := 0 }
      (w.spdmSendReadDataBuffer portIndex a sent).2.setActive (.ipcReadData, portIndex) none
    | none => w
  | (_, w) => w

/-- `spdm_process_data_release_read_buffer`. -/
def spdmProcessDataReleaseReadBuffer (w : SpgmInfo) (portIndex : ℕ) (sent : Bool) : SpgmInfo :=
  match w.activeBufNode (.ipcReadData, portIndex) with
  | none => w
  | some a =>
    match w.spdmSendReadDataBuffer portIndex a sent with
    | (.eok, w) =>
      (w.updNode a fun n => { n with bufInUse := true }).setActive (.ipcReadData, portIndex) none
    | (_, w) => w

/-- The part of `spdm_process_data_read_done` and `spdm_process_render_read_done_data` that deals
with the node: the packet has this token and carries so much data, the output buffer, if there is
one, has so much room, and `spdm_read_meta_data` succeeds or not. -/
def spdmProcessDataReadDone (w : SpgmInfo) (portIndex : ℕ) (token dataSize : UInt32)
    (maxDataLen : Option UInt32) (mdRead : Bool) : SpgmInfo :=
  let key : PortKey := (.ipcReadData, portIndex)
  match w.spdmGetDataBufNode key (token &&& 0xFFFF0000), w.activeBufNode key with
  | some a, none =>
    if (w.nodes a).shmAllocSize = none then w
    else
      let w := w.setActive key (some a)
      match maxDataLen with
      | none => w
      | some maxDataLen =>
        if dataSize ≤ maxDataLen ∧ 0 < maxDataLen ∧ 0 < dataSize ∨ dataSize = 0 then
          if mdRead then w.updNode a fun n => { n with offset := 0, bufInUse := false }
          else w.updNode a fun n => { n with offset := dataSize }
        else w
  | _, _ => w

/-- `spdm_recreate_wr_data_buffer`. -/
def spdmRecreateWrDataBuffer (w : SpgmInfo) (a : Addr) (newInputDataSize newInputMdSize : UInt32) :
    ArResult × SpgmInfo :=
  let w := w.sgmShmemFree a
  let newDataBufSize :=
    align128Bytes (max (w.nodes a).dataBufSize (align128Bytes newInputDataSize))
  let newMdSize := align128Bytes (max (w.nodes a).metaDataBufSize (align128Bytes newInputMdSize))
  match w.sgmShmemAlloc (newDataBufSize + newMdSize + 3 * guardProtectionBytes) a with
  | (.eok, w) => (.eok, w.updNode a fun n =>
      { n with dataBufSize := newDataBufSize, metaDataBufSize := newMdSize })
  | (result, w) => (result, w)

/-- The part of `spdm_process_data_write` that fills the buffer and sends it. -/
def fillWriteBuffer (w : SpgmInfo) (key : PortKey) (a : Addr) (actualDataLen metaDataSize : UInt32)
    (numMdElements : UInt32) (sent : Bool) : SpgmInfo :=
  let isDataPresent := actualDataLen ≤ (w.nodes a).dataBufSize && 0 < actualDataLen
  let isMdPresent := metaDataSize ≤ (w.nodes a).metaDataBufSize && 0 < metaDataSize
  if isDataPresent || isMdPresent then
    let w := if isDataPresent then w.updNode a fun n => { n with offset := actualDataLen } else w
    if 0 < (w.nodes a).offset || (isMdPresent && 0 < numMdElements) then
      let w := if sent then w.updNode a fun n => { n with bufInUse := true } else w
      w.setActive key none
    else w
  else w.setActive key none

/-- What `spdm_process_data_write` does to the pool: the input has so much data and so much
metadata, if its size can be told; `numMdElements` elements of it are written, and the packet is
sent or not. -/
def spdmProcessDataWrite (w : SpgmInfo) (portIndex : ℕ) (actualDataLen : UInt32)
    (metaDataSize : Option UInt32) (numMdElements : UInt32) (sent : Bool) : SpgmInfo :=
  let key : PortKey := (.ipcWriteData, portIndex)
  match w.spdmGetDatabufFromDatapool key with
  | (.eok, w) =>
    match w.activeBufNode key with
    | none => w
    | some a =>
      let w := w.updNode a fun n => { n with bufInUse := false }
      match metaDataSize with
      | none => w
      | some metaDataSize =>
        if (w.nodes a).dataBufSize < align128Bytes actualDataLen ||
            (w.nodes a).metaDataBufSize < align128Bytes metaDataSize then
          match w.spdmRecreateWrDataBuffer a actualDataLen metaDataSize with
          | (.eok, w) => w.fillWriteBuffer key a actualDataLen metaDataSize numMdElements sent
          | (_, w) => w
        else w.fillWriteBuffer key a actualDataLen metaDataSize numMdElements sent
  | (_, w) => w

/-- `spdm_release_write_buffer`, for a packet with this token. -/
def spdmReleaseWriteBuffer (w : SpgmInfo) (portIndex : ℕ) (token : UInt32) : SpgmInfo :=
  match w.spdmGetDataBufNode (.ipcWriteData, portIndex) (token &&& 0xFFFF0000) with
  | none => w
  | some a => w.updNode a fun n => { n with bufInUse := false, offset := 0 }

end SpgmInfo

/-! ## Steps -/

/-- What happens to the pools of a graph. -/
inductive PoolEvent
  /-- The size of the buffers of a port is known anew. -/
  | allocIpcDataBuffers (newBufSize : UInt32) (portIndex : ℕ) (dataType : IpcDataType)
  /-- A command to the satellite takes a token. -/
  | getUniqueToken
  | sendReadBuffer (portIndex : ℕ) (sent : Bool)
  | dataReleaseReadBuffer (portIndex : ℕ) (sent : Bool)
  | dataReadDone (portIndex : ℕ) (token dataSize : UInt32) (maxDataLen : Option UInt32)
      (mdRead : Bool)
  | dataWrite (portIndex : ℕ) (actualDataLen : UInt32) (metaDataSize : Option UInt32)
      (numMdElements : UInt32) (sent : Bool)
  | dataWriteDone (portIndex : ℕ) (token : UInt32)
  deriving Repr

namespace SpgmInfo

/-- One event.  A call that has not returned after so many rounds of its loop leaves no state
behind; that this does not happen is part of the results. -/
def step (rounds : ℕ) (w : SpgmInfo) : PoolEvent → SpgmInfo
  | .allocIpcDataBuffers newBufSize portIndex dataType =>
    match w.spdmAllocIpcDataBuffers rounds newBufSize portIndex dataType with
    | some (_, w) => w
    | none => w
  | .getUniqueToken => w.sgmGetUniqueToken.2
  | .sendReadBuffer portIndex sent => w.sgmSendReadBuffer portIndex sent
  | .dataReleaseReadBuffer portIndex sent => w.spdmProcessDataReleaseReadBuffer portIndex sent
  | .dataReadDone portIndex token dataSize maxDataLen mdRead =>
    w.spdmProcessDataReadDone portIndex token dataSize maxDataLen mdRead
  | .dataWrite portIndex actualDataLen metaDataSize numMdElements sent =>
    w.spdmProcessDataWrite portIndex actualDataLen metaDataSize numMdElements sent
  | .dataWriteDone portIndex token => w.spdmReleaseWriteBuffer portIndex token

end SpgmInfo

end AudioReach
