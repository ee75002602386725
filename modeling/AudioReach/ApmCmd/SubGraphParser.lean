import AudioReach.Library.Words
import AudioReach.MultiClient.Model

/-!
# The sub-graph list of an open command

`apm_parse_subgraph_list` walks over the payload of `APM_PARAM_ID_SUB_GRAPH_CONFIG`: the number
of sub-graphs, and for each of them its id, the number of its properties and the properties, each
with a size of its own.  A sub-graph that exists already is skipped in one of three ways, which
depend on the process domain and on the multi-client extension.

The payload is the memory behind its first byte, also beyond `payload_size`.  The functions return
the bytes they read there, and the loop also the offsets at which it looked for an entry.  Whether
an allocation succeeds is up to the environment; messages and the proxy manager, whose result is
ignored, are left out.
-/

namespace AudioReach.SgParser

open Library (wordAt)

/-- The parts of the payload that were read, as offset and number of bytes. -/
abbrev Reads := List (ℕ × ℕ)

/-! ## Sub-graphs and the command -/

/-- `apm_sub_graph_prop_t`. -/
structure SgProp where
  numProperties : UInt32
  perfMode : UInt32
  direction : UInt32
  scenarioId : UInt32
  vsid : UInt32
  enableDutyCycling : UInt16
  dutyCyclingClockScaleFactorQ4 : UInt16
  clockScaleFactorQ4 : UInt16
  busScaleFactorQ4 : UInt16
  payloadSize : UInt32
  deriving DecidableEq, Repr

/-- The properties after `memset`. -/
def SgProp.zero : SgProp := ⟨0, 0, 0, 0, 0, 0, 0, 0, 0, 0⟩

/-- `apm_sub_graph_t`, as far as the parser writes it. -/
structure SgNode where
  subGraphId : UInt32
  prop : SgProp
  /-- `client_list_ptr` with `num_client`. -/
  clients : ClientList
  /-- `cfg_cmd_payload`: the offset of the entry in the payload of the command that opened the
  sub-graph. -/
  cfgCmdPayload : ℕ
  deriving DecidableEq, Repr

/-- What the parser changes in `apm_t`. -/
structure ApmInfo where
  /-- `graph_info.sub_graph_list_ptr`. -/
  subGraphs : List SgNode
  /-- `sg_id_list_ptr` of the command, by the ids. -/
  sgIdList : List UInt32
  /-- `skip_sg_id_list_ptr` of the command, by the ids. -/
  skipSgIdList : List UInt32
  numAllocs : ℕ
  deriving DecidableEq, Repr

/-- The command and its environment. -/
structure Command where
  abi : Abi
  /-- The bytes behind `mod_pid_payload_ptr`. -/
  payload : ℕ → UInt8
  /-- `mod_pid_payload_ptr`. -/
  payloadAddr : Addr
  /-- The local domain is `APM_PROC_DOMAIN_ID_ADSP`. -/
  isAdsp : Bool
  hasMultiClient : Bool
  sim : Bool
  client : Client
  cmdPayloadSize : UInt32
  alloc : ℕ → Bool

/-- A value of type `size_t`. -/
def sizeT (abi : Abi) (n : ℕ) : ℕ := n % 2 ^ (8 * abi.ptrSize)

/-- An allocation, for a node or for its place in a list. -/
def allocate (c : Command) (s : ApmInfo) : Bool × ApmInfo :=
  (c.alloc s.numAllocs, { s with numAllocs := s.numAllocs + 1 })

/-- `apm_db_get_sub_graph_node`. -/
def ApmInfo.getSubGraphNode (s : ApmInfo) (subGraphId : UInt32) : Option SgNode :=
  s.subGraphs.find? fun sg => sg.subGraphId == subGraphId

/-- The node with this id gets another client list. -/
def ApmInfo.setClients (s : ApmInfo) (subGraphId : UInt32) (clients : ClientList) : ApmInfo :=
  { s with
    subGraphs := Library.updateFirst (fun sg => sg.subGraphId == subGraphId)
      (fun sg => { sg with clients := clients }) s.subGraphs }

/-! ## Properties -/

/-- The properties of a sub-graph. -/
inductive SgPropKind
  | perfMode
  | direction
  | scenarioId
  | vsid
  | clockScaleFactor
  | bwScaleFactor
  deriving DecidableEq, Repr

namespace SgPropKind

/-- The cases of the switch over `prop_id`. -/
def ofPropId (propId : UInt32) : Option SgPropKind :=
  if propId = 0x0800100E then some .perfMode
  else if propId = 0x0800100F then some .direction
  else if propId = 0x08001010 then some .scenarioId
  else if propId = 0x080010CC then some .vsid
  else if propId = 0x08001374 then some .clockScaleFactor
  else if propId = 0x08001531 then some .bwScaleFactor
  else none

/-- The case tests `prop_size` against the size of its structure. -/
def checksSize : SgPropKind → Bool
  | .perfMode | .direction | .scenarioId | .vsid => true
  | .clockScaleFactor | .bwScaleFactor => false

/-- The number of bytes that the case reads behind the header of the property. -/
def dataRead : SgPropKind → ℕ
  | .perfMode | .direction | .scenarioId | .vsid => 4
  | .clockScaleFactor => 6
  | .bwScaleFactor => 2

/-- The case stores the data at `off`. -/
def store (kind : SgPropKind) (payload : ℕ → UInt8) (off : ℕ) (prop : SgProp) : SgProp :=
  match kind with
  | .perfMode => { prop with perfMode := wordAt payload off }
  | .direction => { prop with direction := wordAt payload off }
  | .scenarioId => { prop with scenarioId := wordAt payload off }
  | .vsid => { prop with vsid := wordAt payload off }
  | .clockScaleFactor =>
    { prop with
      enableDutyCycling := (wordAt payload off).toUInt16
      dutyCyclingClockScaleFactorQ4 := (wordAt payload (off + 2)).toUInt16
      clockScaleFactorQ4 := (wordAt payload (off + 4)).toUInt16 }
  | .bwScaleFactor => { prop with busScaleFactorQ4 := (wordAt payload off).toUInt16 }

end SgPropKind

/-- What `apm_cfg_sub_graph_prop` leaves behind. -/
structure PropOutcome where
  result : ArResult
  /-- `prop` of the node. -/
  prop : SgProp
  reads : Reads
  deriving DecidableEq, Repr

/-- The offset of the next property: `sizeof(apm_prop_data_t) + prop_size` further. -/
def nextProp (c : Command) (off : ℕ) : ℕ :=
  off + sizeT c.abi (8 + (wordAt c.payload (off + 4)).toNat)

/-- The loop of `apm_cfg_sub_graph_prop`; `size` is `prop_payload_size`. -/
def cfgSubGraphPropLoop (c : Command) : ℕ → ℕ → UInt32 → SgProp → PropOutcome
  | 0, _, size, prop => ⟨.eok, { prop with payloadSize := size }, []⟩
  | numProps + 1, off, size, prop =>
    let propSize := wordAt c.payload (off + 4)
    match SgPropKind.ofPropId (wordAt c.payload off) with
    | none => ⟨.ebadparam, prop, [(off, 4)]⟩
    | some kind =>
      if kind.checksSize ∧ propSize < 4 then ⟨.ebadparam, prop, [(off, 4), (off + 4, 4)]⟩
      else
        let rest := cfgSubGraphPropLoop c numProps (nextProp c off) (size + (8 + propSize))
          (kind.store c.payload (off + 8) prop)
        { rest with reads := (off, 4) :: (off + 4, 4) :: (off + 8, kind.dataRead) :: rest.reads }

/-- `apm_cfg_sub_graph_prop` for a node just allocated. -/
def cfgSubGraphProp (c : Command) (off numProps : ℕ) : PropOutcome :=
  cfgSubGraphPropLoop c numProps off 0 SgProp.zero

/-- What `apm_get_prop_data_size` leaves behind. -/
structure PropSizeOutcome where
  result : ArResult
  /-- `*prop_list_payload_size_ptr`. -/
  size : UInt32
  reads : Reads
  deriving DecidableEq, Repr

/-- A property size that `apm_get_prop_data_size` refuses. -/
def BadPropSize (c : Command) (propSize : UInt32) : Prop :=
  propSize.toNat % 4 ≠ 0 ∨ propSize = 0 ∨ propSize > c.cmdPayloadSize

instance (c : Command) (propSize : UInt32) : Decidable (BadPropSize c propSize) :=
  inferInstanceAs (Decidable (_ ∨ _ ∨ _))

/-- The loop of `apm_get_prop_data_size`. -/
def getPropDataSizeLoop (c : Command) : ℕ → ℕ → UInt32 → PropSizeOutcome
  | 0, _, size => ⟨.eok, size, []⟩
  | numProp + 1, off, size =>
    let propSize := wordAt c.payload (off + 4)
    if BadPropSize c propSize then ⟨.ebadparam, 0, [(off + 4, 4)]⟩
    else
      let rest := getPropDataSizeLoop c numProp (off + (8 + propSize).toNat) (size + (8 + propSize))
      { rest with reads := (off + 4, 4) :: rest.reads }

/-- `apm_get_prop_data_size`. -/
def getPropDataSize (c : Command) (off numProp : ℕ) : PropSizeOutcome :=
  if (c.payloadAddr + off) % 4 ≠ 0 then ⟨.ebadparam, 0, []⟩
  else getPropDataSizeLoop c numProp off 0

/-! ## Clients -/

/-- `apm_multi_client_add_sg_client_context`: the result and the client list. -/
def addSgClientContext (c : Command) (clients : ClientList) (s : ApmInfo) :
    ArResult × ClientList × ApmInfo :=
  match allocate c s with
  | (false, s) => (.enomemory, clients, s)
  | (true, s) =>
    match allocate c s with
    | (false, s) => (.efailed, clients, s)
    | (true, s) => (.eok, clients.addContext (ClientList.openedContext c.client), s)

/-- `apm_multi_client_parse_sg_list`: the result, and the offset of the next entry. -/
def multiClientParseSgList (c : Command) (sg : SgNode) (off : ℕ) (s : ApmInfo) :
    ArResult × ApmInfo × ℕ :=
  if sg.clients.checkDuplicateClient c.sim c.client ≠ .eok then (.eduplicate, s, off)
  else
    match allocate c s with
    | (false, s) => (.efailed, s, off)
    | (true, s) =>
      let added := addSgClientContext c sg.clients
        { s with skipSgIdList := s.skipSgIdList ++ [sg.subGraphId] }
      if added.1 ≠ .eok then (.efailed, added.2.2, off)
      else
        (.eok, added.2.2.setClients sg.subGraphId added.2.1, off + 8 + sg.prop.payloadSize.toNat)

/-! ## The list -/

/-- What a round of the loop leaves behind. -/
structure EntryOutcome where
  /-- The result: other than `AR_EOK` it is returned. -/
  result : ArResult
  info : ApmInfo
  /-- `curr_payload_ptr`. -/
  off : ℕ
  /-- `curr_payload_size`. -/
  size : UInt32
  /-- `sub_graph_cntr`. -/
  cntr : UInt32
  reads : Reads
  deriving DecidableEq, Repr

/-- A sub-graph id below the range of the dynamic ids. -/
def BadSgId (subGraphId : UInt32) : Prop := subGraphId = 0 ∨ subGraphId < 0x4001

instance (subGraphId : UInt32) : Decidable (BadSgId subGraphId) :=
  inferInstanceAs (Decidable (_ ∨ _))

/-- The round for a sub-graph that does not exist. -/
def parseNewSubgraph (c : Command) (s : ApmInfo) (off : ℕ) (size cntr : UInt32) : EntryOutcome :=
  let numProp := wordAt c.payload (off + 4)
  match allocate c s with
  | (false, s) => ⟨.enomemory, s, off, size, cntr, [(off, 4)]⟩
  | (true, s) =>
    let cfg := cfgSubGraphProp c (off + 8) numProp.toNat
    let reads := (off, 4) :: (off + 4, 4) :: cfg.reads
    if cfg.result ≠ .eok then ⟨cfg.result, s, off + 8, size, cntr, reads⟩
    else
      let added := if c.hasMultiClient then addSgClientContext c ⟨[], 0⟩ s else (.eok, ⟨[], 0⟩, s)
      if added.1 ≠ .eok then ⟨added.1, added.2.2, off + 8, size, cntr, reads⟩
      else
        match allocate c added.2.2 with
        | (false, s) => ⟨.efailed, s, off + 8, size, cntr, reads⟩
        | (true, s) =>
          match allocate c s with
          | (false, s) => ⟨.efailed, s, off + 8, size, cntr, reads⟩
          | (true, s) =>
            let node : SgNode :=
              { subGraphId := wordAt c.payload off
                prop := { cfg.prop with numProperties := numProp }
                clients := added.2.1
                cfgCmdPayload := off }
            let size := size - (8 + cfg.prop.payloadSize)
            let cntr := cntr - 1
            -- the minimum size for the remaining sub-graphs
            ⟨if cntr ≠ 0 ∧ size.toNat < sizeT c.abi (cntr.toNat * 8) then .ebadparam else .eok,
              { s with
                subGraphs := s.subGraphs ++ [node]
                sgIdList := s.sgIdList ++ [node.subGraphId] },
              off + 8 + cfg.prop.payloadSize.toNat, size, cntr, reads⟩

/-- A round of the loop. -/
def parseSubgraph (c : Command) (s : ApmInfo) (off : ℕ) (size cntr : UInt32) : EntryOutcome :=
  let subGraphId := wordAt c.payload off
  if BadSgId subGraphId then ⟨.ebadparam, s, off, size, cntr, [(off, 4)]⟩
  else
    match s.getSubGraphNode subGraphId with
    | some sg =>
      if c.isAdsp then
        if c.hasMultiClient then
          let out := multiClientParseSgList c sg off s
          ⟨out.1, out.2.1, out.2.2, size, cntr, [(off, 4)]⟩
        else ⟨.eduplicate, s, off, size, cntr, [(off, 4)]⟩
      else
        let out := getPropDataSize c (off + 8) (wordAt c.payload (off + 4)).toNat
        ⟨out.result, s, off + 8 + out.size.toNat, size, cntr, (off, 4) :: (off + 4, 4) :: out.reads⟩
    | none => parseNewSubgraph c s off size cntr

/-- What the parser leaves behind. -/
structure ParseOutcome where
  result : ArResult
  info : ApmInfo
  reads : Reads
  entries : List ℕ
  deriving DecidableEq, Repr

/-- The loop of `apm_parse_subgraph_list`. -/
def parseLoop (c : Command) : ℕ → ApmInfo → ℕ → UInt32 → UInt32 → ParseOutcome
  | 0, s, _, _, _ => ⟨.eok, s, [], []⟩
  | idx + 1, s, off, size, cntr =>
    let entry := parseSubgraph c s off size cntr
    if entry.result ≠ .eok then ⟨entry.result, entry.info, entry.reads, [off]⟩
    else
      let rest := parseLoop c idx entry.info entry.off entry.size entry.cntr
      { rest with reads := entry.reads ++ rest.reads, entries := off :: rest.entries }

/-- `num_sub_graphs`. -/
def numSubGraphs (payload : ℕ → UInt8) : UInt32 := wordAt payload 0

/-- `apm_parse_subgraph_list`. -/
def parseSubgraphList (c : Command) (s : ApmInfo) (payloadSize : UInt32) : ParseOutcome :=
  if payloadSize = 0 then ⟨.efailed, s, [], []⟩
  else
    let subGraphCntr := numSubGraphs c.payload
    if subGraphCntr = 0 then ⟨.ebadparam, s, [(0, 4)], []⟩
    else if payloadSize < 4 + subGraphCntr * 8 then ⟨.ebadparam, s, [(0, 4)], []⟩
    else
      let out := parseLoop c subGraphCntr.toNat s 4 (payloadSize - 4) subGraphCntr
      { out with reads := (0, 4) :: out.reads }

end AudioReach.SgParser
