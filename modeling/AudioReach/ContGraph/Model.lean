import Mathlib.Data.List.Basic
import AudioReach.ArResult

/-!
# Container graphs

`apm_graph_utils.c` groups the containers into graphs.  Every link between two containers is
reported to `apm_update_cont_graph`, which creates a graph, adds a container to one, or merges
two.  Containers without links wait in the standalone list.  `apm_update_cont_graph_list` then
sorts the graphs that have changed and gives each standalone container a graph of its own.

Containers and graphs are in memory at their addresses, and a list of the source is the list of
the addresses of its objects.  The allocations succeed, and each graph is allocated at an address
of its own.  The sort follows the data ports of the containers, which are kept in one list for
links on cycles and another for the rest.
-/

namespace AudioReach

/-! ## Data -/

/-- The fields of `apm_cont_port_connect_info_t` that the sort uses. -/
structure PortConnectInfo where
  /-- `peer_cont_list.list_ptr`. -/
  peerConts : List Addr
  /-- `peer_cont_list.num_nodes`. -/
  numPeers : ℕ
  deriving DecidableEq

/-- `apm_list_t`, as a list of port connections. -/
structure PortConnectList where
  /-- `list_ptr`. -/
  list : List PortConnectInfo
  numNodes : ℕ
  deriving DecidableEq

/-- `APM_PORT_TYPE_ACYCLIC` and `APM_PORT_TYPE_CYCLIC`. -/
inductive PortCycleType
  | acyclic
  | cyclic
  deriving DecidableEq

/-- `PORT_TYPE_DATA_IP` and `PORT_TYPE_DATA_OP`. -/
inductive DataPortType
  | ip
  | op
  deriving DecidableEq

/-- `apm_cont_graph_utils_t`. -/
structure ContSortInfo where
  /-- `node_visted`. -/
  nodeVisited : Bool
  nodeSorted : Bool
  /-- `out_degree`, a `uint16_t`. -/
  outDegree : ℕ
  deriving DecidableEq

/-- The fields of `apm_container_t` that the graphs use. -/
structure Cont where
  /-- `sub_graph_list_ptr`. -/
  subGraphList : List Addr
  /-- `cont_ports_per_sg_pair`, as far as it is about data ports. -/
  ports : PortCycleType → DataPortType → PortConnectList
  graphUtils : ContSortInfo
  contGraphPtr : Option Addr

/-- `apm_cont_graph_t`. -/
structure ContGraph where
  numSubGraphs : ℕ
  /-- `sub_graph_list_ptr`. -/
  subGraphList : List Addr
  numContainers : ℕ
  /-- `container_list_ptr`. -/
  containerList : List Addr
  /-- The container at `cont_list_tail_node_ptr`. -/
  contListTail : Option Addr
  graphIsSorted : Bool
  deriving DecidableEq

/-- The fields of `apm_graph_info_t` that the graphs use, and the memory. -/
structure ContGraphInfo where
  conts : Addr → Cont
  graphs : Addr → ContGraph
  nextGraph : Addr
  numContGraphs : ℕ
  /-- `cont_graph_list_ptr`. -/
  contGraphList : List Addr
  /-- `standalone_cont_list_ptr`. -/
  standaloneContList : List Addr

/-- `APM_MAX_SORT_LOOP_ITR`. -/
def apmMaxSortLoopItr : ℕ := 500

namespace ContGraph

/-! ## Lists of a graph -/

/-- `spf_list_search_and_add_obj` on the sub-graph list, with its count. -/
def addSg (g : ContGraph) (sg : Addr) : ContGraph :=
  if sg ∈ g.subGraphList then g
  else { g with subGraphList := g.subGraphList ++ [sg], numSubGraphs := g.numSubGraphs + 1 }

/-- `apm_add_cont_sg_list_to_graph`. -/
def addContSgListToGraph (g : ContGraph) (cont : Cont) : ContGraph :=
  cont.subGraphList.foldl addSg g

/-- `apm_merge_cont_graph_sg_list`. -/
def mergeContGraphSgList (src dst : ContGraph) : ContGraph :=
  dst.subGraphList.foldl addSg src

/-- `apm_db_add_node_to_list` on the list of containers. -/
def addCont (g : ContGraph) (c : Addr) : ContGraph :=
  { g with containerList := g.containerList ++ [c], numContainers := g.numContainers + 1 }

/-- A graph whose memory was just cleared. -/
def blank : ContGraph :=
  { numSubGraphs := 0, subGraphList := [], numContainers := 0, containerList := []
    contListTail := none, graphIsSorted := false }

end ContGraph

namespace ContGraphInfo

/-- Writes a graph. -/
def setGraph (info : ContGraphInfo) (g : Addr) (graph : ContGraph) : ContGraphInfo :=
  { info with graphs := Function.update info.graphs g graph }

/-- Writes `cont_graph_ptr`. -/
def setContGraphPtr (info : ContGraphInfo) (c : Addr) (g : Option Addr) : ContGraphInfo :=
  { info with
    conts := Function.update info.conts c { info.conts c with contGraphPtr := g } }

/-- `spf_list_find_delete_node` on the standalone list. -/
def removeStandalone (info : ContGraphInfo) (c : Addr) : ContGraphInfo :=
  { info with standaloneContList := info.standaloneContList.erase c }

/-! ## Links -/

/-- `apm_create_cont_graph`. -/
def createContGraph (info : ContGraphInfo) (c : Addr) : ContGraphInfo :=
  let graph := (ContGraph.blank.addCont c).addContSgListToGraph (info.conts c)
  let info : ContGraphInfo := { info with
    graphs := Function.update info.graphs info.nextGraph
      { graph with contListTail := graph.containerList.head?, graphIsSorted := true }
    contGraphList := info.contGraphList ++ [info.nextGraph]
    numContGraphs := info.numContGraphs + 1
    nextGraph := info.nextGraph + 1
    conts := Function.update info.conts c
      { info.conts c with contGraphPtr := some info.nextGraph } }
  info.removeStandalone c

/-- `apm_delete_cont_graph`; the memory of the graph is not used again. -/
def deleteContGraph (info : ContGraphInfo) (g : Addr) : ContGraphInfo :=
  if g ∈ info.contGraphList then
    { info with
      contGraphList := info.contGraphList.erase g
      numContGraphs := info.numContGraphs - 1 }
  else info

/-- A container without a graph is added to graph `g`, in each of the three branches of
`apm_update_cont_graph` that do so. -/
def addToContGraph (info : ContGraphInfo) (g c : Addr) (retainSorted : Bool) : ContGraphInfo :=
  let graph := ((info.graphs g).addCont c).addContSgListToGraph (info.conts c)
  ((info.setGraph g { graph with graphIsSorted := retainSorted }).setContGraphPtr c
    (some g)).removeStandalone c

/-- The last branch of `apm_update_cont_graph`: the containers of `gd` go to `gs`. -/
def mergeContGraphs (info : ContGraphInfo) (gs gd : Addr) (retainSorted : Bool) : ContGraphInfo :=
  let src := info.graphs gs
  let dst := info.graphs gd
  let info := dst.containerList.foldl (fun info c => info.setContGraphPtr c (some gs)) info
  let graph := ContGraph.mergeContGraphSgList
    { src with
      containerList := src.containerList ++ dst.containerList
      numContainers := src.numContainers + dst.numContainers } dst
  (info.deleteContGraph gd).setGraph gs { graph with graphIsSorted := retainSorted }

/-- `apm_update_cont_graph`. -/
def updateContGraph (info : ContGraphInfo) (src dst : Addr) (retainSorted : Bool) : ContGraphInfo :=
  match (info.conts src).contGraphPtr, (info.conts dst).contGraphPtr with
  | some gs, some gd =>
    if gs = gd then info.setGraph gs { info.graphs gs with graphIsSorted := retainSorted }
    else info.mergeContGraphs gs gd retainSorted
  | none, none => (info.createContGraph src).addToContGraph info.nextGraph dst retainSorted
  | none, some gd => info.addToContGraph gd src retainSorted
  | some gs, none => info.addToContGraph gs dst retainSorted

/-! ## The sort -/

/-- Changes one container. -/
def modifyCont (conts : Addr → Cont) (c : Addr) (f : Cont → Cont) : Addr → Cont :=
  Function.update conts c (f (conts c))

/-- Writes one of the lists of ports. -/
def setPorts (cont : Cont) (cycle : PortCycleType) (port : DataPortType)
    (list : PortConnectList) : Cont :=
  { cont with ports := fun cycle' port' =>
      if cycle' = cycle ∧ port' = port then list else cont.ports cycle' port' }

/-- Adds to `out_degree`. -/
def addOutDegree (n : ℕ) (cont : Cont) : Cont :=
  { cont with graphUtils := { cont.graphUtils with
      outDegree := (cont.graphUtils.outDegree + n) % 65536 } }

/-- Clears and counts the out-degree of a container. -/
def countOutDegree (cont : Cont) : Cont :=
  (cont.ports .acyclic .op).list.foldl (fun cont info => addOutDegree info.numPeers cont)
    { cont with graphUtils := { cont.graphUtils with outDegree := 0 } }

/-- `apm_cont_cache_curr_cyclic_data_link`: the first connection to the peer goes to the cyclic
list.  The node that was moved is the last one of its new list, so that the loop ends there. -/
def cacheCurrCyclicDataLink (conts : Addr → Cont) (self tgtPeer : Addr) (port : DataPortType) :
    Addr → Cont :=
  let acyclic := (conts self).ports .acyclic port
  let cyclic := (conts self).ports .cyclic port
  match acyclic.list.find? (fun info => tgtPeer ∈ info.peerConts) with
  | none => conts
  | some info =>
    modifyCont conts self fun cont =>
      setPorts (setPorts cont .acyclic port
          ⟨acyclic.list.eraseP fun info => tgtPeer ∈ info.peerConts,
            acyclic.numNodes - info.peerConts.count tgtPeer⟩)
        .cyclic port ⟨cyclic.list ++ [info], cyclic.numNodes + info.peerConts.count tgtPeer⟩

/-- `apm_clear_cont_list_graph_sort_info`. -/
def clearContListGraphSortInfo (conts : Addr → Cont) (list : List Addr) : Addr → Cont :=
  list.foldl (fun conts c => modifyCont conts c fun cont =>
    { cont with graphUtils := ⟨false, false, 0⟩ }) conts

/-- The locals of `apm_sort_cont_graph_proc_order`, the containers, and what is left of the list
of the graph. -/
structure SortState where
  conts : Addr → Cont
  /-- `cont_graph_ptr->container_list_ptr`. -/
  unsorted : List Addr
  /-- `dfs_temp_stack_ptr`. -/
  stack : List Addr
  /-- `sorted_cont_list_ptr`. -/
  sorted : List Addr
  bailoutCntr : ℕ

/-- How a round of the loops ends. -/
inductive SortRound
  /-- The loops go on. -/
  | more (st : SortState)
  /-- There is nothing left to sort. -/
  | done (st : SortState)
  /-- The sort is given up. -/
  | bailout (result : ArResult) (st : SortState)

/-- The peer to go to next.  `prev_peer_cont_obj_ptr` is `NULL` until a peer was found, and the
search ends with the first peer found, so it excludes none. -/
def nextPeer (conts : Addr → Cont) (c : Addr) : Option Addr :=
  (((conts c).ports .acyclic .op).list.flatMap PortConnectInfo.peerConts).find?
    fun p => !(conts p).graphUtils.nodeSorted

/-- A container without output links is done: it is moved from the list of the graph to the
sorted list, and the out-degrees of the containers before it go down. -/
def sortLeaf (st : SortState) (top : Addr) (rest : List Addr) : SortRound :=
  let conts := modifyCont st.conts top fun cont =>
    { cont with graphUtils := { cont.graphUtils with nodeSorted := true } }
  let inputs := ((conts top).ports .acyclic .ip).list.flatMap PortConnectInfo.peerConts
  let st' : SortState :=
    { conts := inputs.foldl (fun conts p => modifyCont conts p (addOutDegree 65535)) conts
      unsorted := st.unsorted.erase top
      stack := rest
      sorted := top :: st.sorted
      bailoutCntr := 0 }
  if top ∈ st.unsorted then .more st' else .bailout .eok st'

/-- A container with output links: the next peer is pushed, or its link is on a cycle. -/
def sortInner (st : SortState) (top : Addr) : SortRound :=
  let st := { st with bailoutCntr := st.bailoutCntr + 1 }
  if apmMaxSortLoopItr < st.bailoutCntr then .bailout .efailed st
  else
    match nextPeer st.conts top with
    | none => .more st
    | some p =>
      if !(st.conts p).graphUtils.nodeVisited then .more { st with stack := p :: st.stack }
      else
        let conts := cacheCurrCyclicDataLink st.conts top p .op
        let conts := cacheCurrCyclicDataLink conts p top .ip
        .more { st with conts := modifyCont conts top (addOutDegree 65535) }

/-- One round of the loop over the stack. -/
def sortTop (st : SortState) (top : Addr) (rest : List Addr) : SortRound :=
  if (st.conts top).graphUtils.nodeSorted then .bailout .efailed st
  else
    let st := { st with conts := modifyCont st.conts top fun cont =>
      { cont with graphUtils := { cont.graphUtils with nodeVisited := true } } }
    if (st.conts top).graphUtils.outDegree ≠ 0 then sortInner st top else sortLeaf st top rest

/-- One round of the two loops: the outer one pushes the first container that is not sorted. -/
def sortRound (st : SortState) : SortRound :=
  match st.stack with
  | top :: rest => sortTop st top rest
  | [] =>
    match st.unsorted with
    | [] => .done st
    | c :: _ => .more { st with stack := [c] }

/-- The two loops. -/
def sortLoop : ℕ → SortState → Option SortRound
  | 0, _ => none
  | rounds + 1, st =>
    match sortRound st with
    | .more st => sortLoop rounds st
    | out => some out

/-- As many rounds as the loops can take. -/
def sortRounds (list : List Addr) : ℕ := 503 * list.length + 503

/-- The end of `apm_sort_cont_graph_proc_order`; `list` is then the list of the graph. -/
def endSort (info : ContGraphInfo) (g : Addr) (st : SortState) (list : List Addr)
    (tail : Option Addr) (isSorted : Bool) : ContGraphInfo :=
  { info.setGraph g { info.graphs g with
      containerList := list, contListTail := tail, graphIsSorted := isSorted } with
    conts := clearContListGraphSortInfo st.conts list }

/-- The list of the graph when the sort is given up. -/
def SortState.restored (st : SortState) : List Addr :=
  if st.unsorted ≠ [] ∧ st.sorted ≠ [] then st.unsorted ++ st.sorted else st.unsorted

/-- `apm_sort_cont_graph_proc_order`. -/
def sortContGraphProcOrder (info : ContGraphInfo) (g : Addr) : ArResult × ContGraphInfo :=
  let graph := info.graphs g
  let st : SortState :=
    { conts := graph.containerList.foldl (fun conts c => modifyCont conts c countOutDegree)
        info.conts
      unsorted := graph.containerList
      stack := []
      sorted := []
      bailoutCntr := 0 }
  match sortLoop (sortRounds graph.containerList) st with
  | some (.done st) =>
    match st.sorted.getLast? with
    | some tail => (.eok, endSort info g st st.sorted (some tail) true)
    | none => (.ebadparam, endSort info g st [] none graph.graphIsSorted)
  | some (.bailout result st) =>
    (result, endSort info g st st.restored graph.contListTail graph.graphIsSorted)
  -- the loops end before the rounds do
  | _ => (.efailed, info)

/-! ## The list of graphs -/

/-- Puts the links on cycles back to the other links. -/
def mergeCyclic (cont : Cont) (port : DataPortType) : Cont :=
  let acyclic := cont.ports .acyclic port
  let cyclic := cont.ports .cyclic port
  if cyclic.list = [] then cont
  else
    setPorts (setPorts cont .acyclic port
      ⟨acyclic.list ++ cyclic.list, acyclic.numNodes + cyclic.numNodes⟩) .cyclic port ⟨[], 0⟩

/-- `apm_clear_cont_cyclic_link_info`. -/
def clearContCyclicLinkInfo (info : ContGraphInfo) (g : Addr) : ContGraphInfo :=
  { info with
    conts := (info.graphs g).containerList.foldl
      (fun conts c => modifyCont conts c fun cont => mergeCyclic (mergeCyclic cont .ip) .op)
      info.conts }

/-- The loop of `apm_update_cont_graph_list`. -/
def sortGraphs : List Addr → ContGraphInfo → ArResult × ContGraphInfo
  | [], info => (.eok, info)
  | g :: gs, info =>
    if (info.graphs g).graphIsSorted then sortGraphs gs info
    else
      match (info.clearContCyclicLinkInfo g).sortContGraphProcOrder g with
      | (.eok, info) => sortGraphs gs info
      | (result, info) => (result, info)

/-- `apm_update_standalone_cont_graph`. -/
def updateStandaloneContGraph (info : ContGraphInfo) : ContGraphInfo :=
  info.standaloneContList.foldl createContGraph info

/-- `apm_update_cont_graph_list`. -/
def updateContGraphList (info : ContGraphInfo) : ArResult × ContGraphInfo :=
  if info.numContGraphs = 0 ∧ info.standaloneContList = [] then (.eok, info)
  else
    match sortGraphs info.contGraphList info with
    | (.eok, info) => (.eok, info.updateStandaloneContGraph)
    | (result, info) => (result, info)

end ContGraphInfo

end AudioReach
