import AudioReach.GraphUtils.Attach

/-!
# Sorting the modules

`gu_update_sorted_list` lists the modules in data-path order.  It starts from the edge
modules, those without an internal upstream connection, and follows the links, using the mark of an
input port to remember that its upstream module is listed.

The loop of the source runs until no edge module is left.  On a graph with symmetric
links each module becomes an edge module at most once, so the loop gets as many rounds
as there are modules and external input ports.
-/

namespace AudioReach

open Function (update)
open Library

/-- Mark an input port. -/
def GuWorld.markIn (w : GuWorld) (p : Addr) : GuWorld :=
  { w with inMark := update w.inMark p true }

/-- `gu_find_edge_modules` for one external input port: a module all of whose inputs are
external joins the edge modules, once. -/
def guFindExternalEdge (edge : List Addr) (ext : Addr) : GuM (List Addr) := do
  let w ← get
  match w.intInPort ext with
  | none => pure edge
  | some ip =>
    let m := w.inModule ip
    if (w.inputPortList m).all fun p => (w.extInPort p).isSome && !w.inMark p then do
      malloc
      modify fun w => (w.inputPortList m).foldl GuWorld.markIn w
      return edge ++ [m]
    else do
      modify fun w => w.markIn ip
      return edge

/-- Does a module without inputs start the sort?  It has outputs, or declares that it
needs none, or floats. -/
def GuWorld.isSourceEdge (w : GuWorld) (m : Addr) : Bool :=
  w.numInputPorts m = 0 ∧ (0 < w.numOutputPorts m ∨ w.minOutputPorts m = 0 ∨
    w.minInputPorts m = 0 ∨ w.numOutputPorts m = 0)

/-- `gu_find_edge_modules` for one module. -/
def guFindSourceEdge (edge : List Addr) (m : Addr) : GuM (List Addr) := do
  let w ← get
  if w.isSourceEdge m then do
    malloc
    return edge ++ [m]
  else return edge

/-- `gu_find_edge_modules`. -/
def guFindEdgeModules (gu : Gu) : GuM (List Addr) := do
  let edge ← gu.extInPortList.foldlM guFindExternalEdge []
  let w ← get
  (gu.sgList.flatMap w.sgModuleList).foldlM guFindSourceEdge edge

/-- The sort follows one output port: the port downstream is marked, and its module
becomes an edge module once all its inputs are. -/
def guFollowPort (edge : List Addr) (op : Addr) : GuM (List Addr) := do
  let w ← get
  match w.extOutPort op, w.connInPort op with
  | none, some ip => do
    modify fun w => w.markIn ip
    let w ← get
    if (w.inputPortList (w.inModule ip)).all w.inMark then do
      malloc
      return edge ++ [w.inModule ip]
    else return edge
  | _, _ => return edge

/-- The loop of `gu_update_sorted_list`. -/
def guSortLoop : ℕ → List Addr → GuM Unit
  | _, [] => pure ()
  | 0, _ :: _ => throw .efailed
  | n + 1, m :: edge => do
    malloc
    modify fun w => { w with
      gu := { w.gu with sortedModuleList := w.gu.sortedModuleList ++ [m] } }
    let w ← get
    let edge ← (w.outputPortList m).foldlM guFollowPort edge
    guSortLoop n edge

namespace GuWorld

/-- `gu_reset_graph_port_markers`. -/
def guResetGraphPortMarkers (w : GuWorld) (gu : Gu) : GuWorld :=
  let ms := gu.sgList.flatMap w.sgModuleList
  { w with
    inMark := (ms.flatMap w.inputPortList).foldl (fun mark p => update mark p false) w.inMark
    outMark := (ms.flatMap w.outputPortList).foldl (fun mark p => update mark p false) w.outMark }

/-- The sorted list is dropped. -/
def dropSorted (w : GuWorld) : GuWorld :=
  { w with gu := { w.gu with sortedModuleList := [] } }

end GuWorld

/-- `gu_update_sorted_list`; both its callers sort the main graph. -/
def guUpdateSortedList : GuM Unit := do
  modify fun w => { w with gu := { w.gu with sortUpdated := true, sortedModuleList := [] } }
  let w ← get
  let gu := w.gu
  onError (do
    let edge ← guFindEdgeModules gu
    guSortLoop ((gu.sgList.flatMap w.sgModuleList).length + gu.extInPortList.length) edge
    modify fun w => w.guResetGraphPortMarkers gu) GuWorld.dropSorted

/-! ## What the sort leaves alone -/

/-- The graph without what the sort works on: marks, sorted list and memory. -/
def GuWorld.unsorted (w : GuWorld) : GuWorld :=
  { w with
    inMark := fun _ => false
    outMark := fun _ => false
    gu := { w.gu with sortedModuleList := [], sortUpdated := false }
    mallocs := [] }

open GuWorld (unsorted)

/-- An allocation changes no more than the sorting may. -/
lemma malloc_leaves_unsorted : Leaves unsorted malloc :=
  Leaves.get_bind fun _ => Leaves.bind (Leaves.modify fun _ => rfl) fun _ =>
    Leaves.ite (Leaves.pure _) (Leaves.throw _)

/-- Marks of input ports are changes of the sorting. -/
lemma foldl_markIn_unsorted (ports : List Addr) (w : GuWorld) :
    (ports.foldl GuWorld.markIn w).unsorted = w.unsorted := by
  induction ports generalizing w with
  | nil => rfl
  | cons p ports ih => exact ih (w.markIn p)

/-- The search for edges changes no more than the sorting may. -/
lemma guFindEdgeModules_leaves_unsorted (gu : Gu) : Leaves unsorted (guFindEdgeModules gu) := by
  refine Leaves.bind (Leaves.foldlM ?_ _) fun _ =>
    Leaves.get_bind fun _ => Leaves.foldlM ?_ _
  · intro edge ext
    refine Leaves.get_bind fun w => ?_
    split
    · exact Leaves.pure _
    · exact Leaves.ite (Leaves.bind malloc_leaves_unsorted fun _ =>
          Leaves.bind (Leaves.modify fun w => foldl_markIn_unsorted _ w) fun _ => Leaves.pure _)
        (Leaves.bind (Leaves.modify fun _ => rfl) fun _ => Leaves.pure _)
  · intro edge m
    exact Leaves.get_bind fun _ =>
      Leaves.ite (Leaves.bind malloc_leaves_unsorted fun _ => Leaves.pure _) (Leaves.pure _)

/-- Following a port changes no more than the sorting may. -/
lemma guFollowPort_leaves_unsorted (edge : List Addr) (op : Addr) :
    Leaves unsorted (guFollowPort edge op) := by
  refine Leaves.get_bind fun w => ?_
  split
  · exact Leaves.bind (Leaves.modify fun _ => rfl) fun _ => Leaves.get_bind fun _ =>
      Leaves.ite (Leaves.bind malloc_leaves_unsorted fun _ => Leaves.pure _) (Leaves.pure _)
  · exact Leaves.pure _

/-- The loop changes no more than the sorting may. -/
lemma guSortLoop_leaves_unsorted (n : ℕ) (edge : List Addr) :
    Leaves unsorted (guSortLoop n edge) := by
  induction n generalizing edge with
  | zero =>
    cases edge with
    | nil => exact Leaves.pure _
    | cons m edge => exact Leaves.throw _
  | succ n ih =>
    cases edge with
    | nil => exact Leaves.pure _
    | cons m edge =>
      exact Leaves.bind malloc_leaves_unsorted fun _ =>
        Leaves.bind (Leaves.modify fun _ => rfl) fun _ =>
          Leaves.get_bind fun _ => Leaves.bind (Leaves.foldlM guFollowPort_leaves_unsorted _) ih

/-- The sort only touches what `unsorted` forgets. -/
theorem guUpdateSortedList_leaves_unsorted : Leaves unsorted guUpdateSortedList :=
  Leaves.bind (Leaves.modify fun _ => rfl) fun _ => Leaves.get_bind fun _ =>
    Leaves.onError (Leaves.bind (guFindEdgeModules_leaves_unsorted _) fun _ =>
        Leaves.bind (guSortLoop_leaves_unsorted _ _) fun _ => Leaves.modify fun _ => rfl)
      fun _ => rfl

end AudioReach
