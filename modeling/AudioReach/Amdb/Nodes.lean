import AudioReach.Library.Runs

/-!
# The nodes of the module database

The module database has one node per registered module.  A node is found through a hash table by
the module id, and two counters keep it: `mem_refs` keeps the memory of the node, `dl_refs` keeps
the library of a dynamic module open.  A request takes both, but not at once: the memory is taken
when the node is found, the library when a loader thread has opened it, so that other threads run
in between.

A step is one section under `mutex_node` or `dl_mutex`, or one change of the atomic `mem_refs`.
What `dlopen`, `dlsym` and the allocations answer is an input of the step.  Each successful
`dlopen` is given a number of its own, so that a library that was closed is told from one that was
opened again.
-/

namespace AudioReach

open Function (update)

/-- Where a function of a module is: in an opened library, or in the image itself. -/
inductive AmdbFn
  | library (l : ℕ)
  | static
  deriving DecidableEq, Repr

/-- What `amdb_register` is told of a module besides its id. -/
structure AmdbModule where
  isFramework : Bool
  hasFunctions : Bool
  hasFilename : Bool
  filenameLen : ℕ
  hasTag : Bool
  /-- It is registered by the build and can not be removed. -/
  isBuiltIn : Bool
  deriving DecidableEq, Repr

namespace AmdbModule

/-- Neither functions nor a library are given. -/
def isStub (m : AmdbModule) : Bool :=
  !m.hasFunctions && (!m.hasFilename || !m.hasTag) && !m.isFramework

/-- There is no library to be loaded. -/
def isStatic (m : AmdbModule) : Bool :=
  m.isStub || (m.filenameLen = 0 && !m.hasFilename)

end AmdbModule

/-- `amdb_node_t` with its `amdb_capi_t` and its `amdb_dynamic_t`. -/
structure AmdbNode where
  key : ℕ
  isStub : Bool
  isStatic : Bool
  isBuiltIn : Bool
  memRefs : ℕ
  dlRefs : ℕ
  hDlopen : Option ℕ
  getStaticPropertiesF : Option AmdbFn
  initF : Option AmdbFn
  deriving DecidableEq, Repr

/-- Where the owner of a reference stands: the handle of a request or an instance. -/
inductive AmdbHolder
  /-- A handle whose load task has not been run. -/
  | toLoad
  /-- A handle that can be used. -/
  | loaded
  /-- A handle at the creation of an instance, whose library reference has been taken. -/
  | initing
  /-- A handle whose load failed, before its memory reference is dropped. -/
  | failing
  /-- A handle that is released, its library reference has been dropped. -/
  | releasing
  /-- An instance. -/
  | live
  /-- An instance that ends, its library reference has been dropped. -/
  | ending
  deriving DecidableEq, Repr

/-- The library references an owner has. -/
def AmdbHolder.dl : AmdbHolder → ℕ
  | loaded | live => 1
  | initing => 2
  | toLoad | failing | releasing | ending => 0

/-- How `amdb_resolve_symbols` goes. -/
inductive AmdbResolve
  /-- There is no memory for the names. -/
  | noMemory
  /-- The first symbol is not found. -/
  | noStaticProperties
  /-- The second symbol is not found. -/
  | noInit
  | found
  deriving DecidableEq, Repr

/-- The module database, and who uses it. -/
structure Amdb where
  nodes : ℕ → Option AmdbNode
  ht : ℕ → Option ℕ
  /-- A registration between its look-up and its insertion. -/
  registering : Option ℕ
  /-- The owners of references, with the node they own one of. -/
  holders : List (ℕ × AmdbHolder)
  /-- The nodes found by version queries that have not looked at them yet. -/
  queries : List ℕ
  /-- The libraries that were opened and not closed since. -/
  openLibs : List ℕ
  nextLib : ℕ
  usedAfterFree : Bool

/-- The sections of the threads. -/
inductive AmdbStep
  /-- `amdb_register` looks for the module. -/
  | registerFind (moduleId : ℕ)
  /-- `amdb_register` allocates a node and `amdb_insert_node` inserts it. -/
  | registerInsert (m : AmdbModule) (addr : Option ℕ)
  /-- `amdb_deregister`. -/
  | deregister (moduleId : ℕ)
  /-- `amdb_get_node`. -/
  | getNode (moduleId : ℕ)
  /-- `amdb_dynamic_loader`; whether the library is opened, and its symbols are resolved. -/
  | dynamicLoader (a : ℕ) (opens : Bool) (r : AmdbResolve)
  /-- `amdb_dynamic_loader` drops the handle of a failed load. -/
  | dropFailed (a : ℕ)
  /-- `amdb_release_module_handles` drops the library. -/
  | releaseDl (a : ℕ)
  /-- `amdb_release_module_handles` drops the node. -/
  | releaseMem (a : ℕ)
  /-- `capi_wrapper_init` takes the library. -/
  | wrapperInitDl (a : ℕ)
  /-- `capi_wrapper_init` takes the node. -/
  | wrapperInitMem (a : ℕ)
  /-- `capi_wrapper_end` drops the library. -/
  | wrapperEndDl (a : ℕ)
  /-- `capi_wrapper_end` drops the node. -/
  | wrapperEndMem (a : ℕ)
  /-- `amdb_get_details_from_mid`. -/
  | getDetails (moduleId : ℕ)
  /-- The version of a module is read. -/
  | moduleVersion (a : ℕ) (opens : Bool) (r : AmdbResolve)
  deriving DecidableEq, Repr

namespace AmdbNode

/-- `amdb_node_init`, or `none` when `node_init_dynamic` fails. -/
def init (m : AmdbModule) (moduleId : ℕ) : Option AmdbNode :=
  let fn := if m.isStatic && !m.isStub && m.hasFunctions then some .static else none
  if !m.isStatic && (!m.hasFilename || !m.hasTag) then
    none
  else
    some
      { key := moduleId
        isStub := m.isStub
        isStatic := m.isStatic
        isBuiltIn := m.isBuiltIn
        memRefs := 1
        dlRefs := 0
        hDlopen := none
        getStaticPropertiesF := fn
        initF := fn }

/-- `amdb_resolve_symbols`. -/
def resolveSymbols (n : AmdbNode) (r : AmdbResolve) : Bool × AmdbNode :=
  match n.hDlopen with
  | none => (false, n)
  | some l =>
    match r with
    | .noMemory => (false, n)
    | .noStaticProperties => (false, { n with getStaticPropertiesF := none })
    | .noInit => (false, { n with getStaticPropertiesF := some (.library l), initF := none })
    | .found =>
      (true, { n with getStaticPropertiesF := some (.library l), initF := some (.library l) })

end AmdbNode

namespace Amdb

/-- `amdb_init`: nothing is registered. -/
def init : Amdb where
  nodes := fun _ => none
  ht := fun _ => none
  registering := none
  holders := []
  queries := []
  openLibs := []
  nextLib := 0
  usedAfterFree := false

variable (s : Amdb)

/-- The node at the address is written. -/
def setNode (a : ℕ) (n : AmdbNode) : Amdb :=
  { s with nodes := update s.nodes a (some n) }

/-- The node at the address is used. -/
def use (a : ℕ) (f : AmdbNode → Amdb) : Amdb :=
  match s.nodes a with
  | none => { s with usedAfterFree := true }
  | some n => f n

/-- An owner in the state `h` goes on, to the states `tos`. -/
def move (a : ℕ) (h : AmdbHolder) (tos : List AmdbHolder) : Amdb :=
  { s with holders := tos.map (a, ·) ++ s.holders.erase (a, h) }

/-- What an owner in the state `h` does, if there is one. -/
def as (a : ℕ) (h : AmdbHolder) (s' : Amdb) : Amdb :=
  if (a, h) ∈ s.holders then s' else s

/-- `amdb_node_inc_mem_ref`. -/
def incMemRef (a : ℕ) : Amdb :=
  s.use a fun n => s.setNode a { n with memRefs := n.memRefs + 1 }

/-- `amdb_node_dec_mem_ref`: the last reference frees the node. -/
def decMemRef (a : ℕ) : Amdb :=
  s.use a fun n =>
    if n.memRefs - 1 = 0 then
      { s with nodes := update s.nodes a none }
    else
      s.setNode a { n with memRefs := n.memRefs - 1 }

/-- `amdb_node_inc_dl_ref`, for a dynamic module. -/
def incDlRef (a : ℕ) : Amdb :=
  s.use a fun n => if n.isStatic then s else s.setNode a { n with dlRefs := n.dlRefs + 1 }

/-- `posal_dlclose`. -/
def dlclose (l : Option ℕ) : Amdb :=
  match l with
  | none => s
  | some l => { s with openLibs := s.openLibs.erase l }

/-- `amdb_node_dec_dl_ref`: the last reference closes the library. -/
def decDlRef (a : ℕ) : Amdb :=
  s.use a fun n =>
    if n.isStatic then
      s
    else if n.dlRefs - 1 = 0 then
      (s.dlclose n.hDlopen).setNode a { n with dlRefs := n.dlRefs - 1, hDlopen := none }
    else
      s.setNode a { n with dlRefs := n.dlRefs - 1 }

/-- `node_wrapper_dlopen`: the library is opened and its symbols are resolved. -/
def wrapperDlopen (n : AmdbNode) (opens : Bool) (r : AmdbResolve) : Bool × AmdbNode × Amdb :=
  if opens then
    let opened := { n with hDlopen := some s.nextLib }
    let s := { s with openLibs := s.nextLib :: s.openLibs, nextLib := s.nextLib + 1 }
    match opened.resolveSymbols r with
    | (true, n) => (true, n, s)
    | (false, n) => (false, { n with hDlopen := none }, s.dlclose n.hDlopen)
  else
    (false, { n with hDlopen := none }, s)

/-- `amdb_dynamic_loader`.  A module that has a static replacement falls back to it, this is
`amdb_internal_handle_dl_open_failure`. -/
def dynamicLoader (fallback : ℕ → Bool) (a : ℕ) (opens : Bool) (r : AmdbResolve) : Amdb :=
  s.use a fun n =>
    if n.dlRefs = 0 then
      match s.wrapperDlopen n opens r with
      | (true, n, s) =>
        (s.move a .toLoad [.loaded]).setNode a { n with dlRefs := n.dlRefs + 1 }
      | (false, n, s) =>
        if fallback n.key then
          (s.move a .toLoad [.loaded]).setNode a
            { n with
              getStaticPropertiesF := some .static
              initF := some .static
              dlRefs := n.dlRefs + 1 }
        else
          (s.move a .toLoad [.failing]).setNode a n
    else
      (s.move a .toLoad [.loaded]).setNode a { n with dlRefs := n.dlRefs + 1 }

/-- `amdb_get_node`, with `check_dynamic_loading`. -/
def getNode (moduleId : ℕ) : Amdb :=
  match s.ht moduleId with
  | none => s
  | some a =>
    s.use a fun n =>
      if n.isStatic then
        { s with holders := (a, .loaded) :: s.holders }.incMemRef a
      else if n.hDlopen = none then
        { s with holders := (a, .toLoad) :: s.holders }.incMemRef a
      else
        ({ s with holders := (a, .loaded) :: s.holders }.incDlRef a).incMemRef a

/-- `amdb_register` after its look-up.  An allocation returns a block that is free. -/
def registerInsert (m : AmdbModule) (addr : Option ℕ) : Amdb :=
  match s.registering, addr with
  | none, _ => s
  | some _, none => { s with registering := none }
  | some moduleId, some a =>
    if (s.nodes a).isSome then
      s
    else
      match AmdbNode.init m moduleId, s.ht moduleId with
      | some n, none =>
        { s with
          registering := none
          nodes := update s.nodes a (some n)
          ht := update s.ht moduleId (some a) }
      | _, _ => { s with registering := none }

/-- `amdb_deregister`: the entry is taken out and its reference dropped. -/
def deregister (moduleId : ℕ) : Amdb :=
  match s.ht moduleId with
  | none => s
  | some a =>
    s.use a fun n =>
      if n.isBuiltIn then s else { s with ht := update s.ht moduleId none }.decMemRef a

/-- `amdb_get_details_from_mid`: no reference is taken. -/
def getDetails (moduleId : ℕ) : Amdb :=
  match s.ht moduleId with
  | none => s
  | some a => s.use a fun n => if n.isStub then s else { s with queries := a :: s.queries }

/-- `amdb_dyn_module_version`.  The library it opens is closed, `h_dlopen` keeps it. -/
def dynModuleVersion (a : ℕ) (n : AmdbNode) (opens : Bool) (r : AmdbResolve) : Amdb :=
  if n.dlRefs = 0 then
    match s.wrapperDlopen n opens r with
    | (true, n, s) => (s.dlclose n.hDlopen).setNode a n
    | (false, n, s) => s.setNode a n
  else
    s.setNode a (n.resolveSymbols r).2

/-- A version query looks at the node it found. -/
def moduleVersion (a : ℕ) (opens : Bool) (r : AmdbResolve) : Amdb :=
  if a ∈ s.queries then
    { s with queries := s.queries.erase a }.use a fun n =>
      let s := { s with queries := s.queries.erase a }
      if n.isStatic then s else s.dynModuleVersion a n opens r
  else
    s

/-- One section of a thread.  A section of a thread that is not there changes nothing. -/
def step (fallback : ℕ → Bool) (s : Amdb) : AmdbStep → Amdb
  | .registerFind moduleId =>
    if s.registering = none ∧ s.ht moduleId = none then
      { s with registering := some moduleId }
    else
      s
  | .registerInsert m addr => s.registerInsert m addr
  | .deregister moduleId => s.deregister moduleId
  | .getNode moduleId => s.getNode moduleId
  | .dynamicLoader a opens r => s.as a .toLoad (s.dynamicLoader fallback a opens r)
  | .dropFailed a => s.as a .failing ((s.move a .failing []).decMemRef a)
  | .releaseDl a => s.as a .loaded ((s.move a .loaded [.releasing]).decDlRef a)
  | .releaseMem a => s.as a .releasing ((s.move a .releasing []).decMemRef a)
  | .wrapperInitDl a => s.as a .loaded ((s.move a .loaded [.initing]).incDlRef a)
  | .wrapperInitMem a => s.as a .initing ((s.move a .initing [.loaded, .live]).incMemRef a)
  | .wrapperEndDl a => s.as a .live ((s.move a .live [.ending]).decDlRef a)
  | .wrapperEndMem a => s.as a .ending ((s.move a .ending []).decMemRef a)
  | .getDetails moduleId => s.getDetails moduleId
  | .moduleVersion a opens r => s.moduleVersion a opens r

end Amdb

end AudioReach
