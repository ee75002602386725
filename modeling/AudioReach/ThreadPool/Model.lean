import AudioReach.ArResult
import Mathlib.Data.List.Basic

/-!
# The thread pools

Clients get thread pools of a heap and a priority, and share them: a pool counts its clients and
has the worker threads that the most demanding of them asked for.  A pool that should have more
stack than its workers have raises `req_stack_size`; each worker sees this when it is woken,
launches its successor and terminates.  It stays in the list of workers until a starting worker
joins it.

The model follows `spf_thread_pool.c` and the worker loop of `spf_thread_pool_island.c`.  All of
this happens under `pool_lock`, so the calls of the clients and the steps of the workers are
atomic.  What the heap and the operating system do is an argument of each of them.  A function
that would read a freed pool, or send a signal that is not there, does not return.
-/

namespace AudioReach

open Function (update)

/-- `SPF_THREAD_POOL_MAX_WORKER_THREADS_COUNT`. -/
def maxWorkerThreadsCount : ℕ := 4

/-- `SPF_THREAD_POOL_MIN_STACK_SIZE`. -/
def threadPoolMinStackSize : UInt32 := 1024

/-- `spf_thread_pool_worker_thread_inst_t`. -/
structure WorkerThread where
  wtPtr : Addr
  stackSize : UInt32
  isTerminated : Bool
  deriving DecidableEq

/-- `spf_thread_pool_inst_t`. -/
structure ThreadPoolInst where
  logId : UInt32
  heapId : UInt32
  threadPriority : Int32
  /-- `client_ref_counter`; it counts pointers in memory, so it does not wrap. -/
  clientRefCounter : ℕ
  reqStackSize : UInt32
  /-- `worker_thread_list_ptr`. -/
  workerThreads : List WorkerThread
  isDedicatedPool : Bool

/-- `spf_thread_pool_t`, with the pools that are allocated. -/
structure ThreadPools where
  pools : Addr → Option ThreadPoolInst
  /-- `pool_head_ptr`. -/
  poolHead : List Addr
  poolIdIncr : UInt32

/-- What the heap and the operating system do during a call. -/
structure PoolEnv where
  malloc : Option Addr
  /-- The channel, lock, queue and signal of a new pool can be created. -/
  created : Bool
  /-- There is memory for the list node of a new pool. -/
  listed : Bool
  /-- The attempts to launch a worker, in order: the worker, or a failure. -/
  launch : ℕ → Option Addr

namespace ThreadPoolInst

/-- The larger of two stack sizes. -/
def maxStack (a b : UInt32) : UInt32 := if a ≤ b then b else a

/-- `spf_thread_pool_launch_worker_threads`, which got the worker `wtPtr`. -/
def launchWorkerThread (pool : ThreadPoolInst) (wtPtr : Addr) : ThreadPoolInst :=
  { pool with workerThreads := pool.workerThreads ++ [⟨wtPtr, pool.reqStackSize, false⟩] }

/-- The loop of `spf_thread_pool_update_instance_internal`, after `i` launches: whether all went
well, and the pool.  It ends when the maximum is reached, if not before. -/
def launchLoop (launch : ℕ → Option Addr) (numOfWorkerThreads : UInt32) :
    ℕ → ℕ → ℕ → ThreadPoolInst → Bool × ThreadPoolInst
  | 0, _, _, pool => (true, pool)
  | fuel + 1, i, numActive, pool =>
    if numActive < numOfWorkerThreads.toNat ∧ numActive < maxWorkerThreadsCount then
      match launch i with
      | none => (false, pool)
      | some wtPtr =>
        launchLoop launch numOfWorkerThreads fuel (i + 1) (numActive + 1)
          (pool.launchWorkerThread wtPtr)
    else (true, pool)

/-- A pool as `spf_thread_pool_get_instance` creates it. -/
def new (logId heapId : UInt32) (threadPrio : Int32) (isDedicatedPool : Bool) : ThreadPoolInst where
  logId := logId
  heapId := heapId
  threadPriority := threadPrio
  clientRefCounter := 0
  reqStackSize := threadPoolMinStackSize
  workerThreads := []
  isDedicatedPool := isDedicatedPool

/-- The step of a worker that is woken and has too small a stack: it launches its successor,
whatever comes of that, and terminates. -/
def relaunch (pool : ThreadPoolInst) (wtPtr : Addr) (launched : Option Addr) : ThreadPoolInst :=
  let pool := launched.elim pool pool.launchWorkerThread
  { pool with workerThreads := pool.workerThreads.map fun wt =>
      if wt.wtPtr = wtPtr then { wt with isTerminated := true } else wt }

/-- `spf_thread_pool_check_join_worker_threads`. -/
def checkJoin (pool : ThreadPoolInst) : ThreadPoolInst :=
  { pool with workerThreads := pool.workerThreads.filter fun wt => !wt.isTerminated }

end ThreadPoolInst

namespace ThreadPools

/-- The pools with another state of one. -/
def setPool (g : ThreadPools) (p : Addr) (pool : ThreadPoolInst) : ThreadPools :=
  { g with pools := update g.pools p (some pool) }

/-- `spf_thread_pool_release_instance`. -/
def releaseInstance (g : ThreadPools) (p : Addr) : Option ThreadPools :=
  (g.pools p).map fun pool =>
    let clientRefCounter :=
      if 0 < pool.clientRefCounter then pool.clientRefCounter - 1 else pool.clientRefCounter
    if clientRefCounter = 0 then
      -- the workers are killed and joined, and the pool is freed
      { g with pools := update g.pools p none, poolHead := g.poolHead.erase p }
    else
      g.setPool p { pool with clientRefCounter := clientRefCounter }

/-- `spf_thread_pool_update_instance_internal`: whether it succeeded, and the pools. -/
def updateInstanceInternal (g : ThreadPools) (env : PoolEnv) (p : Addr)
    (reqStackSize numOfWorkerThreads : UInt32) : Option (Bool × ThreadPools) :=
  (g.pools p).bind fun pool =>
    let pool := { pool with reqStackSize := ThreadPoolInst.maxStack pool.reqStackSize reqStackSize }
    let r := ThreadPoolInst.launchLoop env.launch numOfWorkerThreads maxWorkerThreadsCount 0
      pool.workerThreads.length pool
    let g := g.setPool p r.2
    if r.1 then some (true, g) else (g.releaseInstance p).map fun g => (false, g)

/-- `GET_HEAP_ID_WITH_ISLAND_INFO`. -/
def heapIdWithIslandInfo (heapId : UInt32) : UInt32 := heapId &&& 0xF

/-- One pool in the search of `spf_thread_pool_get_instance`: the choice so far and the stack
memory that it needs. -/
def choose (g : ThreadPools) (heapId : UInt32) (threadPrio : Int32)
    (reqStackSize numOfWorkerThreads : UInt32) (best : Option (Addr × UInt32)) (p : Addr) :
    Option (Addr × UInt32) :=
  match g.pools p with
  | none => best
  | some pool =>
    if heapId = pool.heapId ∧ threadPrio = pool.threadPriority ∧ !pool.isDedicatedPool then
      let numActive := UInt32.ofNat pool.workerThreads.length
      let ifReused := ThreadPoolInst.maxStack reqStackSize pool.reqStackSize *
        ThreadPoolInst.maxStack numOfWorkerThreads numActive
      let ifNew := pool.reqStackSize * numActive + reqStackSize * numOfWorkerThreads
      if ifReused ≤ ifNew then
        match best with
        | none => some (p, ifReused)
        | some b => if ifReused ≤ b.2 then some (p, ifReused) else best
      else best
    else best

/-- The search of `spf_thread_pool_get_instance` for a pool that can be shared. -/
def findPool (g : ThreadPools) (heapId : UInt32) (threadPrio : Int32) (isDedicatedPool : Bool)
    (reqStackSize numOfWorkerThreads : UInt32) : Option Addr :=
  if isDedicatedPool then none
  else (g.poolHead.foldl (g.choose heapId threadPrio reqStackSize numOfWorkerThreads) none).map
    Prod.fst

/-- One more client has a pool. -/
def addClient (g : ThreadPools) (p : Addr) : Option ThreadPools :=
  (g.pools p).map fun pool =>
    g.setPool p { pool with clientRefCounter := pool.clientRefCounter + 1 }

/-- A new pool in the list. -/
def insertPool (g : ThreadPools) (p : Addr) (pool : ThreadPoolInst) : ThreadPools :=
  { pools := update g.pools p (some pool)
    poolHead := g.poolHead ++ [p]
    poolIdIncr := g.poolIdIncr + 1 }

/-- The end of `spf_thread_pool_get_instance`, when a pool is there. -/
def joinPool (g : ThreadPools) (env : PoolEnv) (p : Addr)
    (reqStackSize numOfWorkerThreads : UInt32) : Option (Bool × ThreadPools × Option Addr) :=
  (g.addClient p).bind fun g =>
    (g.updateInstanceInternal env p reqStackSize numOfWorkerThreads).map fun r =>
      (r.1, r.2, if r.1 then some p else none)

/-- `spf_thread_pool_get_instance`: whether it succeeded, the pools and the pool it returns. -/
def getInstance (g : ThreadPools) (env : PoolEnv) (heapId : UInt32) (threadPrio : Int32)
    (isDedicatedPool : Bool) (reqStackSize numOfWorkerThreads : UInt32) :
    Option (Bool × ThreadPools × Option Addr) :=
  let heapId := heapIdWithIslandInfo heapId
  match g.findPool heapId threadPrio isDedicatedPool reqStackSize numOfWorkerThreads with
  | some p => g.joinPool env p reqStackSize numOfWorkerThreads
  | none =>
    match env.malloc with
    | none => some (false, g, none)
    | some p =>
      if !env.created then
        -- `spf_thread_pool_release_instance` sends the kill signal, which is still a null pointer
        none
      else if env.listed then
        (g.insertPool p (.new g.poolIdIncr heapId threadPrio isDedicatedPool)).joinPool env p
          reqStackSize numOfWorkerThreads
      else
        -- the new pool, without any worker, is destroyed again
        some (false, { g with poolIdIncr := g.poolIdIncr + 1 }, none)

/-- `spf_thread_pool_update_instance`: whether it succeeded, the pools and the pool of the client
afterwards. -/
def updateInstance (g : ThreadPools) (env : PoolEnv) (p : Addr)
    (reqStackSize numOfWorkerThreads : UInt32) : Option (Bool × ThreadPools × Option Addr) :=
  (g.pools p).bind fun pool =>
    if pool.clientRefCounter > 1 then
      (g.releaseInstance p).bind fun g =>
        g.getInstance env pool.heapId pool.threadPriority pool.isDedicatedPool reqStackSize
          numOfWorkerThreads
    else
      (g.updateInstanceInternal env p reqStackSize numOfWorkerThreads).map fun r =>
        (r.1, r.2, if r.1 then some p else none)

/-- A step of a worker changes its pool. -/
def workerStep (g : ThreadPools) (p : Addr) (f : ThreadPoolInst → ThreadPoolInst) :
    Option ThreadPools :=
  (g.pools p).map fun pool => g.setPool p (f pool)

end ThreadPools

end AudioReach
