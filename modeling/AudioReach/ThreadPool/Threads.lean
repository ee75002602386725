import AudioReach.ThreadPool.Model

/-!
# The threads of the thread pools

The calls of the clients and the loops of the workers, step by step: each lock, unlock, wait on a
channel, launch and join, and each operation on a job queue, is a step of its own, and the steps of
the threads interleave in any order.

A thread is a list of instructions that it still has to carry out.  `blocked` says when the first
one has to wait, `after` what it does to the state, and `next` which instructions take its place.
Every call of a client runs as a thread of its own.  `pool_lock` is a recursive mutex and has a
depth; `wt_sync_lock` is never taken twice by a thread.

The mutex of a queue covers a push or a pop, so each of them is one step.  A push with a priority
moves its element after it let go of that mutex; while it does so, what any other operation leaves
in the queue is up to `TpEnv.raced`.  The search for a pool is that of `ThreadPools.findPool`; here
the pool it finds is a part of the step.  A call on a pool that has no client does nothing.  Log
messages, island votes and thread priorities are left out.

Without a channel, a lock, a queue or a signal for a new pool the client crashes, as it sends the
kill signal that the pool does not have; the model has no step for that.
-/

namespace AudioReach

open Function (update)

/-! ## Data -/

/-- `spf_thread_pool_job_t`: which pointers are there. -/
structure TpJob where
  jobFuncPtr : Bool
  jobSignalPtr : Bool
  deriving DecidableEq, Repr

/-- `spf_msg_t`, as it stands in the queue of a pool. -/
structure TpMsg where
  id : ℕ
  /-- `payload_ptr`, the job. -/
  job : TpJob
  /-- `msg_opcode`, which the push does not set. -/
  msgOpcode : UInt32
  deriving DecidableEq, Repr

/-- `spf_thread_pool_inst_t`. -/
structure TpPool where
  clientRefCounter : ℕ
  reqStackSize : UInt32
  /-- `worker_thread_list_ptr`. -/
  workers : List ℕ
  killSignal : Bool
  /-- The thread that holds `wt_sync_lock`. -/
  wtSyncLock : Option ℕ
  /-- `queue_ptr`. -/
  queue : List TpMsg
  freed : Bool
  deriving DecidableEq, Repr

/-- The instructions of the threads. -/
inductive TpInstr
  | lockPool
  | unlockPool
  /-- `spf_thread_pool_get_instance`, under the lock. -/
  | getBody (reqStackSize numOfWorkerThreads : UInt32)
  /-- `spf_thread_pool_update_instance`, under the lock. -/
  | updateBody (p : ℕ) (reqStackSize numOfWorkerThreads : UInt32)
  /-- `spf_thread_pool_update_instance_internal`, under the lock, up to its loop. -/
  | updateInternalBody (p : ℕ) (reqStackSize numOfWorkerThreads : UInt32)
  /-- The loop of `spf_thread_pool_update_instance_internal`. -/
  | launchLoop (p : ℕ) (numOfWorkerThreads : UInt32) (numActive : ℕ)
  /-- `spf_thread_pool_launch_worker_threads`, under the lock; with the arguments of the loop, if
  it is called there. -/
  | launch (p : ℕ) (loop : Option (UInt32 × ℕ))
  /-- `spf_thread_pool_release_instance`, under the lock. -/
  | releaseBody (p : ℕ)
  /-- `posal_signal_send` in `spf_thread_pool_join_all_worker_threads`. -/
  | sendKill (p : ℕ)
  /-- The loop of `spf_thread_pool_join_all_worker_threads`, which clears the signal in the end. -/
  | joinAll (p : ℕ)
  /-- `posal_thread_join`, after which the worker is freed. -/
  | join (p w : ℕ)
  /-- `spf_svc_drain_cmd_queue`. -/
  | drain (p : ℕ)
  /-- The pool is freed. -/
  | destroy (p : ℕ)
  /-- The loop of `spf_thread_pool_deinit`. -/
  | deinitLoop
  /-- `posal_queue_push_back` in `spf_thread_pool_push_job`. -/
  | pushBack (p : ℕ) (job : Option TpJob) (priority : UInt32)
  /-- The test of `posal_queue_push_back_with_priority` after the push. -/
  | prioCheck (p : ℕ) (priority : UInt32)
  /-- The last element of the queue moves to its place. -/
  | reorder (p : ℕ)
  /-- `spf_thread_pool_check_join_worker_threads`, under the lock. -/
  | checkJoin (p : ℕ)
  /-- Its loop over the workers. -/
  | checkJoinFrom (p : ℕ) (workers : List ℕ)
  /-- A worker takes `wt_sync_lock`. -/
  | lockSync (p : ℕ)
  /-- `posal_channel_wait`. -/
  | channelWait (p : ℕ)
  /-- The worker compares its stack with the one that is asked for. -/
  | checkStack (p : ℕ)
  /-- `posal_queue_pop_front`. -/
  | popFront (p : ℕ)
  /-- A worker lets go of `wt_sync_lock`. -/
  | unlockSync (p : ℕ)
  /-- `is_terminated` is set. -/
  | setTerminated (p : ℕ)
  /-- The function of a job is called, if there is one. -/
  | callJob (p : ℕ) (msg : TpMsg)
  /-- The function of a job runs. -/
  | inJob (p : ℕ) (msg : TpMsg)
  /-- The result is stored and the signal is sent, if there is one. -/
  | finishJob (p : ℕ) (msg : TpMsg)
  deriving DecidableEq, Repr

/-- A thread. -/
structure TpThread where
  code : List TpInstr
  /-- `tp_inst_ptr`, if it is a worker. -/
  workerOf : Option ℕ
  stackSize : UInt32
  isTerminated : Bool
  deriving DecidableEq, Repr

/-- What happens to the jobs. -/
inductive TpEvent
  /-- A push succeeded. -/
  | pushed (p id : ℕ)
  /-- A push failed. -/
  | pushFailed (p id : ℕ)
  /-- A worker takes up a job and calls its function, if there is one. -/
  | started (p t id : ℕ)
  /-- The function returned, maybe with `AR_ETERMINATED`. -/
  | returned (p t id : ℕ) (terminated : Bool)
  /-- The completion signal is sent. -/
  | signalled (p t id : ℕ)
  /-- `__gpr_cmd_end_command` for a job. -/
  | endedAsGpr (p id : ℕ)
  /-- `spf_msg_ack_msg` for a job. -/
  | ackedAsMsg (p id : ℕ)
  deriving DecidableEq, Repr

/-- All threads and pools. -/
structure TpState where
  pools : ℕ → TpPool
  numPools : ℕ
  /-- `pool_head_ptr`. -/
  poolHead : List ℕ
  /-- The owner of `pool_lock` and how often it took it. -/
  poolLock : Option (ℕ × ℕ)
  threads : ℕ → TpThread
  numThreads : ℕ
  events : List TpEvent
  nextId : ℕ

/-- What a step learns from outside. -/
structure TpEnv where
  found : Option ℕ
  /-- There is memory for a new pool. -/
  created : Bool
  /-- There is memory for the list node of a new pool. -/
  listed : Bool
  launched : Bool
  allocated : Bool
  opcode : UInt32
  place : ℕ
  /-- What a queue holds after two operations at once. -/
  raced : List TpMsg
  /-- The function of a job returns `AR_ETERMINATED`. -/
  terminated : Bool

/-- The calls of the clients. -/
inductive TpCall
  | get (reqStackSize numOfWorkerThreads : UInt32)
  | update (p : ℕ) (reqStackSize numOfWorkerThreads : UInt32)
  | release (p : ℕ)
  | push (p : ℕ) (job : Option TpJob) (priority : UInt32)
  | deinit

/-- What happens next: nothing, a client makes a call, or a thread is run for a step. -/
inductive TpChoice
  | idle
  | call (c : TpCall)
  | exec (t : ℕ) (env : TpEnv)

/-- `SPF_THREAD_POOL_MAX_QUEUE_NODES`. -/
def tpMaxQueueNodes : ℕ := 128

/-- `SPF_MSG_CMD_GPR`. -/
def spfMsgCmdGpr : UInt32 := 0x0100102A

/-! ## Programs -/

/-- `spf_thread_pool_release_instance`. -/
def releaseCode (p : ℕ) : List TpInstr := [.lockPool, .releaseBody p]

/-- `spf_thread_pool_update_instance_internal`. -/
def updateInternalCode (p : ℕ) (reqStackSize numOfWorkerThreads : UInt32) : List TpInstr :=
  [.lockPool, .updateInternalBody p reqStackSize numOfWorkerThreads, .unlockPool]

/-- `spf_thread_pool_get_instance`. -/
def getCode (reqStackSize numOfWorkerThreads : UInt32) : List TpInstr :=
  [.lockPool, .getBody reqStackSize numOfWorkerThreads, .unlockPool]

/-- `spf_thread_pool_get_instance` after it created the pool `p`: without a list node the pool is
released again.  It is in the list until then, but `pool_lock` is held and nobody looks. -/
def newPoolCode (p : ℕ) (listed : Bool) (reqStackSize numOfWorkerThreads : UInt32) : List TpInstr :=
  if listed then updateInternalCode p reqStackSize numOfWorkerThreads else releaseCode p

/-- `spf_thread_pool_launch_worker_threads`. -/
def launchCode (p : ℕ) (loop : Option (UInt32 × ℕ)) : List TpInstr := [.lockPool, .launch p loop]

/-- What follows the launch of a worker: the loop goes on, or its caller releases the pool.  A
worker that is replaced does not look at the result. -/
def launchCont (p : ℕ) : Option (UInt32 × ℕ) → Bool → List TpInstr
  | none, _ => []
  | some (num, numActive), true => [.launchLoop p num (numActive + 1)]
  | some _, false => releaseCode p

/-- `spf_thread_pool_worker_thread_entry`. -/
def workerCode (p : ℕ) : List TpInstr := [.lockPool, .checkJoin p, .unlockPool, .lockSync p]

/-- A worker with too small a stack is replaced. -/
def relaunchCode (p : ℕ) : List TpInstr :=
  [.unlockSync p, .lockPool] ++ launchCode p none ++ [.setTerminated p, .unlockPool]

/-- The program of a call. -/
def TpCall.code : TpCall → List TpInstr
  | .get req num => getCode req num
  | .update p req num => [.lockPool, .updateBody p req num, .unlockPool]
  | .release p => releaseCode p
  | .push p job priority => [.pushBack p job priority]
  | .deinit => [.lockPool, .deinitLoop, .unlockPool]

namespace TpState

variable (s : TpState)

/-! ## Instructions -/

/-- The code of a thread. -/
def code (t : ℕ) : List TpInstr := (s.threads t).code

/-- The thread has to wait at the instruction. -/
def blocked (t : ℕ) : TpInstr → Bool
  | .lockPool => s.poolLock.any fun o => o.1 != t
  | .join _ w => s.code w != []
  | .lockSync p => (s.pools p).wtSyncLock.isSome
  | .channelWait p => !(s.pools p).killSignal && (s.pools p).queue.isEmpty
  | _ => false

/-- The pool that `spf_thread_pool_get_instance` finds in the list. -/
def foundPool (env : TpEnv) : Option ℕ := env.found.filter (· ∈ s.poolHead)

/-- The push of a job succeeds. -/
def pushFits (env : TpEnv) (p : ℕ) (job : Option TpJob) : Bool :=
  job.isSome && (s.pools p).queue.length != tpMaxQueueNodes && env.allocated

/-- Another thread moves an element of the queue. -/
def racing (t p : ℕ) : Bool :=
  (List.range s.numThreads).any fun u => u != t && (s.code u).head? == some (.reorder p)

/-- The instructions that take the place of the one that is carried out. -/
def next (t : ℕ) (env : TpEnv) : TpInstr → List TpInstr
  | .getBody req num =>
    match s.foundPool env with
    | some p => updateInternalCode p req num
    | none => if env.created then newPoolCode s.numPools env.listed req num else []
  | .updateBody p req num =>
    if (s.pools p).clientRefCounter = 0 then []
    else if 1 < (s.pools p).clientRefCounter then releaseCode p ++ getCode req num
    else updateInternalCode p req num
  | .updateInternalBody p _ num =>
    if (s.pools p).clientRefCounter = 0 then []
    else [.launchLoop p num (s.pools p).workers.length]
  | .launchLoop p num numActive =>
    if numActive < num.toNat ∧ numActive < maxWorkerThreadsCount then
      launchCode p (some (num, numActive))
    else []
  | .launch p loop => .unlockPool :: launchCont p loop env.launched
  | .releaseBody p =>
    if (s.pools p).clientRefCounter = 1 then
      [.lockPool, .sendKill p, .unlockPool, .unlockPool, .drain p, .destroy p]
    else [.unlockPool]
  | .sendKill p => [.joinAll p]
  | .joinAll p =>
    match (s.pools p).workers with
    | [] => []
    | w :: _ => [.join p w, .joinAll p]
  | .drain p => if (s.pools p).queue = [] then [] else [.drain p]
  | .deinitLoop =>
    match s.poolHead with
    | [] => []
    | p :: _ => releaseCode p ++ [.deinitLoop]
  | .pushBack p job priority =>
    if (s.pools p).clientRefCounter ≠ 0 ∧ s.pushFits env p job then [.prioCheck p priority] else []
  | .prioCheck p priority =>
    if 0 < priority ∧ 1 < (s.pools p).queue.length then [.reorder p] else []
  | .checkJoin p => [.checkJoinFrom p (s.pools p).workers]
  | .checkJoinFrom _ [] => []
  | .checkJoinFrom p (w :: ws) =>
    if (s.threads w).isTerminated then [.join p w, .checkJoinFrom p ws] else [.checkJoinFrom p ws]
  | .lockSync p => [.channelWait p]
  | .channelWait p => if (s.pools p).killSignal then [.unlockSync p] else [.checkStack p]
  | .checkStack p =>
    if (s.threads t).stackSize < (s.pools p).reqStackSize then relaunchCode p else [.popFront p]
  | .popFront p =>
    match (s.pools p).queue with
    | [] => [.unlockSync p, .lockSync p]
    | msg :: _ => [.unlockSync p, .callJob p msg, .lockSync p]
  | .callJob p msg => if msg.job.jobFuncPtr then [.inJob p msg] else []
  | .inJob p msg => if env.terminated then [] else [.finishJob p msg]
  | .lockPool | .unlockPool | .join _ _ | .destroy _ | .reorder _ => []
  | .unlockSync _ | .setTerminated _ | .finishJob _ _ => []

/-- The state with a change of one pool. -/
def updPool (p : ℕ) (f : TpPool → TpPool) : TpState :=
  { s with pools := update s.pools p (f (s.pools p)) }

/-- The state with another program of one thread. -/
def setCode (t : ℕ) (code : List TpInstr) : TpState :=
  { s with threads := update s.threads t { s.threads t with code := code } }

/-- The state with one more event. -/
def log (e : TpEvent) : TpState := { s with events := s.events ++ [e] }

/-- One more thread. -/
def addThread (th : TpThread) : TpState :=
  { s with threads := update s.threads s.numThreads th, numThreads := s.numThreads + 1 }

/-- A new pool, with its first client. -/
def addPool : TpState :=
  { s with
    pools := update s.pools s.numPools ⟨1, threadPoolMinStackSize, [], false, none, [], false⟩
    numPools := s.numPools + 1
    poolHead := s.poolHead ++ [s.numPools] }

/-- The last element of a queue moves. -/
def moveLast (place : ℕ) (q : List TpMsg) : List TpMsg :=
  match q.getLast? with
  | none => []
  | some msg => q.dropLast.take place ++ msg :: q.dropLast.drop place

/-- The queue of a pool after an operation of the thread `t` that should leave `q`. -/
def putQueue (t : ℕ) (env : TpEnv) (p : ℕ) (q : List TpMsg) : TpState :=
  s.updPool p fun pool => { pool with queue := if s.racing t p then env.raced else q }

/-- What an instruction of the thread `t` does to everything but the program of the thread. -/
def after (t : ℕ) (env : TpEnv) : TpInstr → TpState
  | .lockPool => { s with poolLock := some (t, (s.poolLock.elim 0 Prod.snd) + 1) }
  | .unlockPool =>
    { s with poolLock := s.poolLock.bind fun o => if o.2 ≤ 1 then none else some (o.1, o.2 - 1) }
  | .getBody _ _ =>
    match s.foundPool env with
    | some p => s.updPool p fun pool => { pool with clientRefCounter := pool.clientRefCounter + 1 }
    | none => if env.created then s.addPool else s
  | .updateInternalBody p req _ =>
    if (s.pools p).clientRefCounter = 0 then s
    else s.updPool p fun pool =>
      { pool with reqStackSize := ThreadPoolInst.maxStack pool.reqStackSize req }
  | .launch p _ =>
    if env.launched then
      (s.updPool p fun pool => { pool with workers := pool.workers ++ [s.numThreads] }).addThread
        ⟨workerCode p, some p, (s.pools p).reqStackSize, false⟩
    else s
  | .releaseBody p =>
    let t := s.updPool p fun pool => { pool with clientRefCounter := pool.clientRefCounter - 1 }
    if (s.pools p).clientRefCounter = 1 then { t with poolHead := t.poolHead.erase p } else t
  | .sendKill p => s.updPool p fun pool => { pool with killSignal := true }
  | .joinAll p =>
    if (s.pools p).workers = [] then s.updPool p fun pool => { pool with killSignal := false }
    else s
  | .join p w => s.updPool p fun pool => { pool with workers := pool.workers.erase w }
  | .drain p =>
    match (s.pools p).queue with
    | [] => s
    | msg :: q => (s.putQueue t env p q).log
        (if msg.msgOpcode = spfMsgCmdGpr then .endedAsGpr p msg.id else .ackedAsMsg p msg.id)
  | .destroy p => s.updPool p fun pool => { pool with freed := true }
  | .pushBack p job _ =>
    if (s.pools p).clientRefCounter = 0 then s
    else if s.pushFits env p job then
      { (s.putQueue t env p ((s.pools p).queue ++
          (job.map fun job => ⟨s.nextId, job, env.opcode⟩).toList)).log (.pushed p s.nextId) with
        nextId := s.nextId + 1 }
    else { s.log (.pushFailed p s.nextId) with nextId := s.nextId + 1 }
  | .reorder p => s.putQueue t env p (moveLast env.place (s.pools p).queue)
  | .lockSync p => s.updPool p fun pool => { pool with wtSyncLock := some t }
  | .popFront p => s.putQueue t env p (s.pools p).queue.tail
  | .unlockSync p => s.updPool p fun pool => { pool with wtSyncLock := none }
  | .setTerminated _ =>
    { s with threads := update s.threads t { s.threads t with isTerminated := true } }
  | .callJob p msg => s.log (.started p t msg.id)
  | .inJob p msg => s.log (.returned p t msg.id env.terminated)
  | .finishJob p msg => if msg.job.jobSignalPtr then s.log (.signalled p t msg.id) else s
  | .updateBody _ _ _ | .launchLoop _ _ _ | .deinitLoop | .prioCheck _ _ | .checkJoin _ => s
  | .checkJoinFrom _ _ | .channelWait _ | .checkStack _ => s

/-! ## Steps -/

/-- The thread can go on. -/
def canStep (t : ℕ) : Bool :=
  match s.code t with
  | [] => false
  | i :: _ => !s.blocked t i

/-- A step of the thread `t`. -/
def exec (t : ℕ) (env : TpEnv) : TpState :=
  match s.code t with
  | [] => s
  | i :: rest => if s.blocked t i then s else (s.after t env i).setCode t (s.next t env i ++ rest)

/-- A call of a client starts. -/
def call (c : TpCall) : TpState := s.addThread ⟨c.code, none, 0, false⟩

/-- A step of the system. -/
def step : TpChoice → TpState
  | .idle => s
  | .call c => s.call c
  | .exec t env => s.exec t env

/-- Before the first pool is created. -/
def init : TpState :=
  ⟨fun _ => ⟨0, 0, [], false, none, [], false⟩, 0, [], none, fun _ => ⟨[], none, 0, false⟩, 0, [],
    0⟩

end TpState

end AudioReach
