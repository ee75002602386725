import AudioReach.Amdb.Queue
import AudioReach.Library.Counting
import AudioReach.Library.Runs

/-!
# The parallel module loader

A client that has modules to load gets a handle, pushes one task for each module and releases the
handle.  Loader threads pop the tasks.  A handle counts its client and its tasks; whoever gives up
the last reference calls the client back, puts the handle into the queue of free handles, and asks
for the release of the vote that was asked for when the handle was given out.  That can be a loader
thread, so loader threads push into the queue that they pop from.

Threads interleave in any order.  A step is an access to a mutex, the test of a queue with the push
or pop that follows it or the wait, one signal, or what a thread does to a handle between two calls
of a queue.  A waiting thread is woken by a signal, or for no reason.

The number of a request and of a task, and the logs of what was run, released and called back are
not in the source.  `THREAD_EXIT`, which only `amdb_loader_destroy` sends, is left out.
-/

namespace AudioReach

open Function (update)

/-- `AMDB_TASK_Q_LENGTH`. -/
def amdbTaskQLength : ℕ := 64

/-- `AMDB_NUM_CLIENT_HANDLES`. -/
def amdbNumClientHandles : ℕ := 8

/-- `amdb_loader_task`. -/
inductive LoaderTask
  /-- `DLOPEN_TASK` number `k`, with its `client_handle`. -/
  | dlopen (h k : ℕ)
  /-- `VOTE`, for request `r`. -/
  | vote (r : ℕ)
  /-- `RELEASE_VOTE`, for request `r`. -/
  | releaseVote (r : ℕ)
  deriving DecidableEq, Repr

/-- The two queues of the loader. -/
inductive LoaderQueue
  | tasks
  | handles
  deriving DecidableEq, Repr

/-- The two operations of a queue. -/
inductive QueueOp
  | push
  | pop
  deriving DecidableEq, Repr

/-- The operation whose threads an operation wakes first. -/
def QueueOp.other : QueueOp → QueueOp
  | .push => .pop
  | .pop => .push

/-- Where a thread stands. -/
inductive LoaderPoint
  /-- A client without a request. -/
  | idle
  /-- `amdb_loader_get_handle` pops a handle. -/
  | popHandle
  /-- It fills in the handle. -/
  | fillHandle (h : ℕ)
  /-- It pushes the vote of the request. -/
  | pushVote (h r : ℕ)
  /-- The client has the handle. -/
  | holding (h r : ℕ)
  /-- `amdb_loader_push_task` pushes a task, which has its reference already. -/
  | pushTask (h r k : ℕ)
  /-- `amdb_loader_thread_entry_function` pops a task. -/
  | popTask
  /-- `amdb_voter_vote`. -/
  | vote (r : ℕ)
  /-- `amdb_voter_release`. -/
  | releaseVote (r : ℕ)
  /-- `load_function`. -/
  | runTask (h k : ℕ)
  /-- The loader thread gives up the reference of the task. -/
  | releaseTask (h k : ℕ)
  /-- `amdb_loader_release_handle` calls the client back. -/
  | callback (h r : ℕ)
  /-- It puts the handle back. -/
  | pushHandle (h r : ℕ)
  /-- It asks for the release of the vote. -/
  | pushRelease (r : ℕ)
  deriving DecidableEq, Repr

namespace LoaderPoint

/-- The call of `amdb_queue_push` or `amdb_queue_pop` that the thread is in. -/
def queueOp : LoaderPoint → Option (LoaderQueue × QueueOp)
  | popHandle => some (.handles, .pop)
  | pushHandle _ _ => some (.handles, .push)
  | popTask => some (.tasks, .pop)
  | pushVote _ _ | pushTask _ _ _ | pushRelease _ => some (.tasks, .push)
  | _ => none

/-- What a loader thread does with the task that it popped. -/
def serve : LoaderTask → LoaderPoint
  | .dlopen h k => runTask h k
  | .vote r => vote r
  | .releaseVote r => releaseVote r

end LoaderPoint

/-- `amdb_parallel_loader` and its handles, with the threads that use it. -/
structure LoaderCore where
  /-- `num_threads`: these are the loader threads. -/
  numThreads : ℕ
  numClients : ℕ
  /-- `task_queue_ptr`. -/
  taskQueue : AmdbQueue LoaderTask
  /-- `handle_queue_ptr`. -/
  handleQueue : AmdbQueue ℕ
  /-- `refs` of the handles, which counts tasks in a queue, so it does not wrap. -/
  refs : ℕ → ℕ
  /-- `cb` and `context_ptr` of the handles: the request that is called back. -/
  request : ℕ → ℕ
  point : ℕ → LoaderPoint
  numRequests : ℕ
  numTasks : ℕ
  taskRequest : ℕ → ℕ
  ran : List ℕ
  /-- The requests whose client released its handle. -/
  released : List ℕ
  called : List ℕ

namespace LoaderCore

variable (c : LoaderCore)

/-- How many threads there are. -/
def total : ℕ := c.numThreads + c.numClients

/-- A thread goes on. -/
def goto (t : ℕ) (p : LoaderPoint) : LoaderCore :=
  { c with point := update c.point t p }

/-- Where a thread goes after it finished what it was asked for. -/
def home (t : ℕ) : LoaderPoint :=
  if t < c.numThreads then .popTask else .idle

/-- `amdb_loader_release_handle` up to the test. -/
def releaseHandle (t h : ℕ) : LoaderCore :=
  let value := c.refs h - 1
  { c with refs := update c.refs h value }.goto t
    (if value = 0 then .callback h (c.request h) else c.home t)

/-- The operation of a queue does not have to wait. -/
def possible : LoaderQueue → QueueOp → Bool
  | .tasks, .push => !c.taskQueue.isFull
  | .tasks, .pop => !c.taskQueue.isEmpty
  | .handles, .push => !c.handleQueue.isFull
  | .handles, .pop => !c.handleQueue.isEmpty

/-- What a thread does at its place; a queue operation does not have to wait.  A client chooses
whether it pushes another task or releases its handle. -/
def act (t : ℕ) (more : Bool) : LoaderCore :=
  match c.point t with
  | .idle => c.goto t .popHandle
  | .popHandle =>
    { c with handleQueue := c.handleQueue.pop.2 }.goto t (.fillHandle c.handleQueue.pop.1)
  | .fillHandle h =>
    { c with
      request := update c.request h c.numRequests
      refs := update c.refs h 1
      numRequests := c.numRequests + 1 }.goto t (.pushVote h c.numRequests)
  | .pushVote h r => { c with taskQueue := c.taskQueue.push (.vote r) }.goto t (.holding h r)
  | .holding h r =>
    if more then
      { c with
        refs := update c.refs h (c.refs h + 1)
        taskRequest := update c.taskRequest c.numTasks r
        numTasks := c.numTasks + 1 }.goto t (.pushTask h r c.numTasks)
    else { c with released := r :: c.released }.releaseHandle t h
  | .pushTask h r k =>
    { c with taskQueue := c.taskQueue.push (.dlopen h k) }.goto t (.holding h r)
  | .popTask =>
    { c with taskQueue := c.taskQueue.pop.2 }.goto t (LoaderPoint.serve c.taskQueue.pop.1)
  | .vote _ => c.goto t .popTask
  | .releaseVote _ => c.goto t .popTask
  | .runTask h k => { c with ran := k :: c.ran }.goto t (.releaseTask h k)
  | .releaseTask h _ => c.releaseHandle t h
  | .callback h _ =>
    { c with called := c.request h :: c.called }.goto t (.pushHandle h (c.request h))
  | .pushHandle h r => { c with handleQueue := c.handleQueue.push h }.goto t (.pushRelease r)
  | .pushRelease r =>
    { c with taskQueue := c.taskQueue.push (.releaseVote r) }.goto t (c.home t)

end LoaderCore

/-- How far a thread is in a queue operation. -/
inductive QueueStage
  /-- Outside, or about to take the mutex. -/
  | ready
  /-- It has the mutex and tests the queue. -/
  | locked
  /-- `posal_condvar_wait`. -/
  | waiting
  /-- The operation on `q` is done; the threads that wait for the other operation are signalled. -/
  | signalOther (q : LoaderQueue) (op : QueueOp)
  /-- The threads that wait for the same operation are signalled if it is still possible. -/
  | signalSame (q : LoaderQueue) (op : QueueOp)
  /-- It gives back the mutex. -/
  | unlock (q : LoaderQueue)
  deriving DecidableEq, Repr

/-- The loader with the mutexes and condition variables of its queues. -/
structure AmdbLoader where
  /-- The queues, the handles and where the threads stand. -/
  core : LoaderCore
  stage : ℕ → QueueStage
  /-- Who holds `queue_nmutex`. -/
  lock : LoaderQueue → Option ℕ

/-- What happens next. -/
inductive LoaderEvent
  /-- Thread `t` goes on: a client with `more` pushes another task, and a signal wakes `u`. -/
  | run (t : ℕ) (more : Bool) (u : ℕ)
  /-- A waiting thread wakes up without a signal. -/
  | wake (t : ℕ)
  deriving DecidableEq, Repr

namespace AmdbLoader

/-- The queue memory at the start is not cleared; the handles are pushed one after the other. -/
def create (numThreads numClients : ℕ) : AmdbLoader where
  core :=
    { numThreads := numThreads
      numClients := numClients
      taskQueue := AmdbQueue.create amdbTaskQLength fun _ => .vote 0
      handleQueue := (List.range amdbNumClientHandles).foldl AmdbQueue.push
        (AmdbQueue.create amdbNumClientHandles fun _ => 0)
      refs := fun _ => 0
      request := fun _ => 0
      point := fun t => if t < numThreads then .popTask else .idle
      numRequests := 0
      numTasks := 0
      taskRequest := fun _ => 0
      ran := []
      released := []
      called := [] }
  stage _ := .ready
  lock _ := none

variable (s : AmdbLoader)

/-- A thread is at another stage. -/
def setStage (t : ℕ) (st : QueueStage) : AmdbLoader :=
  { s with stage := update s.stage t st }

/-- A mutex has another holder. -/
def setLock (q : LoaderQueue) (o : Option ℕ) : AmdbLoader :=
  { s with lock := update s.lock q o }

/-- The thread waits for an operation of a queue. -/
def waits (q : LoaderQueue) (op : QueueOp) (t : ℕ) : Bool :=
  s.stage t = .waiting && (s.core.point t).queueOp = some (q, op)

/-- `posal_condvar_signal` wakes one of the threads that wait, if there is one; then the thread
goes on. -/
def signal (q : LoaderQueue) (op : QueueOp) (u : ℕ) (next : AmdbLoader → AmdbLoader) : AmdbLoader :=
  if u < s.core.total ∧ s.waits q op u then next (s.setStage u .ready)
  else if ∀ v < s.core.total, ¬ s.waits q op v then next s
  -- the signal wakes another thread than `u`
  else s

/-- What a thread does next. -/
def runThread (t : ℕ) (more : Bool) (u : ℕ) : AmdbLoader :=
  match s.stage t, (s.core.point t).queueOp with
  | .ready, none => { s with core := s.core.act t more }
  | .ready, some (q, _) =>
    if s.lock q = none then (s.setLock q (some t)).setStage t .locked else s
  | .locked, some (q, op) =>
    if s.core.possible q op then
      { s with core := s.core.act t more }.setStage t (.signalOther q op)
    else (s.setLock q none).setStage t .waiting
  | .signalOther q op, _ => s.signal q op.other u fun s => s.setStage t (.signalSame q op)
  | .signalSame q op, _ =>
    if s.core.possible q op then s.signal q op u fun s => s.setStage t (.unlock q)
    else s.setStage t (.unlock q)
  | .unlock q, _ => (s.setLock q none).setStage t .ready
  | .locked, none | .waiting, _ => s

/-- One step. -/
def step : LoaderEvent → AmdbLoader
  | .run t more u => if t < s.core.total then s.runThread t more u else s
  | .wake t => if s.stage t = .waiting then s.setStage t .ready else s

end AmdbLoader

end AudioReach
