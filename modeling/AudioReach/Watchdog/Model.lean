import AudioReach.ArResult
import AudioReach.Library.Runs
import Mathlib.Data.List.Count

/-!
# The watchdog service

A client gives the service a job with a time; if it does not take the job back in time, the service
calls the function of the job.  The service is one routine that runs on a thread of its own.  It
looks through the list of jobs, sleeps for a while if there are any, and waits for a signal if there
are none.

Clients and the routine are threads whose steps interleave in any order.  A step is an access to
the lock, a test of the flag `wd_alive_flag`, an access to the signal, a wait, or a visit of one job
of the list.  What a thread does to the list while it holds the lock belongs to the step next to it.

The service keeps no account of the jobs that it has been given.  Here it does: `armed` counts the
adds of a job that were reported as successful while the service was alive and that have not been
followed by a removal, a call, or the end of the service.
-/

namespace AudioReach

open Function (update)

/-- Who holds `g_wd_svc.lock`. -/
inductive WdOwner
  | routine
  | client (t : ℕ)
  deriving DecidableEq, Repr

/-- Where `spf_watchdog_svc` stands. -/
inductive WdRoutine
  /-- The thread pool has not run the routine yet. -/
  | queued
  /-- It takes the lock: at its start, and after it was woken. -/
  | lock
  /-- It reads the clock. -/
  | getTime
  /-- It tests the flag. -/
  | test (currTime : ℕ)
  /-- It goes through the list; these jobs are still to be visited. -/
  | visit (currTime : ℕ) (rest : List Addr)
  /-- The list is empty, so it clears the signal. -/
  | clear
  | unlockToWait
  /-- `posal_channel_wait`. -/
  | wait
  | unlockToSleep
  /-- `posal_timer_sleep`. -/
  | sleep
  | unlockToReturn
  | returned
  deriving DecidableEq, Repr

/-- Where a client stands. -/
inductive WdClient
  | idle
  /-- `spf_watchdog_svc_add_job` tests the flag. -/
  | addTest (job : Addr)
  | addLock (job : Addr)
  /-- It inserts the job and sends the signal. -/
  | addInsert (job : Addr)
  | addUnlock
  /-- `spf_watchdog_svc_remove_job` tests the flag. -/
  | removeTest (job : Addr)
  | removeLock (job : Addr)
  | removeDelete (job : Addr)
  | removeUnlock
  /-- `spf_watchdog_svc_deinit` takes the lock. -/
  | deinitLock
  | deinitDelete
  /-- It clears the flag. -/
  | deinitFlag
  /-- It sends the signal. -/
  | deinitSend
  | deinitUnlock
  /-- `spf_thread_pool_release_instance`, which waits for the routine. -/
  | deinitRelease
  /-- `posal_mutex_destroy`. -/
  | deinitDestroy
  deriving DecidableEq, Repr

/-- The calls of the clients. -/
inductive WdRequest
  /-- The job has this time in `timeout_us`. -/
  | addJob (job : Addr) (timeoutUs : ℕ)
  | removeJob (job : Addr)
  | deinit
  deriving DecidableEq, Repr

/-- The function of a job was called. -/
structure WdCall where
  job : Addr
  timeoutUs : ℕ
  time : ℕ
  armed : ℕ
  deriving DecidableEq, Repr

/-- `g_wd_svc` with the threads that use it. -/
structure WdSvc where
  lock : Option WdOwner
  destroyed : Bool
  /-- `signal_ptr`. -/
  signal : Bool
  /-- `job_head_ptr`. -/
  jobList : List Addr
  wdAliveFlag : Bool
  clock : ℕ
  /-- `timeout_us` of the jobs. -/
  timeoutUs : Addr → ℕ
  routine : WdRoutine
  clients : ℕ → WdClient
  armed : Addr → ℕ
  /-- The calls of job functions so far, the last one first. -/
  calls : List WdCall
  lockedDestroyed : Bool

namespace WdSvc

/-- After `spf_watchdog_svc_init`. -/
def init : WdSvc where
  lock := none
  destroyed := false
  signal := false
  jobList := []
  wdAliveFlag := true
  clock := 0
  timeoutUs _ := 0
  routine := .queued
  clients _ := .idle
  armed _ := 0
  calls := []
  lockedDestroyed := false

/-- A client goes on. -/
def setClient (s : WdSvc) (t : ℕ) (c : WdClient) : WdSvc :=
  { s with clients := update s.clients t c }

/-- `posal_mutex_lock`: a lock that is held makes the thread wait. -/
def acquire (s : WdSvc) (o : WdOwner) (next : WdSvc → WdSvc) : WdSvc :=
  match s.lock with
  | some _ => s
  | none => next { s with lock := some o, lockedDestroyed := s.lockedDestroyed || s.destroyed }

/-- `posal_mutex_unlock`. -/
def release (s : WdSvc) : WdSvc := { s with lock := none }

/-- The function of a job is called and its node is deleted. -/
def callJob (s : WdSvc) (job : Addr) : WdSvc :=
  { s with
    calls := ⟨job, s.timeoutUs job, s.clock, s.armed job⟩ :: s.calls
    jobList := s.jobList.erase job
    armed := update s.armed job (s.armed job - 1) }

/-- A step of `spf_watchdog_svc`. -/
def routineStep (s : WdSvc) : WdSvc :=
  match s.routine with
  | .queued => { s with routine := .lock }
  | .lock => s.acquire .routine fun s => { s with routine := .getTime }
  | .getTime => { s with routine := .test s.clock }
  | .test currTime =>
    { s with routine := if s.wdAliveFlag then .visit currTime s.jobList else .unlockToReturn }
  | .visit currTime (job :: rest) =>
    { (if s.timeoutUs job ≤ currTime then s.callJob job else s) with
      routine := .visit currTime rest }
  | .visit _ [] => { s with routine := if s.jobList = [] then .clear else .unlockToSleep }
  | .clear => { s with signal := false, routine := .unlockToWait }
  | .unlockToWait => { s.release with routine := .wait }
  | .wait => if s.signal then { s with routine := .lock } else s
  | .unlockToSleep => { s.release with routine := .sleep }
  | .sleep => { s with routine := .lock }
  | .unlockToReturn => { s.release with routine := .returned }
  | .returned => s

/-- A client makes a call. -/
def request (s : WdSvc) (t : ℕ) (r : WdRequest) : WdSvc :=
  match s.clients t, r with
  | .idle, .addJob job timeoutUs =>
    { s with timeoutUs := update s.timeoutUs job timeoutUs }.setClient t (.addTest job)
  | .idle, .removeJob job => s.setClient t (.removeTest job)
  | .idle, .deinit => s.setClient t .deinitLock
  | _, _ => s

/-- A job is inserted if there is a node for it, and the signal is sent; the caller is told that
it was inserted in any case. -/
def insertJob (s : WdSvc) (job : Addr) (allocated : Bool) : WdSvc :=
  { s with
    jobList := if allocated then job :: s.jobList else s.jobList
    signal := true
    armed := if s.wdAliveFlag then update s.armed job (s.armed job + 1) else s.armed }

/-- A step of a client. -/
def clientStep (s : WdSvc) (t : ℕ) (allocated : Bool) : WdSvc :=
  match s.clients t with
  | .idle => s
  | .addTest job => s.setClient t (if s.wdAliveFlag then .addLock job else .idle)
  | .addLock job => s.acquire (.client t) fun s => s.setClient t (.addInsert job)
  | .addInsert job => (s.insertJob job allocated).setClient t .addUnlock
  | .addUnlock => s.release.setClient t .idle
  | .removeTest job => s.setClient t (if s.wdAliveFlag then .removeLock job else .idle)
  | .removeLock job => s.acquire (.client t) fun s => s.setClient t (.removeDelete job)
  | .removeDelete job =>
    { s with
      jobList := s.jobList.erase job
      armed := update s.armed job (s.armed job - 1) }.setClient t .removeUnlock
  | .removeUnlock => s.release.setClient t .idle
  | .deinitLock => s.acquire (.client t) fun s => s.setClient t .deinitDelete
  | .deinitDelete => { s with jobList := [], armed := fun _ => 0 }.setClient t .deinitFlag
  | .deinitFlag => { s with wdAliveFlag := false }.setClient t .deinitSend
  | .deinitSend => { s with signal := true }.setClient t .deinitUnlock
  | .deinitUnlock => s.release.setClient t .deinitRelease
  | .deinitRelease =>
    match s.routine with
    -- a job that the pool has not started is dropped
    | .queued | .returned => { s with routine := .returned }.setClient t .deinitDestroy
    | _ => s
  | .deinitDestroy => { s with destroyed := true }.setClient t .idle

end WdSvc

/-- What happens next. -/
inductive WdAction
  /-- Time passes. -/
  | tick (us : ℕ)
  | routine
  /-- A client goes on; a node for a job can be allocated or not. -/
  | client (t : ℕ) (allocated : Bool)
  | request (t : ℕ) (r : WdRequest)
  deriving DecidableEq, Repr

/-- One step. -/
def WdSvc.step (s : WdSvc) : WdAction → WdSvc
  | .tick us => { s with clock := s.clock + us }
  | .routine => s.routineStep
  | .client t allocated => s.clientStep t allocated
  | .request t r => s.request t r

end AudioReach
