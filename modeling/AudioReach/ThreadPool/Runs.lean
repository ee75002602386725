import AudioReach.Library.Owners
import AudioReach.Library.Runs
import AudioReach.ThreadPool.Counts

/-!
# Clients and workers of the thread pools, interleaved

Any number of clients get, update and release pools while the workers of the pools relaunch
themselves and join each other, in any order.  The counts and the list of pools are right in
every run.  Whether a call leaves enough workers, and lets the pools of the other clients alone,
depends on the workers in the list of the pool: the code counts the terminated ones that nobody
has joined yet, and it keeps the workers that it launched before it gave up.  A call that can
create only some of the parts of a new pool does not return at all.
-/

namespace AudioReach

open Function (update update_eq_iff update_eq_self update_idem update_of_ne update_self)
open List Option
open Library ThreadPoolInst

/-- A call of a client, or a step of a worker. -/
inductive PoolClientCall (κ : Type*)
  /-- `spf_thread_pool_get_instance`. -/
  | getInstance (x : κ) (env : PoolEnv) (heapId : UInt32) (threadPrio : Int32)
      (isDedicatedPool : Bool) (reqStackSize numOfWorkerThreads : UInt32)
  /-- `spf_thread_pool_update_instance`. -/
  | updateInstance (x : κ) (env : PoolEnv) (reqStackSize numOfWorkerThreads : UInt32)
  /-- `spf_thread_pool_release_instance`. -/
  | releaseInstance (x : κ)
  /-- A worker of the pool `p` with too small a stack launches its successor and terminates. -/
  | relaunch (p wtPtr : Addr) (launched : Option Addr)
  /-- A worker of the pool `p` starts and joins those that are terminated. -/
  | checkJoin (p : Addr)

/-- The pools and their clients. -/
structure PoolClients (κ : Type*) where
  g : ThreadPools
  holds : κ → Option Addr
  request : κ → UInt32

namespace PoolClients

open ThreadPools (Counted Got NewBuilt heapIdWithIslandInfo missing)

variable {κ : Type*}

/-- No pools. -/
def init (κ : Type*) : PoolClients κ := ⟨⟨fun _ => none, [], 0⟩, fun _ => none, fun _ => 0⟩

variable [DecidableEq κ]

/-- The clients after a call of `x` that returned the pool `ret`. -/
def returned (s : PoolClients κ) (x : κ) (req : UInt32) (r : Bool × ThreadPools × Option Addr) :
    Bool × PoolClients κ :=
  (r.1, ⟨r.2.1, update s.holds x r.2.2, if r.1 then update s.request x req else s.request⟩)

/-- A call: whether it succeeded, and the state after it. -/
def call (s : PoolClients κ) : PoolClientCall κ → Option (Bool × PoolClients κ)
  | .getInstance x env heapId prio dedicated req num =>
    (s.g.getInstance env heapId prio dedicated req num).map (s.returned x req)
  | .updateInstance x env req num =>
    match s.holds x with
    | none => some (false, s)
    | some p => (s.g.updateInstance env p req num).map (s.returned x req)
  | .releaseInstance x =>
    match s.holds x with
    | none => some (true, s)
    | some p => (s.g.releaseInstance p).map fun g => (true, ⟨g, update s.holds x none, s.request⟩)
  | .relaunch p wtPtr launched =>
    (s.g.workerStep p fun pool => pool.relaunch wtPtr launched).map fun g => (true, { s with g := g })
  | .checkJoin p => (s.g.workerStep p ThreadPoolInst.checkJoin).map fun g => (true, { s with g := g })

/-- The state after a call; one that does not return leaves everything as it was. -/
def step (s : PoolClients κ) (c : PoolClientCall κ) : PoolClients κ :=
  ((s.call c).map Prod.snd).getD s

omit [DecidableEq κ] in
/-- A client that gets a pool has none, the heap returns memory that is not in use, and a worker
that steps is a worker of a pool. -/
def Admitted (cs : List κ) (s : PoolClients κ) : PoolClientCall κ → Prop
  | .getInstance x env _ _ _ _ _ =>
    x ∈ cs ∧ s.holds x = none ∧ ∀ p ∈ env.malloc, s.g.pools p = none
  | .updateInstance x env _ _ => x ∈ cs ∧ ∀ p ∈ env.malloc, s.g.pools p = none
  | .releaseInstance x => x ∈ cs
  | .relaunch p wtPtr _ => ∃ pool, s.g.pools p = some pool ∧ ∃ wt ∈ pool.workerThreads,
      wt.wtPtr = wtPtr ∧ wt.isTerminated = false ∧ wt.stackSize < pool.reqStackSize
  | .checkJoin p => ∃ pool, s.g.pools p = some pool

omit [DecidableEq κ] in
/-- What holds between the calls. -/
structure Good (cs : List κ) (s : PoolClients κ) : Prop where
  /-- The count of a pool is the number of clients that have it. -/
  clientRefCounter : ∀ p pool, s.g.pools p = some pool →
    pool.clientRefCounter = cs.countP fun x => s.holds x = some p
  /-- A pool is in the list if and only if a client has it. -/
  listed : ∀ p, p ∈ s.g.poolHead ↔ 0 < cs.countP fun x => s.holds x = some p
  allocated : ∀ p, (∃ pool, s.g.pools p = some pool) ↔ p ∈ s.g.poolHead
  /-- A pool has the stack that its clients asked for. -/
  stack : ∀ x ∈ cs, ∀ p, s.holds x = some p →
    ∃ pool, s.g.pools p = some pool ∧ s.request x ≤ pool.reqStackSize

omit [DecidableEq κ] in
/-- What a call of `x` that asks for `num` workers should leave behind: with success, a pool with
so many workers; without, the pools of the other clients with their workers, and with the clients
they had besides `x`. -/
def Leaves (cs : List κ) (s : PoolClients κ) (x : κ) (num : UInt32) (ok : Bool)
    (s' : PoolClients κ) : Prop :=
  if ok then ∃ p pool, s'.holds x = some p ∧ s'.g.pools p = some pool ∧
    demand num ≤ numLive pool.workerThreads
  else ∀ y ∈ cs, y ≠ x → ∀ p pool, s.holds y = some p → s.g.pools p = some pool →
    ∃ pool', s'.g.pools p = some pool' ∧ pool'.workerThreads = pool.workerThreads ∧
      pool'.clientRefCounter + (if s.holds x = some p then 1 else 0) = pool.clientRefCounter

/-- The call returns and keeps what it should. -/
def Claimed (cs : List κ) (s : PoolClients κ) (c : PoolClientCall κ) : Prop :=
  match c with
  | .getInstance x _ _ _ _ _ num => ∃ r, s.call c = some r ∧ Leaves cs s x num r.1 r.2
  | .updateInstance x _ _ num => ∃ r, s.call c = some r ∧ Leaves cs s x num r.1 r.2
  | _ => s.call c ≠ none

/-- The workers `wts` of the pool that a call will use are such that the call does what it
should: if the missing workers can be launched, then no worker in the list is terminated, or
there are enough others; if not, and other clients have the pool, already the first launch
fails. -/
def Fit (launch : ℕ → Option Addr) (num : UInt32) (wts : List WorkerThread) (others : Prop) :
    Prop :=
  ((∀ j < missing num wts, launch j ≠ none) →
    (∀ wt ∈ wts, wt.isTerminated = false) ∨ demand num ≤ numLive wts) ∧
  (others → (∀ j < missing num wts, launch j ≠ none) ∨ launch 0 = none)

omit [DecidableEq κ] in
/-- The pool that a call will use fits it.  A client that shares its pool leaves it for one that
`spf_thread_pool_get_instance` finds. -/
def Fits (s : PoolClients κ) : PoolClientCall κ → Prop
  | .getInstance _ env heapId prio dedicated req num =>
    let target := s.g.findPool (heapIdWithIslandInfo heapId) prio dedicated req num
    Fit env.launch num (s.g.targetWorkers target) (target ≠ none)
  | .updateInstance x env req num =>
    ∀ p pool, s.holds x = some p → s.g.pools p = some pool →
      if pool.clientRefCounter > 1 then
        let target := s.g.findPool (heapIdWithIslandInfo pool.heapId) pool.threadPriority
          pool.isDedicatedPool req num
        Fit env.launch num (s.g.targetWorkers target) (target ≠ none)
      else Fit env.launch num pool.workerThreads False
  | _ => True

omit [DecidableEq κ] in
/-- If the call needs a new pool and there is memory for it, then its channel, lock, queue and
signal can be created. -/
def Built (s : PoolClients κ) : PoolClientCall κ → Prop
  | .getInstance _ env heapId prio dedicated req num =>
    NewBuilt env (s.g.findPool (heapIdWithIslandInfo heapId) prio dedicated req num)
  | .updateInstance x env req num =>
    ∀ p pool, s.holds x = some p → s.g.pools p = some pool → pool.clientRefCounter > 1 →
      NewBuilt env (s.g.findPool (heapIdWithIslandInfo pool.heapId) pool.threadPriority
        pool.isDedicatedPool req num)
  | _ => True

/-! ## One call -/

omit [DecidableEq κ] in
/-- What the calls keep. -/
structure Held (cs : List κ) (s : PoolClients κ) : Prop where
  counted : Counted s.g (owners cs s.holds)
  /-- A pool has the stack that its clients asked for. -/
  stack : ∀ x ∈ cs, ∀ p pool, s.holds x = some p → s.g.pools p = some pool →
    s.request x ≤ pool.reqStackSize

variable {cs : List κ} {s s' : PoolClients κ} {x : κ} {g₁ g' : ThreadPools} {env : PoolEnv}
  {req num : UInt32} {wts new : List WorkerThread}

omit [DecidableEq κ] in
/-- The pool of a client is allocated. -/
lemma Held.pool (h : Held cs s) (hx : x ∈ cs) {p : Addr} (hp : s.holds x = some p) :
    ∃ pool, s.g.pools p = some pool :=
  (h.counted.live p).mpr (owners_pos_of_mem hx hp)

/-- New workers make up for the missing ones, unless terminated ones were counted. -/
lemma demand_le_iff (hlive : ∀ wt ∈ new, wt.isTerminated = false)
    (hlen : new.length = missing num wts) :
    demand num ≤ numLive (wts ++ new) ↔
      (∀ wt ∈ wts, wt.isTerminated = false) ∨ demand num ≤ numLive wts := by
  have hnew : numLive new = new.length := numLive_eq_length_iff.mpr hlive
  have hle := numLive_le_length wts
  rw [numLive_append, hnew, hlen, ← numLive_eq_length_iff]
  unfold missing
  omega

/-- What the pools of the others are, once `x` has left its pool. -/
structure Left (s : PoolClients κ) (x : κ) (g₁ : ThreadPools) : Prop where
  /-- The pools that others have are as before, without `x`. -/
  pools : ∀ q pool₁, g₁.pools q = some pool₁ → ∃ pool, s.g.pools q = some pool ∧
    pool₁.workerThreads = pool.workerThreads ∧ pool₁.reqStackSize = pool.reqStackSize ∧
    pool₁.clientRefCounter + (if s.holds x = some q then 1 else 0) = pool.clientRefCounter

/-- A client that had left its pool gets one: what it leaves behind is as it should be exactly
when the pool fits. -/
lemma leaves_iff_of_got (hleft : Left s x g₁)
    (hcounted : Counted g₁ (owners cs (update s.holds x none))) {target : Option Addr} {ok : Bool}
    {ret : Option Addr} (htarget : ∀ t, target = some t → ∃ pool, g₁.pools t = some pool)
    (hwts : wts = g₁.targetWorkers target)
    (hgot : Got g₁ (owners cs (update s.holds x none)) env req num target wts ok g' ret) :
    Leaves cs s x num ok (s.returned x req (ok, g', ret)).2 ↔
      Fit env.launch num wts (target ≠ none) := by
  cases ok with
  | true =>
    obtain ⟨p, pool', new, rfl, hpool', -, hworkers, hlive, hlen, hall⟩ := hgot.success rfl
    have hholds : (s.returned x req (true, g', some p)).2.holds x = some p :=
      update_self ..
    constructor
    · rintro ⟨q, pool, hq, hpool, henough⟩
      rw [hholds, Option.some.injEq] at hq
      subst hq
      have heq : pool = pool' := Option.some.inj (hpool.symm.trans hpool')
      rw [heq, hworkers, demand_le_iff hlive hlen] at henough
      exact ⟨fun _ => henough, fun _ => Or.inl hall⟩
    · rintro ⟨hfit, -⟩
      refine ⟨p, pool', hholds, hpool', ?_⟩
      rw [hworkers, demand_le_iff hlive hlen]
      exact hfit hall
  | false =>
    obtain ⟨rfl, new, hpools, hlaunched⟩ := hgot.failure rfl
    have hothers : (∀ p, (if target = some p then new else []) = []) →
        Leaves cs s x num false (s.returned x req (false, g', none)).2 := by
      intro hnil y hy hyx p pool hp hpool
      have hp₁ : update s.holds x none y = some p := by rw [update_of_ne hyx, hp]
      obtain ⟨pool₁, hpool₁⟩ := (hcounted.live p).mpr (owners_pos_of_mem hy hp₁)
      obtain ⟨pool₀, hpool₀, hworkers, -, hcount⟩ := hleft.pools p pool₁ hpool₁
      rw [hpool, Option.some.injEq] at hpool₀
      subst hpool₀
      obtain ⟨pool', hpool', hcount', hworkers'⟩ := hpools p pool₁ hpool₁
      refine ⟨pool', hpool', ?_, by rw [hcount', hcount]⟩
      rw [hworkers', hnil, append_nil, hworkers]
    cases target with
    | none =>
      constructor
      · intro _
        refine ⟨fun _ => Or.inl ?_, fun hne => absurd rfl hne⟩
        rw [hwts]
        exact fun wt hwt => absurd hwt not_mem_nil
      · exact fun _ => hothers fun _ => if_neg nofun
    | some t =>
      obtain ⟨hlen, hnone, hall⟩ := hlaunched (by simp)
      obtain ⟨poolt, hpoolt⟩ := htarget t rfl
      constructor
      · intro hleaves
        refine ⟨fun hlaunch => absurd hnone (hlaunch _ hlen), fun _ => Or.inr ?_⟩
        -- somebody else has the pool, so no worker may have been launched
        have hused := (hcounted.live t).mp ⟨poolt, hpoolt⟩
        rw [Ne, owners_eq_zero_iff] at hused
        push Not at hused
        obtain ⟨y, hy, hyt⟩ := hused
        have hyx : y ≠ x := ne_of_update_eq hyt nofun
        rw [update_of_ne hyx] at hyt
        obtain ⟨pool₀, hpool₀, hworkers, -, -⟩ := hleft.pools t poolt hpoolt
        obtain ⟨pool', hpool', hsame, -⟩ := hleaves y hy hyx t pool₀ hyt hpool₀
        obtain ⟨pool'', hpool'', -, hworkers'⟩ := hpools t poolt hpoolt
        have heq : pool' = pool'' := Option.some.inj (hpool'.symm.trans hpool'')
        rw [if_pos rfl, ← heq, hsame, hworkers] at hworkers'
        have hnil : new = [] := by
          have := congrArg List.length hworkers'
          rw [length_append] at this
          exact length_eq_zero_iff.mp (by omega)
        rw [hnil] at hnone
        exact hnone
      · rintro ⟨-, hfirst⟩
        have hnil : new = [] := by
          rcases hfirst (by simp) with hlaunch | hzero
          · exact absurd hnone (hlaunch _ hlen)
          · by_contra hne
            exact hall 0 (length_pos_iff.mpr hne) hzero
        exact hothers fun _ => by rw [hnil, ite_self]

omit [DecidableEq κ] in
/-- The search does not look at the numbers of clients. -/
lemma findPool_congr {g : ThreadPools} (hhead : g₁.poolHead = g.poolHead)
    (hpools : ∀ q, q ∈ g.poolHead → ∃ pool n, g.pools q = some pool ∧
      g₁.pools q = some { pool with clientRefCounter := n })
    (heapId : UInt32) (prio : Int32) (dedicated : Bool) (req num : UInt32) :
    g₁.findPool heapId prio dedicated req num = g.findPool heapId prio dedicated req num := by
  have hchoose : ∀ best, ∀ q ∈ g.poolHead,
      g₁.choose heapId prio req num best q = g.choose heapId prio req num best q := by
    intro best q hq
    obtain ⟨pool, n, hpool, hpool₁⟩ := hpools q hq
    unfold ThreadPools.choose
    rw [hpool, hpool₁]
  unfold ThreadPools.findPool
  rw [hhead]
  split
  · rfl
  · exact congrArg _ (foldl_ext _ _ _ fun best q hq => hchoose best q hq)

/-- A client leaves its pool. -/
lemma owners_leave (hnodup : cs.Nodup) (hx : x ∈ cs) {holds : κ → Option Addr} {p : Addr}
    (hp : holds x = some p) :
    update (owners cs holds) p (owners cs holds p - 1) = owners cs (update holds x none) := by
  refine update_eq_iff.mpr ⟨?_, fun q hq => (owners_drop_of_ne hnodup hx hp hq).symm⟩
  have hdrop := owners_drop_self hnodup hx hp
  omega

omit [DecidableEq κ] in
/-- A step of a worker keeps the counts and the stack sizes. -/
lemma Held.workerStep (h : Held cs s) {p : Addr} (f : ThreadPoolInst → ThreadPoolInst)
    (hclients : ∀ pool, (f pool).clientRefCounter = pool.clientRefCounter)
    (hstack : ∀ pool, (f pool).reqStackSize = pool.reqStackSize)
    (hp : ∃ pool, s.g.pools p = some pool) :
    ∃ g', s.g.workerStep p f = some g' ∧ Held cs { s with g := g' } := by
  obtain ⟨pool, hpool⟩ := hp
  refine ⟨s.g.setPool p (f pool), by rw [ThreadPools.workerStep, hpool, map_some],
    h.counted.setPool_of_eq hpool (hclients pool), fun y hy q pool' hq hpool' => ?_⟩
  by_cases hqp : q = p
  · subst hqp
    rw [ThreadPools.pools_setPool_self, Option.some.injEq] at hpool'
    rw [← hpool', hstack]
    exact h.stack y hy q pool hq hpool
  · rw [ThreadPools.pools_setPool_of_ne _ _ hqp] at hpool'
    exact h.stack y hy q pool' hq hpool'

section

variable (hnodup : cs.Nodup) (h : Held cs s)
include hnodup h

/-- A client that had left its pool gets one: the counts and the stack stay right. -/
lemma held_of_got (hx : x ∈ cs) (hleft : Left s x g₁)
    (hcounted : Counted g₁ (owners cs (update s.holds x none))) {target : Option Addr} {ok : Bool}
    {ret : Option Addr}
    (hgot : Got g₁ (owners cs (update s.holds x none)) env req num target wts ok g' ret) :
    Held cs (s.returned x req (ok, g', ret)).2 := by
  have hn : owners cs (update s.holds x ret) =
      fun q => owners cs (update s.holds x none) q + if ret = some q then 1 else 0 := by
    funext q
    have hup := owners_update hnodup hx (update s.holds x none) ret q
    rw [update_idem, update_self, if_neg (show ¬ none = some q by simp)] at hup
    exact hup
  refine ⟨?_, fun y hy p pool' hp hpool' => ?_⟩
  · rw [returned]
    rw [hn]
    exact hgot.counted
  · rw [returned] at hp hpool' ⊢
    dsimp only at hp hpool' ⊢
    by_cases hyx : y = x
    · subst hyx
      rw [update_self] at hp
      subst hp
      cases ok with
      | false =>
        obtain ⟨hnone, -⟩ := hgot.failure rfl
        cases hnone
      | true =>
        obtain ⟨q, pool, -, hq, hpool, hreq, -⟩ := hgot.success rfl
        rw [Option.some.injEq] at hq
        subst hq
        rw [if_pos rfl, update_self, Option.some.inj (hpool'.symm.trans hpool)]
        exact hreq
    · rw [update_of_ne hyx] at hp
      have hp₁ : update s.holds x none y = some p := by rw [update_of_ne hyx, hp]
      obtain ⟨pool₁, hpool₁⟩ := (hcounted.live p).mpr (owners_pos_of_mem hy hp₁)
      obtain ⟨pool₀, hpool₀, -, hreq, -⟩ := hleft.pools p pool₁ hpool₁
      have hrequest : (if ok = true then update s.request x req else s.request) y =
          s.request y := by
        split
        · exact update_of_ne hyx ..
        · rfl
      rw [hrequest]
      calc s.request y ≤ pool₀.reqStackSize := h.stack y hy p pool₀ hp hpool₀
        _ = pool₁.reqStackSize := hreq.symm
        _ ≤ pool'.reqStackSize := hgot.stack p pool₁ pool' hpool₁ hpool'

/-- `spf_thread_pool_get_instance`. -/
lemma Held.getInstance {heapId : UInt32} {prio : Int32} {dedicated : Bool}
    (hadm : Admitted cs s (.getInstance x env heapId prio dedicated req num))
    (hbuilt : Built s (.getInstance x env heapId prio dedicated req num)) :
    ∃ r, s.call (.getInstance x env heapId prio dedicated req num) = some r ∧ Held cs r.2 ∧
      (Leaves cs s x num r.1 r.2 ↔ Fits s (.getInstance x env heapId prio dedicated req num)) := by
  obtain ⟨hx, hnone, hfree⟩ := hadm
  have hstay : update s.holds x none = s.holds := by rw [← hnone, update_eq_self]
  have hcounted : Counted s.g (owners cs (update s.holds x none)) := by
    rw [hstay]
    exact h.counted
  have hleft : Left s x s.g := ⟨fun q pool hpool =>
    ⟨pool, hpool, rfl, rfl, by rw [hnone, if_neg (by simp), Nat.add_zero]⟩⟩
  obtain ⟨ok, g', ret, hcall, hgot⟩ :=
    hcounted.getInstance env hfree heapId prio dedicated req num hbuilt
  refine ⟨_, by rw [call, hcall, map_some], held_of_got hnodup h hx hleft hcounted hgot, ?_⟩
  refine leaves_iff_of_got hleft hcounted (fun t ht => ?_) rfl hgot
  exact (h.counted.live t).mpr ((h.counted.listed t).mp (ThreadPools.mem_of_findPool ht))

/-- A client that shares its pool leaves it: the memory stays in use, and the search for a pool
finds the same pool as before. -/
lemma Held.leaveShared (hx : x ∈ cs) {p : Addr} {pool : ThreadPoolInst} (hp : s.holds x = some p)
    (hpool : s.g.pools p = some pool) (hshared : pool.clientRefCounter > 1) :
    ∃ g₁, s.g.releaseInstance p = some g₁ ∧
      Counted g₁ (owners cs (update s.holds x none)) ∧ Left s x g₁ ∧
      (∀ q, s.g.pools q = none → g₁.pools q = none) ∧
      ∀ heapId prio dedicated req num,
        g₁.findPool heapId prio dedicated req num = s.g.findPool heapId prio dedicated req num ∧
        g₁.targetWorkers (s.g.findPool heapId prio dedicated req num) =
          s.g.targetWorkers (s.g.findPool heapId prio dedicated req num) := by
  have hcount := h.counted.count p pool hpool
  obtain ⟨g₁, hrelease, hcounted, hothers, hself⟩ := h.counted.releaseInstance hpool
  obtain ⟨hhead, hself⟩ := hself (by omega)
  rw [owners_leave hnodup hx hp] at hcounted
  have hleft : Left s x g₁ := by
    refine ⟨fun q pool₁ hpool₁ => ?_⟩
    by_cases hq : q = p
    · subst hq
      rw [hself, Option.some.injEq] at hpool₁
      refine ⟨pool, hpool, by rw [← hpool₁], by rw [← hpool₁], ?_⟩
      rw [if_pos hp, ← hpool₁]
      dsimp only
      omega
    · rw [hothers q hq] at hpool₁
      refine ⟨pool₁, hpool₁, rfl, rfl, ?_⟩
      rw [hp, if_neg (by simpa using Ne.symm hq), Nat.add_zero]
  have hsame : ∀ q ∈ s.g.poolHead, ∃ x n, s.g.pools q = some x ∧
      g₁.pools q = some { x with clientRefCounter := n } := by
    intro q hq
    by_cases hqp : q = p
    · subst hqp
      exact ⟨pool, _, hpool, hself⟩
    · obtain ⟨y, hy⟩ := (h.counted.live q).mpr ((h.counted.listed q).mp hq)
      exact ⟨y, y.clientRefCounter, hy, by rw [hothers q hqp, hy]⟩
  refine ⟨g₁, hrelease, hcounted, hleft, fun q hnone => ?_, fun heapId prio dedicated req num =>
    ⟨findPool_congr hhead hsame heapId prio dedicated req num, ?_⟩⟩
  · have hqp : q ≠ p := ne_of_apply_eq hnone hpool nofun
    rw [hothers q hqp, hnone]
  · cases htarget : s.g.findPool heapId prio dedicated req num with
    | none => rfl
    | some q =>
      obtain ⟨y, n, hy, hy₁⟩ := hsame q (ThreadPools.mem_of_findPool htarget)
      simp only [ThreadPools.targetWorkers, bind_some, hy, hy₁, map_some]

/-- `spf_thread_pool_update_instance` of a client that shares its pool. -/
lemma Held.updateShared (hx : x ∈ cs) (hfree : ∀ p ∈ env.malloc, s.g.pools p = none) {p : Addr}
    {pool : ThreadPoolInst} (hp : s.holds x = some p) (hpool : s.g.pools p = some pool)
    (hshared : pool.clientRefCounter > 1)
    (hbuilt : Built s (.updateInstance x env req num)) :
    ∃ r, s.call (.updateInstance x env req num) = some r ∧ Held cs r.2 ∧
      (Leaves cs s x num r.1 r.2 ↔ Fits s (.updateInstance x env req num)) := by
  obtain ⟨g₁, hrelease, hcounted, hleft, hfree₁, hfound⟩ :=
    h.leaveShared hnodup hx hp hpool hshared
  obtain ⟨htarget, hworkers⟩ := hfound (heapIdWithIslandInfo pool.heapId) pool.threadPriority
    pool.isDedicatedPool req num
  have hbuilt₁ := hbuilt p pool hp hpool hshared
  rw [← htarget] at hbuilt₁
  obtain ⟨ok, g', ret, hcall, hgot⟩ := hcounted.getInstance env
    (fun q hq => hfree₁ q (hfree q hq)) pool.heapId pool.threadPriority pool.isDedicatedPool req
    num hbuilt₁
  refine ⟨s.returned x req (ok, g', ret), ?_, held_of_got hnodup h hx hleft hcounted hgot, ?_⟩
  · simp only [call, hp, ThreadPools.updateInstance, hpool, bind_some, hshared, if_true,
      hrelease, hcall, map_some]
  · have hiff := leaves_iff_of_got hleft hcounted (fun t ht => (hcounted.live t).mpr
      ((hcounted.listed t).mp (ThreadPools.mem_of_findPool ht))) rfl hgot
    rw [htarget, hworkers] at hiff
    refine hiff.trans ⟨fun hfit q y hq hy => ?_, fun hfits => ?_⟩
    · rw [hp, Option.some.injEq] at hq
      subst hq
      rw [hpool, Option.some.injEq] at hy
      subst hy
      rw [if_pos hshared]
      exact hfit
    · have := hfits p pool hp hpool
      rwa [if_pos hshared] at this

/-- `spf_thread_pool_update_instance` of the only client of a pool. -/
lemma Held.updateSole (hx : x ∈ cs) {p : Addr} {pool : ThreadPoolInst} (hp : s.holds x = some p)
    (hpool : s.g.pools p = some pool) (hsole : ¬ pool.clientRefCounter > 1) :
    ∃ r, s.call (.updateInstance x env req num) = some r ∧ Held cs r.2 ∧
      (Leaves cs s x num r.1 r.2 ↔ Fits s (.updateInstance x env req num)) := by
  have hcount := h.counted.count p pool hpool
  have hpos := owners_pos_of_mem hx hp
  obtain ⟨ok, g', new, hcall, hlive, hothers, hok, hfail⟩ :=
    h.counted.updateInstanceInternal hpool env req num
  have hfits : Fits s (.updateInstance x env req num) ↔
      Fit env.launch num pool.workerThreads False := by
    constructor
    · intro hfits
      have := hfits p pool hp hpool
      rwa [if_neg hsole] at this
    · intro hfit q y hq hy
      rw [hp, Option.some.injEq] at hq
      subst hq
      rw [hpool, Option.some.injEq] at hy
      subst hy
      rwa [if_neg hsole]
  -- nobody else has the pool
  have halone : ∀ y ∈ cs, y ≠ x → ∀ q, s.holds y = some q → q ≠ p := by
    rintro y hy hyx q hq rfl
    exact hyx (eq_of_owners_eq_one hnodup hx hp (by omega) hy hq)
  refine ⟨s.returned x req (ok, g', if ok then some p else none), ?_, ?_, ?_⟩
  · simp only [call, hp, ThreadPools.updateInstance, hpool, bind_some, hsole, if_false,
      hcall, map_some]
  · cases ok with
    | true =>
      obtain ⟨hcounted, hself, -, -⟩ := hok rfl
      refine ⟨?_, fun y hy q pool' hq hpool' => ?_⟩
      · have hstay : update s.holds x (some p) = s.holds := by rw [← hp, update_eq_self]
        simp only [returned, if_true, hstay]
        exact hcounted
      · simp only [returned, if_true] at hq hpool' ⊢
        by_cases hyx : y = x
        · subst hyx
          rw [update_self, Option.some.injEq] at hq
          subst hq
          rw [hself, Option.some.injEq] at hpool'
          rw [update_self, ← hpool']
          exact le_maxStack_right ..
        · rw [update_of_ne hyx] at hq ⊢
          rw [hothers q (halone y hy hyx q hq)] at hpool'
          exact h.stack y hy q pool' hq hpool'
    | false =>
      obtain ⟨hcounted, -⟩ := hfail rfl
      rw [owners_leave hnodup hx hp] at hcounted
      refine ⟨?_, fun y hy q pool' hq hpool' => ?_⟩
      · exact hcounted
      · simp only [returned, Bool.false_eq_true, if_false] at hq hpool' ⊢
        have hyx : y ≠ x := ne_of_update_eq hq (by simp)
        rw [update_of_ne hyx] at hq
        rw [hothers q (halone y hy hyx q hq)] at hpool'
        exact h.stack y hy q pool' hq hpool'
  · rw [hfits]
    cases ok with
    | true =>
      obtain ⟨-, hself, hlen, hall⟩ := hok rfl
      have hholds : (s.returned x req (true, g', if true = true then some p else none)).2.holds x =
          some p := update_self ..
      constructor
      · rintro ⟨q, y, hq, hy, henough⟩
        rw [hholds, Option.some.injEq] at hq
        subst hq
        have heq : y = ThreadPools.grown pool req new := Option.some.inj (hy.symm.trans hself)
        rw [heq, ThreadPools.grown, demand_le_iff hlive hlen] at henough
        exact ⟨fun _ => henough, False.elim⟩
      · rintro ⟨hfit, -⟩
        refine ⟨p, _, hholds, hself, ?_⟩
        rw [ThreadPools.grown, demand_le_iff hlive hlen]
        exact hfit hall
    | false =>
      obtain ⟨-, -, hlen, hnone, -⟩ := hfail rfl
      constructor
      · intro _
        exact ⟨fun hlaunch => absurd hnone (hlaunch _ hlen), False.elim⟩
      · rintro - y hy hyx q pool' hq hpool'
        have hqp := halone y hy hyx q hq
        refine ⟨pool', (hothers q hqp).trans hpool', rfl, ?_⟩
        rw [hp, if_neg (by simpa using Ne.symm hqp), Nat.add_zero]

/-- `spf_thread_pool_update_instance`. -/
lemma Held.updateInstance (hadm : Admitted cs s (.updateInstance x env req num))
    (hbuilt : Built s (.updateInstance x env req num)) :
    ∃ r, s.call (.updateInstance x env req num) = some r ∧ Held cs r.2 ∧
      (Leaves cs s x num r.1 r.2 ↔ Fits s (.updateInstance x env req num)) := by
  obtain ⟨hx, hfree⟩ := hadm
  cases hp : s.holds x with
  | none =>
    refine ⟨(false, s), by simp only [call, hp], h, ?_⟩
    constructor
    · intro _ p pool hq
      rw [hp] at hq
      cases hq
    · rintro - y hy hyx p pool hq hpool
      exact ⟨pool, hpool, rfl, by rw [hp, if_neg (by simp), Nat.add_zero]⟩
  | some p =>
    obtain ⟨pool, hpool⟩ := h.pool hx hp
    by_cases hshared : pool.clientRefCounter > 1
    · exact h.updateShared hnodup hx hfree hp hpool hshared hbuilt
    · exact h.updateSole hnodup hx hp hpool hshared

/-- `spf_thread_pool_release_instance`. -/
lemma Held.releaseInstance (hx : x ∈ cs) :
    ∃ r, s.call (.releaseInstance x) = some r ∧ Held cs r.2 := by
  cases hp : s.holds x with
  | none => exact ⟨(true, s), by simp only [call, hp], h⟩
  | some p =>
    obtain ⟨pool, hpool⟩ := h.pool hx hp
    obtain ⟨g₁, hrelease, hcounted, hothers, hself⟩ := h.counted.releaseInstance hpool
    rw [owners_leave hnodup hx hp] at hcounted
    refine ⟨(true, ⟨g₁, update s.holds x none, s.request⟩), ?_, hcounted,
      fun y hy q pool' hq hpool' => ?_⟩
    · simp only [call, hp, hrelease, map_some]
    · dsimp only at hq hpool' ⊢
      have hyx : y ≠ x := ne_of_update_eq hq (by simp)
      rw [update_of_ne hyx] at hq
      by_cases hqp : q = p
      · subst hqp
        have hmany : owners cs s.holds q ≠ 1 :=
          fun hone => hyx (eq_of_owners_eq_one hnodup hx hp hone hy hq)
        rw [(hself hmany).2, Option.some.injEq] at hpool'
        rw [← hpool']
        exact h.stack y hy q pool hq hpool
      · rw [hothers q hqp] at hpool'
        exact h.stack y hy q pool' hq hpool'

/-- A call that cannot create the parts of its new pool does not return. -/
lemma Held.call_eq_none {c : PoolClientCall κ} (hadm : Admitted cs s c) (hbuilt : ¬ Built s c) :
    s.call c = none := by
  cases c with
  | getInstance x env heapId prio dedicated req num =>
    rw [call, ThreadPools.getInstance_eq_none hbuilt, map_none]
  | updateInstance x env req num =>
    unfold Built at hbuilt
    push Not at hbuilt
    obtain ⟨p, pool, hp, hpool, hshared, hnew⟩ := hbuilt
    obtain ⟨g₁, hrelease, -, -, -, hfound⟩ := h.leaveShared hnodup hadm.1 hp hpool hshared
    rw [← (hfound ..).1] at hnew
    simp only [call, hp, ThreadPools.updateInstance, hpool, bind_some, hshared, if_true,
      hrelease, ThreadPools.getInstance_eq_none hnew, map_none]
  | releaseInstance x => exact absurd trivial hbuilt
  | relaunch p wtPtr launched => exact absurd trivial hbuilt
  | checkJoin p => exact absurd trivial hbuilt

/-- A call of which the parts of a new pool can be created returns and keeps the counts, and it
does what it should exactly when the pool that it uses fits it. -/
lemma Held.return {c : PoolClientCall κ} (hadm : Admitted cs s c) (hbuilt : Built s c) :
    Held cs (s.step c) ∧ s.call c ≠ none ∧ (Claimed cs s c ↔ Fits s c) := by
  -- a call that returns `r` and keeps the counts
  have hreturn : ∀ r, s.call c = some r → Held cs r.2 → Held cs (s.step c) ∧ s.call c ≠ none := by
    intro r hcall hheld
    refine ⟨?_, by rw [hcall]; exact some_ne_none r⟩
    rw [PoolClients.step, hcall]
    exact hheld
  have hclaimed : ∀ (x : κ) (num : UInt32) r, s.call c = some r →
      ((∃ r', s.call c = some r' ∧ Leaves cs s x num r'.1 r'.2) ↔ Leaves cs s x num r.1 r.2) := by
    intro x num r hcall
    constructor
    · rintro ⟨r', hr', hleaves⟩
      rw [hcall, Option.some.injEq] at hr'
      rwa [hr']
    · exact fun hleaves => ⟨r, hcall, hleaves⟩
  cases c with
  | getInstance x env heapId prio dedicated req num =>
    obtain ⟨r, hcall, hheld, hiff⟩ := h.getInstance hnodup hadm hbuilt
    obtain ⟨hnext, hsome⟩ := hreturn r hcall hheld
    exact ⟨hnext, hsome, (hclaimed x num r hcall).trans hiff⟩
  | updateInstance x env req num =>
    obtain ⟨r, hcall, hheld, hiff⟩ := h.updateInstance hnodup hadm hbuilt
    obtain ⟨hnext, hsome⟩ := hreturn r hcall hheld
    exact ⟨hnext, hsome, (hclaimed x num r hcall).trans hiff⟩
  | releaseInstance x =>
    obtain ⟨r, hcall, hheld⟩ := h.releaseInstance hnodup hadm
    obtain ⟨hnext, hsome⟩ := hreturn r hcall hheld
    exact ⟨hnext, hsome, iff_of_true hsome trivial⟩
  | relaunch p wtPtr launched =>
    obtain ⟨pool, hpool, -⟩ := hadm
    obtain ⟨g', hstep, hheld⟩ := h.workerStep (fun pool => pool.relaunch wtPtr launched)
      (fun pool => by cases launched <;> rfl) (fun pool => by cases launched <;> rfl) ⟨pool, hpool⟩
    obtain ⟨hnext, hsome⟩ := hreturn (true, { s with g := g' })
      (by rw [call, hstep, map_some]) hheld
    exact ⟨hnext, hsome, iff_of_true hsome trivial⟩
  | checkJoin p =>
    obtain ⟨g', hstep, hheld⟩ := h.workerStep ThreadPoolInst.checkJoin (fun _ => rfl)
      (fun _ => rfl) hadm
    obtain ⟨hnext, hsome⟩ := hreturn (true, { s with g := g' })
      (by rw [call, hstep, map_some]) hheld
    exact ⟨hnext, hsome, iff_of_true hsome trivial⟩

/-- Every call keeps the counts; it returns exactly when the parts of its new pool can be
created, and it does what it should exactly when, besides, the pool that it uses fits it. -/
lemma Held.step {c : PoolClientCall κ} (hadm : Admitted cs s c) :
    Held cs (s.step c) ∧ (s.call c ≠ none ↔ Built s c) ∧
      (Claimed cs s c ↔ Built s c ∧ Fits s c) := by
  by_cases hbuilt : Built s c
  · obtain ⟨hnext, hsome, hiff⟩ := h.return hnodup hadm hbuilt
    exact ⟨hnext, iff_of_true hsome hbuilt, by rw [hiff, and_iff_right hbuilt]⟩
  · have hnone := h.call_eq_none hnodup hadm hbuilt
    have hclaimed : ¬ Claimed cs s c := by
      cases c <;> simp [Claimed, hnone]
    refine ⟨?_, iff_of_false (by simp [hnone]) hbuilt,
      iff_of_false hclaimed fun hboth => hbuilt hboth.1⟩
    rwa [PoolClients.step, hnone]

end

omit [DecidableEq κ] in
/-- At first nobody has a pool. -/
lemma held_init (cs : List κ) : Held cs (init κ) := by
  have hzero : ∀ p, owners cs (init κ).holds p = 0 := by
    intro p
    rw [owners_eq_zero_iff]
    intro x _ hx
    cases hx
  refine ⟨⟨nodup_nil, fun p => ?_, fun p => ?_, fun p pool h => by cases h⟩,
    fun x _ p pool h => by cases h⟩
  · rw [hzero]
    simp [init]
  · rw [hzero]
    simp [init]

omit [DecidableEq κ] in
/-- What the calls keep is what should hold between them. -/
lemma Held.good (h : Held cs s) : Good cs s where
  clientRefCounter := h.counted.count
  listed := fun p => (h.counted.listed p).trans Nat.pos_iff_ne_zero.symm
  allocated := fun p => (h.counted.live p).trans (h.counted.listed p).symm
  stack := by
    intro x hx p hp
    obtain ⟨pool, hpool⟩ := h.pool hx hp
    exact ⟨pool, hpool, h.stack x hx p pool hp hpool⟩

end PoolClients

end AudioReach
