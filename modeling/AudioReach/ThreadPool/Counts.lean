import AudioReach.Library.Assign
import AudioReach.ThreadPool.Model
import Mathlib.Data.List.Nodup

/-!
# Clients, pools and workers

`Counted` relates the pools to the number of clients that each should have.  The lemmas below
say what the functions do to the pools: to the counts, to the stack size and to the workers of
every pool.  New workers are appended to the list; `launchLoop_spec` says how many.
-/

namespace AudioReach

open Function (update update_eq_self update_idem update_of_ne update_self)
open Library List Option

namespace ThreadPoolInst

/-- The first size is at most the larger one. -/
lemma le_maxStack_left (a b : UInt32) : a ≤ maxStack a b := by
  unfold maxStack
  split
  · assumption
  · exact UInt32.le_refl a

/-- The second size is at most the larger one. -/
lemma le_maxStack_right (a b : UInt32) : b ≤ maxStack a b := by
  unfold maxStack
  split
  · exact UInt32.le_refl b
  · rename_i h
    exact UInt32.le_of_lt (UInt32.not_le.mp h)

/-- The number of workers that a call asks for. -/
def demand (numOfWorkerThreads : UInt32) : ℕ :=
  min numOfWorkerThreads.toNat maxWorkerThreadsCount

/-- The workers that are not terminated. -/
def numLive (wts : List WorkerThread) : ℕ :=
  wts.countP fun wt => !wt.isTerminated

/-- The live workers of two lists add up. -/
lemma numLive_append (xs ys : List WorkerThread) : numLive (xs ++ ys) = numLive xs + numLive ys :=
  countP_append ..

/-- A list has no more live workers than workers. -/
lemma numLive_le_length (wts : List WorkerThread) : numLive wts ≤ wts.length :=
  countP_le_length

/-- All workers are live exactly when none is terminated. -/
lemma numLive_eq_length_iff {wts : List WorkerThread} :
    numLive wts = wts.length ↔ ∀ wt ∈ wts, wt.isTerminated = false := by
  unfold numLive
  simp

/-- What the loop does: the workers `new` are launched, all that are missing or as many as there
were before an attempt failed. -/
theorem launchLoop_spec (launch : ℕ → Option Addr) (num : UInt32) {fuel i numActive : ℕ}
    (pool : ThreadPoolInst) (hfuel : maxWorkerThreadsCount ≤ numActive + fuel) :
    ∃ ok new, launchLoop launch num fuel i numActive pool =
        (ok, { pool with workerThreads := pool.workerThreads ++ new }) ∧
      (∀ wt ∈ new, wt.isTerminated = false) ∧
      (ok = true → new.length = demand num - numActive ∧
        ∀ j < demand num - numActive, launch (i + j) ≠ none) ∧
      (ok = false → new.length < demand num - numActive ∧ launch (i + new.length) = none ∧
        ∀ j < new.length, launch (i + j) ≠ none) := by
  induction fuel generalizing i numActive pool with
  | zero =>
    have hzero : demand num - numActive = 0 := by
      unfold demand
      omega
    refine ⟨true, [], ?_, by simp, fun _ => ⟨by simp [hzero], fun j hj => by omega⟩, by simp⟩
    rw [launchLoop, append_nil]
  | succ fuel ih =>
    rw [launchLoop]
    by_cases hmore : numActive < num.toNat ∧ numActive < maxWorkerThreadsCount
    · rw [if_pos hmore]
      have hpos : 0 < demand num - numActive := by
        unfold demand
        omega
      cases hlaunch : launch i with
      | none =>
        refine ⟨false, [], by rw [append_nil], by simp, by simp, fun _ => ⟨hpos, ?_, by simp⟩⟩
        simpa using hlaunch
      | some wtPtr =>
        obtain ⟨ok, new, hloop, hlive, hok, hfail⟩ :=
          ih (pool.launchWorkerThread wtPtr) (show _ ≤ numActive + 1 + fuel by omega)
        -- the attempts are those of the rest of the loop, after the first
        have hfirst : ∀ j, (∀ j', j = j' + 1 → launch (i + 1 + j') ≠ none) →
            launch (i + j) ≠ none := by
          intro j hrest
          cases j with
          | zero => simp [hlaunch]
          | succ j =>
            rw [show i + (j + 1) = i + 1 + j by omega]
            exact hrest j rfl
        refine ⟨ok, ⟨wtPtr, pool.reqStackSize, false⟩ :: new, ?_, ?_, ?_, ?_⟩
        · dsimp only
          rw [hloop]
          simp [launchWorkerThread]
        · exact forall_mem_cons.mpr ⟨rfl, hlive⟩
        · intro htrue
          obtain ⟨hlen, hall⟩ := hok htrue
          exact ⟨by rw [length_cons]; omega, fun j hj => hfirst j fun j' hj' => hall j' (by omega)⟩
        · intro hfalse
          obtain ⟨hlen, hnone, hall⟩ := hfail hfalse
          rw [length_cons]
          refine ⟨by omega, ?_, fun j hj => hfirst j fun j' hj' => hall j' (by omega)⟩
          rwa [show i + (new.length + 1) = i + 1 + new.length by omega]
    · rw [if_neg hmore]
      have hzero : demand num - numActive = 0 := by
        unfold demand
        omega
      exact ⟨true, [], by rw [append_nil], by simp,
        fun _ => ⟨by simp [hzero], fun j hj => by omega⟩, by simp⟩

end ThreadPoolInst

namespace ThreadPools

open ThreadPoolInst

variable {g g' : ThreadPools} {n : Addr → ℕ} {p : Addr} {pool : ThreadPoolInst}

/-- The pools are right for the numbers of clients `n`. -/
structure Counted (g : ThreadPools) (n : Addr → ℕ) : Prop where
  nodup : g.poolHead.Nodup
  /-- A pool is in the list as long as it has a client. -/
  listed : ∀ p, p ∈ g.poolHead ↔ n p ≠ 0
  /-- A pool is allocated as long as it has a client. -/
  live : ∀ p, (∃ pool, g.pools p = some pool) ↔ n p ≠ 0
  count : ∀ p pool, g.pools p = some pool → pool.clientRefCounter = n p

/-- The pool that is set. -/
@[simp] lemma pools_setPool_self (g : ThreadPools) (p : Addr) (pool : ThreadPoolInst) :
    (g.setPool p pool).pools p = some pool :=
  update_self ..

/-- The other pools are as before. -/
lemma pools_setPool_of_ne (g : ThreadPools) {p q : Addr} (pool : ThreadPoolInst) (hq : q ≠ p) :
    (g.setPool p pool).pools q = g.pools q :=
  update_of_ne hq ..

variable {new : ThreadPoolInst}

/-- What is at a place for a pool changes, with the number of clients of the pool. -/
lemma Counted.assign (h : Counted g n) {o : Option ThreadPoolInst} {k : ℕ}
    (hpools : g'.pools = update g.pools p o) (hnodup : g'.poolHead.Nodup)
    (hlisted : ∀ q, q ∈ g'.poolHead ↔ update n p k q ≠ 0) (hlive : (∃ pool, o = some pool) ↔ k ≠ 0)
    (hcount : ∀ pool, o = some pool → pool.clientRefCounter = k) : Counted g' (update n p k) where
  nodup := hnodup
  listed := hlisted
  live := by
    rw [hpools]
    exact forall_update₂ (p := fun _ (o : Option ThreadPoolInst) k => (∃ pool, o = some pool) ↔ k ≠ 0)
      h.live hlive
  count := by
    rw [hpools]
    exact forall_update₂ (p := fun _ (o : Option ThreadPoolInst) k =>
      ∀ pool, o = some pool → pool.clientRefCounter = k) h.count hcount

/-- The state of a pool changes, with the number of its clients. -/
lemma Counted.setPool (h : Counted g n) (hp : n p ≠ 0) (hnew : new.clientRefCounter ≠ 0) :
    Counted (g.setPool p new) (update n p new.clientRefCounter) := by
  refine h.assign rfl h.nodup ?_ (iff_of_true ⟨new, rfl⟩ hnew) fun x hx => ?_
  · exact forall_update (p := fun q k => q ∈ g.poolHead ↔ k ≠ 0) h.listed
      (iff_of_true ((h.listed p).mpr hp) hnew)
  · rw [← Option.some.inj hx]

section

variable (h : Counted g n) (hpool : g.pools p = some pool)
include h hpool

/-- A pool may change if its number of clients stays. -/
lemma Counted.setPool_of_eq (hnew : new.clientRefCounter = pool.clientRefCounter) :
    Counted (g.setPool p new) n := by
  have hp : n p ≠ 0 := (h.live p).mp ⟨pool, hpool⟩
  have hcount : new.clientRefCounter = n p := hnew.trans (h.count p pool hpool)
  have hset := h.setPool hp (show new.clientRefCounter ≠ 0 by omega)
  rwa [hcount, update_eq_self] at hset

/-- **Release.** A client leaves a pool, which goes with the last one. -/
theorem Counted.releaseInstance :
    ∃ g', g.releaseInstance p = some g' ∧ Counted g' (update n p (n p - 1)) ∧
      (∀ q, q ≠ p → g'.pools q = g.pools q) ∧
      (n p ≠ 1 → g'.poolHead = g.poolHead ∧
        g'.pools p = some { pool with clientRefCounter := pool.clientRefCounter - 1 }) := by
  have hp : n p ≠ 0 := (h.live p).mp ⟨pool, hpool⟩
  have hcount := h.count p pool hpool
  unfold ThreadPools.releaseInstance
  have hless : (if 0 < pool.clientRefCounter then pool.clientRefCounter - 1
      else pool.clientRefCounter) = pool.clientRefCounter - 1 := if_pos (by omega)
  simp only [hpool, map_some, hless]
  split
  · rename_i hlast
    have hone : n p = 1 := by omega
    refine ⟨_, rfl, h.assign rfl (h.nodup.erase p) (fun q => ?_) (by simp [hone]) nofun,
      fun q hq => update_of_ne hq .., fun hne => absurd hone hne⟩
    rw [h.nodup.mem_erase_iff, h.listed q]
    by_cases hq : q = p
    · subst hq
      simp [hone]
    · simp [hq]
  · rename_i hmore
    refine ⟨_, rfl, ?_, fun q hq => pools_setPool_of_ne _ _ hq,
      fun _ => ⟨rfl, pools_setPool_self ..⟩⟩
    have hset := h.setPool hp (show ({ pool with clientRefCounter := pool.clientRefCounter - 1 } :
        ThreadPoolInst).clientRefCounter ≠ 0 from hmore)
    rw [← hcount]
    exact hset

/-- The pool after workers were launched in it, with the stack that was asked for. -/
def grown (pool : ThreadPoolInst) (req : UInt32) (new : List WorkerThread) : ThreadPoolInst :=
  { pool with
    reqStackSize := maxStack pool.reqStackSize req
    workerThreads := pool.workerThreads ++ new }

/-- How many workers a call with these arguments has to launch. -/
def missing (num : UInt32) (wts : List WorkerThread) : ℕ := demand num - wts.length

/-- **Update.** Workers are launched in a pool; if one cannot be launched, the client leaves. -/
theorem Counted.updateInstanceInternal (env : PoolEnv) (req num : UInt32) :
    ∃ ok g' new, g.updateInstanceInternal env p req num = some (ok, g') ∧
      (∀ wt ∈ new, wt.isTerminated = false) ∧ (∀ q, q ≠ p → g'.pools q = g.pools q) ∧
      (ok = true → Counted g' n ∧ g'.pools p = some (grown pool req new) ∧
        new.length = missing num pool.workerThreads ∧
        ∀ j < missing num pool.workerThreads, env.launch j ≠ none) ∧
      (ok = false → Counted g' (update n p (n p - 1)) ∧
        (n p ≠ 1 → g'.pools p = some { grown pool req new with
          clientRefCounter := pool.clientRefCounter - 1 }) ∧
        new.length < missing num pool.workerThreads ∧ env.launch new.length = none ∧
        ∀ j < new.length, env.launch j ≠ none) := by
  obtain ⟨ok, new, hloop, hlive, hok, hfail⟩ := launchLoop_spec env.launch num (i := 0)
    { pool with reqStackSize := maxStack pool.reqStackSize req }
    (show maxWorkerThreadsCount ≤ pool.workerThreads.length + maxWorkerThreadsCount by omega)
  simp only [Nat.zero_add] at hok hfail
  have hset : Counted (g.setPool p (grown pool req new)) n := h.setPool_of_eq hpool rfl
  unfold ThreadPools.updateInstanceInternal
  simp only [hpool, bind_some, hloop]
  cases ok with
  | true =>
    refine ⟨true, _, new, rfl, hlive, fun q hq => pools_setPool_of_ne _ _ hq, fun _ => ?_, by simp⟩
    exact ⟨hset, pools_setPool_self .., hok rfl⟩
  | false =>
    obtain ⟨g', hrelease, hcounted, hothers, hself⟩ :=
      hset.releaseInstance (pools_setPool_self ..)
    refine ⟨false, g', new, ?_, hlive, fun q hq => ?_, by simp, fun _ => ?_⟩
    · change ((g.setPool p (grown pool req new)).releaseInstance p).map _ = _
      rw [hrelease, map_some]
    · rw [hothers q hq, pools_setPool_of_ne _ _ hq]
    · exact ⟨hcounted, fun hne => (hself hne).2, hfail rfl⟩

end

/-- The search finds a pool of the list. -/
lemma choose_mem {heapId : UInt32} {prio : Int32} {req num : UInt32} {ps : List Addr}
    {best : Option (Addr × UInt32)} {b : Addr × UInt32}
    (h : ps.foldl (g.choose heapId prio req num) best = some b) :
    (∃ b₀, best = some b₀ ∧ b₀.1 = b.1) ∨ b.1 ∈ ps := by
  induction ps generalizing best with
  | nil => exact Or.inl ⟨b, h, rfl⟩
  | cons p ps ih =>
    rcases ih h with ⟨b₁, hb₁, heq⟩ | hmem
    · have hchoice : g.choose heapId prio req num best p = best ∨
          ∃ m, g.choose heapId prio req num best p = some (p, m) := by
        unfold choose
        dsimp only
        repeat' split
        all_goals first
          | exact Or.inl rfl
          | exact Or.inr ⟨_, rfl⟩
      rcases hchoice with hsame | ⟨m, hnew⟩
      · rw [hsame] at hb₁
        exact Or.inl ⟨b₁, hb₁, heq⟩
      · rw [hnew, Option.some.injEq] at hb₁
        exact Or.inr (by rw [← heq, ← hb₁]; exact mem_cons_self)
    · exact Or.inr (mem_cons_of_mem p hmem)

/-- A pool that is found is in the list. -/
lemma mem_of_findPool {heapId : UInt32} {prio : Int32} {dedicated : Bool} {req num : UInt32}
    (h : g.findPool heapId prio dedicated req num = some p) : p ∈ g.poolHead := by
  unfold findPool at h
  split at h
  · cases h
  · obtain ⟨b, hb, rfl⟩ := map_eq_some_iff.mp h
    rcases choose_mem hb with ⟨b₀, hnone, -⟩ | hmem
    · cases hnone
    · exact hmem

/-- What a call does that gets a pool for a client: `target` is the pool that it shares, with
the workers `wts`. -/
structure Got (g : ThreadPools) (n : Addr → ℕ) (env : PoolEnv) (req num : UInt32)
    (target : Option Addr) (wts : List WorkerThread) (ok : Bool) (g' : ThreadPools)
    (ret : Option Addr) : Prop where
  /-- The pool that is returned has one more client. -/
  counted : Counted g' fun q => n q + if ret = some q then 1 else 0
  stack : ∀ q pool pool', g.pools q = some pool → g'.pools q = some pool' →
    pool.reqStackSize ≤ pool'.reqStackSize
  /-- With success, a pool with enough stack is returned, and the workers that were missing have
  been launched. -/
  success : ok = true → ∃ p pool' new, ret = some p ∧ g'.pools p = some pool' ∧
    req ≤ pool'.reqStackSize ∧ pool'.workerThreads = wts ++ new ∧
    (∀ wt ∈ new, wt.isTerminated = false) ∧ new.length = missing num wts ∧
    ∀ j < missing num wts, env.launch j ≠ none
  /-- With failure, the pools are as they were, up to workers launched before. -/
  failure : ok = false → ret = none ∧ ∃ new, (∀ q pool, g.pools q = some pool → ∃ pool',
      g'.pools q = some pool' ∧ pool'.clientRefCounter = pool.clientRefCounter ∧
      pool'.workerThreads = pool.workerThreads ++ if target = some q then new else []) ∧
    (target ≠ none → new.length < missing num wts ∧ env.launch new.length = none ∧
      ∀ j < new.length, env.launch j ≠ none)

/-- One more client of a pool, as an update. -/
lemma add_client (n : Addr → ℕ) (p : Addr) :
    (fun q => n q + if some p = some q then 1 else 0) = update n p (n p + 1) := by
  funext q
  by_cases hq : q = p
  · subst hq
    simp
  · rw [update_of_ne hq]
    simp [Ne.symm hq]

/-- A client joins a pool that is there. -/
lemma Counted.joinPool (h : Counted g n) (hpool : g.pools p = some pool) (env : PoolEnv)
    (req num : UInt32) :
    ∃ ok g' ret, g.joinPool env p req num = some (ok, g', ret) ∧
      Got g n env req num (some p) pool.workerThreads ok g' ret := by
  have hp : n p ≠ 0 := (h.live p).mp ⟨pool, hpool⟩
  have hcount := h.count p pool hpool
  generalize hjoined : ({ pool with
    clientRefCounter := pool.clientRefCounter + 1 } : ThreadPoolInst) = joined
  have hclients : joined.clientRefCounter = n p + 1 := by rw [← hjoined, ← hcount]
  have hwts : joined.workerThreads = pool.workerThreads := by rw [← hjoined]
  have hreq : joined.reqStackSize = pool.reqStackSize := by rw [← hjoined]
  have h₁ : Counted (g.setPool p joined) (update n p (n p + 1)) := by
    have hset := h.setPool hp (show joined.clientRefCounter ≠ 0 by omega)
    rwa [hclients] at hset
  obtain ⟨ok, g', new, hcall, hlive, hothers, hok, hfail⟩ :=
    h₁.updateInstanceInternal (pools_setPool_self g p joined) env req num
  rw [hwts] at hok hfail
  refine ⟨ok, g', if ok then some p else none, ?_, ?_⟩
  · unfold ThreadPools.joinPool ThreadPools.addClient
    simp only [hpool, map_some, bind_some, hjoined, hcall]
  · have hother : ∀ q, q ≠ p → g'.pools q = g.pools q := by
      intro q hq
      rw [hothers q hq, pools_setPool_of_ne _ _ hq]
    have hstack : ∀ {pool'}, g'.pools p = some pool' →
        pool'.reqStackSize = maxStack joined.reqStackSize req →
        ∀ q x x', g.pools q = some x → g'.pools q = some x' → x.reqStackSize ≤ x'.reqStackSize := by
      intro pool' hself hmax q x x' hx hx'
      by_cases hq : q = p
      · subst hq
        rw [hpool, Option.some.injEq] at hx
        rw [hself, Option.some.injEq] at hx'
        rw [← hx, ← hx', hmax, ← hreq]
        exact le_maxStack_left ..
      · rw [hother q hq, hx, Option.some.injEq] at hx'
        rw [hx']
        exact UInt32.le_refl _
    cases ok with
    | true =>
      obtain ⟨hcounted, hself, hlen, hall⟩ := hok rfl
      refine ⟨?_, hstack hself rfl, fun _ => ?_, by simp⟩
      · rw [if_pos rfl, add_client]
        exact hcounted
      · exact ⟨p, _, new, rfl, hself, le_maxStack_right .., by rw [grown, hwts], hlive, hlen, hall⟩
    | false =>
      obtain ⟨hcounted, hself, hlaunched⟩ := hfail rfl
      have hself := hself (by rw [update_self]; omega)
      refine ⟨by simpa using hcounted, hstack hself rfl, by simp,
        fun _ => ⟨rfl, new, fun q x hx => ?_, fun _ => hlaunched⟩⟩
      by_cases hq : q = p
      · subst hq
        rw [hpool, Option.some.injEq] at hx
        subst hx
        refine ⟨_, hself, ?_, ?_⟩
        · dsimp only
          omega
        · rw [if_pos rfl]
          rw [grown, hwts]
      · refine ⟨x, by rw [hother q hq, hx], rfl, ?_⟩
        rw [if_neg (by simpa using Ne.symm hq), append_nil]

/-- A client joins a new pool. -/
lemma Counted.joinNewPool (h : Counted g n) (hfree : g.pools p = none) (env : PoolEnv)
    (req num : UInt32) (hclients : new.clientRefCounter = 0) (hwts : new.workerThreads = []) :
    ∃ ok g' ret, (g.insertPool p new).joinPool env p req num = some (ok, g', ret) ∧
      Got g n env req num none [] ok g' ret := by
  have hp : n p = 0 := by
    by_contra hne
    obtain ⟨pool, hpool⟩ := (h.live p).mpr hne
    rw [hfree] at hpool
    cases hpool
  generalize hjoined : ({ new with clientRefCounter := new.clientRefCounter + 1 } :
    ThreadPoolInst) = joined
  have hone : joined.clientRefCounter = 1 := by rw [← hjoined]; dsimp only; omega
  have hnone : joined.workerThreads = [] := by rw [← hjoined]; exact hwts
  generalize hg₁ : (g.insertPool p new).setPool p joined = g₁
  have hpools₁ : g₁.pools = update g.pools p (some joined) := by
    rw [← hg₁]
    exact update_idem ..
  have hhead₁ : g₁.poolHead = g.poolHead ++ [p] := by rw [← hg₁]; rfl
  have hself₁ : g₁.pools p = some joined := by rw [hpools₁, update_self]
  have hout : p ∉ g.poolHead := fun hmem => (h.listed p).mp hmem hp
  have h₁ : Counted g₁ (update n p 1) := by
    refine h.assign hpools₁ ?_ (fun q => ?_) (by simp) fun x hx => ?_
    · rw [hhead₁]
      exact nodup_append.mpr ⟨h.nodup, nodup_singleton p, fun x hx y hy hxy =>
        hout (mem_singleton.mp hy ▸ hxy ▸ hx)⟩
    · rw [hhead₁, mem_append, mem_singleton, h.listed q]
      by_cases hq : q = p
      · subst hq
        simp
      · simp [hq]
    · rw [← Option.some.inj hx, hone]
  obtain ⟨ok, g', new', hcall, hlive, hothers, hok, hfail⟩ :=
    h₁.updateInstanceInternal hself₁ env req num
  rw [hnone] at hok hfail
  have hother : ∀ q, q ≠ p → g'.pools q = g.pools q := by
    intro q hq
    rw [hothers q hq, hpools₁, update_of_ne hq]
  have hkept : ∀ q pool, g.pools q = some pool → g'.pools q = some pool := by
    intro q pool hq
    rw [hother q (fun heq => by rw [heq, hfree] at hq; cases hq), hq]
  refine ⟨ok, g', if ok then some p else none, ?_, ?_⟩
  · have hinserted : (g.insertPool p new).pools p = some new := update_self ..
    unfold ThreadPools.joinPool ThreadPools.addClient
    simp only [hinserted, map_some, bind_some, hjoined, hg₁, hcall]
  · have hstack : ∀ q pool pool', g.pools q = some pool → g'.pools q = some pool' →
        pool.reqStackSize ≤ pool'.reqStackSize := by
      intro q x x' hx hx'
      rw [hkept q x hx, Option.some.injEq] at hx'
      rw [hx']
      exact UInt32.le_refl _
    cases ok with
    | true =>
      obtain ⟨hcounted, hself, hlen, hall⟩ := hok rfl
      refine ⟨?_, hstack, fun _ => ?_, by simp⟩
      · rw [if_pos rfl, add_client, hp]
        exact hcounted
      · exact ⟨p, _, new', rfl, hself, le_maxStack_right .., by rw [grown, hnone], hlive, hlen,
          hall⟩
    | false =>
      obtain ⟨hcounted, -⟩ := hfail rfl
      rw [update_self, update_idem, Nat.sub_self, ← hp, update_eq_self] at hcounted
      refine ⟨by simpa using hcounted, hstack, by simp,
        fun _ => ⟨rfl, [], fun q x hx => ?_, by simp⟩⟩
      exact ⟨x, hkept q x hx, rfl, by simp⟩

/-- The workers of the pool that a call shares. -/
def targetWorkers (g : ThreadPools) (target : Option Addr) : List WorkerThread :=
  ((target.bind g.pools).map ThreadPoolInst.workerThreads).getD []

/-- The parts of a new pool can be created, if the search found no pool and there is memory for a
new one. -/
def NewBuilt (env : PoolEnv) (found : Option Addr) : Prop :=
  found = none → env.malloc ≠ none → env.created = true

/-- A get that cannot create the parts of its new pool does not return. -/
lemma getInstance_eq_none {heapId : UInt32} {prio : Int32} {dedicated : Bool}
    (hbuilt : ¬ NewBuilt env (g.findPool (heapIdWithIslandInfo heapId) prio dedicated req num)) :
    g.getInstance env heapId prio dedicated req num = none := by
  unfold NewBuilt at hbuilt
  push Not at hbuilt
  obtain ⟨htarget, hmalloc, hcreated⟩ := hbuilt
  obtain ⟨p, hp⟩ := Option.ne_none_iff_exists'.mp hmalloc
  have hcreated : env.created = false := Bool.eq_false_iff.mpr hcreated
  simp only [ThreadPools.getInstance, htarget, hp, hcreated, Bool.not_false, if_true]

/-- **Get.** A client gets a pool, or nothing changes but that workers may have been launched. -/
theorem Counted.getInstance (h : Counted g n) (env : PoolEnv)
    (hfree : ∀ p ∈ env.malloc, g.pools p = none)
    (heapId : UInt32) (prio : Int32) (dedicated : Bool) (req num : UInt32)
    (hbuilt : NewBuilt env (g.findPool (heapIdWithIslandInfo heapId) prio dedicated req num)) :
    ∃ ok g' ret, g.getInstance env heapId prio dedicated req num = some (ok, g', ret) ∧
      Got g n env req num (g.findPool (heapIdWithIslandInfo heapId) prio dedicated req num)
        (g.targetWorkers (g.findPool (heapIdWithIslandInfo heapId) prio dedicated req num))
        ok g' ret := by
  unfold ThreadPools.getInstance
  dsimp only
  cases htarget : g.findPool (heapIdWithIslandInfo heapId) prio dedicated req num with
  | some p =>
    obtain ⟨pool, hpool⟩ := (h.live p).mpr ((h.listed p).mp (mem_of_findPool htarget))
    have hwts : g.targetWorkers (some p) = pool.workerThreads := by
      simp [targetWorkers, hpool]
    rw [hwts]
    exact h.joinPool hpool env req num
  | none =>
    have hwts : g.targetWorkers none = [] := rfl
    -- nothing happens to the pools when there is no memory for a new one or for its list node
    have hsame : ∀ g' : ThreadPools, g'.pools = g.pools → g'.poolHead = g.poolHead →
        Got g n env req num none [] false g' none := by
      intro g' hpools hhead
      refine ⟨⟨hhead ▸ h.nodup, fun q => ?_, fun q => ?_, fun q x hx => ?_⟩,
        fun q x x' hx hx' => ?_, by simp, fun _ => ⟨rfl, [], fun q x hx => ?_, by simp⟩⟩
      · rw [hhead]
        simpa using h.listed q
      · rw [hpools]
        simpa using h.live q
      · rw [hpools] at hx
        simpa using h.count q x hx
      · rw [hpools, hx, Option.some.injEq] at hx'
        rw [hx']
        exact UInt32.le_refl _
      · exact ⟨x, by rw [hpools, hx], rfl, by simp⟩
    cases hmalloc : env.malloc with
    | none => exact ⟨false, g, none, rfl, hsame g rfl rfl⟩
    | some p =>
      have hcreated : env.created = true := hbuilt htarget (by rw [hmalloc]; exact some_ne_none p)
      simp only [hcreated, Bool.not_true, Bool.false_eq_true, if_false]
      split
      · exact h.joinNewPool (hfree p hmalloc) env req num rfl rfl
      · exact ⟨false, _, none, rfl, hsame _ rfl rfl⟩

end ThreadPools

end AudioReach
