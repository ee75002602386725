import AudioReach.Amdb.Loader
import Mathlib.Algebra.Order.BigOperators.Group.Finset

/-!
# The accounts of the module loader

Everything that the loader must not lose or do twice is an account: the references to a handle, the
handle itself, a task, the callback of a request, its client, its vote and the release of its vote.
What a thread has of an account depends on its place only (`LoaderPoint.has`), so a step of a thread
keeps an account in balance if it is in balance for this thread (`Balanced.of_local`).
-/

namespace AudioReach

open Function (update)
open Library

/-- The handle of a task. -/
def LoaderTask.handle : LoaderTask → Option ℕ
  | .dlopen h _ => some h
  | _ => none

/-- The number of a task. -/
def LoaderTask.number : LoaderTask → Option ℕ
  | .dlopen _ k => some k
  | _ => none

/-- What is accounted for. -/
inductive LoaderAccount
  /-- The references to handle `h`. -/
  | refs (h : ℕ)
  /-- Handle `h`: it is free, held by a thread, or referred to. -/
  | handle (h : ℕ)
  /-- Task `k`: it was run, is in the queue, or is held by a thread. -/
  | task (k : ℕ)
  /-- The callback of request `r`: it was made, is about to be made, or the handle is referred
  to. -/
  | call (r : ℕ)
  /-- The client of request `r`: it has the handle, or has released it. -/
  | client (r : ℕ)
  /-- The vote of request `r`. -/
  | vote (r : ℕ)
  /-- The release of the vote of request `r`. -/
  | release (r : ℕ)

namespace LoaderPoint

/-- The references to a handle that the thread has. -/
@[simp] def refsOf (h : ℕ) : LoaderPoint → ℕ
  | pushVote h' _ | holding h' _ | runTask h' _ | releaseTask h' _ => if h' = h then 1 else 0
  | pushTask h' _ _ => if h' = h then 2 else 0
  | _ => 0

/-- The thread has a handle that nobody refers to. -/
@[simp] def keepsOf (h : ℕ) : LoaderPoint → ℕ
  | fillHandle h' | callback h' _ | pushHandle h' _ => if h' = h then 1 else 0
  | _ => 0

/-- The thread has a task. -/
@[simp] def taskOf (k : ℕ) : LoaderPoint → ℕ
  | pushTask _ _ k' | runTask _ k' => if k' = k then 1 else 0
  | _ => 0

/-- The thread is about to call the client of a request back. -/
@[simp] def callOf (r : ℕ) : LoaderPoint → ℕ
  | callback _ r' => if r' = r then 1 else 0
  | _ => 0

/-- The thread is the client of a request. -/
@[simp] def clientOf (r : ℕ) : LoaderPoint → ℕ
  | pushVote _ r' | holding _ r' | pushTask _ r' _ => if r' = r then 1 else 0
  | _ => 0

/-- The thread is about to push the vote of a request. -/
@[simp] def voteOf (r : ℕ) : LoaderPoint → ℕ
  | pushVote _ r' => if r' = r then 1 else 0
  | _ => 0

/-- The thread is about to push the release of the vote of a request. -/
@[simp] def releaseOf (r : ℕ) : LoaderPoint → ℕ
  | pushHandle _ r' | pushRelease r' => if r' = r then 1 else 0
  | _ => 0

/-- What a thread has of an account. -/
@[simp] def has (p : LoaderPoint) : LoaderAccount → ℕ
  | .refs h => p.refsOf h
  | .handle h => p.keepsOf h
  | .task k => p.taskOf k
  | .call r => p.callOf r
  | .client r => p.clientOf r
  | .vote r => p.voteOf r
  | .release r => p.releaseOf r

end LoaderPoint

/-- One, if `k` is one of the first `n`. -/
def oneIfBelow (k n : ℕ) : ℕ := if k < n then 1 else 0

lemma oneIfBelow_of_lt {k n : ℕ} (h : k < n) : oneIfBelow k n = 1 := if_pos h

lemma oneIfBelow_of_not_lt {k n : ℕ} (h : ¬ k < n) : oneIfBelow k n = 0 := if_neg h

lemma oneIfBelow_succ (k n : ℕ) :
    oneIfBelow k (n + 1) = oneIfBelow k n + if n = k then 1 else 0 := by
  unfold oneIfBelow
  split_ifs <;> omega

/-- One, if there are references. -/
def oneIfReferred (refs : ℕ) : ℕ := if 0 < refs then 1 else 0

@[simp] lemma oneIfReferred_zero : oneIfReferred 0 = 0 := rfl

lemma oneIfReferred_of_pos {refs : ℕ} (h : 0 < refs) : oneIfReferred refs = 1 := if_pos h

/-- One, if there are references and they are for request `r`. -/
def oneIfLive (refs request r : ℕ) : ℕ := if request = r then oneIfReferred refs else 0

namespace LoaderCore

variable (c : LoaderCore)

/-- The handles that are referred to for request `r`. -/
def live (r : ℕ) : ℕ :=
  ∑ h ∈ Finset.range amdbNumClientHandles, oneIfLive (c.refs h) (c.request h) r

/-- What is stored of an account. -/
@[simp] def stored : LoaderAccount → ℕ
  | .refs h => (c.taskQueue.contents.map LoaderTask.handle).count (some h)
  | .handle h => c.handleQueue.contents.count h + oneIfReferred (c.refs h)
  | .task k => c.ran.count k + (c.taskQueue.contents.map LoaderTask.number).count (some k)
  | .call r => c.live r + c.called.count r
  | .client r => c.released.count r
  | .vote r => c.taskQueue.pushed.count (.vote r)
  | .release r => c.taskQueue.pushed.count (.releaseVote r)

/-- What an account has to come to. -/
@[simp] def due : LoaderAccount → ℕ
  | .refs h => c.refs h
  | .handle h => oneIfBelow h amdbNumClientHandles
  | .task k => oneIfBelow k c.numTasks
  | .call r | .client r | .vote r => oneIfBelow r c.numRequests
  | .release r => c.called.count r

/-- What the threads have of an account together. -/
def inHand (a : LoaderAccount) : ℕ :=
  ∑ t ∈ Finset.range c.total, (c.point t).has a

/-- The accounts balance. -/
def Balanced : Prop := ∀ a, c.stored a + c.inHand a = c.due a

variable {c}

/-- **An account is kept by each thread for itself.** -/
lemma Balanced.of_local (h : c.Balanced) {c' : LoaderCore} {t : ℕ} {p : LoaderPoint}
    (ht : t < c.total) (htotal : c'.total = c.total) (hpoint : c'.point = update c.point t p)
    (hlocal : ∀ a, c'.stored a + p.has a + c.due a = c.stored a + (c.point t).has a + c'.due a) :
    c'.Balanced := by
  intro a
  have hsum : c'.inHand a + (c.point t).has a = c.inHand a + p.has a := by
    have hexcept := sum_range_except
      (g := fun u => (c'.point u).has a) ht fun u _ hne => by
        rw [hpoint, Function.update_of_ne hne]
    unfold inHand
    rw [htotal]
    refine hexcept.trans ?_
    rw [hpoint, Function.update_self]
  have hlocal := hlocal a
  have hbalance := h a
  omega

lemma has_le_inHand {t : ℕ} (ht : t < c.total) (a : LoaderAccount) :
    (c.point t).has a ≤ c.inHand a :=
  Finset.single_le_sum (f := fun u => (c.point u).has a) (fun _ _ => Nat.zero_le _)
    (Finset.mem_range.mpr ht)

lemma has_add_has_le {t u : ℕ} (ht : t < c.total) (hu : u < c.total) (hne : t ≠ u)
    (a : LoaderAccount) : (c.point t).has a + (c.point u).has a ≤ c.inHand a := by
  have hsub : ({t, u} : Finset ℕ) ⊆ Finset.range c.total := by
    intro v hv
    rw [Finset.mem_insert, Finset.mem_singleton] at hv
    rw [Finset.mem_range]
    rcases hv with rfl | rfl <;> assumption
  have hle := Finset.sum_le_sum_of_subset (f := fun v => (c.point v).has a) hsub
  rwa [Finset.sum_pair hne] at hle

/-! ## What follows from the balance -/

section Facts

variable (hb : c.Balanced)
include hb

variable {t h k : ℕ}

/-- Whatever a thread does with a handle, the handle is one of the eight. -/
lemma Balanced.keeps (ht : t < c.total) (hk : (c.point t).keepsOf h = 1) :
    h < amdbNumClientHandles ∧ c.refs h = 0 ∧ h ∉ c.handleQueue.contents ∧
      ∀ u < c.total, u ≠ t → (c.point u).keepsOf h = 0 := by
  have hbal := hb (.handle h)
  have hle := has_le_inHand ht (.handle h)
  change (c.point t).keepsOf h ≤ _ at hle
  change c.handleQueue.contents.count h + oneIfReferred (c.refs h) + _ =
    oneIfBelow h amdbNumClientHandles at hbal
  have hlt : h < amdbNumClientHandles := by
    by_contra hge
    rw [oneIfBelow_of_not_lt hge] at hbal
    omega
  rw [oneIfBelow_of_lt hlt] at hbal
  refine ⟨hlt, ?_, ?_, fun u hu hne => ?_⟩
  · by_contra hne
    rw [oneIfReferred_of_pos (Nat.pos_of_ne_zero hne)] at hbal
    omega
  · intro hmem
    have := List.count_pos_iff.mpr hmem
    omega
  · have htwo := has_add_has_le hu ht hne (.handle h)
    change (c.point u).keepsOf h + (c.point t).keepsOf h ≤ _ at htwo
    omega

lemma Balanced.refsOf_le (h : ℕ) (ht : t < c.total) : (c.point t).refsOf h ≤ c.refs h := by
  have hbal := hb (.refs h)
  have hle : (c.point t).refsOf h ≤ _ := has_le_inHand ht (.refs h)
  change _ + _ = c.refs h at hbal
  omega

lemma Balanced.refs_pos (ht : t < c.total) (hpos : 0 < (c.point t).refsOf h) : 0 < c.refs h :=
  Nat.lt_of_lt_of_le hpos (hb.refsOf_le h ht)

lemma Balanced.referred (hpos : 0 < c.refs h) :
    h < amdbNumClientHandles ∧ h ∉ c.handleQueue.contents ∧
      ∀ u < c.total, (c.point u).keepsOf h = 0 := by
  have hbal := hb (.handle h)
  change c.handleQueue.contents.count h + oneIfReferred (c.refs h) + _ =
    oneIfBelow h amdbNumClientHandles at hbal
  rw [oneIfReferred_of_pos hpos] at hbal
  have hlt : h < amdbNumClientHandles := by
    by_contra hge
    rw [oneIfBelow_of_not_lt hge] at hbal
    omega
  rw [oneIfBelow_of_lt hlt] at hbal
  refine ⟨hlt, fun hmem => ?_, fun u hu => ?_⟩
  · have := List.count_pos_iff.mpr hmem
    omega
  · have hle : (c.point u).keepsOf h ≤ _ := has_le_inHand hu (.handle h)
    omega

lemma Balanced.not_queued (hzero : c.refs h = 0) :
    LoaderTask.dlopen h k ∉ c.taskQueue.contents := by
  intro hmem
  have hbal := hb (.refs h)
  change (c.taskQueue.contents.map LoaderTask.handle).count (some h) + _ = c.refs h at hbal
  have hpos : 0 < (c.taskQueue.contents.map LoaderTask.handle).count (some h) :=
    List.count_pos_iff.mpr (List.mem_map.mpr ⟨_, hmem, rfl⟩)
  omega

lemma Balanced.queued_pos (hmem : LoaderTask.dlopen h k ∈ c.taskQueue.contents) : 0 < c.refs h :=
  Nat.pos_of_ne_zero fun hzero => hb.not_queued hzero hmem

lemma Balanced.queued_lt (hmem : LoaderTask.dlopen h k ∈ c.taskQueue.contents) :
    k < c.numTasks := by
  have hbal := hb (.task k)
  change _ + (c.taskQueue.contents.map LoaderTask.number).count (some k) + _ =
    oneIfBelow k c.numTasks at hbal
  have hpos : 0 < (c.taskQueue.contents.map LoaderTask.number).count (some k) :=
    List.count_pos_iff.mpr (List.mem_map.mpr ⟨_, hmem, rfl⟩)
  by_contra hge
  rw [oneIfBelow_of_not_lt hge] at hbal
  omega

lemma Balanced.task_lt (ht : t < c.total) (hk : 0 < (c.point t).taskOf k) : k < c.numTasks := by
  have hbal := hb (.task k)
  change _ + _ = oneIfBelow k c.numTasks at hbal
  have hle : (c.point t).taskOf k ≤ _ := has_le_inHand ht (.task k)
  by_contra hge
  rw [oneIfBelow_of_not_lt hge] at hbal
  omega

end Facts

lemma live_except (c c' : LoaderCore) {h : ℕ} (hlt : h < amdbNumClientHandles)
    (hrefs : ∀ h', h' ≠ h → c'.refs h' = c.refs h')
    (hrequest : ∀ h', h' ≠ h → c'.request h' = c.request h') (r : ℕ) :
    c'.live r + oneIfLive (c.refs h) (c.request h) r =
      c.live r + oneIfLive (c'.refs h) (c'.request h) r :=
  sum_range_except (f := fun h => oneIfLive (c.refs h) (c.request h) r) hlt fun h' _ hne => by
      rw [hrefs h' hne, hrequest h' hne]

end LoaderCore

end AudioReach
