import Mathlib.Data.List.TakeWhile
import AudioReach.Library.PriorityOrder
import AudioReach.PosalQueue.Faithful

/-!
# The priority queue

A queue created with `is_priority_queue` has nodes with a `priority`.
`posal_queue_push_back_with_priority` first pushes the element at the back and then moves its
node forward in the ring, behind the last node in use whose priority is not smaller.

What the queue is for is `PrioSpec`: the elements wait in the order in which they came, and the
first of those with the greatest priority is served next.  The nodes in use store the waiting
elements in serving order, as long as each of them carries the priority of its element.  That
is the one thing that can go wrong: an element pushed into an empty queue does not get its
priority stored, so the node keeps what it had (`KeepsPriority`).
-/

namespace AudioReach

open Function (update update_of_ne update_self)
open Library List

variable {E : Type}

/-! ## The code -/

/-- A queue whose nodes are `posal_priority_queue_element_list_t`. -/
structure PrioQueue (E : Type) where
  world : QueueWorld E
  isPriorityQueue : Bool
  /-- `priority` of each node, a word that is only compared. -/
  priority : Addr → ℕ

/-- The six assignments that take a node out of the ring and link it in after another one. -/
def QueueNodes.moveAfter (m : QueueNodes E) (dst src : Addr) : QueueNodes E :=
  let m := m.setNext (m.prevPtr src) (m.nextPtr src)
  let m := m.setPrev (m.nextPtr src) (m.prevPtr src)
  let m := m.setPrev (m.nextPtr dst) src
  let m := m.setNext src (m.nextPtr dst)
  let m := m.setNext dst src
  m.setPrev src dst

namespace PrioQueue

/-- The node of an element gets its priority. -/
def setPriority (q : PrioQueue E) (node : Addr) (priority : ℕ) : PrioQueue E :=
  { q with priority := update q.priority node priority }

/-- The loop that goes back from the tail, for at most the given number of rounds, to a node
whose priority is not smaller. -/
def findTarget (q : PrioQueue E) (priority : ℕ) : ℕ → Addr → Addr
  | 0, dst => dst
  | rounds + 1, dst =>
    if priority ≤ q.priority dst then dst
    else q.findTarget priority rounds (q.world.nodes.prevPtr dst)

/-- The part of `posal_queue_push_back_with_priority` that moves the last node forward. -/
def moveForward (q : PrioQueue E) (priority : ℕ) : PrioQueue E :=
  let src := q.world.queue.activeTailPtr
  let dst := q.findTarget priority (q.world.queue.activeNodes - 1).toNat (q.world.nodes.prevPtr src)
  let head :=
    if q.world.nodes.nextPtr dst = q.world.queue.activeHeadPtr then src
    else q.world.queue.activeHeadPtr
  if q.world.nodes.nextPtr dst = src then
    { q with world := q.world.setEnds head src }
  else
    { q with world :=
      { q.world.setEnds head (q.world.nodes.prevPtr src) with
        nodes := if dst ≠ src then q.world.nodes.moveAfter dst src else q.world.nodes } }

/-- `posal_queue_push_back_with_priority`. -/
def pushBackWithPriority (q : PrioQueue E) (payload : E) (priority : ℕ) (allocated : Bool) :
    ArResult × PrioQueue E :=
  let (result, world) := q.world.pushBack payload allocated
  let q := { q with world := world }
  if result = .eok ∧ 1 < world.queue.activeNodes ∧ q.isPriorityQueue then
    let q := q.setPriority world.queue.activeTailPtr priority
    (.eok, if 0 < priority then q.moveForward priority else q)
  else (result, q)

/-- `posal_queue_pop_front`. -/
def popFront (q : PrioQueue E) : (ArResult × Option E) × PrioQueue E :=
  let (answer, world) := q.world.popFront
  (answer, { q with world := world })

end PrioQueue

/-! ## What the queue is for -/

/-- The elements that wait, each with its priority, in the order in which they came. -/
structure PrioSpec (E : Type) where
  capacity : ℕ
  places : ℕ
  waiting : List (ℕ × E)

/-- A call of a client of the priority queue. -/
inductive PrioCall (E : Type)
  /-- `posal_queue_push_back_with_priority`; `allocated` tells whether a node can be
  allocated. -/
  | push (payload : E) (priority : ℕ) (allocated : Bool)
  /-- `posal_queue_pop_front`. -/
  | pop

namespace PrioSpec

/-- A new, empty queue. -/
def init (attr : QueueInitAttr) : PrioSpec E :=
  { capacity := attr.maxNodes.toNat
    places := attr.preallocNodes.toNat
    waiting := [] }

/-- The deque that has the elements in serving order. -/
def toDeque (s : PrioSpec E) : Deque E :=
  { capacity := s.capacity
    places := s.places
    elems := (byKey Prod.fst s.waiting).map Prod.snd
    signalling := true }

/-- What a call does: an element comes last, unless the queue is full or needs more storage and
does not get it; and the first element of the greatest priority leaves. -/
def call (s : PrioSpec E) : PrioCall E → (ArResult × Option E) × PrioSpec E
  | .push payload priority allocated =>
    if s.waiting.length = s.capacity then ((.eneedmore, none), s)
    else if s.waiting.length < s.places then
      ((.eok, none), { s with waiting := s.waiting ++ [(priority, payload)] })
    else if allocated then
      ((.eok, none),
        { s with places := s.places + 1, waiting := s.waiting ++ [(priority, payload)] })
    else ((.enomemory, none), s)
  | .pop =>
    match serve Prod.fst s.waiting with
    | none => ((.eneedmore, none), s)
    | some (x, waiting) => ((.eok, some x.2), { s with waiting := waiting })

end PrioSpec

namespace PrioQueue

/-- What a call does to the queue. -/
def call (q : PrioQueue E) : PrioCall E → (ArResult × Option E) × PrioQueue E
  | .push payload priority allocated =>
    (((q.pushBackWithPriority payload priority allocated).1, none),
      (q.pushBackWithPriority payload priority allocated).2)
  | .pop => q.popFront

/-- A push into the empty queue finds its priority in the node that it will use: the next one to
be allocated if the ring has none, else the one at which the queue stands. -/
def KeepsPriority (q : PrioQueue E) : PrioCall E → Prop
  | .push _ priority allocated =>
    q.world.queue.activeNodes = 0 →
      if q.world.queue.numNodes = 0 then
        allocated = true → q.priority q.world.nodes.fresh = priority
      else q.priority q.world.queue.activeTailPtr = priority
  | .pop => True

end PrioQueue

/-! ## Moving a node in the ring -/

variable {m : QueueNodes E}

/-- **The move.**  The node after `post` goes behind `dst`, the node before `post`. -/
lemma QueueNodes.isRing_moveAfter {pre post idle : List Addr} {src dst : Addr}
    (h : IsRing m.nextPtr m.prevPtr (pre ++ post ++ src :: idle)) (hpost : post ≠ [])
    (hdst : (idle ++ pre).getLast? = some dst) :
    IsRing (m.moveAfter dst src).nextPtr (m.moveAfter dst src).prevPtr
      (pre ++ src :: post ++ idle) := by
  -- the ring read from the node
  have hring := h.rotate (pre ++ post).length
  rw [rotate_append_length_eq, cons_append] at hring
  obtain ⟨a, t, s, z, hat, hends⟩ := Shape.exists_ends
    (show idle ++ (pre ++ post) ≠ [] by simp [hpost])
  rw [hat] at hring
  have hnext : m.nextPtr src = a := (IsRing.adjacent (s := []) hring).1
  have hprev : m.prevPtr src = z := (hring.ends (s := src :: s) (by rw [hends]; rfl)).2
  have hsrc : ∀ x ∈ a :: t, x ≠ src :=
    fun x hx heq => (nodup_cons.mp hring.nodup).1 (heq ▸ hx)
  have hzs : z ≠ src := hsrc z (by simp [hends])
  -- the ring without the node, read from the end of `dst`
  have hrest : IsRing (update m.nextPtr z a) (update m.prevPtr a z) (a :: t) :=
    hring.remove hends (update_self ..) (update_self ..)
      (fun x _ hx => update_of_ne hx _ _) (fun x _ hx => update_of_ne hx _ _)
  rw [← hat, ← append_assoc] at hrest hsrc
  replace hrest := hrest.rotate (idle ++ pre).length
  rw [rotate_append_length_eq] at hrest
  obtain ⟨v, hv⟩ := getLast?_eq_some_iff.mp hdst
  obtain ⟨b, post', rfl⟩ := exists_cons_of_ne_nil hpost
  have hends' : b :: (post' ++ (idle ++ pre)) = (b :: (post' ++ v)) ++ [dst] := by
    rw [hv]
    simp
  have hbs : b ≠ src := hsrc b (by simp)
  have hds : dst ≠ src := hsrc dst (by rw [hv]; simp)
  have hdb : update m.nextPtr z a dst = b := (hrest.ends hends').1
  have hmoved : (m.moveAfter dst src).nextPtr =
        update (update (update m.nextPtr z a) src b) dst src ∧
      (m.moveAfter dst src).prevPtr = update (update (update m.prevPtr a z) b src) src dst := by
    simp only [moveAfter, setNext, setPrev, hnext, hprev, update_of_ne hzs.symm, hdb, and_self]
  rw [hmoved.1, hmoved.2]
  have hgrown : IsRing (update (update (update m.nextPtr z a) src b) dst
      src) (update (update (update m.prevPtr a z) b src) src dst)
      (b :: (post' ++ (idle ++ pre)) ++ [src]) := by
    refine hrest.insert hends' ?_ ?_ ?_ ?_ ?_ ?_ ?_
    · intro hmem
      exact hsrc src (by simp at hmem ⊢; tauto) rfl
    · rw [update_of_ne hds.symm, update_self]
    · rw [update_self]
    · rw [update_self]
    · rw [update_of_ne hbs, update_self]
    · intro x hx hxd
      have hxs : x ≠ src := hsrc x (by simp at hx ⊢; tauto)
      rw [update_of_ne hxd, update_of_ne hxs]
    · intro x hx hxb
      have hxs : x ≠ src := hsrc x (by simp at hx ⊢; tauto)
      rw [update_of_ne hxs, update_of_ne hxb]
  have hturned := hgrown.rotate (b :: post' ++ idle).length
  have hsplit :
      b :: (post' ++ (idle ++ pre)) ++ [src] = (b :: post' ++ idle) ++ (pre ++ [src]) := by
    simp
  rw [hsplit, rotate_append_length_eq] at hturned
  simpa using hturned

/-- **The search.**  It goes back over the nodes `post` of a smaller priority, to the node before
them. -/
lemma PrioQueue.findTarget_eq {q : PrioQueue E} {priority : ℕ} {pre post rest : List Addr}
    {x : Addr} (h : IsRing q.world.nodes.nextPtr q.world.nodes.prevPtr (pre ++ post ++ x :: rest))
    (hpost : ∀ n ∈ post, q.priority n < priority)
    (hpre : ∀ n ∈ pre.getLast?, priority ≤ q.priority n) :
    (x :: rest ++ pre).getLast? =
      some (q.findTarget priority (pre ++ post).length (q.world.nodes.prevPtr x)) := by
  induction post using reverseRecOn generalizing x rest with
  | nil =>
    rcases eq_nil_or_concat' pre with rfl | ⟨pre, y, rfl⟩
    · obtain ⟨s, z, hz⟩ := (eq_nil_or_concat' (x :: rest)).resolve_left (cons_ne_nil x rest)
      have hring : IsRing q.world.nodes.nextPtr q.world.nodes.prevPtr (x :: rest) := h
      rw [append_nil, hz, getLast?_concat]
      exact congrArg some (hring.ends hz).2.symm
    · have hring : IsRing q.world.nodes.nextPtr q.world.nodes.prevPtr
          (pre ++ y :: x :: rest) := by simpa using h
      have hy : priority ≤ q.priority y := hpre y (by simp)
      have hlength : (pre ++ [y] ++ []).length = pre.length + 1 := by simp
      rw [hring.adjacent.2, hlength, findTarget, if_pos hy, ← append_assoc, getLast?_concat]
  | append_singleton post y ih =>
    have hring : IsRing q.world.nodes.nextPtr q.world.nodes.prevPtr
        (pre ++ post ++ y :: x :: rest) := by simpa using h
    have hy : q.priority y < priority := hpost y (by simp)
    have hlength : (pre ++ (post ++ [y])).length = (pre ++ post).length + 1 := by
      simp only [length_append, length_singleton]
      omega
    have hlater := ih hring fun n hn => hpost n (mem_append_left _ hn)
    rw [hring.adjacent.2, hlength, findTarget, if_neg hy.not_ge, ← hlater]
    simp only [cons_append, getLast?_cons_cons]

lemma nextPtr_target {pre post idle : List Addr} {src dst b : Addr}
    (h : IsRing m.nextPtr m.prevPtr (pre ++ b :: post ++ src :: idle))
    (hdst : (src :: idle ++ pre).getLast? = some dst) : m.nextPtr dst = b := by
  have hring : IsRing m.nextPtr m.prevPtr (pre ++ (b :: post ++ src :: idle)) := by
    simpa using h
  have hturned := hring.rotate pre.length
  rw [rotate_append_length_eq] at hturned
  obtain ⟨v, hv⟩ := getLast?_eq_some_iff.mp hdst
  have hends : b :: (post ++ src :: idle ++ pre) = b :: (post ++ v) ++ [dst] := by
    rw [append_assoc, hv]
    simp
  exact (hturned.ends hends).1

/-- The ring after the move. -/
lemma Shape.moved {queue : PosalQueue} {pre post idle : List Addr}
    {src dst : Addr} (h : Shape queue m (pre ++ post ++ [src]) idle) (hpost : post ≠ [])
    (hdst : (src :: idle ++ pre).getLast? = some dst) :
    Shape { queue with
        activeHeadPtr := if m.nextPtr dst = queue.activeHeadPtr then src else queue.activeHeadPtr
        activeTailPtr := m.prevPtr src }
      (if dst ≠ src then m.moveAfter dst src else m) (pre ++ src :: post) idle := by
  have hring : IsRing m.nextPtr m.prevPtr (pre ++ post ++ src :: idle) := by
    simpa using h.isRing
  obtain ⟨b, post, rfl⟩ := exists_cons_of_ne_nil hpost
  have hnext := nextPtr_target hring hdst
  refine ⟨?_, ?_, ?_, ?_, ?_⟩
  · by_cases hnone : idle ++ pre = []
    · obtain ⟨rfl, rfl⟩ := append_eq_nil_iff.mp hnone
      have heq : dst = src := by simpa using hdst.symm
      rw [if_neg (not_not.mpr heq)]
      simpa using hring.unshift
    · obtain ⟨v, z, hz⟩ := (eq_nil_or_concat' (idle ++ pre)).resolve_left hnone
      have hlast : (idle ++ pre).getLast? = some dst := by
        rw [cons_append, hz] at hdst
        rw [hz, ← hdst]
        cases v <;> simp
      have hne : dst ≠ src := by
        have hmem : dst ∈ idle ++ pre := mem_of_getLast? hlast
        have hturned := hring.rotate (pre ++ b :: post).length
        rw [rotate_append_length_eq, cons_append] at hturned
        rintro rfl
        refine (nodup_cons.mp hturned.nodup).1 ?_
        simp only [mem_append] at hmem ⊢
        tauto
      rw [if_pos hne]
      exact QueueNodes.isRing_moveAfter hring hpost hlast
  · intro n hn
    have hfresh : (if dst ≠ src then m.moveAfter dst src else m).fresh = m.fresh := by
      split_ifs <;> rfl
    rw [hfresh]
    apply h.old
    simp only [mem_append, mem_cons] at hn ⊢
    tauto
  · intro a ha
    rw [hnext]
    cases pre with
    | nil =>
      have hhead : queue.activeHeadPtr = b := h.head b (by simp)
      rw [if_pos hhead.symm]
      simpa using ha
    | cons c pre =>
      have hhead : queue.activeHeadPtr = c := h.head c (by simp)
      have hne : b ≠ queue.activeHeadPtr := by
        have hnodup := hring.nodup
        rw [hhead]
        rintro rfl
        refine (nodup_cons.mp hnodup).1 (by simp)
      rw [if_neg hne, hhead]
      simpa using ha
  · intro z hz
    obtain ⟨v, y, hy⟩ := (eq_nil_or_concat' (b :: post)).resolve_left (cons_ne_nil b post)
    have hlast : (pre ++ src :: b :: post).getLast? = some y := by
      rw [hy, ← cons_append, ← append_assoc, getLast?_concat]
    have hprev : m.prevPtr src = y := by
      rw [hy, ← append_assoc, append_assoc, singleton_append] at hring
      exact hring.adjacent.2
    rw [hlast] at hz
    exact hprev.trans (Option.some.inj hz)
  · rw [h.numNodes]
    simp only [length_append, length_cons, length_nil]
    omega

/-! ## Pushing -/

lemma PrioQueue.moveForward_elem (q : PrioQueue E) (priority : ℕ) :
    (q.moveForward priority).world.nodes.elem = q.world.nodes.elem := by
  unfold moveForward
  dsimp only
  split_ifs <;> rfl

namespace Stores

variable {d : Deque E} {active idle : List Addr}

/-- **Moving the last element forward.**  It passes the nodes of a smaller priority. -/
lemma moveForward {q : PrioQueue E} {priority : ℕ} {pre post : List Addr} {node : Addr}
    (h : Stores q.world d (pre ++ post ++ [node]) idle) (hne : pre ++ post ≠ [])
    (hpost : ∀ n ∈ post, q.priority n < priority)
    (hpre : ∀ n ∈ pre.getLast?, priority ≤ q.priority n) :
    Stores (q.moveForward priority).world
        { d with elems := (pre ++ node :: post).map q.world.nodes.elem }
        (pre ++ node :: post) idle ∧
      (q.moveForward priority).priority = q.priority ∧
      (q.moveForward priority).isPriorityQueue = q.isPriorityQueue ∧
      (q.moveForward priority).world.queue.channelPtr = q.world.queue.channelPtr := by
  obtain ⟨hshape, hactive, helems, hmax, hplaces, hle, hdis⟩ := h
  have hring : IsRing q.world.nodes.nextPtr q.world.nodes.prevPtr
      (pre ++ post ++ node :: idle) := by
    simpa using hshape.isRing
  have htail : q.world.queue.activeTailPtr = node := hshape.tail node (by simp)
  have hrounds : (q.world.queue.activeNodes - 1).toNat = (pre ++ post).length := by
    rw [hactive]
    simp only [length_append, length_singleton]
    omega
  have hdst := PrioQueue.findTarget_eq hring hpost hpre
  unfold PrioQueue.moveForward
  dsimp only
  rw [htail, hrounds]
  revert hdst
  generalize q.findTarget priority (pre ++ post).length (q.world.nodes.prevPtr node) = dst
  intro hdst
  have hlen : (pre ++ node :: post).length = (pre ++ post ++ [node]).length := by
    simp only [length_append, length_cons, length_nil]
    omega
  cases post with
  | nil =>
    -- the node is where it belongs
    obtain ⟨v, y, rfl⟩ := (eq_nil_or_concat' pre).resolve_left (by simpa using hne)
    have hy : dst = y := by
      rw [← append_assoc, getLast?_concat] at hdst
      exact (Option.some.inj hdst).symm
    have hnext : q.world.nodes.nextPtr dst = node := by
      have hsplit : IsRing q.world.nodes.nextPtr q.world.nodes.prevPtr
          (v ++ y :: node :: idle) := by
        simpa using hring
      rw [hy]
      exact hsplit.adjacent.1
    have hhead : node ≠ q.world.queue.activeHeadPtr := by
      intro heq
      obtain ⟨a, t, s, z, hat, hends⟩ := Shape.exists_ends (show v ++ [y] ≠ [] by simp)
      have ha : q.world.queue.activeHeadPtr = a := hshape.head a (by simp [hat])
      have hnodup := hring.nodup
      rw [append_nil, hat, cons_append, nodup_cons] at hnodup
      refine hnodup.1 ?_
      rw [← ha, ← heq]
      simp
    rw [hnext, if_neg hhead, if_pos rfl]
    rw [append_nil] at hshape hactive helems hplaces hle
    have hstay : q.world.setEnds q.world.queue.activeHeadPtr node = q.world := by
      rw [← htail]
      rfl
    rw [hstay]
    exact ⟨⟨hshape, hactive, rfl, hmax, hplaces, hle, hdis⟩, rfl, rfl, rfl⟩
  | cons b post =>
    have hnext : q.world.nodes.nextPtr dst = b := nextPtr_target hring hdst
    have hbn : b ≠ node := by
      rintro rfl
      have hnodup := hring.nodup
      rw [append_assoc] at hnodup
      have hlast := (nodup_append.mp hnodup).2.1
      rw [cons_append, nodup_cons] at hlast
      exact hlast.1 (by simp)
    have hmoved := hshape.moved (cons_ne_nil b post) hdst
    rw [if_neg (by rw [hnext]; exact hbn)]
    refine ⟨⟨hmoved, hactive.trans (by rw [hlen]), ?_, hmax, ?_, ?_, hdis⟩, rfl, rfl, rfl⟩
    · apply map_congr_left
      intro n _
      split_ifs <;> rfl
    · rw [length_append, hlen, ← length_append]
      exact hplaces
    · rw [length_append, hlen, ← length_append]
      exact hle

/-- A push at the back that finds a place: the node of the element comes last.  In an empty queue
it is the next one to be allocated, or the one at which the queue stands. -/
lemma placedBack {w w' : QueueWorld E} {c : ℕ} {allocated : Bool} (h : Stores w d active idle)
    (hfits : d.capacity ≤ 32767) (hptr : w.queue.channelPtr = some c)
    (hroom : d.elems.length ≠ d.capacity) (hplace : w.placeBack allocated = some w') (payload : E) :
    ∃ node idle', (w.pushBack payload allocated).1 = .eok ∧ idle'.length = idle.length - 1 ∧
      Stores (w.pushBack payload allocated).2
        { d with places := (active ++ [node] ++ idle').length, elems := d.elems ++ [payload] }
        (active ++ [node]) idle' ∧
      (w.pushBack payload allocated).2.queue.channelPtr = some c ∧
      (active = [] →
        node = if w.queue.numNodes = 0 then w.nodes.fresh else w.queue.activeTailPtr) := by
  have hlen := h.length_elems
  have hle := h.le
  rw [length_append] at hle
  have hroom' : active.length < d.capacity := by omega
  obtain ⟨node, idle', hshape, hidle⟩ := h.shape.placeBack h.activeNodes (by omega) hplace
  have hnode : node ∉ active := by
    have hnodup := (nodup_append.mp hshape.isRing.nodup).1
    exact fun hmem => (nodup_append.mp hnodup).2.2 node hmem node (by simp) rfl
  have hslot : w'.queue.activeTailPtr = node := hshape.tail node (by simp)
  have hplaced := QueueWorld.placeBack_placed hplace
  have hpush : w.pushBack payload allocated = (.eok,
      { w' with nodes := w'.nodes.setElem w'.queue.activeTailPtr payload }.finishPush c) := by
    unfold QueueWorld.pushBack QueueWorld.pushAt
    rw [hptr, hplace]
    exact if_neg fun hfull => hroom (h.full_iff.mp hfull)
  rw [hpush, hslot]
  refine ⟨node, idle', rfl, hidle, ?_, ?_, ?_⟩
  · refine h.pushed hfits hroom' hplaced hshape (by simp) hidle ?_ c
    rw [map_append, map_update_of_notMem hnode, h.elems]
    simp
  · rw [QueueWorld.finishPush_queue]
    rw [hplaced.queue]
    exact hptr
  · rintro rfl
    have hactive : w.queue.activeNodes = 0 := h.activeNodes
    rw [← hslot]
    unfold QueueWorld.placeBack QueueNodes.createNode QueueWorld.addIdleNode at hplace
    split_ifs at hplace ⊢ <;> first | omega | (cases hplace; rfl)

end Stores

namespace PrioQueue

variable {q : PrioQueue E} {payload : E} {priority : ℕ} {allocated : Bool}

lemma pushBackWithPriority_refused {result : ArResult}
    (hpush : q.world.pushBack payload allocated = (result, q.world)) (hresult : result ≠ .eok) :
    q.pushBackWithPriority payload priority allocated = (result, q) := by
  unfold pushBackWithPriority
  rw [hpush]
  exact if_neg fun h => hresult h.1

lemma pushBackWithPriority_accepted (hpush : (q.world.pushBack payload allocated).1 = .eok)
    (hpriority : q.isPriorityQueue = true) :
    q.pushBackWithPriority payload priority allocated = (.eok,
      let q' := { q with world := (q.world.pushBack payload allocated).2 }
      if 1 < q'.world.queue.activeNodes then
        if 0 < priority then
          (q'.setPriority q'.world.queue.activeTailPtr priority).moveForward priority
        else q'.setPriority q'.world.queue.activeTailPtr priority
      else q') := by
  unfold pushBackWithPriority
  rw [← Prod.mk.eta (p := q.world.pushBack payload allocated), hpush]
  simp only [hpriority, true_and, and_true]
  split_ifs <;> rfl

end PrioQueue

lemma QueueWorld.popFront_keeps (w : QueueWorld E) :
    w.popFront.2.nodes = w.nodes ∧ w.popFront.2.queue.channelPtr = w.queue.channelPtr := by
  unfold popFront popAt
  split
  · exact ⟨rfl, rfl⟩
  · split_ifs <;> exact ⟨rfl, rfl⟩

/-! ## The queue and what it is for -/

/-- The queue stores the waiting elements in serving order, each with its priority. -/
structure ServesFrom (q : PrioQueue E) (s : PrioSpec E) (active idle : List Addr) : Prop where
  stores : Stores q.world s.toDeque active idle
  carries : active.map (fun n => (q.priority n, q.world.nodes.elem n)) = byKey Prod.fst s.waiting
  isPriorityQueue : q.isPriorityQueue = true
  channelPtr : ∃ c, q.world.queue.channelPtr = some c
  fits : s.capacity ≤ 32767

namespace ServesFrom

variable {q : PrioQueue E} {s : PrioSpec E} {active idle : List Addr}

lemma length_waiting (h : ServesFrom q s active idle) : s.waiting.length = active.length := by
  rw [← h.stores.length_elems, PrioSpec.toDeque, length_map, byKey_perm.length_eq]

/-- **One more element.**  Its node stands behind those of the priorities that are not smaller,
and the others are as before. -/
lemma inserted {q' : PrioQueue E} {idle' : List Addr} {node : Addr} {payload : E}
    {priority places : ℕ} (h : ServesFrom q s active idle)
    (hstores : Stores q'.world
      { s.toDeque with
        places := places
        elems := (active.takeWhile (priority ≤ q.priority ·) ++
          node :: active.dropWhile (priority ≤ q.priority ·)).map q'.world.nodes.elem }
      (active.takeWhile (priority ≤ q.priority ·) ++
        node :: active.dropWhile (priority ≤ q.priority ·)) idle')
    (hnew : q'.priority node = priority ∧ q'.world.nodes.elem node = payload)
    (hold : ∀ n ∈ active, q'.priority n = q.priority n ∧
      q'.world.nodes.elem n = q.world.nodes.elem n)
    (hprio : q'.isPriorityQueue = true) (hptr : ∃ c, q'.world.queue.channelPtr = some c) :
    ServesFrom q'
      { s with places := places, waiting := s.waiting ++ [(priority, payload)] }
      (active.takeWhile (priority ≤ q.priority ·) ++
        node :: active.dropWhile (priority ≤ q.priority ·)) idle' := by
  have hsame : ∀ l : List Addr, l ⊆ active →
      l.map (fun n => (q'.priority n, q'.world.nodes.elem n)) =
        l.map fun n => (q.priority n, q.world.nodes.elem n) := by
    intro l hl
    apply map_congr_left
    intro n hn
    rw [(hold n (hl hn)).1, (hold n (hl hn)).2]
  have hcarries : (active.takeWhile (priority ≤ q.priority ·) ++
      node :: active.dropWhile (priority ≤ q.priority ·)).map
        (fun n => (q'.priority n, q'.world.nodes.elem n)) =
      byKey Prod.fst (s.waiting ++ [(priority, payload)]) := by
    rw [byKey_concat, ← h.carries, insertByKey, takeWhile_map, dropWhile_map,
      map_append, map_cons, hsame _ (List.takeWhile_prefix _).subset,
      hsame _ (dropWhile_suffix _).subset, hnew.1, hnew.2]
    rfl
  refine ⟨?_, hcarries, hprio, hptr, h.fits⟩
  have helems : (byKey Prod.fst (s.waiting ++ [(priority, payload)])).map Prod.snd =
      (active.takeWhile (priority ≤ q.priority ·) ++
        node :: active.dropWhile (priority ≤ q.priority ·)).map q'.world.nodes.elem := by
    rw [← hcarries, map_map]
    rfl
  unfold PrioSpec.toDeque
  rw [helems]
  exact hstores

/-- A push that was accepted, from the node at the back to the place of its priority. -/
lemma accepted {idle' : List Addr} {node : Addr} {payload : E} {allocated : Bool}
    {priority places c : ℕ} (h : ServesFrom q s active idle)
    (hok : (q.world.pushBack payload allocated).1 = .eok)
    (hstores : Stores (q.world.pushBack payload allocated).2
      { s.toDeque with places := places, elems := s.toDeque.elems ++ [payload] }
      (active ++ [node]) idle')
    (hptr : (q.world.pushBack payload allocated).2.queue.channelPtr = some c)
    (hkeeps : active = [] → q.priority node = priority) :
    (q.pushBackWithPriority payload priority allocated).1 = .eok ∧
      ∃ active', ServesFrom (q.pushBackWithPriority payload priority allocated).2
        { s with places := places, waiting := s.waiting ++ [(priority, payload)] }
        active' idle' := by
  rw [PrioQueue.pushBackWithPriority_accepted hok h.isPriorityQueue]
  refine ⟨rfl, active.takeWhile (priority ≤ q.priority ·) ++
    node :: active.dropWhile (priority ≤ q.priority ·), ?_⟩
  generalize (q.world.pushBack payload allocated).2 = w at hstores hptr
  have hcount : w.queue.activeNodes = active.length + 1 := by
    rw [hstores.activeNodes, length_append]
    rfl
  have htail : w.queue.activeTailPtr = node := hstores.shape.tail node (by simp)
  have helems := hstores.elems
  rw [map_append, ← h.stores.elems] at helems
  obtain ⟨hothers, hpayload⟩ := append_inj helems (by simp)
  replace hpayload : w.nodes.elem node = payload := by simpa using hpayload
  have holdElem : ∀ n ∈ active, w.nodes.elem n = q.world.nodes.elem n :=
    fun n hn => map_inj_left.mp hothers n hn
  by_cases hnil : active = []
  · -- the first element
    subst hnil
    rw [if_neg (by rw [hcount]; simp)]
    refine h.inserted ?_ ⟨hkeeps rfl, hpayload⟩ (by simp) h.isPriorityQueue ⟨c, hptr⟩
    have hone : [w.nodes.elem node] = s.toDeque.elems ++ [payload] := by
      rw [← h.stores.elems, hpayload]
      rfl
    rw [← hone] at hstores
    exact hstores
  · have hpos := length_pos_of_ne_nil hnil
    have hnode : node ∉ active := by
      have hnodup := (nodup_append.mp hstores.shape.isRing.nodup).1
      exact fun hmem => (nodup_append.mp hnodup).2.2 node hmem node (by simp) rfl
    rw [if_pos (by rw [hcount]; omega), htail]
    have hsplit := takeWhile_append_dropWhile (p := (priority ≤ q.priority ·)) (l := active)
    have hprio : ∀ n ∈ active, update q.priority node priority n = q.priority n :=
      fun n hn => update_of_ne (ne_of_mem_of_not_mem hn hnode) _ _
    have hpre : ∀ n ∈ active.takeWhile (priority ≤ q.priority ·), n ∈ active :=
      (List.takeWhile_prefix _).subset
    have hpost : ∀ n ∈ active.dropWhile (priority ≤ q.priority ·), n ∈ active :=
      (dropWhile_suffix _).subset
    by_cases hzero : 0 < priority
    · rw [if_pos hzero]
      rw [← hsplit] at hstores
      have hsorted : Sorted q.priority active := by
        have hmap : Sorted Prod.fst (active.map fun n => (q.priority n, q.world.nodes.elem n)) := by
          rw [h.carries]
          exact sorted_byKey
        exact pairwise_map.mp hmap
      have hmoved := @Stores.moveForward _ _ _ ({ q with world := w }.setPriority node priority)
        priority _ _ _ hstores (by rw [hsplit]; exact hnil) ?_ ?_
      · obtain ⟨hstores', hsame, hflag, hchannel⟩ := hmoved
        have helem : ∀ n, (({ q with world := w }.setPriority node priority).moveForward
            priority).world.nodes.elem n = w.nodes.elem n :=
          congrFun (PrioQueue.moveForward_elem _ priority)
        refine h.inserted ?_ ⟨hsame ▸ update_self .., (helem node).trans hpayload⟩
          (fun n hn => ⟨hsame ▸ hprio n hn, (helem n).trans (holdElem n hn)⟩)
          (hflag.trans h.isPriorityQueue) ⟨c, hchannel.trans hptr⟩
        rw [PrioQueue.moveForward_elem]
        exact hstores'
      · intro n hn
        change update q.priority node priority n < priority
        rw [hprio n (hpost n hn)]
        exact hsorted.lt_of_mem_dropWhile n hn
      · intro n hn
        have hmem := mem_of_getLast? hn
        change priority ≤ update q.priority node priority n
        rw [hprio n (hpre n hmem)]
        exact of_decide_eq_true (all_eq_true.mp all_takeWhile n hmem)
    · obtain rfl : priority = 0 := by omega
      have hall : ∀ l : List Addr, l.takeWhile (0 ≤ q.priority ·) = l :=
        fun l => takeWhile_eq_self_iff.mpr (by simp)
      have hnone : active.dropWhile (0 ≤ q.priority ·) = [] :=
        dropWhile_eq_nil_iff.mpr (by simp)
      refine h.inserted ?_ ⟨update_self .., hpayload⟩
        (fun n hn => ⟨hprio n hn, holdElem n hn⟩) h.isPriorityQueue ⟨c, hptr⟩
      rw [hall, hnone]
      have hlast : (active ++ [node]).map w.nodes.elem = s.toDeque.elems ++ [payload] :=
        hstores.elems
      rw [← hlast] at hstores
      exact hstores

/-- **One push.**  It gives the answer of the specification, and keeps the order if a first
element finds its priority in the node. -/
lemma push {payload : E} {priority : ℕ} {allocated : Bool} (h : ServesFrom q s active idle)
    (hkeeps : q.KeepsPriority (.push payload priority allocated)) :
    (q.call (.push payload priority allocated)).1 = (s.call (.push payload priority allocated)).1 ∧
      ∃ active' idle', ServesFrom (q.call (.push payload priority allocated)).2
        (s.call (.push payload priority allocated)).2 active' idle' := by
  obtain ⟨c, hptr⟩ := h.channelPtr
  have hlen := h.stores.length_elems
  have hwaiting := h.length_waiting
  have hplaces : s.places = active.length + idle.length := by
    rw [← length_append]
    exact h.stores.places
  have hfull : q.world.queue.activeNodes = q.world.queue.maxNodes ↔
      s.waiting.length = s.capacity := by
    rw [h.stores.full_iff, hlen, hwaiting]
    rfl
  have hnone : q.world.placeBack allocated = none ↔ idle = [] ∧ allocated = false :=
    h.stores.shape.placeBack_eq_none_iff h.stores.activeNodes
  simp only [PrioQueue.call, PrioSpec.call]
  by_cases hcap : s.waiting.length = s.capacity
  · have hpush : q.world.pushBack payload allocated = (.eneedmore, q.world) := by
      unfold QueueWorld.pushBack QueueWorld.pushAt
      rw [hptr]
      exact if_pos (hfull.mpr hcap)
    rw [if_pos hcap, PrioQueue.pushBackWithPriority_refused hpush (by decide)]
    exact ⟨rfl, active, idle, h⟩
  · rw [if_neg hcap]
    cases hplace : q.world.placeBack allocated with
    | none =>
      obtain ⟨rfl, rfl⟩ := hnone.mp hplace
      have hpush : q.world.pushBack payload false = (.enomemory, q.world) := by
        unfold QueueWorld.pushBack QueueWorld.pushAt
        rw [hptr, hplace]
        exact if_neg (hfull.not.mpr hcap)
      rw [length_nil] at hplaces
      rw [if_neg (by omega), if_neg (by simp), PrioQueue.pushBackWithPriority_refused hpush
        (by decide)]
      exact ⟨rfl, active, [], h⟩
    | some w' =>
      obtain ⟨node, idle', hok, hidle, hstores, hptr', hnode⟩ := h.stores.placedBack h.fits hptr
        (by rw [hlen, ← hwaiting]; exact hcap) hplace payload
      have hfirst : active = [] → q.priority node = priority := by
        intro hnil
        have hzero : q.world.queue.activeNodes = 0 := by
          rw [h.stores.activeNodes, hnil]
          rfl
        have hkept := hkeeps hzero
        rw [hnode hnil]
        split_ifs at hkept ⊢ with hempty
        · refine hkept ?_
          by_contra hfalse
          have hidleNil : idle = [] := by
            have hring := h.stores.shape.numNodes_eq_zero_iff.mp hempty
            exact (append_eq_nil_iff.mp hring).2
          rw [hnone.mpr ⟨hidleNil, by simpa using hfalse⟩] at hplace
          cases hplace
        · exact hkept
      obtain ⟨hresult, active', hserves⟩ := h.accepted hok hstores hptr' hfirst
      rw [hresult]
      by_cases hidleNil : idle = []
      · have halloc : allocated = true := by
          by_contra hfalse
          rw [hnone.mpr ⟨hidleNil, by simpa using hfalse⟩] at hplace
          cases hplace
        have hnew : (active ++ [node] ++ idle').length = s.places + 1 := by
          simp only [length_append, length_singleton, hidle, hidleNil, length_nil]
            at hplaces ⊢
          omega
        rw [if_neg (by rw [hplaces, hidleNil, length_nil]; omega), if_pos halloc]
        rw [hnew] at hserves
        exact ⟨rfl, active', idle', hserves⟩
      · have hpos := length_pos_of_ne_nil hidleNil
        have hnew : (active ++ [node] ++ idle').length = s.places := by
          simp only [length_append, length_singleton, hidle]
          omega
        rw [if_pos (by omega)]
        rw [hnew] at hserves
        exact ⟨rfl, active', idle', hserves⟩

/-- **One pop.**  The first of the elements with the greatest priority leaves. -/
lemma pop (h : ServesFrom q s active idle) : (q.call .pop).1 = (s.call .pop).1 ∧
      ∃ active' idle', ServesFrom (q.call .pop).2 (s.call .pop).2 active' idle' := by
  obtain ⟨c, hptr⟩ := h.channelPtr
  have hserve := @serve_eq (ℕ × E) ℕ _ Prod.fst s.waiting
  rw [← h.carries] at hserve
  simp only [PrioQueue.call, PrioQueue.popFront, PrioSpec.call]
  cases active with
  | nil =>
    have hnone : serve Prod.fst s.waiting = none := hserve
    have hpop : q.world.popFront = ((.eneedmore, none), q.world) := h.stores.popAt_nil hptr
    rw [hnone, hpop]
    exact ⟨rfl, [], idle, h⟩
  | cons a t =>
    obtain ⟨waiting', hsome, hrest⟩ := hserve
    obtain ⟨hresult, idle', hstores⟩ := h.stores.popFront_cons h.fits hptr
    obtain ⟨hnodes, hchannel⟩ := q.world.popFront_keeps
    rw [hsome]
    refine ⟨hresult, t, idle', ?_, ?_, h.isPriorityQueue, ⟨c, hchannel.trans hptr⟩, h.fits⟩
    · have helems : t.map q.world.nodes.elem = (byKey Prod.fst waiting').map Prod.snd := by
        rw [hrest, map_map]
        rfl
      rw [helems] at hstores
      exact hstores
    · rw [hnodes, hrest]

end ServesFrom

/-! ## Every run -/

/-- A call made to the queue and to what it is for. -/
def prioLockstep (p : PrioQueue E × PrioSpec E) (a : PrioCall E) : PrioQueue E × PrioSpec E :=
  ((p.1.call a).2, (p.2.call a).2)

/-- The queue gives the answer of its specification to the call: the element served is the first
of those with the greatest priority. -/
def ServesRight (p : PrioQueue E × PrioSpec E) (a : PrioCall E) : Prop :=
  (p.1.call a).1 = (p.2.call a).1

/-- The ring is well formed, and holds the waiting elements in the order in which they are to be
served: none is lost, none is there twice. -/
def InOrder (p : PrioQueue E × PrioSpec E) : Prop :=
  ∃ active idle, Stores p.1.world p.2.toDeque active idle

/-- What the calls keep that find a first element's priority in its node. -/
def Serving (p : PrioQueue E × PrioSpec E) : Prop :=
  ∃ active idle, ServesFrom p.1 p.2 active idle

lemma Serving.call {p : PrioQueue E × PrioSpec E} {a : PrioCall E} (h : Serving p)
    (hkeeps : p.1.KeepsPriority a) : ServesRight p a ∧ Serving (prioLockstep p a) := by
  obtain ⟨active, idle, hserves⟩ := h
  cases a with
  | push payload priority allocated => exact hserves.push hkeeps
  | pop => exact hserves.pop

lemma Serving.attached {attr : QueueInitAttr} (hmax : attr.maxNodes ≤ 32767)
    {allocated : ℕ → Bool} {w w₁ w₂ : QueueWorld E} {c : ℕ} {unBitMask : BitVec 32}
    (hinit : w.init attr allocated = (.eok, w₁)) (haddq : w₁.addq c unBitMask = (.eok, w₂))
    (priority : Addr → ℕ) : Serving (⟨w₂, true, priority⟩, PrioSpec.init attr) := by
  obtain ⟨⟨idle, hstores⟩, hptr⟩ := Stores.init hmax hinit
  obtain ⟨i, hon, _⟩ := QueueWorld.addq_first hptr (congrArg Prod.fst haddq)
  have hstores₂ := hstores.addq c unBitMask
  rw [haddq] at hon hstores₂
  refine ⟨[], idle, hstores₂, rfl, rfl, ⟨c, hon.channelPtr⟩, ?_⟩
  simp only [PrioSpec.init]
  omega

/-- **The priority queue.**  Let a priority queue be created with a capacity that fits its 16-bit
counters, and attached to a channel, with whatever priorities in the memory of its nodes.  In a
run of pushes and pops in which every push into the empty queue finds its priority in the node
that it uses, and any allocation may fail, the first of the elements with the greatest priority
leaves at each pop, and in every state the ring is well formed and holds exactly the waiting
elements. -/
theorem posalQueue_priority {attr : QueueInitAttr} (hmax : attr.maxNodes ≤ 32767)
    {allocated : ℕ → Bool} {w w₁ w₂ : QueueWorld E} {c : ℕ} {unBitMask : BitVec 32}
    (hinit : w.init attr allocated = (.eok, w₁)) (haddq : w₁.addq c unBitMask = (.eok, w₂))
    (priority : Addr → ℕ) (calls : List (PrioCall E))
    (hcalls : Meets prioLockstep (fun p a => p.1.KeepsPriority a)
      (⟨w₂, true, priority⟩, PrioSpec.init attr) calls) :
    Meets prioLockstep ServesRight (⟨w₂, true, priority⟩, PrioSpec.init attr) calls ∧
      Along prioLockstep InOrder (⟨w₂, true, priority⟩, PrioSpec.init attr) calls := by
  have hserving := Serving.attached hmax hinit haddq priority
  have halong : Along prioLockstep Serving (⟨w₂, true, priority⟩, PrioSpec.init attr) calls :=
    along_of_meets (fun _ _ hp hkeeps => (hp.call hkeeps).2) hserving hcalls
  refine ⟨meets_of_along (fun _ _ hp hkeeps => (hp.call hkeeps).1) halong hcalls, ?_⟩
  exact halong.mono fun _ ⟨active, idle, hserves⟩ => ⟨active, idle, hserves.stores⟩

/-- Three elements in a queue whose first node has the priority of the first element. -/
theorem posalQueue_priority_three :
    Meets prioLockstep ServesRight (⟨attachedQueue 3 1, true, fun _ => 5⟩, PrioSpec.init ⟨3, 0⟩)
        [.push 7 5 true, .push 8 3 true, .push 9 9 true, .pop, .pop] ∧
      Along prioLockstep InOrder (⟨attachedQueue 3 1, true, fun _ => 5⟩, PrioSpec.init ⟨3, 0⟩)
        [.push 7 5 true, .push 8 3 true, .push 9 9 true, .pop, .pop] := by
  have hinit : blankWorld.init ⟨3, 0⟩ (fun _ => true) = (.eok, createdQueue 3) := rfl
  have haddq : (createdQueue 3).addq 0 1 = (.eok, attachedQueue 3 1) := rfl
  refine posalQueue_priority (by decide) hinit haddq _ _
    ⟨fun _ _ => rfl, ?_, ?_, trivial, trivial, trivial⟩
  · intro hzero
    exact absurd hzero (by decide)
  · intro hzero
    exact absurd hzero (by decide)

/-- The first element of an empty queue does not get its priority: the second one, of a smaller
priority, leaves before it. -/
theorem not_posalQueue_priority :
    ¬ ∀ (attr : QueueInitAttr) (allocated : ℕ → Bool) (w w₁ w₂ : QueueWorld ℕ) (c : ℕ)
        (unBitMask : BitVec 32) (priority : Addr → ℕ) (calls : List (PrioCall ℕ)),
      attr.maxNodes ≤ 32767 → w.init attr allocated = (.eok, w₁) →
        w₁.addq c unBitMask = (.eok, w₂) →
        Meets prioLockstep ServesRight (⟨w₂, true, priority⟩, PrioSpec.init attr) calls := by
  intro h
  have hinit : blankWorld.init ⟨2, 0⟩ (fun _ => true) = (.eok, createdQueue 2) := rfl
  have haddq : (createdQueue 2).addq 0 1 = (.eok, attachedQueue 2 1) := rfl
  obtain ⟨_, _, hpop, _⟩ := h ⟨2, 0⟩ (fun _ => true) blankWorld _ _ 0 1 (fun _ => 0)
    [.push 7 5 true, .push 8 3 true, .pop] (by decide) hinit haddq
  unfold ServesRight at hpop
  exact absurd hpop (by decide)

end AudioReach
