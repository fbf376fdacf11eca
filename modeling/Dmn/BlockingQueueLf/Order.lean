import Dmn.BlockingQueueLf.Machine
import Dmn.Lib.Census
import Dmn.Lib.Linked

/-!
# Order of the lock-free queue

The nodes form one chain from the initial dummy, of which the tail is the last
or the last but one and the unlinked nodes are a prefix. This holds in every
run. A pop that reads the tail before the head can find a head that has no
successor yet and is not its tail; it then moves the head to a null pointer.
It does so only if other threads have pushed and popped past the node that it
read as the tail and left the queue empty; where that does not happen, the
queue is first in, first out.
-/

namespace Dmn.BlockingQueueLf

open Lib

namespace Pc

variable {T : Type}

/-- The node that a push has not linked yet, with its item. -/
def owns : Pc T → Option (Address × T)
  | .push _ item (.loadTail new) | .push _ item (.loadNext new _) | .push _ item (.recheck new _ _)
  | .push _ item (.link new _) | .push _ item (.help new _ _) => some (new, item)
  | _ => none

/-- The node whose item a pop has removed and not yet handed on. -/
def holds : Pc T → Option Address
  | .pop _ _ (.retireLoad _ next) | .pop _ _ (.retireStore _ next _)
  | .pop _ _ (.retireSwap _ next _) | .pop _ _ (.countDown next) | .pop _ _ (.take next) => next
  | _ => none

/-- What the count of outstanding items is ahead of the chain. -/
def pending : Pc T → Int
  | .push _ _ (.loadTail _) | .push _ _ (.loadNext _ _) | .push _ _ (.recheck _ _ _)
  | .push _ _ (.link _ _) | .push _ _ (.help _ _ _) | .pop _ _ (.retireLoad _ _)
  | .pop _ _ (.retireStore _ _ _) | .pop _ _ (.retireSwap _ _ _) | .pop _ _ (.countDown _) => 1
  | _ => 0

/-- A place at which a thread has read nothing of the head. -/
def unread : Pc T → Bool
  | .pop _ _ .loadTail | .pop _ _ (.spin _) | .pop _ _ (.help _ _) | .pop _ _ .again => true
  | .pop _ _ _ | .crashed _ => false
  | _ => true

/-- A place that says nothing of the chain. -/
def plain : Pc T → Bool
  | .idle | .enter _ _ | .leave _ _ | .crashed _ | .push _ _ .count | .push _ _ .total
  | .pop _ _ .loadTail | .pop _ _ (.loadHead _) | .pop _ _ (.loadNext _ _) | .pop _ _ (.spin _)
  | .pop _ _ .again => true
  | _ => false

/-- It has nothing in its hands. -/
structure Free (p : Pc T) : Prop where
  owns : p.owns = none
  holds : p.holds = none
  pending : p.pending = 0

theorem plain_free {p : Pc T} (h : p.plain) : p.Free := by
  cases p with
  | push ticket item at_ => cases at_ <;> first | exact ⟨rfl, rfl, rfl⟩ | cases h
  | pop ticket popping at_ => cases at_ <;> first | exact ⟨rfl, rfl, rfl⟩ | cases h
  | _ => exact ⟨rfl, rfl, rfl⟩

theorem popped_plain {ticket : EpochIndex} {result : Option T} {popping : Popping T} :
    (State.popped ticket result popping).plain := by
  cases popping <;> rfl

theorem start_plain {ticket : EpochIndex} {op : Operation T} : (op.start ticket).plain := by
  cases op <;> rfl

theorem popped_unread {ticket : EpochIndex} {result : Option T} {popping : Popping T} :
    (State.popped ticket result popping).unread := by
  cases popping <;> rfl

theorem start_unread {ticket : EpochIndex} {op : Operation T} : (op.start ticket).unread := by
  cases op <;> rfl

theorem pending_nonneg (p : Pc T) : 0 ≤ p.pending := by
  unfold pending
  split <;> decide

end Pc

namespace State

variable {ι T : Type} [Inhabited T] {s s' : State ι T} {t : ι} {p : Pc T}

/-- The linked nodes in order. -/
def nodes (s : State ι T) : List Address := s.history.links.map Prod.fst

/-- The nodes from the initial dummy on. -/
def chain (s : State ι T) : List Address := 0 :: s.nodes

/-- A node the tail has been at. -/
def Passed (s : State ι T) (node : Address) : Prop :=
  ∃ i j : Nat, s.chain[i]? = some node ∧ s.chain[j]? = some s.queue.tail ∧ i ≤ j

/-- What a thread has read of the chain still holds. -/
def Agrees (s : State ι T) : Pc T → Prop
  | .push _ _ (.loadNext _ last) | .push _ _ (.link _ last) => s.Passed last
  | .push _ _ (.recheck _ last next) =>
    s.Passed last ∧ ∀ m, next = some m → s.queue.next last = some m
  | .push _ _ (.help _ last next) | .push _ _ (.swing next last) | .pop _ _ (.help last next) =>
    s.queue.next last = some next
  | .pop _ _ (.recheck _ first next) | .pop _ _ (.swing first next) =>
    ∀ m, next = some m → s.queue.next first = some m
  | _ => True

/-- The chain, whatever the threads are at. -/
structure Chain (s : State ι T) : Prop where
  linked : Linked s.queue.next (some 0) s.chain
  allocated : ∀ n ∈ s.chain, n < s.queue.allocated
  beyond : ∀ n, n ∉ s.chain → s.queue.next n = none
  tail : ∃ k : Nat, s.chain[k]? = some s.queue.tail ∧ s.chain.length ≤ k + 2
  unlinked : s.history.unlinked <+: s.chain
  head : s.queue.head = none ∨ s.queue.head = s.chain[s.history.unlinked.length]?
  data : ∀ p ∈ s.history.links, s.queue.data p.1 = p.2

/-- Nodes that are not linked yet belong to one thread each. -/
structure Apart (s : State ι T) : Prop where
  fresh : ∀ t n item, (s.pc t).owns = some (n, item) →
    n < s.queue.allocated ∧ n ∉ s.chain ∧ s.queue.data n = item
  unique : ∀ t u n item item', (s.pc t).owns = some (n, item) → (s.pc u).owns = some (n, item') → t = u

/-- Removed items are handed on, each once. -/
structure Handed (s : State ι T) : Prop where
  removals : s.history.removals.map Prod.snd <+: s.nodes
  length : s.queue.head ≠ none → s.history.removals.length = s.history.unlinked.length
  delivered : ∀ d ∈ s.history.delivered,
    (d.1, d.2.1) ∈ s.history.removals ∧ (d.2.1, d.2.2) ∈ s.history.links
  once : (s.history.delivered.map fun d => d.2.1).Nodup
  held : ∀ t n, (s.pc t).holds = some n →
    (t, n) ∈ s.history.removals ∧ n ∉ s.history.delivered.map fun d => d.2.1
  complete : ∀ r ∈ s.history.removals,
    r.2 ∈ (s.history.delivered.map fun d => d.2.1) ∨ (s.pc r.1).holds = some r.2

structure Chained [Fintype ι] (s : State ι T) : Prop where
  chain : s.Chain
  agrees : ∀ t, s.Agrees (s.pc t)
  apart : s.Apart
  handed : s.Handed
  outstanding : s.queue.outstandingItemCount =
    s.history.links.length - s.history.unlinked.length + census Pc.pending s.pc

-- ---------------------------------------------------------------------------
-- Facts about the chain
-- ---------------------------------------------------------------------------

theorem Chain.nodup (h : s.Chain) : s.chain.Nodup := h.linked.nodup

theorem Chain.nodes_nodup (h : s.Chain) : s.nodes.Nodup := (List.nodup_cons.mp h.nodup).2

theorem Agrees.mono (h : s.Agrees p) (hnext : ∀ n m, s.queue.next n = some m → s'.queue.next n = some m)
    (hpassed : ∀ n, s.Passed n → s'.Passed n) : s'.Agrees p := by
  cases p with
  | push ticket item at_ =>
    cases at_ with
    | loadNext | link => exact hpassed _ h
    | recheck => exact ⟨hpassed _ h.1, fun m hm => hnext _ _ (h.2 m hm)⟩
    | help | swing => exact hnext _ _ h
    | _ => trivial
  | pop ticket popping at_ =>
    cases at_ with
    | help => exact hnext _ _ h
    | recheck | swing => exact fun m hm => hnext _ _ (h m hm)
    | _ => trivial
  | _ => trivial

theorem Chain.passed_tail (h : s.Chain) : s.Passed s.queue.tail := by
  obtain ⟨k, hk, -⟩ := h.tail
  exact ⟨k, k, hk, hk, le_rfl⟩

theorem passed_congr (hlinks : s'.history.links = s.history.links) (htail : s'.queue.tail = s.queue.tail)
    (h : s.Passed n) : s'.Passed n := by
  simpa [Passed, State.chain, nodes, hlinks, htail] using h

/-- The node that is linked next to the tail is the next on the chain. -/
theorem Chain.moveTail (h : s.Chain) (hlast : s.queue.next last = some next)
    (heq : s.queue.tail = last) :
    ∃ k : Nat, s.chain[k]? = some next ∧ s.chain.length ≤ k + 2 := by
  obtain ⟨k, hk, hlen⟩ := h.tail
  rw [heq] at hk
  exact ⟨k + 1, by rw [← h.linked.next_getElem? hk, hlast], by omega⟩

theorem plain_agrees (h : p.plain) : s.Agrees p := by
  cases p with
  | push ticket item at_ => cases at_ <;> trivial
  | pop ticket popping at_ => cases at_ <;> trivial
  | _ => trivial

-- ---------------------------------------------------------------------------
-- Steps that leave the chain alone
-- ---------------------------------------------------------------------------

structure SameQueue (s s' : State ι T) : Prop where
  queue : s'.queue = s.queue
  links : s'.history.links = s.history.links
  unlinked : s'.history.unlinked = s.history.unlinked
  removals : s'.history.removals = s.history.removals
  delivered : s'.history.delivered = s.history.delivered

theorem SameQueue.chain (h : s.SameQueue s') : s'.chain = s.chain := by
  simp [State.chain, nodes, h.links]

theorem Chain.same (h : s.Chain) (hs : s.SameQueue s') : s'.Chain where
  linked := by
    rw [hs.chain, hs.queue]
    exact h.linked
  allocated := by
    rw [hs.chain, hs.queue]
    exact h.allocated
  beyond := by
    rw [hs.chain, hs.queue]
    exact h.beyond
  tail := by
    rw [hs.chain, hs.queue]
    exact h.tail
  unlinked := by
    rw [hs.chain, hs.unlinked]
    exact h.unlinked
  head := by
    rw [hs.chain, hs.queue, hs.unlinked]
    exact h.head
  data := by
    rw [hs.queue, hs.links]
    exact h.data

/-- No node is allocated or linked, and no thread gets one. -/
theorem Apart.congr (h : s.Apart) (hchain : s'.chain = s.chain)
    (hallocated : s'.queue.allocated = s.queue.allocated) (hdata : s'.queue.data = s.queue.data)
    (howns : ∀ u x, (s'.pc u).owns = some x → (s.pc u).owns = some x) : s'.Apart where
  fresh u n item hu := by
    rw [hchain, hallocated, hdata]
    exact h.fresh u n item (howns u _ hu)
  unique u v n item item' hu hv := h.unique u v n item item' (howns u _ hu) (howns v _ hv)

/-- Nothing is removed and nothing handed on. -/
theorem Handed.congr (h : s.Handed) (hremovals : s'.history.removals = s.history.removals)
    (hdelivered : s'.history.delivered = s.history.delivered)
    (hlinks : s.history.links <+: s'.history.links)
    (hunlinked : s'.history.unlinked = s.history.unlinked) (hhead : s'.queue.head = s.queue.head)
    (hholds : ∀ u, (s'.pc u).holds = (s.pc u).holds) : s'.Handed := by
  constructor
  · rw [hremovals]
    exact h.removals.trans (hlinks.map _)
  · rw [hremovals, hunlinked, hhead]
    exact h.length
  · rw [hremovals, hdelivered]
    exact fun d hd => (h.delivered d hd).imp_right fun hm => hlinks.subset hm
  · rw [hdelivered]
    exact h.once
  · rw [hremovals, hdelivered]
    exact fun u n hu => h.held u n (hholds u ▸ hu)
  · rw [hremovals, hdelivered]
    exact fun r hr => (h.complete r hr).imp_right fun hr => (hholds r.1).trans hr

-- ---------------------------------------------------------------------------
-- The tail
-- ---------------------------------------------------------------------------

/-- The tail moves, or not, to the node behind it. -/
theorem Chained.moveTail [Fintype ι] (h : s.Chained) (hlast : s.queue.next last = some next) :
    (s.moveTail last next).Chained := by
  unfold State.moveTail
  split
  · rename_i heq
    have hpassed : ∀ n, s.Passed n →
        ({ s with queue := { s.queue with tail := next } } : State ι T).Passed n := by
      rintro n ⟨i, j, hi, hj, hle⟩
      have hnext := h.chain.linked.next_getElem? (heq ▸ hj)
      exact ⟨i, j + 1, hi, hnext.symm.trans hlast, by omega⟩
    exact {
      chain := {
        linked := h.chain.linked
        allocated := h.chain.allocated
        beyond := h.chain.beyond
        tail := h.chain.moveTail hlast heq
        unlinked := h.chain.unlinked
        head := h.chain.head
        data := h.chain.data }
      agrees := fun u => (h.agrees u).mono (fun _ _ => id) hpassed
      apart := ⟨h.apart.fresh, h.apart.unique⟩
      handed := ⟨h.handed.removals, h.handed.length, h.handed.delivered, h.handed.once,
        h.handed.held, h.handed.complete⟩
      outstanding := h.outstanding }
  · exact h

/-- The count of all pushes plays no part. -/
theorem Chained.countPush [Fintype ι] (h : s.Chained) (totalPushCount : UInt64) :
    ({ s with queue := { s.queue with totalPushCount } } : State ι T).Chained where
  chain := ⟨h.chain.linked, h.chain.allocated, h.chain.beyond, h.chain.tail, h.chain.unlinked,
    h.chain.head, h.chain.data⟩
  agrees u := (h.agrees u).mono (fun _ _ => id) fun _ => id
  apart := ⟨h.apart.fresh, h.apart.unique⟩
  handed := h.handed.congr rfl rfl (List.prefix_refl _) rfl rfl fun _ => rfl
  outstanding := h.outstanding

@[simp] theorem moveTail_history : (s.moveTail last next).history = s.history := by
  unfold State.moveTail
  split <;> rfl

@[simp] theorem moveTail_pc : (s.moveTail last next).pc = s.pc := by
  unfold State.moveTail
  split <;> rfl

/-- Each item is removed once. -/
theorem Handed.removals_nodup (h : s.Handed) (hc : s.Chain) :
    (s.history.removals.map Prod.snd).Nodup :=
  hc.nodes_nodup.sublist h.removals.sublist

theorem Handed.remover (h : s.Handed) (hc : s.Chain) (ht : (t, n) ∈ s.history.removals)
    (hu : (u, n) ∈ s.history.removals) : t = u :=
  (Prod.mk.inj (List.inj_on_of_nodup_map (h.removals_nodup hc) ht hu rfl)).1

@[simp] theorem moveTail_head : (s.moveTail last next).queue.head = s.queue.head := by
  unfold State.moveTail
  split <;> rfl

-- ---------------------------------------------------------------------------
-- First in, first out
-- ---------------------------------------------------------------------------

theorem Chained.empty [Fintype ι] : ({} : State ι T).Chained where
  chain := {
    linked := ⟨rfl, rfl⟩
    allocated := fun n hn => by
      obtain rfl : n = 0 := by simpa [State.chain, nodes] using hn
      exact Nat.one_pos
    beyond := fun _ _ => rfl
    tail := ⟨0, rfl, by simp [State.chain, nodes]⟩
    unlinked := List.nil_prefix
    head := .inr rfl
    data := nofun }
  agrees _ := trivial
  apart := ⟨nofun, nofun⟩
  handed := ⟨List.nil_prefix, fun _ => rfl, nofun, .nil, nofun, nofun⟩
  outstanding := by simp [census, Pc.pending]

/-- A node that the head is or has been at. -/
def Former (s : State ι T) (node : Address) : Prop :=
  s.queue.head = some node ∨ node ∈ s.history.unlinked

/-- What a pop has read of the two ends. A pop that still sees the head it has
read, and nothing behind it, has read the same node as the tail. -/
def Reads (s : State ι T) : Pc T → Prop
  | .pop _ _ (.loadHead last) => last ∈ s.chain
  | .pop _ _ (.loadNext last first) => last ∈ s.chain ∧ ∃ node, first = some node ∧ s.Former node
  | .pop _ _ (.recheck last first next) =>
    s.Former first ∧ (next = none → s.queue.head = some first → first = last)
  | .pop _ _ (.swing _ next) | .pop _ _ (.retireLoad _ next) | .pop _ _ (.retireStore _ next _)
  | .pop _ _ (.retireSwap _ next _) | .pop _ _ (.countDown next) | .pop _ _ (.take next) => next ≠ none
  | .crashed _ => False
  | _ => True

structure NoNull (s : State ι T) : Prop where
  head : s.queue.head ≠ none
  reads : ∀ t, s.Reads (s.pc t)

/-- The queue is one chain, the items leave it in the order in which they were
linked, each to one caller, and the count of outstanding items is no lower
than what is on the chain. -/
structure Fifo (s : State ι T) : Prop where
  chain : Linked s.queue.next (some 0) s.chain
  head : ∃ node ∈ s.chain, s.queue.head = some node
  removals : s.history.removals.map Prod.snd <+: s.nodes
  delivered : ∀ d ∈ s.history.delivered,
    (d.1, d.2.1) ∈ s.history.removals ∧ (d.2.1, d.2.2) ∈ s.history.links
  once : (s.history.delivered.map fun d => d.2.1).Nodup
  complete : ∀ r ∈ s.history.removals,
    r.2 ∈ (s.history.delivered.map fun d => d.2.1) ∨ (s.pc r.1).holds = some r.2
  noNull : ∀ t ticket, s.pc t ≠ .crashed ticket
  counted : 0 ≤ s.queue.outstandingItemCount ∧
    (s.queue.outstandingItemCount = 0 → s.history.removals.map Prod.snd = s.nodes)

theorem Chained.inOrder [Fintype ι] (h : s.Chained) (hn : s.NoNull) : s.Fifo := by
  obtain ⟨node, hnode⟩ := Option.ne_none_iff_exists'.mp hn.head
  have hat : s.chain[s.history.unlinked.length]? = some node := by
    rcases h.chain.head with hnone | hsome
    · exact absurd hnone hn.head
    · rw [← hsome, hnode]
  have hle : s.history.unlinked.length ≤ s.history.links.length := by
    have := (List.getElem?_eq_some_iff.mp hat).1
    simpa [State.chain, nodes, Nat.lt_succ_iff] using this
  have hpending : 0 ≤ census Pc.pending s.pc := Finset.sum_nonneg fun t _ => Pc.pending_nonneg _
  have hout := h.outstanding
  refine ⟨h.chain.linked, ⟨node, List.mem_of_getElem? hat, hnode⟩, h.handed.removals, h.handed.delivered,
    h.handed.once, h.handed.complete, fun t ticket hpc => ?_, by omega, fun hzero => ?_⟩
  · have := hn.reads t
    rw [hpc] at this
    exact this
  · refine h.handed.removals.eq_of_length ?_
    have hlen := h.handed.length hn.head
    simp only [List.length_map, nodes]
    omega

variable [DecidableEq ι]

@[simp] theorem pc_goto : (s.goto t p).pc = Function.update s.pc t p := rfl

theorem agrees_update (h : ∀ u, s.Agrees (s.pc u)) (ha : s.Agrees p) (u : ι) :
    s.Agrees (Function.update s.pc t p u) := by
  by_cases hu : u = t
  · subst hu
    simpa using ha
  · simpa [hu] using h u

theorem update_same {β : Type*} (f : Pc T → β) (h : f p = f (s.pc t)) (u : ι) :
    f (Function.update s.pc t p u) = f (s.pc u) := by
  by_cases hu : u = t
  · subst hu
    rw [Function.update_self, h]
  · rw [Function.update_of_ne hu]

theorem census_pending [Fintype ι] (hpending : p.pending = (s.pc t).pending) :
    census Pc.pending (Function.update s.pc t p) = census Pc.pending s.pc := by
  have := census_update Pc.pending s.pc t p
  omega

theorem Chained.quiet [Fintype ι] (h : s.Chained) (hs : s.SameQueue s')
    (hpc : s'.pc = Function.update s.pc t p) (hagrees : s.Agrees p)
    (howns : p.owns = (s.pc t).owns) (hholds : p.holds = (s.pc t).holds)
    (hpending : p.pending = (s.pc t).pending) : s'.Chained where
  chain := h.chain.same hs
  agrees u := by
    rw [hpc]
    refine (agrees_update h.agrees hagrees u).mono (fun n m hn => by rwa [hs.queue]) fun n => ?_
    exact passed_congr hs.links (by rw [hs.queue])
  apart := h.apart.congr hs.chain (by rw [hs.queue]) (by rw [hs.queue]) fun u x hx => by
    rwa [hpc, update_same Pc.owns howns u] at hx
  handed := h.handed.congr hs.removals hs.delivered (by rw [hs.links]) hs.unlinked (by rw [hs.queue])
    fun u => hpc ▸ update_same Pc.holds hholds u
  outstanding := by
    rw [hs.queue, hs.links, hs.unlinked, hpc, census_pending hpending]
    exact h.outstanding

/-- From one plain place to another. -/
theorem Chained.plain [Fintype ι] (h : s.Chained) (hs : s.SameQueue s')
    (hpc : s'.pc = Function.update s.pc t p) (hold : (s.pc t).plain) (hnew : p.plain) :
    s'.Chained := by
  have ho := Pc.plain_free hold
  have hn := Pc.plain_free hnew
  exact h.quiet hs hpc (plain_agrees hnew) (hn.owns.trans ho.owns.symm) (hn.holds.trans ho.holds.symm)
    (hn.pending.trans ho.pending.symm)

/-- The guard has nothing to do with the chain. -/
theorem runEnter_plain (s : State ι T) (t : ι) (op : Operation T) (at_ : EnterPc) :
    s.SameQueue (s.runEnter t op at_) ∧
      ∃ p, (s.runEnter t op at_).pc = Function.update s.pc t p ∧ p.plain ∧ p.unread := by
  cases at_ with
  | total => exact ⟨⟨rfl, rfl, rfl, rfl, rfl⟩, _, rfl, rfl, rfl⟩
  | load total => exact ⟨⟨rfl, rfl, rfl, rfl, rfl⟩, _, rfl, by split <;> exact ⟨rfl, rfl⟩⟩
  | swap total ep =>
    simp only [runEnter]
    split <;> exact ⟨⟨rfl, rfl, rfl, rfl, rfl⟩, _, rfl, rfl, rfl⟩
  | sweep epochIndex index =>
    refine ⟨⟨rfl, rfl, rfl, rfl, rfl⟩, _, rfl, ?_⟩
    split
    · split <;> exact ⟨rfl, rfl⟩
    · exact ⟨rfl, rfl⟩
  | sweepLoad epochIndex index => exact ⟨⟨rfl, rfl, rfl, rfl, rfl⟩, _, rfl, by split <;> exact ⟨rfl, rfl⟩⟩
  | sweepDetach epochIndex index ptr =>
    simp only [runEnter]
    split <;> exact ⟨⟨rfl, rfl, rfl, rfl, rfl⟩, _, rfl, rfl, rfl⟩
  | sweepFree epochIndex index node =>
    cases node <;> exact ⟨⟨rfl, rfl, rfl, rfl, rfl⟩, _, rfl, rfl, rfl⟩
  | count epochIndex => exact ⟨⟨rfl, rfl, rfl, rfl, rfl⟩, _, rfl, Pc.start_plain, Pc.start_unread⟩

theorem runLeave_plain (s : State ι T) (t : ι) (ticket : EpochIndex) (at_ : LeavePc) :
    s.SameQueue (s.runLeave t ticket at_) ∧
      ∃ p, (s.runLeave t ticket at_).pc = Function.update s.pc t p ∧ p.plain ∧ p.unread := by
  cases at_ with
  | count => exact ⟨⟨rfl, rfl, rfl, rfl, rfl⟩, _, rfl, by split <;> exact ⟨rfl, rfl⟩⟩
  | load => exact ⟨⟨rfl, rfl, rfl, rfl, rfl⟩, _, rfl, by split <;> exact ⟨rfl, rfl⟩⟩
  | take => exact ⟨⟨rfl, rfl, rfl, rfl, rfl⟩, _, rfl, by split <;> exact ⟨rfl, rfl⟩⟩
  | detach ptr =>
    simp only [runLeave]
    split <;> exact ⟨⟨rfl, rfl, rfl, rfl, rfl⟩, _, rfl, rfl, rfl⟩
  | free node => cases node <;> exact ⟨⟨rfl, rfl, rfl, rfl, rfl⟩, _, rfl, rfl, rfl⟩

-- ---------------------------------------------------------------------------
-- A push
-- ---------------------------------------------------------------------------

/-- The new node is allocated and counted. -/
theorem Chained.allocate [Fintype ι] (h : s.Chained) (hpc : s.pc t = .push ticket item .count) :
    (s.runPush t ticket item .count).Chained := by
  have hne : ∀ n, n < s.queue.allocated → n ≠ s.queue.allocated := fun n hn => hn.ne
  refine ⟨⟨h.chain.linked, fun n hn => ?_, h.chain.beyond, h.chain.tail, h.chain.unlinked,
    h.chain.head, fun p hp => ?_⟩, fun u => ?_, ⟨fun u n item' hu => ?_, fun u v n _ _ hu hv => ?_⟩,
    ?_, ?_⟩
  · exact (h.chain.allocated n hn).trans (Nat.lt_succ_self _)
  · have hmem : p.1 ∈ s.chain := List.mem_cons_of_mem _ (List.mem_map_of_mem hp)
    show Function.update s.queue.data _ item p.1 = p.2
    rw [Function.update_of_ne (hne _ (h.chain.allocated _ hmem)), h.chain.data p hp]
  · have hu := agrees_update (t := t) (p := .push ticket item (.loadTail s.queue.allocated))
      h.agrees trivial u
    exact hu.mono (fun _ _ => id) fun _ => id
  · show n < s.queue.allocated + 1 ∧ n ∉ s.chain ∧ Function.update s.queue.data _ item n = item'
    by_cases hut : u = t
    · subst hut
      obtain ⟨rfl, rfl⟩ : s.queue.allocated = n ∧ item = item' := by
        simpa [runPush, Pc.owns] using hu
      exact ⟨Nat.lt_succ_self _, fun hm => (h.chain.allocated _ hm).false, Function.update_self ..⟩
    · obtain ⟨hlt, hn, hd⟩ := h.apart.fresh u n item' (by simpa [runPush, hut] using hu)
      exact ⟨hlt.trans (Nat.lt_succ_self _), hn, by rw [Function.update_of_ne hlt.ne, hd]⟩
  · -- the other nodes were allocated before
    have hold : ∀ w x, w ≠ t → (Function.update s.pc t (.push ticket item (.loadTail s.queue.allocated))
      w).owns =
        some (n, x) → n < s.queue.allocated := fun w x hw hx =>
      (h.apart.fresh w n x (by rwa [Function.update_of_ne hw] at hx)).1
    have hself : ∀ x, (Function.update s.pc t (.push ticket item (.loadTail s.queue.allocated)) t).owns =
        some (n, x) → n = s.queue.allocated := fun x hx => by
      rw [Function.update_self] at hx
      exact (Prod.mk.inj (Option.some.inj hx)).1.symm
    by_cases hut : u = t
    · by_cases hvt : v = t
      · rw [hut, hvt]
      · subst hut
        exact absurd (hself _ hu) (hold v _ hvt hv).ne
    · by_cases hvt : v = t
      · subst hvt
        exact absurd (hself _ hv) (hold u _ hut hu).ne
      · refine h.apart.unique u v n _ _ (by simpa [runPush, hut] using hu) (by simpa [runPush, hvt] using hv)
  · exact h.handed.congr rfl rfl (List.prefix_refl _) rfl rfl fun u => update_same Pc.holds (by rw [hpc]; rfl) u
  · have hc := census_update Pc.pending s.pc t (.push ticket item (.loadTail s.queue.allocated))
    rw [hpc] at hc
    have ho := h.outstanding
    show s.queue.outstandingItemCount + 1 = _ - _ + census Pc.pending (Function.update s.pc t _)
    simp only [Pc.pending] at hc ho ⊢
    show _ = (s.history.links.length : Int) - s.history.unlinked.length + _
    omega

/-- The new node is linked behind the last one. -/
theorem Chained.link [Fintype ι] (h : s.Chained) (hpc : s.pc t = .push ticket item (.link new last))
    (hnext : s.queue.next last = none) : (s.runPush t ticket item (.link new last)).Chained := by
  have hpassed : s.Passed last := by
    have := h.agrees t
    rwa [hpc] at this
  obtain ⟨i, j, hi, hj, hle⟩ := hpassed
  have hlen := h.chain.linked.length_of_next_none hi hnext
  have hjlt := (List.getElem?_eq_some_iff.mp hj).1
  obtain rfl : i = j := by omega
  have hlast : s.chain.getLast? = some last := by
    rw [List.getLast?_eq_getElem?, hlen]
    exact hi
  obtain ⟨hnew, hnotin, hitem⟩ := h.apart.fresh t new item (by rw [hpc]; rfl)
  have hgrow : ∀ {k x}, s.chain[k]? = some x → (s.chain ++ [new])[k]? = some x := fun hk => by
    rw [List.getElem?_append_left (List.getElem?_eq_some_iff.mp hk).1, hk]
  rw [runPush, if_pos hnext]
  set s' : State ι T := ({ s with
    queue := { s.queue with next := Function.update s.queue.next last (some new) }
    history := { s.history with links := s.history.links ++ [(new, item)] } } : State ι T).goto t
      (.push ticket item (.swing new last)) with hs'
  have hchain : s'.chain = s.chain ++ [new] := by
    simp [hs', goto, State.chain, nodes]
  refine ⟨⟨?_, ?_, ?_, ?_, ?_, ?_, ?_⟩, fun u => ?_, ⟨fun u n item' hu => ?_, fun u v n _ _ hu hv => ?_⟩,
    ?_, ?_⟩
  · rw [hchain]
    exact h.chain.linked.concat hlast hnotin (h.chain.beyond _ hnotin)
  · rw [hchain]
    intro n hn
    rcases List.mem_append.mp hn with hn | hn
    · exact h.chain.allocated n hn
    · rwa [List.mem_singleton.mp hn]
  · rw [hchain]
    intro n hn
    have hn : n ∉ s.chain := fun hm => hn (List.mem_append_left _ hm)
    show Function.update s.queue.next last (some new) n = none
    rw [Function.update_of_ne (fun heq : n = last => hn (heq ▸ List.mem_of_getElem? hi))]
    exact h.chain.beyond n hn
  · refine ⟨i, ?_, ?_⟩
    · rw [hchain]
      exact hgrow hj
    · rw [hchain, List.length_append, hlen]
      simp
  · rw [hchain]
    exact h.chain.unlinked.trans (List.prefix_append _ _)
  · rw [hchain]
    rcases h.chain.head with hnone | hsome
    · exact .inl hnone
    · cases hu : s.chain[s.history.unlinked.length]? with
      | none => exact .inl (hsome.trans hu)
      | some x => exact .inr (hsome.trans (hu.trans (hgrow hu).symm))
  · intro p hp
    rcases List.mem_append.mp hp with hp | hp
    · exact h.chain.data p hp
    · rw [List.mem_singleton.mp hp]
      exact hitem
  · by_cases hut : u = t
    · subst hut
      rw [hs', pc_goto, Function.update_self]
      exact Function.update_self ..
    · rw [show s'.pc u = s.pc u from Function.update_of_ne hut ..]
      refine (h.agrees u).mono (fun n m hn => ?_) ?_
      · show Function.update s.queue.next last (some new) n = some m
        rw [Function.update_of_ne (by rintro rfl; simp [hnext] at hn), hn]
      · rintro n ⟨k, l, hk, hl, hkl⟩
        refine ⟨k, l, ?_, ?_, hkl⟩
        · rw [hchain]
          exact hgrow hk
        · rw [hchain]
          exact hgrow hl
  · have hut : u ≠ t := by
      rintro rfl
      simp [hs', Pc.owns] at hu
    replace hu : (s.pc u).owns = some (n, item') := by simpa [hs', hut] using hu
    obtain ⟨hlt, hn, hd⟩ := h.apart.fresh u n item' hu
    refine ⟨hlt, ?_, hd⟩
    rw [hchain]
    intro hm
    rcases List.mem_append.mp hm with hm | hm
    · exact hn hm
    · obtain rfl := List.mem_singleton.mp hm
      exact hut (h.apart.unique u t n _ _ hu (by rw [hpc]; rfl))
  · have hne : ∀ w x, (Function.update s.pc t (.push ticket item (.swing new last)) w).owns = some (n, x) →
        (s.pc w).owns = some (n, x) := by
      intro w x hw
      have hwt : w ≠ t := by
        rintro rfl
        simp [Pc.owns] at hw
      rwa [Function.update_of_ne hwt] at hw
    exact h.apart.unique u v n _ _ (hne u _ hu) (hne v _ hv)
  · exact h.handed.congr rfl rfl (List.prefix_append _ _) rfl rfl fun u =>
      update_same Pc.holds (by rw [hpc]; rfl) u
  · have hc := census_update Pc.pending s.pc t (.push ticket item (.swing new last))
    rw [hpc] at hc
    have ho := h.outstanding
    show s.queue.outstandingItemCount = ((s.history.links ++ [(new, item)]).length : Int) -
      s.history.unlinked.length + census Pc.pending (Function.update s.pc t _)
    simp only [Pc.pending, List.length_append, List.length_singleton] at hc ho ⊢
    omega

theorem Chained.runPush [Fintype ι] (h : s.Chained) (hpc : s.pc t = .push ticket item at_) :
    (s.runPush t ticket item at_).Chained := by
  have hag := h.agrees t
  rw [hpc] at hag
  cases at_ with
  | count => exact h.allocate hpc
  | loadTail new =>
    exact h.quiet (p := .push ticket item (.loadNext new s.queue.tail)) ⟨rfl, rfl, rfl, rfl, rfl⟩ rfl
      h.chain.passed_tail (by rw [hpc]; rfl) (by rw [hpc]; rfl) (by rw [hpc]; rfl)
  | loadNext new last =>
    exact h.quiet (p := .push ticket item (.recheck new last (s.queue.next last)))
      ⟨rfl, rfl, rfl, rfl, rfl⟩ rfl ⟨hag, fun _ => id⟩ (by rw [hpc]; rfl) (by rw [hpc]; rfl)
      (by rw [hpc]; rfl)
  | recheck new last next =>
    simp only [State.runPush]
    split
    · cases next with
      | none =>
        exact h.quiet (t := t) (p := .push ticket item (.link new last)) ⟨rfl, rfl, rfl, rfl, rfl⟩ rfl hag.1
          (by rw [hpc]; rfl) (by rw [hpc]; rfl) (by rw [hpc]; rfl)
      | some next =>
        exact h.quiet (t := t) (p := .push ticket item (.help new last next)) ⟨rfl, rfl, rfl, rfl, rfl⟩ rfl
          (hag.2 _ rfl) (by rw [hpc]; rfl) (by rw [hpc]; rfl) (by rw [hpc]; rfl)
    · exact h.quiet (t := t) (p := .push ticket item (.loadTail new)) ⟨rfl, rfl, rfl, rfl, rfl⟩ rfl
        trivial (by rw [hpc]; rfl) (by rw [hpc]; rfl) (by rw [hpc]; rfl)
  | link new last =>
    by_cases hnext : s.queue.next last = none
    · exact h.link hpc hnext
    · rw [State.runPush, if_neg hnext]
      exact h.quiet (t := t) (p := .push ticket item (.loadTail new)) ⟨rfl, rfl, rfl, rfl, rfl⟩ rfl
        trivial (by rw [hpc]; rfl) (by rw [hpc]; rfl) (by rw [hpc]; rfl)
  | help new last next =>
    exact (h.moveTail hag).quiet (t := t) (p := .push ticket item (.loadTail new))
      ⟨rfl, rfl, rfl, rfl, rfl⟩ rfl trivial (by rw [moveTail_pc, hpc]; rfl)
      (by rw [moveTail_pc, hpc]; rfl) (by rw [moveTail_pc, hpc]; rfl)
  | swing new last =>
    exact (h.moveTail hag).quiet (t := t) (p := .push ticket item .total) ⟨rfl, rfl, rfl, rfl, rfl⟩ rfl
      trivial (by rw [moveTail_pc, hpc]; rfl) (by rw [moveTail_pc, hpc]; rfl)
      (by rw [moveTail_pc, hpc]; rfl)
  | total =>
    exact (h.countPush _).plain ⟨rfl, rfl, rfl, rfl, rfl⟩ rfl (by simp [hpc, Pc.plain]) rfl

-- ---------------------------------------------------------------------------
-- A pop
-- ---------------------------------------------------------------------------

theorem prefix_concat {α : Type*} {l l' : List α} {x : α} (h : l <+: l')
    (hx : l'[l.length]? = some x) : l ++ [x] <+: l' := by
  obtain ⟨r, rfl⟩ := h
  rw [List.getElem?_append_right le_rfl, Nat.sub_self] at hx
  cases r with
  | nil => cases hx
  | cons y r =>
    obtain rfl : y = x := by simpa using hx
    exact ⟨r, by simp⟩

/-- What the removals become when the head moves. -/
theorem Handed.unlink (h : s.Handed) (hc : s.Chain) (hpc : s.pc t = .pop ticket popping (.swing first next))
    (hhead : s.queue.head = some first)
    (hnext : ∀ m, next = some m → s.nodes[s.history.unlinked.length]? = some m) :
    ((s.unlink t ticket first next).goto t (.pop ticket popping (.retireLoad first next))).Handed := by
  have hlen := h.length (by simp [hhead])
  have hfree : (s.pc t).holds = none := by rw [hpc]; rfl
  have hdone : ∀ n, (t, n) ∈ s.history.removals → n ∈ s.history.delivered.map fun d => d.2.1 :=
    fun n hn => (h.complete _ hn).resolve_right (by simp [hfree])
  have hold : ∀ u, u ≠ t → (Function.update s.pc t (.pop ticket popping (.retireLoad first next)) u) =
      s.pc u := fun u hu => Function.update_of_ne hu ..
  cases next with
  | none =>
    refine ⟨?_, nofun, fun d hd => ?_, h.once, fun u n hu => ?_, fun r hr => ?_⟩
    · simpa [State.unlink, goto, nodes] using h.removals
    · obtain ⟨h1, h2⟩ := h.delivered d hd
      exact ⟨List.mem_append_left _ h1, h2⟩
    · have hut : u ≠ t := by
        rintro rfl
        simp [Pc.holds] at hu
      obtain ⟨h1, h2⟩ := h.held u n (by
        rwa [pc_goto, show (s.unlink t ticket first none).pc = s.pc from rfl, hold u hut] at hu)
      exact ⟨List.mem_append_left _ h1, h2⟩
    · have hr : r ∈ s.history.removals := by simpa [State.unlink, goto] using hr
      by_cases hrt : r.1 = t
      · exact .inl (hdone r.2 (hrt ▸ hr))
      · exact (h.complete r hr).imp_right fun hx => (congrArg Pc.holds (hold _ hrt)).trans hx
  | some m =>
    have hpre : (s.history.removals ++ [(t, m)]).map Prod.snd <+: s.nodes := by
      rw [List.map_append]
      exact prefix_concat h.removals (by rw [List.length_map, hlen]; exact hnext m rfl)
    have hnodup := hc.nodes_nodup.sublist hpre.sublist
    have hm : m ∉ s.history.delivered.map fun d => d.2.1 := by
      intro hm
      obtain ⟨d, hd, rfl⟩ := List.mem_map.mp hm
      rw [List.map_append, List.nodup_append] at hnodup
      exact hnodup.2.2 _ (List.mem_map_of_mem (h.delivered d hd).1) _ (by simp) rfl
    refine ⟨hpre, fun _ => ?_, fun d hd => ?_, h.once, fun u n hu => ?_, fun r hr => ?_⟩
    · show (s.history.removals ++ [(t, m)]).length = (s.history.unlinked ++ [first]).length
      rw [List.length_append, List.length_append, hlen]
      rfl
    · obtain ⟨h1, h2⟩ := h.delivered d hd
      exact ⟨List.mem_append_left _ h1, h2⟩
    · by_cases hut : u = t
      · subst hut
        obtain rfl : m = n := by simpa [Pc.holds] using hu
        exact ⟨List.mem_append_right _ (List.mem_singleton.mpr rfl), hm⟩
      · obtain ⟨h1, h2⟩ := h.held u n (by
          rwa [pc_goto, show (s.unlink t ticket first (some m)).pc = s.pc from rfl, hold u hut] at hu)
        exact ⟨List.mem_append_left _ h1, h2⟩
    · rcases List.mem_append.mp hr with hr | hr
      · by_cases hrt : r.1 = t
        · exact .inl (hdone r.2 (hrt ▸ hr))
        · exact (h.complete r hr).imp_right fun hx => (congrArg Pc.holds (hold _ hrt)).trans hx
      · obtain rfl := List.mem_singleton.mp hr
        exact .inr (by simp [Pc.holds])

/-- The head moves to the next node of the chain, or to a null pointer. -/
theorem Chained.unlink [Fintype ι] (h : s.Chained) (hpc : s.pc t = .pop ticket popping (.swing first next))
    (hhead : s.queue.head = some first) :
    ((s.unlink t ticket first next).goto t (.pop ticket popping (.retireLoad first next))).Chained := by
  have hag : ∀ m, next = some m → s.queue.next first = some m := by
    have := h.agrees t
    rwa [hpc] at this
  have hfirst : s.chain[s.history.unlinked.length]? = some first := by
    rcases h.chain.head with hnone | hsome
    · rw [hhead] at hnone
      cases hnone
    · rw [← hsome, hhead]
  have hnext : ∀ m, next = some m → s.chain[s.history.unlinked.length + 1]? = some m := fun m hm => by
    rw [← h.chain.linked.next_getElem? hfirst, hag m hm]
  refine ⟨⟨h.chain.linked, h.chain.allocated, h.chain.beyond, h.chain.tail,
    prefix_concat h.chain.unlinked hfirst, ?_, h.chain.data⟩, fun u => ?_, ?_, ?_, ?_⟩
  · show next = none ∨ next = s.chain[(s.history.unlinked ++ [first]).length]?
    cases next with
    | none => exact .inl rfl
    | some m => exact .inr (by rw [List.length_append]; exact (hnext m rfl).symm)
  · have hu := agrees_update (t := t) (p := .pop ticket popping (.retireLoad first next)) h.agrees trivial u
    exact hu.mono (fun _ _ => id) fun _ => id
  · refine h.apart.congr rfl rfl rfl fun u x hx => ?_
    by_cases hut : u = t
    · subst hut
      simp [Pc.owns] at hx
    · simpa [hut, State.unlink] using hx
  · exact h.handed.unlink h.chain hpc hhead hnext
  · have hc := census_update Pc.pending s.pc t (.pop ticket popping (.retireLoad first next))
    rw [hpc] at hc
    have ho := h.outstanding
    show s.queue.outstandingItemCount = (s.history.links.length : Int) -
      ((s.history.unlinked ++ [first]).length : Int) + census Pc.pending (Function.update s.pc t _)
    simp only [Pc.pending, List.length_append, List.length_singleton] at hc ho ⊢
    omega

theorem Chained.countDown [Fintype ι] (h : s.Chained) (hpc : s.pc t = .pop ticket popping (.countDown next)) :
    (s.runPop t ticket popping (.countDown next)).Chained := by
  refine ⟨⟨h.chain.linked, h.chain.allocated, h.chain.beyond, h.chain.tail, h.chain.unlinked,
    h.chain.head, h.chain.data⟩, fun u => ?_, ?_, ?_, ?_⟩
  · have hu := agrees_update (t := t) (p := .pop ticket popping (.take next)) h.agrees trivial u
    exact hu.mono (fun _ _ => id) fun _ => id
  · exact h.apart.congr rfl rfl rfl fun u x hx =>
      (update_same (t := t) (p := .pop ticket popping (.take next)) Pc.owns (by rw [hpc]; rfl) u).symm.trans hx
  · exact h.handed.congr rfl rfl (List.prefix_refl _) rfl rfl fun u =>
      update_same Pc.holds (by rw [hpc]; rfl) u
  · have hc := census_update Pc.pending s.pc t (.pop ticket popping (.take next))
    rw [hpc] at hc
    have ho := h.outstanding
    show s.queue.outstandingItemCount - 1 = (s.history.links.length : Int) -
      (s.history.unlinked.length : Int) + census Pc.pending (Function.update s.pc t _)
    simp only [Pc.pending] at hc ho ⊢
    omega

/-- A removed item is handed to the caller. -/
theorem Chained.take [Fintype ι] (h : s.Chained) (hpc : s.pc t = .pop ticket popping (.take (some node))) :
    (s.runPop t ticket popping (.take (some node))).Chained := by
  obtain ⟨hremoved, hnew⟩ := h.handed.held t node (by rw [hpc]; rfl)
  have hfree : (popped ticket (some (s.queue.data node)) popping).Free := Pc.plain_free Pc.popped_plain
  have hlink : (node, s.queue.data node) ∈ s.history.links := by
    have hmem : node ∈ s.nodes := h.handed.removals.subset (List.mem_map_of_mem hremoved)
    obtain ⟨p, hp, rfl⟩ := List.mem_map.mp hmem
    rw [h.chain.data p hp]
    exact hp
  refine ⟨⟨h.chain.linked, h.chain.allocated, h.chain.beyond, h.chain.tail, h.chain.unlinked,
    h.chain.head, h.chain.data⟩, fun u => ?_, ?_, ⟨h.handed.removals, h.handed.length, fun d hd => ?_,
      ?_, fun u n hu => ?_, fun r hr => ?_⟩, ?_⟩
  · have hu := agrees_update (t := t) (p := popped ticket (some (s.queue.data node)) popping) h.agrees
      (plain_agrees Pc.popped_plain) u
    exact hu.mono (fun _ _ => id) fun _ => id
  · refine h.apart.congr rfl rfl rfl fun u x hx => ?_
    by_cases hut : u = t
    · subst hut
      simp only [State.runPop, pc_goto, Function.update_self, hfree.owns] at hx
      cases hx
    · simpa [hut, State.runPop] using hx
  · rcases List.mem_append.mp hd with hd | hd
    · exact h.handed.delivered d hd
    · obtain rfl := List.mem_singleton.mp hd
      exact ⟨hremoved, hlink⟩
  · show ((s.history.delivered ++ [(t, node, s.queue.data node)]).map fun d => d.2.1).Nodup
    rw [List.map_append, List.nodup_append]
    refine ⟨h.handed.once, by simp, fun a ha b hb heq => ?_⟩
    obtain rfl : b = node := by simpa using hb
    exact hnew (heq ▸ ha)
  · have hut : u ≠ t := by
      rintro rfl
      simp only [State.runPop, pc_goto, Function.update_self, hfree.holds] at hu
      cases hu
    obtain ⟨h1, h2⟩ := h.handed.held u n (by simpa [hut, State.runPop] using hu)
    refine ⟨h1, ?_⟩
    show n ∉ (s.history.delivered ++ [(t, node, s.queue.data node)]).map fun d => d.2.1
    rw [List.map_append, List.mem_append]
    rintro (hn | hn)
    · exact h2 hn
    · obtain rfl : n = node := by simpa using hn
      exact hut (h.handed.remover h.chain h1 hremoved)
  · show r.2 ∈ (s.history.delivered ++ [(t, node, s.queue.data node)]).map (fun d => d.2.1) ∨ _
    rw [List.map_append, List.mem_append]
    rcases h.handed.complete r hr with hd | hh
    · exact .inl (.inl hd)
    · by_cases hrt : r.1 = t
      · rw [hrt, hpc] at hh
        exact .inl (.inr (by simpa [Pc.holds] using hh.symm))
      · refine .inr ?_
        show (Function.update s.pc t _ r.1).holds = _
        rw [Function.update_of_ne hrt, hh]
  · have hc := census_pending (s := s) (t := t) (p := popped ticket (some (s.queue.data node)) popping)
      (by rw [hpc, hfree.pending]; rfl)
    show s.queue.outstandingItemCount = _ - _ + census Pc.pending (Function.update s.pc t _)
    rw [hc]
    exact h.outstanding

theorem Chained.runPop [Fintype ι] (h : s.Chained) (hpc : s.pc t = .pop ticket popping at_) :
    (s.runPop t ticket popping at_).Chained := by
  have hag := h.agrees t
  rw [hpc] at hag
  cases at_ with
  | loadTail => exact h.plain (t := t) ⟨rfl, rfl, rfl, rfl, rfl⟩ rfl (by rw [hpc]; rfl) rfl
  | loadHead last => exact h.plain (t := t) ⟨rfl, rfl, rfl, rfl, rfl⟩ rfl (by rw [hpc]; rfl) rfl
  | loadNext last first =>
    cases first with
    | none => exact h.plain (t := t) ⟨rfl, rfl, rfl, rfl, rfl⟩ rfl (by rw [hpc]; rfl) rfl
    | some first =>
      exact h.quiet (t := t) (p := .pop ticket popping (.recheck last first (s.queue.next first)))
        ⟨rfl, rfl, rfl, rfl, rfl⟩ rfl (fun _ => id) (by rw [hpc]; rfl) (by rw [hpc]; rfl) (by rw [hpc]; rfl)
  | recheck last first next =>
    have hback : (s.goto t (.pop ticket popping .loadTail)).Chained :=
      h.quiet (t := t) ⟨rfl, rfl, rfl, rfl, rfl⟩ rfl trivial (by rw [hpc]; rfl) (by rw [hpc]; rfl)
        (by rw [hpc]; rfl)
    simp only [State.runPop]
    split
    · split
      · rename_i heq
        cases next with
        | none =>
          show Chained (s.goto t (if _ then _ else _))
          split
          · exact h.quiet (t := t) (p := .pop ticket popping (.spin last)) ⟨rfl, rfl, rfl, rfl, rfl⟩ rfl
              trivial (by rw [hpc]; rfl) (by rw [hpc]; rfl) (by rw [hpc]; rfl)
          · have hfree : (popped ticket none popping).Free := Pc.plain_free Pc.popped_plain
            exact h.quiet (t := t) ⟨rfl, rfl, rfl, rfl, rfl⟩ rfl (plain_agrees Pc.popped_plain)
              (by rw [hpc, hfree.owns]; rfl) (by rw [hpc, hfree.holds]; rfl)
              (by rw [hpc, hfree.pending]; rfl)
        | some next =>
          exact h.quiet (t := t) (p := .pop ticket popping (.help last next)) ⟨rfl, rfl, rfl, rfl, rfl⟩ rfl
            (heq ▸ hag _ rfl) (by rw [hpc]; rfl) (by rw [hpc]; rfl) (by rw [hpc]; rfl)
      · exact h.quiet (t := t) (p := .pop ticket popping (.swing first next)) ⟨rfl, rfl, rfl, rfl, rfl⟩ rfl
          hag (by rw [hpc]; rfl) (by rw [hpc]; rfl) (by rw [hpc]; rfl)
    · exact hback
  | spin last =>
    simp only [State.runPop]
    split
    · exact h
    · exact h.plain (t := t) ⟨rfl, rfl, rfl, rfl, rfl⟩ rfl (by rw [hpc]; rfl) rfl
  | help last next =>
    exact (h.moveTail hag).quiet (t := t) (p := .pop ticket popping .loadTail)
      ⟨rfl, rfl, rfl, rfl, rfl⟩ rfl trivial (by rw [moveTail_pc, hpc]; rfl)
      (by rw [moveTail_pc, hpc]; rfl) (by rw [moveTail_pc, hpc]; rfl)
  | swing first next =>
    simp only [State.runPop]
    split
    · rename_i hhead
      exact h.unlink hpc hhead
    · exact h.quiet (t := t) (p := .pop ticket popping .loadTail) ⟨rfl, rfl, rfl, rfl, rfl⟩ rfl trivial
        (by rw [hpc]; rfl) (by rw [hpc]; rfl) (by rw [hpc]; rfl)
  | retireLoad first next =>
    exact h.quiet (t := t) (p := .pop ticket popping (.retireStore first next (s.epochs.reclaimNode ticket)))
      ⟨rfl, rfl, rfl, rfl, rfl⟩ rfl trivial (by rw [hpc]; rfl) (by rw [hpc]; rfl) (by rw [hpc]; rfl)
  | retireStore first next top =>
    exact h.quiet (t := t) (p := .pop ticket popping (.retireSwap first next top))
      ⟨rfl, rfl, rfl, rfl, rfl⟩ rfl trivial (by rw [hpc]; rfl) (by rw [hpc]; rfl) (by rw [hpc]; rfl)
  | retireSwap first next top =>
    simp only [State.runPop]
    split
    · exact h.quiet (t := t) (p := .pop ticket popping (.countDown next)) ⟨rfl, rfl, rfl, rfl, rfl⟩ rfl
        trivial (by rw [hpc]; rfl) (by rw [hpc]; rfl) (by rw [hpc]; rfl)
    · exact h.quiet (t := t) (p := .pop ticket popping (.retireLoad first next)) ⟨rfl, rfl, rfl, rfl, rfl⟩
        rfl trivial (by rw [hpc]; rfl) (by rw [hpc]; rfl) (by rw [hpc]; rfl)
  | countDown next => exact h.countDown hpc
  | take next =>
    cases next with
    | none =>
      exact h.quiet (t := t) (p := .crashed ticket) ⟨rfl, rfl, rfl, rfl, rfl⟩ rfl trivial
        (by rw [hpc]; rfl) (by rw [hpc]; rfl) (by rw [hpc]; rfl)
    | some node => exact h.take hpc
  | again =>
    refine h.plain (t := t) ⟨rfl, rfl, rfl, rfl, rfl⟩ rfl (by rw [hpc]; rfl) ?_
    split
    · rfl
    · split <;> rfl

theorem Chained.step [Fintype ι] {x : Action ι T} (h : s.Chained) (hs : s.step x = some s') :
    s'.Chained := by
  cases x with
  | call t call =>
    simp only [State.step] at hs
    split at hs
    · rename_i hpc
      obtain ⟨op, -, rfl⟩ := Option.map_eq_some_iff.mp hs
      exact h.plain (t := t) ⟨rfl, rfl, rfl, rfl, rfl⟩ rfl (by rw [hpc]; rfl) rfl
    · cases hs
  | run t =>
    simp only [State.step, State.run] at hs
    split at hs
    · cases hs
    · cases hs
    · rename_i op at_ hpc
      obtain rfl := Option.some.inj hs
      obtain ⟨hsame, p, hpc', hplain, -⟩ := runEnter_plain s t op at_
      exact h.plain hsame hpc' (by rw [hpc]; rfl) hplain
    · rename_i hpc
      obtain rfl := Option.some.inj hs
      exact h.runPush hpc
    · rename_i hpc
      obtain rfl := Option.some.inj hs
      exact h.runPop hpc
    · rename_i ticket at_ hpc
      obtain rfl := Option.some.inj hs
      obtain ⟨hsame, p, hpc', hplain, -⟩ := runLeave_plain s t ticket at_
      exact h.plain hsame hpc' (by rw [hpc]; rfl) hplain
  | casFails t =>
    simp only [State.step] at hs
    split at hs
    · rename_i ticket popping first next hpc
      obtain rfl := Option.some.inj hs
      exact h.quiet (t := t) (p := .pop ticket popping .loadTail) ⟨rfl, rfl, rfl, rfl, rfl⟩ rfl trivial
        (by rw [hpc]; rfl) (by rw [hpc]; rfl) (by rw [hpc]; rfl)
    · cases hs
  | timeout t =>
    simp only [State.step] at hs
    split at hs
    · rename_i hpc
      obtain rfl := Option.some.inj hs
      exact h.plain (t := t) ⟨rfl, rfl, rfl, rfl, rfl⟩ rfl (by rw [hpc]; rfl) rfl
    · cases hs

-- ---------------------------------------------------------------------------
-- Runs in which the head stays on the chain
-- ---------------------------------------------------------------------------

/-- Once the head has moved past the node that a pop has read as the tail, the
pop does not find the queue empty. -/
def InStep (s : State ι T) : Pc T → Prop
  | .pop _ _ (.loadNext last (some first)) =>
    last ∈ s.history.unlinked → s.queue.head = some first → s.queue.next first ≠ none
  | _ => True

/-- No pop is overtaken: where other threads have pushed and popped past the
node it has read as the tail, they have not left the queue empty. -/
def NotOvertaken (s : State ι T) : Action ι T → Prop
  | .run t => s.InStep (s.pc t)
  | _ => True

omit [DecidableEq ι] in
/-- A node that is at the head of the chain has not been unlinked. -/
theorem Chain.head_fresh (h : s.Chain) (hhead : s.queue.head = some n) : n ∉ s.history.unlinked := by
  have hat : s.chain[s.history.unlinked.length]? = some n := by
    rcases h.head with hnone | hsome
    · cases hhead.symm.trans hnone
    · exact hsome.symm.trans hhead
  have hpre := prefix_concat h.unlinked hat
  have hnodup := h.nodup.sublist hpre.sublist
  rw [List.nodup_append] at hnodup
  exact fun hn => hnodup.2.2 n hn n (List.mem_singleton.mpr rfl) rfl

omit [DecidableEq ι] in
/-- Where the queue is empty, every node of the chain but the head has been unlinked. -/
theorem Chain.eq_head_of_empty (h : s.Chain) (hhead : s.queue.head = some first)
    (hempty : s.queue.next first = none) (hn : n ∈ s.chain) (hfresh : n ∉ s.history.unlinked) :
    first = n := by
  have hat : s.chain[s.history.unlinked.length]? = some first :=
    (h.head.resolve_left (by simp [hhead])).symm.trans hhead
  have hlen := h.linked.length_of_next_none hat hempty
  have hpre := prefix_concat h.unlinked hat
  have hall := hpre.eq_of_length (by simp [hlen])
  rw [← hall] at hn
  rcases List.mem_append.mp hn with hn | hn
  · exact absurd hn hfresh
  · exact (List.mem_singleton.mp hn).symm

omit [DecidableEq ι] in
theorem unread_reads (h : p.unread) : s.Reads p := by
  cases p with
  | pop ticket popping at_ => cases at_ <;> trivial
  | crashed ticket => cases h
  | _ => trivial

omit [DecidableEq ι] in
/-- The chain grows and the head goes on: what a thread has read still holds. -/
theorem Reads.mono (h : s.Reads p) (hchain : s.chain ⊆ s'.chain)
    (hformer : ∀ n, s.Former n → s'.Former n ∧ (s'.queue.head = some n → s.queue.head = some n)) :
    s'.Reads p := by
  cases p with
  | pop ticket popping at_ =>
    cases at_ with
    | loadHead last => exact hchain h
    | loadNext last first =>
      obtain ⟨hlast, node, hnode, hf⟩ := h
      exact ⟨hchain hlast, node, hnode, (hformer node hf).1⟩
    | recheck last first next =>
      exact ⟨(hformer first h.1).1, fun hn hhead => h.2 hn ((hformer first h.1).2 hhead)⟩
    | _ => exact h
  | _ => exact h

theorem NoNull.moves (h : s.NoNull) (hlinks : s.history.links ⊆ s'.history.links)
    (hunlinked : s'.history.unlinked = s.history.unlinked) (hhead : s'.queue.head = s.queue.head)
    (hpc : s'.pc = Function.update s.pc t p) (hnew : s'.Reads p) : s'.NoNull where
  head := hhead ▸ h.head
  reads u := by
    rw [hpc]
    by_cases hu : u = t
    · subst hu
      simpa using hnew
    · rw [Function.update_of_ne hu]
      refine (h.reads u).mono (List.cons_subset_cons 0 (List.map_subset _ hlinks)) fun n hn => ?_
      rw [Former, hhead, hunlinked]
      exact ⟨hn, id⟩

/-- The head moves to the next node. -/
theorem NoNull.unlink (h : s.NoNull) {next : Address}
    (hc : ((s.unlink t ticket first (some next)).goto t p).Chain) (hhead : s.queue.head = some first)
    (hnew : ((s.unlink t ticket first (some next)).goto t p).Reads p) :
    ((s.unlink t ticket first (some next)).goto t p).NoNull where
  head := nofun
  reads u := by
    by_cases hu : u = t
    · subst hu
      simpa using hnew
    · show Reads _ (Function.update s.pc t p u)
      rw [Function.update_of_ne hu]
      refine (h.reads u).mono (List.Subset.refl _) fun n hn => ?_
      have hout : n ∈ s.history.unlinked ++ [first] := by
        rcases hn with hn | hn
        · exact List.mem_append_right _ (List.mem_singleton.mpr (Option.some.inj (hn.symm.trans hhead)))
        · exact List.mem_append_left _ hn
      exact ⟨.inr hout, fun hnext => absurd hout (hc.head_fresh hnext)⟩

theorem runPush_unread (s : State ι T) (t : ι) (ticket : EpochIndex) (item : T) (at_ : PushPc) :
    (s.history.links ⊆ (s.runPush t ticket item at_).history.links ∧
      (s.runPush t ticket item at_).history.unlinked = s.history.unlinked ∧
      (s.runPush t ticket item at_).queue.head = s.queue.head) ∧
      ∃ p, (s.runPush t ticket item at_).pc = Function.update s.pc t p ∧ p.unread := by
  cases at_ with
  | count | loadTail | loadNext | total => exact ⟨⟨List.Subset.refl _, rfl, rfl⟩, _, rfl, rfl⟩
  | recheck new last next =>
    refine ⟨⟨List.Subset.refl _, rfl, rfl⟩, _, rfl, ?_⟩
    split
    · cases next <;> rfl
    · rfl
  | link new last =>
    simp only [State.runPush]
    split
    · exact ⟨⟨List.subset_append_left _ _, rfl, rfl⟩, _, rfl, rfl⟩
    · exact ⟨⟨List.Subset.refl _, rfl, rfl⟩, _, rfl, rfl⟩
  | help new last next | swing new last =>
    refine ⟨⟨?_, ?_, moveTail_head⟩, _, congrArg (Function.update · t _) moveTail_pc, rfl⟩
    · show _ ⊆ (s.moveTail _ _).history.links
      rw [moveTail_history]
      exact List.Subset.refl _
    · exact congrArg History.unlinked moveTail_history

/-- A step of a pop that leaves the chain alone. -/
theorem NoNull.still (h : s.NoNull) (hs : s.SameQueue s') (hpc : s'.pc = Function.update s.pc t p)
    (hnew : s'.Reads p) : s'.NoNull :=
  h.moves (by rw [hs.links]; exact List.Subset.refl _) hs.unlinked (by rw [hs.queue]) hpc hnew

theorem NoNull.runPop [Fintype ι] (h : s.NoNull) (hc : s.Chained)
    (hpc : s.pc t = .pop ticket popping at_) (hok : s.InStep (.pop ticket popping at_)) :
    (s.runPop t ticket popping at_).NoNull := by
  have hr := h.reads t
  rw [hpc] at hr
  cases at_ with
  | loadTail =>
    obtain ⟨k, hk, -⟩ := hc.chain.tail
    exact h.still (t := t) ⟨rfl, rfl, rfl, rfl, rfl⟩ rfl (List.mem_of_getElem? hk)
  | loadHead last =>
    obtain ⟨first, hfirst⟩ := Option.ne_none_iff_exists'.mp h.head
    exact h.still (t := t) ⟨rfl, rfl, rfl, rfl, rfl⟩ rfl ⟨hr, first, hfirst, .inl hfirst⟩
  | loadNext last first =>
    obtain ⟨hlast, node, rfl, hnode⟩ := hr
    refine h.still (t := t) ⟨rfl, rfl, rfl, rfl, rfl⟩ rfl ⟨hnode, fun hempty hhead => ?_⟩
    -- the head is still there and last on the chain: the tail that was read is no older
    exact hc.chain.eq_head_of_empty hhead hempty hlast fun hout => hok hout hhead hempty
  | recheck last first next =>
    refine h.still (t := t) ⟨rfl, rfl, rfl, rfl, rfl⟩ rfl ?_
    split
    · rename_i hhead
      split
      · refine unread_reads ?_
        cases next with
        | none =>
          show Pc.unread (if _ then _ else _)
          split
          · rfl
          · exact Pc.popped_unread
        | some next => rfl
      · rename_i hne
        exact fun hnone => hne (hr.2 hnone hhead)
    · trivial
  | spin last =>
    simp only [State.runPop]
    split
    · exact h
    · exact h.still (t := t) ⟨rfl, rfl, rfl, rfl, rfl⟩ rfl trivial
  | help last next =>
    have hlinks : s.history.links ⊆ (s.moveTail last next).history.links := by
      rw [moveTail_history]
      exact List.Subset.refl _
    exact h.moves hlinks (congrArg History.unlinked moveTail_history) moveTail_head
      (congrArg (Function.update · t _) moveTail_pc) trivial
  | swing first next =>
    have hstep := hc.runPop hpc
    simp only [State.runPop] at hstep ⊢
    split
    · rename_i hhead
      rw [if_pos hhead] at hstep
      cases next with
      | none => exact absurd rfl hr
      | some next => exact h.unlink hstep.chain hhead (Option.some_ne_none next)
    · exact h.still (t := t) ⟨rfl, rfl, rfl, rfl, rfl⟩ rfl trivial
  | retireLoad first next | retireStore first next top =>
    exact h.still (t := t) ⟨rfl, rfl, rfl, rfl, rfl⟩ rfl hr
  | countDown next => exact h.moves (t := t) (List.Subset.refl _) rfl rfl rfl hr
  | retireSwap first next top =>
    simp only [State.runPop]
    split <;> exact h.still (t := t) ⟨rfl, rfl, rfl, rfl, rfl⟩ rfl hr
  | take next =>
    cases next with
    | none => exact absurd rfl hr
    | some node =>
      exact h.moves (t := t) (List.Subset.refl _) rfl rfl rfl (unread_reads Pc.popped_unread)
  | again =>
    refine h.still (t := t) ⟨rfl, rfl, rfl, rfl, rfl⟩ rfl ?_
    split
    · trivial
    · split <;> trivial

theorem NoNull.step [Fintype ι] {x : Action ι T} (h : s.NoNull) (hc : s.Chained) (hok : s.NotOvertaken x)
    (hs : s.step x = some s') : s'.NoNull := by
  cases x with
  | call t call =>
    simp only [State.step] at hs
    split at hs
    · obtain ⟨op, -, rfl⟩ := Option.map_eq_some_iff.mp hs
      exact h.still (t := t) ⟨rfl, rfl, rfl, rfl, rfl⟩ rfl trivial
    · cases hs
  | run t =>
    simp only [State.step, State.run] at hs
    split at hs
    · cases hs
    · cases hs
    · rename_i op at_ hpc
      obtain rfl := Option.some.inj hs
      obtain ⟨hsame, p, hpc', -, hnew⟩ := runEnter_plain s t op at_
      exact h.still hsame hpc' (unread_reads hnew)
    · rename_i ticket item at_ hpc
      obtain rfl := Option.some.inj hs
      obtain ⟨⟨hlinks, hunlinked, hhead⟩, p, hpc', hnew⟩ := runPush_unread s t ticket item at_
      exact h.moves hlinks hunlinked hhead hpc' (unread_reads hnew)
    · rename_i hpc
      obtain rfl := Option.some.inj hs
      have hok : s.InStep (s.pc t) := hok
      exact h.runPop hc hpc (hpc ▸ hok)
    · rename_i ticket at_ hpc
      obtain rfl := Option.some.inj hs
      obtain ⟨hsame, p, hpc', -, hnew⟩ := runLeave_plain s t ticket at_
      exact h.still hsame hpc' (unread_reads hnew)
  | casFails t =>
    simp only [State.step] at hs
    split at hs
    · obtain rfl := Option.some.inj hs
      exact h.still (t := t) ⟨rfl, rfl, rfl, rfl, rfl⟩ rfl trivial
    · cases hs
  | timeout t =>
    simp only [State.step] at hs
    split at hs
    · obtain rfl := Option.some.inj hs
      exact h.still (t := t) ⟨rfl, rfl, rfl, rfl, rfl⟩ rfl trivial
    · cases hs

/-- Where no pop is overtaken, the queue is first in, first out. -/
theorem fifo [Fintype ι] (h : ReachesBy step NotOvertaken ({} : State ι T) s) : s.Fifo := by
  have hboth : s.Chained ∧ s.NoNull :=
    h.invariant (I := fun s => s.Chained ∧ s.NoNull) ⟨.empty, nofun, fun _ => trivial⟩
      fun ⟨hc, hn⟩ hok hs => ⟨hc.step hs, hn.step hc hok hs⟩
  exact hboth.1.inOrder hboth.2

instance (s : State ι T) (p : Pc T) : Decidable (s.InStep p) :=
  match p with
  | .pop _ _ (.loadNext last (some first)) =>
    inferInstanceAs (Decidable (last ∈ s.history.unlinked → s.queue.head = some first →
      s.queue.next first ≠ none))
  | .pop _ _ (.loadNext _ none) | .pop _ _ .loadTail | .pop _ _ (.loadHead _)
  | .pop _ _ (.recheck _ _ _) | .pop _ _ (.spin _) | .pop _ _ (.help _ _) | .pop _ _ (.swing _ _)
  | .pop _ _ (.retireLoad _ _) | .pop _ _ (.retireStore _ _ _) | .pop _ _ (.retireSwap _ _ _)
  | .pop _ _ (.countDown _) | .pop _ _ (.take _) | .pop _ _ .again
  | .idle | .enter _ _ | .push _ _ _ | .leave _ _ | .crashed _ => isTrue trivial

instance (s : State ι T) (x : Action ι T) : Decidable (s.NotOvertaken x) :=
  match x with
  | .run t => inferInstanceAs (Decidable (s.InStep (s.pc t)))
  | .call _ _ | .casFails _ | .timeout _ => isTrue trivial

def runs (t : Fin 3) (n : Nat) : List (Action (Fin 3) Nat) := List.replicate n (.run t)

/-- An item is pushed and another thread takes it. -/
def passedOn : List (Action (Fin 3) Nat) :=
  .call 0 (.push 7) :: runs 0 11 ++ .call 1 .popNoWait :: runs 1 13

theorem fifo_passedOn : ((execBy step NotOvertaken {} passedOn).get (by decide)).Fifo :=
  fifo (.of_execBy (Option.some_get _).symm)

/-- A pop reads the tail; an item is pushed and taken; the pop reads the head,
which is not its tail and has no successor. -/
def overtaken : List (Action (Fin 3) Nat) :=
  .call 0 .popNoWait :: runs 0 4 ++ .call 1 (.push 7) :: runs 1 11 ++ .call 2 .popNoWait :: runs 2 8 ++
  runs 0 4

theorem overtaken_nullHead :
    ((exec step ({} : State (Fin 3) Nat) overtaken).get (by decide)).queue.head = none ∧
    ¬((exec step ({} : State (Fin 3) Nat) overtaken).get (by decide)).Fifo := by
  have hhead : ((exec step ({} : State (Fin 3) Nat) overtaken).get (by decide)).queue.head = none := by
    decide
  refine ⟨hhead, fun h => ?_⟩
  obtain ⟨node, -, hnode⟩ := h.head
  rw [hhead] at hnode
  cases hnode

end State
end Dmn.BlockingQueueLf
