import Dmn.DMesgNet.Node
import Mathlib.Data.List.Count

/-!
# The forwarding path

A message published locally is written at once or parked with its topic; parked
messages are flushed from three places. At every point the written messages of a
topic followed by its parked ones are the messages of the topic handed over, in
order. A flush goes through the topics in the order of a hash map, so between
topics it keeps no order.
-/

namespace Dmn.DMesgNet

open Dmn.DMesg Dmn.Lib

/-- The messages of one topic. -/
def ofTopic (topic : String) (ms : List DMesgPb) : List DMesgPb :=
  ms.filter (·.topic = topic)

theorem ofTopic_append (topic : String) (ms ms' : List DMesgPb) :
    ofTopic topic (ms ++ ms') = ofTopic topic ms ++ ofTopic topic ms' :=
  List.filter_append ms ms'

theorem ofTopic_self {topic : String} {ms : List DMesgPb} (h : ∀ m ∈ ms, m.topic = topic) :
    ofTopic topic ms = ms :=
  List.filter_eq_self.mpr fun m hm => decide_eq_true (h m hm)

theorem ofTopic_other {topic topic' : String} {l : List DMesgPb} (ne : topic ≠ topic')
    (h : ∀ m ∈ l, m.topic = topic') : ofTopic topic l = [] :=
  List.filter_eq_nil_iff.mpr fun m hm => by simpa [h m hm] using Ne.symm ne

/-- Lists with the same messages of every topic have the same messages. -/
theorem perm_of_ofTopic {ms ms' : List DMesgPb} (h : ∀ t, ofTopic t ms = ofTopic t ms') :
    ms.Perm ms' := by
  rw [List.perm_iff_count]
  intro m
  have own (ms : List DMesgPb) : (ofTopic m.topic ms).count m = ms.count m :=
    List.count_filter (decide_eq_true rfl)
  rw [← own ms, ← own ms', h]

namespace Outbound

/-- The written and the parked messages are those of `handed`, topic by topic. -/
structure Accounts (out : Outbound) (handed : List DMesgPb) : Prop where
  order : ∀ t, ofTopic t out.forwarded ++ out.pending t = ofTopic t handed
  topic : ∀ t, ∀ m ∈ out.pending t, m.topic = t
  keys : ∀ t, out.pending t ≠ [] → t ∈ out.pendingTopics

-- ---------------------------------------------------------------------------
-- The flush
-- ---------------------------------------------------------------------------

theorem sendMessages_eq (out : Outbound) (ms : List DMesgPb) :
    ∃ topicLast, out.sendMessages ms = { out with
      forwarded := out.forwarded ++ ms, topicLast } := by
  induction ms generalizing out with
  | nil => exact ⟨out.topicLast, by simp [sendMessages]⟩
  | cons m rest ih =>
    simp only [sendMessages]
    split
    · obtain ⟨topicLast, eq⟩ := ih ((out.write m).cacheLast m)
      exact ⟨topicLast, by rw [eq]; simp [write, cacheLast]⟩
    · obtain ⟨topicLast, eq⟩ := ih (out.write m)
      exact ⟨topicLast, by rw [eq]; simp [write]⟩

theorem sendTopic_eq (out : Outbound) (t : String) :
    ∃ topicLast, out.sendTopic t = { out with
      forwarded := out.forwarded ++ out.pending t, topicLast
      pending := Function.update out.pending t [] } := by
  obtain ⟨topicLast, eq⟩ := out.sendMessages_eq (out.pending t)
  exact ⟨topicLast, by simp only [sendTopic, eq]⟩

theorem Accounts.record {out : Outbound} {handed : List DMesgPb} (h : out.Accounts handed)
    (all : List DMesgPb) : { out with handed := all }.Accounts handed :=
  ⟨h.order, h.topic, h.keys⟩

theorem Accounts.sendTopic {out : Outbound} {handed : List DMesgPb} (h : out.Accounts handed)
    (t : String) : (out.sendTopic t).Accounts handed := by
  obtain ⟨topicLast, eq⟩ := out.sendTopic_eq t
  rw [eq]
  constructor
  · intro t'
    rw [← h.order t']
    by_cases same : t' = t
    · subst same
      simp [ofTopic_append, ofTopic_self (h.topic t')]
    · simp [Function.update_of_ne same, ofTopic_append, ofTopic_other same (h.topic t)]
  · intro t' m hm
    by_cases same : t' = t
    · subst same
      simp at hm
    · simp only [Function.update_of_ne same] at hm
      exact h.topic t' m hm
  · intro t' parked
    by_cases same : t' = t
    · subst same
      simp at parked
    · simp only [Function.update_of_ne same] at parked
      exact h.keys t' parked

theorem Accounts.flush {out : Outbound} {handed : List DMesgPb} (h : out.Accounts handed)
    (order : List String) : (order.foldl Outbound.sendTopic out).Accounts handed := by
  induction order generalizing out with
  | nil => exact h
  | cons t order ih => exact ih (h.sendTopic t)

theorem flush_handed (out : Outbound) (order : List String) :
    (order.foldl Outbound.sendTopic out).handed = out.handed := by
  induction order generalizing out with
  | nil => rfl
  | cons t order ih =>
    obtain ⟨topicLast, eq⟩ := out.sendTopic_eq t
    rw [List.foldl_cons, ih, eq]

theorem flush_pending (out : Outbound) (order : List String) (t : String) :
    (order.foldl Outbound.sendTopic out).pending t =
      if t ∈ order then [] else out.pending t := by
  induction order generalizing out with
  | nil => simp
  | cons t' order ih =>
    obtain ⟨topicLast, eq⟩ := out.sendTopic_eq t'
    rw [List.foldl_cons, ih, eq]
    by_cases same : t = t'
    · simp [same]
    · simp [same]

/-- A flush that meets every topic leaves nothing parked. -/
theorem Accounts.flushed {out : Outbound} {handed : List DMesgPb} (h : out.Accounts handed)
    {order : List String} (visits : order.Perm out.pendingTopics) (t : String) :
    (order.foldl Outbound.sendTopic out).pending t = [] := by
  rw [flush_pending]
  split
  · rfl
  · next missed =>
    by_contra parked
    exact missed (visits.mem_iff.mpr (h.keys t parked))

theorem Accounts.write {out : Outbound} {handed : List DMesgPb} (h : out.Accounts handed)
    (empty : ∀ t, out.pending t = []) (m : DMesgPb) :
    ((out.write m).cacheLast m).Accounts (handed ++ [m]) := by
  refine ⟨fun t => ?_, h.topic, h.keys⟩
  have earlier := h.order t
  simp only [empty, List.append_nil] at earlier
  simp [Outbound.write, cacheLast, empty, ofTopic_append, earlier]

theorem Accounts.push {out : Outbound} {handed : List DMesgPb} (h : out.Accounts handed)
    (m : DMesgPb) : (out.push m).Accounts (handed ++ [m]) := by
  constructor
  · intro t
    rw [ofTopic_append, ← h.order t]
    by_cases same : t = m.topic
    · subst same
      simp [Outbound.push, ofTopic]
    · simp [Outbound.push, Function.update_of_ne same, ofTopic_other same (l := [m])]
  · intro t m' hm
    by_cases same : t = m.topic
    · subst same
      simp only [Outbound.push, Function.update_self] at hm
      rcases List.mem_append.mp hm with hm | hm
      · exact h.topic _ m' hm
      · rw [List.mem_singleton.mp hm]
    · simp only [Outbound.push, Function.update_of_ne same] at hm
      exact h.topic t m' hm
  · intro t parked
    simp only [Outbound.push] at parked ⊢
    by_cases same : t = m.topic
    · subst same
      split
      · assumption
      · exact List.mem_cons_self
    · simp only [Function.update_of_ne same] at parked
      have known := h.keys t parked
      split
      · exact known
      · exact List.mem_cons_of_mem _ known

/-- With nothing parked everything handed over has been written. -/
theorem Accounts.complete {out : Outbound} {handed : List DMesgPb} (h : out.Accounts handed)
    (empty : ∀ t, out.pending t = []) : out.forwarded.Perm handed :=
  perm_of_ofTopic fun t => by
    have order := h.order t
    rwa [empty, List.append_nil] at order

end Outbound

-- ---------------------------------------------------------------------------
-- The tasks
-- ---------------------------------------------------------------------------

namespace Node

/-- Nothing is lost, repeated or reordered within a topic. -/
abbrev Lossless (n : Node) : Prop := n.out.Accounts n.out.handed

/-- The message of a forwarding task as it goes out. -/
def outgoing (n : Node) (m : DMesgPb) : DMesgPb :=
  { m with sourceWriteHandlerIdentifier := n.name }

theorem elect_out (n : Node) (now : Timestamp) : (n.elect now).out = n.out := by
  unfold elect
  simp only
  split
  · split <;> rfl
  · split
    · split
      · split <;> rfl
      · rfl
    · rfl

theorem Lossless.heartbeat {n n' : Node} (h : n.Lossless) {now : Timestamp}
    {fails : Option Nat} {written : Written}
    (hs : n.heartbeat now fails = some (n', written)) : n'.Lossless := by
  have same : (n.elect now).Lossless := by rw [Lossless, elect_out]; exact h
  unfold Node.heartbeat at hs
  simp only at hs
  split at hs
  · cases hs
    exact ⟨same.order, same.topic, same.keys⟩
  · cases hs
    exact ⟨same.order, same.topic, same.keys⟩

theorem flush_out {n n' : Node} {order : List String} {thrown : Bool}
    (h : n.sendPendingOutboundQueueMessage order none = some (n', thrown)) :
    thrown = false ∧ n'.out = order.foldl Outbound.sendTopic n.out := by
  unfold sendPendingOutboundQueueMessage at h
  split at h
  · cases h
  · cases h
    exact ⟨rfl, rfl⟩

theorem Lossless.flush {n n' : Node} (h : n.Lossless) {order : List String} {thrown : Bool}
    (hs : n.sendPendingOutboundQueueMessage order none = some (n', thrown)) : n'.Lossless := by
  rw [Lossless, (flush_out hs).2, Outbound.flush_handed]
  exact Outbound.Accounts.flush h order

/-- An ordinary message that is not parked goes out after everything before it. -/
theorem forward_written {n n' : Node} (h : n.Lossless) {m : DMesgPb} {order : List String}
    {written : Written} (ordinary : m.type ≠ .sys) (ready : n.ready = true)
    (visits : order.Perm n.out.pendingTopics)
    (hs : n.forward m order none = some (n', written)) :
    n'.Lossless ∧ ∃ before, n'.out.forwarded = before ++ [n.outgoing m] ∧
      before.Perm n.out.handed := by
  unfold forward at hs
  simp only [ordinary, ne_eq, not_false_eq_true, if_true, or_false, ready] at hs
  obtain ⟨⟨after, thrown⟩, flush, eq⟩ := Option.map_eq_some_iff.mp hs
  obtain ⟨rfl, out⟩ := flush_out flush
  cases eq
  have recorded := Outbound.Accounts.record h (n.out.handed ++ [n.outgoing m])
  have before : (after.out).Accounts n.out.handed := by
    rw [out]
    exact recorded.flush order
  have empty : ∀ t, after.out.pending t = [] := fun t => by
    rw [out]
    exact recorded.flushed visits t
  have handed : after.out.handed = n.out.handed ++ [n.outgoing m] := by
    rw [out, Outbound.flush_handed]
    rfl
  refine ⟨?_, after.out.forwarded, rfl, before.complete empty⟩
  have written := before.write empty (n.outgoing m)
  rw [← handed] at written
  exact written

theorem Lossless.forward {n n' : Node} (h : n.Lossless) {m : DMesgPb} {order : List String}
    {written : Written} (visits : order.Perm n.out.pendingTopics)
    (hs : n.forward m order none = some (n', written)) : n'.Lossless := by
  by_cases sys : m.type = .sys
  · unfold Node.forward at hs
    simp only [sys, ne_eq, not_true_eq_false, if_false, or_true, if_true, reduceCtorEq,
      Option.map_none] at hs
    split at hs
    · obtain ⟨⟨after, thrown⟩, flush, eq⟩ := Option.map_eq_some_iff.mp hs
      cases eq
      exact h.flush flush
    · cases hs
      exact h
  · by_cases ready : n.ready = true
    · exact (forward_written h sys ready visits hs).1
    · unfold Node.forward at hs
      simp only [sys, ne_eq, not_false_eq_true, if_true, or_false, ready] at hs
      cases hs
      exact (Outbound.Accounts.record h (n.out.handed ++ [n.outgoing m])).push (n.outgoing m)

/-- A write of `m_sys` comes before what happens on the forwarding path. -/
theorem Lossless.writeSys {n n' : Node} (h : n.Lossless) {rest : Node → Outcome}
    {written : Written} (after : ∀ p ∈ rest n, p.1.Lossless)
    (hs : n.writeSys rest = some (n', written)) : n'.Lossless := by
  unfold Node.writeSys at hs
  split at hs
  · obtain ⟨⟨n₁, written₁⟩, ran, eq⟩ := Option.map_eq_some_iff.mp hs
    cases eq
    exact after _ ran
  · cases hs
    exact h

theorem Lossless.reconciliateMaster {n n' : Node} (h : n.Lossless) {other : DMesgSysNodePb}
    {now : Timestamp} {order : List String} {written : Written}
    (hs : n.reconciliateMaster other now order none = some (n', written)) : n'.Lossless := by
  unfold Node.reconciliateMaster at hs
  simp only at hs
  split at hs
  · split at hs
    · cases hs
    · refine Lossless.writeSys ?_ (fun p ran => ?_) hs
      · exact h
      · obtain ⟨⟨flushed, thrown⟩, flush, rfl⟩ := Option.map_eq_some_iff.mp ran
        refine Lossless.flush ?_ flush
        exact h
  · split at hs
    · split at hs
      · cases hs
      · split at hs
        · split at hs
          · cases hs
            exact h
          · split at hs
            · cases hs
            · refine Lossless.writeSys ?_ (fun p ran => ?_) hs
              · exact h
              · cases ran
                exact h
        · split at hs
          · split at hs
            · cases hs
            · split at hs
              · refine Lossless.writeSys ?_ (fun p ran => ?_) hs
                · exact h
                · cases ran
                  exact h
              · cases hs
                exact h
          · cases hs
            exact h
    · cases hs
      exact h

theorem Lossless.reconciliate {n n' : Node} (h : n.Lossless) {other : DMesgSysNodePb}
    {now : Timestamp} {order : List String} {written : Written}
    (hs : n.reconciliateDMesgPbSys other now order none = some (n', written)) : n'.Lossless := by
  obtain ⟨⟨after, frames⟩, master, eq⟩ := Option.map_eq_some_iff.mp hs
  have kept := h.reconciliateMaster master
  simp only at eq
  split at eq
  · cases eq
    exact kept
  · cases eq
    exact kept

/-- No write of a flush or of a forwarding task throws. -/
def Task.writes : Task → Prop
  | .reconciliate _ _ _ fails | .forward _ _ fails => fails = none
  | .openSysHandler | .heartbeat _ _ => True

instance : (t : Task) → Decidable t.writes
  | .reconciliate _ _ _ fails | .forward _ _ fails => inferInstanceAs (Decidable (fails = none))
  | .openSysHandler | .heartbeat _ _ => isTrue trivial

theorem Lossless.step {n n' : Node} (h : n.Lossless) {t : Task} (writes : t.writes)
    (hs : n.step t = some n') : n'.Lossless := by
  unfold Node.step at hs
  split at hs
  · next enabled =>
    obtain ⟨⟨after, written⟩, ran, rfl⟩ := Option.map_eq_some_iff.mp hs
    cases t with
    | openSysHandler =>
      cases ran
      exact h
    | heartbeat now fails => exact h.heartbeat ran
    | reconciliate other now order fails =>
      cases writes
      exact h.reconciliate ran
    | forward m order fails =>
      cases writes
      exact h.forward enabled ran
  · cases hs

theorem Lossless.new (name : String) (now : Timestamp) : (new name now).Lossless :=
  ⟨fun _ => rfl, nofun, fun _ parked => absurd rfl parked⟩

/-- Two messages are parked, the node elects itself and a third one is sent. -/
def parking : List Task :=
  [Task.openSysHandler, .forward { topic := "b" } [], .forward { topic := "a" } ["b"]] ++
    List.replicate 3 (Task.heartbeat {}) ++ [Task.forward { topic := "c" } ["a", "b"]]

/-- A node that has elected itself, and whose next write throws. -/
def losing : List Task :=
  Task.openSysHandler :: List.replicate 3 (Task.heartbeat {}) ++ [.forward { topic := "t" } [] (some 0)]

end Node
end Dmn.DMesgNet
