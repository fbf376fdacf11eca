import Dmn.DMesgNet.Network
import Mathlib.Data.List.Nodup
import Mathlib.Data.List.InsertIdx

/-!
# The election invariants

A node without a master has an empty master identifier, and so do its messages;
the empty string stands for "none". The assertions of a reconciliation rely on
this of the messages of every other node, so the invariant is one over all nodes
and all messages on their way. It needs that no node has an empty name, and that no
node hears of a master before its sys handler is opened.
-/

namespace Dmn.DMesgNet

open Dmn.DMesg Dmn.Lib

-- ---------------------------------------------------------------------------
-- One node
-- ---------------------------------------------------------------------------

namespace Node

/-- What holds of a node between two tasks. -/
structure Coherent (n : Node) : Prop where
  pending : n.sys.self.state = .masterPending ↔ n.sys.self.masterIdentifier = ""
  master : n.sys.self.state = .ready →
    n.sys.self.masterIdentifier ≠ "" ∧ n.masterPendingCounter = 0
  ready : n.ready = true ↔ n.sys.self.state = .ready
  single : (n.sys.nodeList.map DMesgSysNodePb.identifier).Nodup
  live : ∀ e ∈ n.sys.nodeList, e.state ≠ .destroyed

end Node

/-- What a system message says of its sender's master. -/
structure DMesgSysNodePb.Truthful (node : DMesgSysNodePb) : Prop where
  known : node.state = .masterPending ∨ node.state = .ready ∨ node.state = .destroyed
  ready : node.state = .ready → node.masterIdentifier ≠ ""
  other : node.state = .masterPending ∨ node.state = .destroyed → node.masterIdentifier = ""

namespace Node

/-- The two states of a node that is not destroyed. -/
structure Sound (n : Node) : Prop extends Coherent n where
  state : n.sys.self.state = .masterPending ∨ n.sys.self.state = .ready
  named : n.name ≠ ""
  opening : n.sysHandler = false → n.sys.self.state = .masterPending

theorem Sound.new {name : String} (named : name ≠ "") (now : Timestamp) :
    (new name now).Sound where
  pending := ⟨fun _ => rfl, fun _ => rfl⟩
  master := nofun
  ready := ⟨nofun, nofun⟩
  single := List.nodup_nil
  live := nofun
  state := .inl rfl
  named := named
  opening _ := rfl

theorem Sound.truthful {n : Node} (s : n.Sound) : n.sys.self.Truthful where
  known := s.state.imp_right .inl
  ready h := (s.master h).1
  other h := by
    rcases h with h | h
    · exact s.pending.mp h
    · rcases s.state with e | e <;> rw [e] at h <;> cases h

/-- The forwarding path has no part in the election. -/
theorem Sound.withOut {n : Node} (s : n.Sound) (out : Outbound) : { n with out }.Sound :=
  { s with }

theorem Sound.elect {n : Node} (s : n.Sound) (opened : n.sysHandler = true) (now : Timestamp) :
    (n.elect now).Sound := by
  unfold Node.elect
  simp only
  split
  · next pending =>
    split
    · exact ⟨⟨⟨nofun, fun h => absurd h s.named⟩, fun _ => ⟨s.named, rfl⟩,
        ⟨fun _ => rfl, fun _ => rfl⟩, s.single, s.live⟩, .inr rfl, s.named,
        fun closed => absurd (opened.symm.trans closed) nofun⟩
    · have idle : ¬ n.sys.self.state = .ready := by rw [pending]; nofun
      exact ⟨⟨s.pending, fun h => absurd h idle, s.ready, s.single, s.live⟩, s.state, s.named,
        s.opening⟩
  · split
    · split
      · split
        · exact ⟨⟨⟨fun _ => rfl, fun _ => rfl⟩, nofun, ⟨nofun, nofun⟩, s.single, s.live⟩,
            .inl rfl, s.named, fun _ => rfl⟩
        · exact ⟨⟨s.pending, s.master, s.ready, s.single, s.live⟩, s.state, s.named, s.opening⟩
      · exact s
    · exact s

theorem elect_name (n : Node) (now : Timestamp) : (n.elect now).name = n.name := by
  unfold Node.elect
  simp only
  split
  · split <;> rfl
  · split
    · split
      · split <;> rfl
      · rfl
    · rfl

-- The node list.

theorem reconciliateNodeList_single {nodeList : List DMesgSysNodePb} (other : DMesgSysNodePb)
    (h : (nodeList.map DMesgSysNodePb.identifier).Nodup) :
    ((reconciliateNodeList nodeList other).map DMesgSysNodePb.identifier).Nodup := by
  unfold reconciliateNodeList
  split
  · next absent =>
    split
    · exact h
    · rw [List.findIdx?_eq_none_iff] at absent
      rw [List.map_append, List.nodup_append]
      refine ⟨h, List.nodup_singleton _, ?_⟩
      intro a ha b hb
      obtain ⟨e, he, rfl⟩ := List.mem_map.mp ha
      rw [List.map_singleton, List.mem_singleton] at hb
      subst hb
      exact of_decide_eq_false (absent e he)
  · next index found =>
    split
    · rw [← List.eraseIdx_map]
      exact h.sublist (List.eraseIdx_sublist _ _)
    · obtain ⟨lt, same, -⟩ := List.findIdx?_eq_some_iff_getElem.mp found
      rw [List.map_set]
      have same : nodeList[index].identifier = other.identifier := of_decide_eq_true same
      have kept : (nodeList.map DMesgSysNodePb.identifier).set index other.identifier =
          nodeList.map DMesgSysNodePb.identifier := by
        rw [← same, ← List.getElem_map (f := DMesgSysNodePb.identifier)
          (h := by rw [List.length_map]; exact lt)]
        exact List.set_getElem_self _
      rwa [kept]

theorem reconciliateNodeList_live {nodeList : List DMesgSysNodePb} (other : DMesgSysNodePb)
    (h : ∀ e ∈ nodeList, e.state ≠ .destroyed) :
    ∀ e ∈ reconciliateNodeList nodeList other, e.state ≠ .destroyed := by
  unfold reconciliateNodeList
  split
  · split
    · exact h
    · next stays =>
      intro e he
      rcases List.mem_append.mp he with he | he
      · exact h e he
      · rw [List.mem_singleton] at he
        exact he ▸ stays
  · next index found =>
    split
    · exact fun e he => h e (List.mem_of_mem_eraseIdx he)
    · next stays =>
      intro e he
      rcases List.mem_or_eq_of_mem_set he with he | rfl
      · exact h e he
      · exact stays

/-- A task that ends as it should: no assertion has failed. -/
def Outcome.Sound (name : String) : Outcome → Prop
  | none => False
  | some (n, written) => n.Sound ∧ n.name = name ∧ ∀ sys ∈ written.sent, sys.self.Truthful

theorem Sound.silent {n : Node} (s : n.Sound) (thrown : Bool) :
    Outcome.Sound n.name (some (n, { thrown })) :=
  ⟨s, rfl, nofun⟩

theorem Sound.opened {n : Node} (s : n.Sound) :
    Outcome.Sound n.name (some ({ n with sysHandler := true }, {})) :=
  ⟨⟨⟨s.pending, s.master, s.ready, s.single, s.live⟩, s.state, s.named, nofun⟩, rfl, nofun⟩

theorem Sound.heartbeat {n : Node} (s : n.Sound) (opened : n.sysHandler = true) (now : Timestamp)
    (fails : Option Nat) : Outcome.Sound n.name (n.heartbeat now fails) := by
  have elected := s.elect opened now
  have sent : ∀ sys ∈ [(n.elect now).sys], sys.self.Truthful := fun sys h => by
    rw [List.mem_singleton] at h
    exact h ▸ elected.truthful
  unfold Node.heartbeat
  simp only
  split
  · exact ⟨{ elected with }, elect_name n now, sent⟩
  · exact ⟨{ elected with }, elect_name n now, sent⟩

/-- A flush of a node that is ready. -/
theorem flush_some {n : Node} (ready : n.ready = true) (order : List String)
    (fails : Option Nat) :
    ∃ out thrown, n.sendPendingOutboundQueueMessage order fails = some ({ n with out }, thrown) := by
  unfold sendPendingOutboundQueueMessage
  rw [if_neg (not_not.mpr ready)]
  split <;> exact ⟨_, _, rfl⟩

theorem Sound.forward {n : Node} (s : n.Sound) (m : DMesgPb) (order : List String)
    (fails : Option Nat) : Outcome.Sound n.name (n.forward m order fails) := by
  unfold Node.forward
  simp only
  by_cases sys : m.type = .sys
  · simp only [sys, ne_eq, not_true_eq_false, if_false, or_true, if_true]
    split
    · exact s.silent true
    · split
      · next ready =>
        obtain ⟨out, thrown, eq⟩ := flush_some ready order (fails.map Nat.pred)
        rw [eq]
        exact (s.withOut out).silent thrown
      · exact s.silent false
  · simp only [sys, ne_eq, not_false_eq_true, if_true, or_false]
    split
    · next ready =>
      obtain ⟨out, thrown, eq⟩ := flush_some (n := { n with out.handed := n.out.handed ++
        [{ m with sourceWriteHandlerIdentifier := n.name }] }) ready order fails
      rw [eq]
      simp only [Option.map_some]
      split
      · exact (s.withOut out).silent true
      · exact (s.withOut _).silent false
    · exact (s.withOut _).silent false

/-- A write of `m_sys` through the sys handler, which is open. -/
theorem Sound.writeSys {n : Node} {name : String} (opened : n.sysHandler = true)
    (truthful : n.sys.self.Truthful) {rest : Node → Outcome}
    (after : Outcome.Sound name (rest n)) : Outcome.Sound name (n.writeSys rest) := by
  unfold Node.writeSys
  rw [if_pos opened]
  match rest n, after with
  | some (n', written), ⟨sound, named, sent⟩ =>
    refine ⟨sound, named, fun sys h => ?_⟩
    rcases List.mem_cons.mp h with rfl | h
    · exact truthful
    · exact sent sys h

theorem Sound.reconciliateMaster {n : Node} (s : n.Sound) {other : DMesgSysNodePb}
    (truthful : other.Truthful) (opened : other.state = .ready → n.sysHandler = true)
    (now : Timestamp) (order : List String) (fails : Option Nat) :
    Outcome.Sound n.name (n.reconciliateMaster other now order fails) := by
  unfold Node.reconciliateMaster
  simp only
  split
  · next h =>
    obtain ⟨pending, ready⟩ := h
    have none := s.pending.mp pending
    have known := truthful.ready ready
    rw [if_neg (by simp [none, known])]
    have after : Sound { n.setSelf { n.sys.self with
          state := .ready, masterIdentifier := other.masterIdentifier,
          updatedTimestamp := now } with
        lastRemoteMasterTimestamp := now, masterPendingCounter := 0,
        masterSyncPendingCounter := 0, ready := true } :=
      ⟨⟨⟨nofun, fun h => absurd h known⟩, fun _ => ⟨known, rfl⟩,
        ⟨fun _ => rfl, fun _ => rfl⟩, s.single, s.live⟩, .inr rfl, s.named,
        fun closed => absurd ((opened ready).symm.trans closed) nofun⟩
    refine Sound.writeSys ?_ ?_ ?_
    · exact opened ready
    · exact after.truthful
    · obtain ⟨out, thrown, eq⟩ := flush_some (n := { n.setSelf { n.sys.self with
            state := .ready, masterIdentifier := other.masterIdentifier,
            updatedTimestamp := now } with
          lastRemoteMasterTimestamp := now, masterPendingCounter := 0,
          masterSyncPendingCounter := 0, ready := true }) rfl order fails
      rw [eq]
      exact (after.withOut out).silent thrown
  · split
    · next ready =>
      obtain ⟨master, zero⟩ := s.master ready
      have opened : n.sysHandler = true := by
        by_contra closed
        exact absurd (ready.symm.trans (s.opening (by simpa using closed))) nofun
      rw [if_neg (by simp [master, zero])]
      split
      · split
        · have after : Sound { n with
              masterSyncPendingCounter := 0, lastRemoteMasterTimestamp := now } := { s with }
          exact after.silent false
        · next gone =>
          have none : other.masterIdentifier = "" := by
            rcases truthful.known with h | h | h
            · exact truthful.other (.inl h)
            · exact absurd h gone
            · exact truthful.other (.inr h)
          rw [if_neg (not_not.mpr none)]
          have after : Sound { n.setSelf { n.sys.self with
                state := .masterPending, masterIdentifier := "", updatedTimestamp := now } with
              lastRemoteMasterTimestamp := {}, masterPendingCounter := 0,
              masterSyncPendingCounter := 0, ready := false } :=
            ⟨⟨⟨fun _ => rfl, fun _ => rfl⟩, nofun, ⟨nofun, nofun⟩, s.single, s.live⟩, .inl rfl,
              s.named, fun _ => rfl⟩
          refine Sound.writeSys ?_ ?_ (after.silent false)
          · exact opened
          · exact after.truthful
      · split
        · next h =>
          have known := truthful.ready h.1
          rw [if_neg known]
          split
          · have after : Sound { n.setSelf { n.sys.self with
                  masterIdentifier := other.masterIdentifier, updatedTimestamp := now } with
                lastRemoteMasterTimestamp := now, masterPendingCounter := 0,
                masterSyncPendingCounter := 0 } :=
              ⟨⟨⟨fun h => absurd (ready.symm.trans h) nofun, fun h => absurd h known⟩,
                fun _ => ⟨known, rfl⟩, s.ready, s.single, s.live⟩, s.state, s.named, s.opening⟩
            refine Sound.writeSys ?_ ?_ (after.silent false)
            · exact opened
            · exact after.truthful
          · exact s.silent false
        · exact s.silent false
    · exact s.silent false

theorem Sound.reconciliate {n : Node} (s : n.Sound) {other : DMesgSysNodePb}
    (truthful : other.Truthful) (opened : other.state = .ready → n.sysHandler = true)
    (now : Timestamp) (order : List String) (fails : Option Nat) :
    Outcome.Sound n.name (n.reconciliateDMesgPbSys other now order fails) := by
  have master := s.reconciliateMaster truthful opened now order fails
  unfold reconciliateDMesgPbSys
  match n.reconciliateMaster other now order fails, master with
  | some (n', written), ⟨after, name, frames⟩ =>
    simp only [Option.map_some]
    split
    · exact ⟨after, name, frames⟩
    · exact ⟨{ after with
        single := reconciliateNodeList_single other after.single
        live := reconciliateNodeList_live other after.live }, name, frames⟩

end Node

-- ---------------------------------------------------------------------------
-- All nodes
-- ---------------------------------------------------------------------------

namespace Network

variable {ι : Type*}

/-- The invariants of a whole network: every node and every message on its way. -/
structure Election (s : Network ι) : Prop where
  node : ∀ i, s.alive i = true → (s.node i).Coherent
  flight : ∀ i, ∀ f ∈ s.flight i,
    (f.sys.self.state = .ready → f.sys.self.masterIdentifier ≠ "") ∧
      (f.sys.self.state = .masterPending ∨ f.sys.self.state = .destroyed →
        f.sys.self.masterIdentifier = "")
  running : ∀ i, s.aborted i = false

structure Sound (s : Network ι) : Prop where
  node : ∀ i, s.alive i = true → (s.node i).Sound
  flight : ∀ i, ∀ f ∈ s.flight i, f.sys.self.Truthful
  running : ∀ i, s.aborted i = false

theorem Sound.observed {s : Network ι} (h : s.Sound) : s.Election where
  node i alive := (h.node i alive).toCoherent
  flight i f hf := ⟨(h.flight i f hf).ready, (h.flight i f hf).other⟩
  running := h.running

theorem Sound.start {name : ι → String} (named : ∀ i, name i ≠ "") (time : ι → Timestamp) :
    (start name time).Sound where
  node i _ := .new (named i) (time i)
  flight _ _ h := nomatch h
  running _ := rfl

theorem Sound.send {s : Network ι} (h : s.Sound) {frames : List Frame}
    (truthful : ∀ f ∈ frames, f.sys.self.Truthful) : (s.send frames).Sound where
  node := h.node
  flight i f hf := by
    rcases List.mem_append.mp hf with hf | hf
    · exact h.flight i f hf
    · exact truthful f hf
  running := h.running

variable [DecidableEq ι]

/-- Messages are taken out of, or repeated in, what is on its way to a node. -/
theorem Sound.reroute {s : Network ι} (h : s.Sound) (i : ι) {frames : List Frame}
    (known : ∀ f ∈ frames, f ∈ s.flight i) :
    { s with flight := Function.update s.flight i frames }.Sound where
  node := h.node
  flight k f hf := by
    by_cases same : k = i
    · subst same
      simp only [Function.update_self] at hf
      exact h.flight k f (known f hf)
    · simp only [Function.update_of_ne same] at hf
      exact h.flight k f hf
  running := h.running

theorem Sound.finish {s : Network ι} (h : s.Sound) {i : ι} {o : Outcome}
    (sound : Node.Outcome.Sound (s.node i).name o) : (s.finish i o).Sound := by
  match o, sound with
  | some (n, written), ⟨after, _, truthful⟩ =>
    refine Sound.send (s := { s with node := Function.update s.node i n })
      ⟨fun k alive => ?_, h.flight, h.running⟩ fun f hf => ?_
    · by_cases same : k = i
      · subst same
        simpa using after
      · simpa [Function.update_of_ne same] using h.node k alive
    · obtain ⟨sys, hs, rfl⟩ := List.mem_map.mp hf
      exact truthful sys hs

theorem Sound.receive {s s' : Network ι} (h : s.Sound) {i : ι} {f : Frame}
    (truthful : f.sys.self.Truthful)
    (opened : f.sys.self.state = .ready → (s.node i).sysHandler = true) {now : Timestamp}
    {order : List String} {fails : Option Nat}
    (hs : s.receive i f now order fails = some s') : s'.Sound := by
  unfold Network.receive at hs
  split at hs
  · cases hs
    exact h
  · next taken =>
    split at hs
    · cases hs
      have alive : s.alive i = true := by
        have up : s.up i = true := by
          by_contra down
          exact taken (.inl down)
        exact (Bool.and_eq_true_iff.mp up).1
      exact h.finish ((h.node i alive).reconciliate truthful opened now order fails)
    · cases hs

/-- A node that hears of a master has its sys handler open. -/
def Prepared (s : Network ι) : Event ι → Prop
  | .deliver i index _ _ _ => ∀ f ∈ (s.flight i)[index]?, f.sys.self.state = .ready →
      (s.node i).sysHandler = true
  | .announce _ | .task _ _ | .duplicate _ _ | .lose _ _ | .destroy _ _ => True

instance (s : Network ι) : (e : Event ι) → Decidable (s.Prepared e)
  | .deliver i index _ _ _ => inferInstanceAs (Decidable (∀ f ∈ (s.flight i)[index]?,
      f.sys.self.state = .ready → (s.node i).sysHandler = true))
  | .announce _ | .task _ _ | .duplicate _ _ | .lose _ _ | .destroy _ _ => isTrue trivial

theorem Sound.step {s s' : Network ι} (h : s.Sound) {e : Event ι} (prepared : s.Prepared e)
    (hs : s.step e = some s') : s'.Sound := by
  have alive {i : ι} (up : s.up i = true) : s.alive i = true := (Bool.and_eq_true_iff.mp up).1
  cases e with
  | announce i =>
    simp only [Network.step] at hs
    split at hs
    · next up =>
      cases hs
      refine Sound.send (s := { s with announced := Function.update s.announced i true })
        ⟨h.node, h.flight, h.running⟩ fun f hf => ?_
      rw [List.mem_singleton] at hf
      exact hf ▸ (h.node i (alive up.1)).truthful
    · cases hs
  | task i t =>
    cases t with
    | reconciliate => cases hs
    | openSysHandler =>
      simp only [Network.step] at hs
      split at hs
      · next up =>
        cases hs
        exact h.finish (h.node i (alive up.1)).opened
      · cases hs
    | heartbeat now fails =>
      simp only [Network.step] at hs
      split at hs
      · next up =>
        cases hs
        exact h.finish ((h.node i (alive up.1)).heartbeat up.2 now fails)
      · cases hs
    | forward m order fails =>
      simp only [Network.step] at hs
      split at hs
      · next up =>
        cases hs
        exact h.finish ((h.node i (alive up.1)).forward m order fails)
      · cases hs
  | deliver i index now order fails =>
    simp only [Network.step] at hs
    split at hs
    · cases hs
    · next f found =>
      have known := List.mem_of_getElem? found
      exact (h.reroute i fun f hf => List.mem_of_mem_eraseIdx hf).receive (h.flight i f known)
        (prepared f found) hs
  | duplicate i index =>
    simp only [Network.step] at hs
    split at hs
    · cases hs
    · next f found =>
      cases hs
      refine h.reroute i fun g hg => ?_
      rcases List.mem_append.mp hg with hg | hg
      · exact hg
      · rw [List.mem_singleton] at hg
        exact hg ▸ List.mem_of_getElem? found
  | lose i index =>
    simp only [Network.step] at hs
    split at hs
    · cases hs
      exact h.reroute i fun f hf => List.mem_of_mem_eraseIdx hf
    · cases hs
  | destroy i now =>
    simp only [Network.step] at hs
    split at hs
    · next up =>
      cases hs
      refine Sound.send (s := { s with
        node := Function.update s.node i ((s.node i).setSelf _)
        alive := Function.update s.alive i false })
        ⟨fun k left => ?_, h.flight, h.running⟩ fun f hf => ?_
      · by_cases same : k = i
        · subst same
          simp at left
        · simp only [Function.update_of_ne same] at left ⊢
          exact h.node k left
      · rw [List.mem_singleton] at hf
        subst hf
        exact ⟨.inr (.inr rfl), nofun, fun _ => rfl⟩
    · cases hs

-- ---------------------------------------------------------------------------
-- A node with an empty name
-- ---------------------------------------------------------------------------

theorem beat {s : Network ι} {i : ι} (up : s.up i = true) (opened : (s.node i).sysHandler = true)
    (now : Timestamp) :
    ∃ s', s.step (.task i (.heartbeat now)) = some s' ∧ s'.up i = true ∧
      (s'.node i).sysHandler = true ∧ (s'.node i).name = (s.node i).name ∧
      (s'.node i).sys = ((s.node i).elect now).sys ∧
      (s'.node i).masterPendingCounter = ((s.node i).elect now).masterPendingCounter := by
  refine ⟨s.finish i ((s.node i).heartbeat now none), if_pos ⟨up, opened⟩, up, ?_⟩
  have kept : ((s.node i).elect now).sysHandler = true := by
    unfold Node.elect
    simp only
    split
    · split <;> exact opened
    · split
      · split
        · split <;> exact opened
        · exact opened
      · exact opened
  rw [← Node.elect_name (s.node i) now]
  simp only [finish, Node.heartbeat, send, Function.update_self, Option.filter_none]
  exact ⟨kept, trivial, trivial, trivial⟩

theorem elect_wait {n : Node} (pending : n.sys.self.state = .masterPending)
    (early : n.masterPendingCounter + 1 < DMN_DMESGNET_MASTERPENDING_MAX_COUNTER)
    (now : Timestamp) :
    n.elect now = { n with masterPendingCounter := n.masterPendingCounter + 1 } := by
  unfold Node.elect
  simp only
  rw [if_pos pending, if_neg (Nat.not_le.mpr early)]

theorem elect_self {n : Node} (pending : n.sys.self.state = .masterPending)
    (late : n.masterPendingCounter + 1 ≥ DMN_DMESGNET_MASTERPENDING_MAX_COUNTER)
    (now : Timestamp) :
    (n.elect now).sys.self.state = .ready ∧ (n.elect now).sys.self.masterIdentifier = n.name := by
  unfold Node.elect
  simp only
  rw [if_pos pending, if_pos late]
  exact ⟨rfl, rfl⟩

/-- After three heartbeats a node on its own names itself as the master. -/
theorem self_elected (name : ι → String) (time : ι → Timestamp) (i : ι) :
    ∃ s, ReachesBy step Prepared (start name time) s ∧ s.alive i = true ∧
      (s.node i).sys.self.state = .ready ∧ (s.node i).sys.self.masterIdentifier = name i := by
  let s₀ := (start name time).finish i (some ({ (start name time).node i with sysHandler := true }, {}))
  have node : s₀.node i = { Node.new (name i) (time i) with sysHandler := true } := by
    simp [s₀, finish, send, start]
  have r₀ : (start name time).step (.task i .openSysHandler) = some s₀ := by
    simp only [step]
    exact if_pos ⟨rfl, rfl⟩
  obtain ⟨s₁, r₁, up₁, opened₁, name₁, sys₁, counter₁⟩ := beat (s := s₀) (i := i) rfl (by rw [node]) {}
  rw [node] at name₁ sys₁ counter₁
  rw [elect_wait rfl (show 0 + 1 < 3 by decide)] at sys₁ counter₁
  have pending₁ : (s₁.node i).sys.self.state = .masterPending := by rw [sys₁]; rfl
  have once : (s₁.node i).masterPendingCounter = 1 := counter₁
  obtain ⟨s₂, r₂, up₂, opened₂, name₂, sys₂, counter₂⟩ := beat up₁ opened₁ {}
  rw [elect_wait pending₁ (by rw [once]; decide)] at sys₂ counter₂
  have pending₂ : (s₂.node i).sys.self.state = .masterPending := by rw [sys₂]; exact pending₁
  have twice : (s₂.node i).masterPendingCounter = 2 := by rw [counter₂]; simp only [once]
  obtain ⟨s₃, r₃, up₃, -, -, sys₃, -⟩ := beat up₂ opened₂ {}
  obtain ⟨ready, master⟩ := elect_self pending₂ (by rw [twice]; decide) {}
  refine ⟨s₃, (((ReachesBy.refl.tail _ trivial r₀).tail _ trivial r₁).tail _ trivial r₂).tail
    (.task i (.heartbeat {})) trivial r₃, (Bool.and_eq_true_iff.mp up₃).1, by rw [sys₃, ready], ?_⟩
  rw [sys₃, master, name₂, name₁]
  rfl

/-- While no node hears of a master before its sys handler is opened, the invariants
hold in every run exactly when no node has an empty name. -/
theorem election (name : ι → String) (time : ι → Timestamp) :
    (∀ s, ReachesBy step Prepared (start name time) s → s.Election) ↔ ∀ i, name i ≠ "" := by
  constructor
  · intro h i empty
    obtain ⟨s, reached, alive, ready, master⟩ := self_elected name time i
    exact (((h s reached).node i alive).master ready).1 (master.trans empty)
  · intro named s hs
    exact (hs.invariant (Sound.start named time) fun h ok ha => h.step ok ha).observed

/-- A node without a name makes itself the master, and the next message of
another node stops it in an assertion. -/
def namelessRun : List (Event Bool) :=
  [.task false .openSysHandler, .task true .openSysHandler] ++
    List.replicate 3 (.task false (.heartbeat {})) ++ [.announce true, .deliver false 3 {} []]

theorem nameless_aborts :
    ∃ s, Reaches step (start (fun b : Bool => cond b "peer" "") fun _ => {}) s ∧
      s.aborted false = true :=
  ⟨(exec step (start (fun b : Bool => cond b "peer" "") fun _ => {}) namelessRun).get (by decide),
    ReachesBy.of_exec (Option.some_get _).symm, by decide⟩

/-- A node hears of a master before its sys handler is opened: the write throws
between the new state and `m_ready`. -/
def earlyRun : List (Event Bool) :=
  .task true .openSysHandler :: List.replicate 3 (.task true (.heartbeat {})) ++
    [.deliver false 2 {} []]

theorem early_unready :
    ∃ s, Reaches step (start (fun b : Bool => cond b "peer" "node") fun _ => {}) s ∧
      s.alive false = true ∧ (s.node false).sys.self.state = .ready ∧
      (s.node false).ready = false :=
  ⟨(exec step (start (fun b : Bool => cond b "peer" "node") fun _ => {}) earlyRun).get (by decide),
    ReachesBy.of_exec (Option.some_get _).symm, by decide⟩

/-- The invariants fail for an empty name, and for two nodes with names. -/
theorem election_fails :
    (¬ ∀ s, Reaches step (start (fun b : Bool => cond b "peer" "") fun _ => {}) s → s.Election) ∧
    ¬ ∀ s, Reaches step (start (fun b : Bool => cond b "peer" "node") fun _ => {}) s →
      s.Election := by
  constructor
  · intro h
    obtain ⟨s, reached, stopped⟩ := nameless_aborts
    exact absurd ((h s reached).running false) (by rw [stopped]; decide)
  · intro h
    obtain ⟨s, reached, alive, state, unready⟩ := early_unready
    have ready := ((h s reached).node false alive).ready.mpr state
    rw [unready] at ready
    cases ready

end Network
end Dmn.DMesgNet
