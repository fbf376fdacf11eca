import Dmn.DMesgNet.Network
import Mathlib.Data.Fintype.Basic

/-!
# Nodes that follow each other

A node takes over the master that a message claims, whoever sends the message.
By the time it does, the claimed master may itself have begun to follow another
node, also the one that takes it over: then the two follow each other, each keeps
the other from starting a new election, and neither is a master. While no node
takes over a master that follows another, no two nodes follow each other.
-/

namespace Dmn.DMesgNet

open Dmn.DMesg Dmn.Lib

namespace Node

/-- What a task may do to the master of a node. -/
structure Turns (n n' : Node) (taken : String → Prop) : Prop where
  name : n'.name = n.name
  master : n'.sys.self.state = .ready →
    n.sys.self.state = .ready ∧ n'.sys.self.masterIdentifier = n.sys.self.masterIdentifier ∨
      n'.sys.self.masterIdentifier = n.name ∨ taken n'.sys.self.masterIdentifier

theorem Turns.same {n n' : Node} {taken : String → Prop} (name : n'.name = n.name)
    (self : n'.sys.self = n.sys.self) : n.Turns n' taken :=
  ⟨name, fun ready => .inl ⟨by rwa [self] at ready, by rw [self]⟩⟩

theorem elect_turns (n : Node) (now : Timestamp) (taken : String → Prop) :
    n.Turns (n.elect now) taken := by
  unfold elect
  simp only
  split
  · split
    · exact ⟨rfl, fun _ => .inr (.inl rfl)⟩
    · exact .same rfl rfl
  · split
    · split
      · split
        · exact ⟨rfl, nofun⟩
        · exact .same rfl rfl
      · exact .same rfl rfl
    · exact .same rfl rfl

theorem heartbeat_turns {n n' : Node} {now : Timestamp} {fails : Option Nat} {written : Written}
    (h : n.heartbeat now fails = some (n', written)) (taken : String → Prop) :
    n.Turns n' taken := by
  have turns := elect_turns n now taken
  unfold heartbeat at h
  simp only at h
  split at h
  · cases h
    exact ⟨turns.name, turns.master⟩
  · cases h
    exact ⟨turns.name, turns.master⟩

theorem forward_turns {n n' : Node} {m : DMesgPb} {order : List String} {fails : Option Nat}
    {written : Written} (h : n.forward m order fails = some (n', written))
    (taken : String → Prop) : n.Turns n' taken := by
  obtain ⟨out, rfl⟩ := forward_eq h
  exact .same rfl rfl

/-- A write of `m_sys` in the middle of a task. -/
theorem Turns.writeSys {n n₁ n' : Node} {taken : String → Prop} (turns : n.Turns n₁ taken)
    {rest : Node → Outcome} {written : Written} (after : ∀ p ∈ rest n₁, n.Turns p.1 taken)
    (h : n₁.writeSys rest = some (n', written)) : n.Turns n' taken := by
  unfold Node.writeSys at h
  split at h
  · obtain ⟨⟨n₂, written₂⟩, ran, eq⟩ := Option.map_eq_some_iff.mp h
    cases eq
    exact after _ ran
  · cases h
    exact turns

theorem reconciliateMaster_turns {n n' : Node} {other : DMesgSysNodePb} {now : Timestamp}
    {order : List String} {fails : Option Nat} {written : Written}
    (h : n.reconciliateMaster other now order fails = some (n', written)) :
    n.Turns n' fun master => n.adopts other = true ∧ master = other.masterIdentifier := by
  unfold reconciliateMaster at h
  simp only at h
  split at h
  · next pending =>
    split at h
    · cases h
    · refine Turns.writeSys ?_ (fun p ran => ?_) h
      · exact ⟨rfl, fun _ => .inr (.inr ⟨by simp [adopts, pending], rfl⟩)⟩
      · obtain ⟨⟨flushed, thrown⟩, flush, rfl⟩ := Option.map_eq_some_iff.mp ran
        obtain ⟨out, rfl⟩ := flush_eq flush
        exact ⟨rfl, fun _ => .inr (.inr ⟨by simp [adopts, pending], rfl⟩)⟩
  · split at h
    · next ready =>
      split at h
      · cases h
      · split at h
        · split at h
          · cases h
            exact .same rfl rfl
          · split at h
            · cases h
            · refine Turns.writeSys ?_ (fun p ran => ?_) h
              · exact ⟨rfl, nofun⟩
              · cases ran
                exact ⟨rfl, nofun⟩
        · next other_master =>
          split at h
          · next unheard =>
            split at h
            · cases h
            · split at h
              · next senior =>
                refine Turns.writeSys ?_ (fun p ran => ?_) h
                · exact ⟨rfl, fun _ => .inr (.inr
                    ⟨by simp [adopts, ready, unheard, other_master, senior], rfl⟩)⟩
                · cases ran
                  exact ⟨rfl, fun _ => .inr (.inr
                    ⟨by simp [adopts, ready, unheard, other_master, senior], rfl⟩)⟩
              · cases h
                exact .same rfl rfl
          · cases h
            exact .same rfl rfl
    · cases h
      exact .same rfl rfl

theorem reconciliate_turns {n n' : Node} {other : DMesgSysNodePb} {now : Timestamp}
    {order : List String} {fails : Option Nat} {written : Written}
    (h : n.reconciliateDMesgPbSys other now order fails = some (n', written)) :
    n.Turns n' fun master => n.adopts other = true ∧ master = other.masterIdentifier := by
  obtain ⟨⟨after, frames⟩, master, eq⟩ := Option.map_eq_some_iff.mp h
  have turns := reconciliateMaster_turns master
  simp only at eq
  split at eq
  · cases eq
    exact turns
  · cases eq
    exact ⟨turns.name, turns.master⟩

end Node

/-- Heartbeats, deliveries and losses, once the sys handlers are opened. -/
def Event.plain {ι : Type*} : Event ι → Bool
  | .task _ .openSysHandler | .task _ (.heartbeat _ _) | .deliver .. | .lose .. => true
  | _ => false

namespace Network

variable {ι : Type*}

/-- Node `i` is ready and follows the node named `master`. -/
def Follows (s : Network ι) (i : ι) (master : String) : Prop :=
  (s.node i).sys.self.state = .ready ∧ (s.node i).sys.self.masterIdentifier = master

instance (s : Network ι) (i : ι) (master : String) : Decidable (s.Follows i master) :=
  inferInstanceAs (Decidable (_ ∧ _))

/-- The node named `name` is ready and follows another node. -/
def Follower (s : Network ι) (name : String) : Prop :=
  ∃ i, (s.node i).name = name ∧ (s.node i).sys.self.state = .ready ∧
    (s.node i).sys.self.masterIdentifier ≠ name

instance [Fintype ι] (s : Network ι) (name : String) : Decidable (s.Follower name) :=
  inferInstanceAs (Decidable (∃ _, _))

/-- The message delivered next does not make its receiver take over a master
that follows another node. -/
def Sincere (s : Network ι) : Event ι → Prop
  | .deliver i index _ _ _ =>
    ∀ f ∈ (s.flight i)[index]?, (s.node i).adopts f.sys.self = true →
      ¬ s.Follower f.sys.self.masterIdentifier
  | _ => True

instance [Fintype ι] (s : Network ι) (e : Event ι) : Decidable (s.Sincere e) := by
  unfold Sincere; split <;> infer_instance

/-- Nothing is on its way. -/
def Quiet (s : Network ι) : Prop := ∀ i, s.flight i = []

instance [Fintype ι] (s : Network ι) : Decidable s.Quiet :=
  inferInstanceAs (Decidable (∀ _, _ = _))

def Circle (s : Network ι) : Prop :=
  ∃ a b, a ≠ b ∧ s.Follows a (s.node b).name ∧ s.Follows b (s.node a).name

structure Straight (name : ι → String) (s : Network ι) : Prop where
  named : ∀ i, (s.node i).name = name i
  straight : ¬ s.Circle

theorem Straight.start (name : ι → String) (time : ι → Timestamp) : (start name time).Straight name where
  named _ := rfl
  straight := fun ⟨_, _, _, follows, _⟩ => nomatch follows.1

/-- One node turns to a master that follows nobody else. -/
theorem Straight.turn {name : ι → String} (injective : Function.Injective name)
    {s s' : Network ι} (h : s.Straight name) {i : ι} (others : ∀ k, k ≠ i → s'.node k = s.node k)
    (turns : (s.node i).Turns (s'.node i) fun master => ¬ s.Follower master) :
    s'.Straight name := by
  have named : ∀ k, (s'.node k).name = name k := fun k => by
    by_cases same : k = i
    · subst same; rw [turns.name, h.named]
    · rw [others k same, h.named]
  refine ⟨named, ?_⟩
  -- The node that turns, and the node it is said to be in a circle with.
  have turned {b : ι} (ne : b ≠ i) (follows : s'.Follows i (s'.node b).name)
      (back : s'.Follows b (s'.node i).name) : False := by
    have back : s.Follows b (s.node i).name := by
      rw [turns.name] at back
      simpa only [Follows, others b ne] using back
    rw [others b ne] at follows
    rcases turns.master follows.1 with ⟨ready, master⟩ | own | free
    · exact h.straight ⟨i, b, Ne.symm ne, ⟨ready, master ▸ follows.2⟩, back⟩
    · rw [follows.2, h.named, h.named] at own
      exact ne (injective own)
    · refine free ⟨b, follows.2.symm, back.1, ?_⟩
      rw [back.2, follows.2, h.named, h.named]
      exact fun e => ne (injective e).symm
  rintro ⟨a, b, ne, ab, ba⟩
  by_cases ha : a = i
  · subst ha
    exact turned (Ne.symm ne) ab ba
  by_cases hb : b = i
  · subst hb
    exact turned ne ba ab
  · refine h.straight ⟨a, b, ne, ?_, ?_⟩
    · simpa only [Follows, others a ha, others b hb] using ab
    · simpa only [Follows, others a ha, others b hb] using ba

theorem Straight.still {name : ι → String} {s s' : Network ι} (h : s.Straight name)
    (still : s'.node = s.node) : s'.Straight name := by
  constructor
  · simpa only [still] using h.named
  · simpa only [Circle, Follows, still] using h.straight

variable [DecidableEq ι]

theorem Straight.finish {name : ι → String} (injective : Function.Injective name)
    {s : Network ι} (h : s.Straight name) {i : ι} {o : Outcome}
    (turns : ∀ p ∈ o, (s.node i).Turns p.1 fun master => ¬ s.Follower master) :
    (s.finish i o).Straight name := by
  match o with
  | none => exact h.still rfl
  | some (n, written) =>
    refine h.turn injective (i := i) (fun k ne => ?_) ?_
    · exact Function.update_of_ne ne n s.node
    · have here : (s.finish i (some (n, written))).node i = n := by simp [Network.finish, send]
      rw [here]
      exact turns (n, written) rfl

theorem Straight.receive {name : ι → String} (injective : Function.Injective name)
    {s s' : Network ι} (h : s.Straight name) {i : ι} {f : Frame} {now : Timestamp}
    {order : List String} {fails : Option Nat}
    (sincere : (s.node i).adopts f.sys.self = true → ¬ s.Follower f.sys.self.masterIdentifier)
    (hs : s.receive i f now order fails = some s') : s'.Straight name := by
  unfold Network.receive at hs
  split at hs
  · cases hs
    exact h
  · split at hs
    · cases hs
      refine h.finish injective fun (n, written) hp => ?_
      have turns := Node.reconciliate_turns hp
      refine ⟨turns.name, fun ready => ?_⟩
      rcases turns.master ready with same | own | ⟨adopted, eq⟩
      · exact .inl same
      · exact .inr (.inl own)
      · exact .inr (.inr (eq ▸ sincere adopted))
    · cases hs

theorem Straight.step {name : ι → String} (injective : Function.Injective name)
    {s s' : Network ι} (h : s.Straight name) {e : Event ι} (sincere : s.Sincere e)
    (hs : s.step e = some s') : s'.Straight name := by
  cases e with
  | announce i =>
    simp only [Network.step] at hs
    split at hs
    · cases hs
      exact h.still rfl
    · cases hs
  | task i t =>
    cases t with
    | reconciliate => cases hs
    | openSysHandler =>
      simp only [Network.step] at hs
      split at hs
      · cases hs
        refine h.finish injective fun (n, written) hp => ?_
        cases hp
        exact .same rfl rfl
      · cases hs
    | heartbeat now fails =>
      simp only [Network.step] at hs
      split at hs
      · cases hs
        exact h.finish injective fun (n, written) hp => Node.heartbeat_turns hp _
      · cases hs
    | forward m order fails =>
      simp only [Network.step] at hs
      split at hs
      · cases hs
        exact h.finish injective fun (n, written) hp => Node.forward_turns hp _
      · cases hs
  | deliver i index now order fails =>
    simp only [Network.step] at hs
    split at hs
    · cases hs
    · next f found =>
      have moved : Straight name { s with
          flight := Function.update s.flight i ((s.flight i).eraseIdx index) } := h.still rfl
      exact moved.receive injective (sincere f found) hs
  | duplicate i index =>
    simp only [Network.step] at hs
    split at hs
    · cases hs
    · cases hs
      exact h.still rfl
  | lose i index =>
    simp only [Network.step] at hs
    split at hs
    · cases hs
      exact h.still rfl
    · cases hs
  | destroy i now =>
    simp only [Network.step] at hs
    split at hs
    · cases hs
      refine h.turn injective (i := i) (fun k ne => ?_) ?_
      · exact Function.update_of_ne ne _ s.node
      · simp only [send, Function.update_self]
        exact ⟨rfl, nofun⟩
    · cases hs

/-- No two nodes follow each other while no node takes over a master that follows
another. -/
theorem noCircle (name : ι → String) (injective : Function.Injective name)
    (time : ι → Timestamp) {s : Network ι} (hs : ReachesBy step Sincere (start name time) s) :
    ∀ a b, a ≠ b → s.Follows a (s.node b).name → ¬ s.Follows b (s.node a).name := by
  have straight : s.Straight name :=
    hs.invariant (Straight.start name time) fun h ok ha => h.step injective ok ha
  exact fun a b ne ab ba => straight.straight ⟨a, b, ne, ab, ba⟩

def pair (b : Bool) : String := cond b "b" "a"

/-- Node `b` follows node `a`, which has elected itself. -/
theorem noCircle_pair :
    ∃ s, ReachesBy step Sincere (start pair fun _ => {}) s ∧ s.Follows true "a" ∧
      ∀ a b, a ≠ b → s.Follows a (s.node b).name → ¬ s.Follows b (s.node a).name := by
  let events : List (Event Bool) :=
    [.task false .openSysHandler, .task true .openSysHandler] ++
      List.replicate 3 (.task false (.heartbeat {})) ++ [.deliver true 2 {} []]
  have ran : ((execBy step Sincere (start pair fun _ => {}) events).map fun s =>
      decide (s.Follows true "a")) = some true := by decide
  obtain ⟨s, run, follows⟩ := Option.map_eq_some_iff.mp ran
  exact ⟨s, .of_execBy run, of_decide_eq_true follows,
    noCircle pair (by decide) (fun _ => {}) (.of_execBy run)⟩

-- ---------------------------------------------------------------------------
-- Two nodes in a circle
-- ---------------------------------------------------------------------------

def four (i : Fin 4) : String :=
  match i with
  | 0 => "a"
  | 1 => "b"
  | 2 => "c"
  | 3 => "d"

/-- `c` and `d` are the senior nodes. -/
def ages (i : Fin 4) : Timestamp :=
  match i with
  | 0 => ⟨3, 0⟩
  | 1 => ⟨4, 0⟩
  | 2 => ⟨1, 0⟩
  | 3 => ⟨2, 0⟩

/-- Nodes `a` and `b` elect themselves, `c` follows `a` and `d` follows `b`. What
`c` says of its master makes `b` follow `a`, what `d` says makes `a` follow `b`. -/
def circling : List (Event (Fin 4)) :=
  ([0, 1, 2, 3] : List (Fin 4)).map (fun i => Event.task i .openSysHandler) ++
    List.replicate 3 (Event.task 0 (.heartbeat {})) ++ List.replicate 3 (Event.task 1 (.heartbeat {})) ++
    [Event.deliver 2 2 {} [], .deliver 3 5 {} [], .deliver 1 6 {} [], .deliver 0 7 {} []] ++
    ([0, 1, 2, 3] : List (Fin 4)).flatMap fun i => List.replicate 9 (Event.lose i 0)

theorem circle :
    ¬ ∀ (name : Fin 4 → String) (time : Fin 4 → Timestamp), Function.Injective name →
      Function.Injective time → ∀ s, ReachesBy step (fun _ e => e.plain) (start name time) s →
        s.Quiet → ∀ a b, a ≠ b → s.Follows a (s.node b).name →
          ¬ s.Follows b (s.node a).name := by
  intro all
  have ran : ((execBy step (fun _ e => e.plain = true) (start four ages) circling).map fun s =>
      decide (s.Quiet ∧ s.Follows 0 (s.node 1).name ∧ s.Follows 1 (s.node 0).name)) =
      some true := by decide
  obtain ⟨s, run, follows⟩ := Option.map_eq_some_iff.mp ran
  obtain ⟨quiet, ab, ba⟩ := of_decide_eq_true follows
  exact all four ages (by decide) (by decide) s (.of_execBy run) quiet 0 1 (by decide) ab ba

end Network
end Dmn.DMesgNet
