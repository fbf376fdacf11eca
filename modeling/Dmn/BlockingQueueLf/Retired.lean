import Dmn.BlockingQueueLf.Order

/-!
# The retired nodes of the lock-free queue

An unlinked node is with the thread that unlinked it, on the list of one
bucket, on a list that one thread has detached, or freed. `Effect` says once
what a step does to these places; that each node is at one of them holds in
every run, and with it that none is freed twice.
-/

namespace Dmn.BlockingQueueLf

open Lib

namespace Pc

variable {T : Type}

/-- The first node of the list that a thread has detached. -/
def taken : Pc T → Option Address
  | .enter _ (.sweepFree _ _ node) | .leave _ (.free node) => node
  | _ => none

/-- The bucket whose list a thread is about to detach, with its first node. -/
def detaches : Pc T → Option (EpochIndex × Address)
  | .enter _ (.sweepDetach _ index ptr) | .leave index (.detach ptr) => some (index, ptr)
  | _ => none

/-- The node that a pop has unlinked and not parked yet. -/
def retiring : Pc T → Option Address
  | .pop _ _ (.retireLoad first _) | .pop _ _ (.retireStore first _ _)
  | .pop _ _ (.retireSwap first _ _) => some first
  | _ => none

/-- The bucket in which a pop is to park the node it has unlinked. -/
def parks : Pc T → Option EpochIndex
  | .pop ticket _ (.retireLoad _ _) | .pop ticket _ (.retireStore _ _ _)
  | .pop ticket _ (.retireSwap _ _ _) => some ticket
  | _ => none

/-- The node to be parked points to the list it was read from. -/
def Stored (next : Address → Option Address) : Pc T → Prop
  | .pop _ _ (.retireSwap first _ top) => next first = top
  | _ => True

/-- A place at which a thread has no retired node. -/
def bare : Pc T → Bool
  | .enter _ (.sweepFree _ _ _) | .leave _ (.free _) | .pop _ _ (.retireLoad _ _)
  | .pop _ _ (.retireStore _ _ _) | .pop _ _ (.retireSwap _ _ _) => false
  | _ => true

/-- From one place to another with the same nodes. -/
structure Keeps (p q : Pc T) : Prop where
  taken : q.taken = p.taken
  retiring : q.retiring = p.retiring
  parks : q.parks = p.parks
  stored : ∀ next, q.Stored next
  inGuard : p.inGuard → q.inGuard

theorem bare_taken {p : Pc T} (h : p.bare) : p.taken = none := by
  cases p with
  | enter op at_ => cases at_ <;> first | rfl | cases h
  | leave ticket at_ => cases at_ <;> first | rfl | cases h
  | _ => rfl

theorem bare_retiring {p : Pc T} (h : p.bare) : p.retiring = none := by
  cases p with
  | pop ticket popping at_ => cases at_ <;> first | rfl | cases h
  | _ => rfl

theorem parks_none {p : Pc T} (h : p.retiring = none) : p.parks = none := by
  cases p with
  | pop ticket popping at_ => cases at_ <;> first | rfl | cases h
  | _ => rfl

theorem bare_stored {p : Pc T} (h : p.bare) (next : Address → Option Address) : p.Stored next := by
  cases p with
  | pop ticket popping at_ => cases at_ <;> trivial
  | _ => trivial

theorem bare_keeps {p q : Pc T} (hp : p.bare) (hq : q.bare) (h : p.inGuard → q.inGuard) :
    p.Keeps q where
  taken := (bare_taken hq).trans (bare_taken hp).symm
  retiring := (bare_retiring hq).trans (bare_retiring hp).symm
  parks := (parks_none (bare_retiring hq)).trans (parks_none (bare_retiring hp)).symm
  stored := bare_stored hq
  inGuard := h

theorem detaches_bare {p : Pc T} (h : p.detaches = some x) : p.bare ∧ p.inGuard = false := by
  cases p with
  | enter op at_ => cases at_ <;> first | exact ⟨rfl, rfl⟩ | cases h
  | leave ticket at_ => cases at_ <;> first | exact ⟨rfl, rfl⟩ | cases h
  | _ => cases h

theorem popped_bare {ticket : EpochIndex} {result : Option T} {popping : Popping T} :
    (State.popped ticket result popping).bare ∧ (State.popped ticket result popping).inGuard := by
  cases popping <;> exact ⟨rfl, rfl⟩

theorem start_bare {ticket : EpochIndex} {op : Operation T} :
    (op.start ticket).bare ∧ (op.start ticket).inGuard := by
  cases op <;> exact ⟨rfl, rfl⟩

end Pc

def Action.thread {ι T : Type} : Action ι T → ι
  | .call t _ | .run t | .casFails t | .timeout t => t

namespace State

variable {ι T : Type} [Inhabited T] {s s' : State ι T} {t : ι} {p : Pc T}

-- ---------------------------------------------------------------------------
-- Each retired node is at one place
-- ---------------------------------------------------------------------------

/-- The nodes at a place are the list that starts at a pointer. -/
def Holds (s : State ι T) (place : Place ι) (a : Option Address) : Prop :=
  ∃ l, Linked s.epochs.retiredNext a l ∧ ∀ n, n ∈ l ↔ s.history.place n = place

structure Accounted (s : State ι T) : Prop where
  buckets : ∀ i, s.Holds (.bucket i) (s.epochs.reclaimNode i)
  taken : ∀ t, s.Holds (.detached t) (s.pc t).taken
  retiring : ∀ t n, s.history.place n = .held t ↔ (s.pc t).retiring = some n
  stored : ∀ t, (s.pc t).Stored s.epochs.retiredNext
  live : ∀ n, s.history.place n = .live ↔ n ∉ s.history.unlinked
  freed : ∀ n, n ∈ s.history.freed ↔ s.history.place n = .freed
  once : s.history.freed.Nodup

theorem Holds.congr {place : Place ι} (h : s.Holds place a)
    (hnext : s'.epochs.retiredNext = s.epochs.retiredNext)
    (hplace : ∀ n, s'.history.place n = place ↔ s.history.place n = place) : s'.Holds place a := by
  obtain ⟨l, hl, hmem⟩ := h
  exact ⟨l, hnext ▸ hl, fun n => (hmem n).trans (hplace n).symm⟩

/-- The pointer of a node at another place is written. -/
theorem Holds.write {place : Place ι} (h : s.Holds place a)
    (hnext : s'.epochs.retiredNext = Function.update s.epochs.retiredNext n b)
    (hplace : s'.history.place = s.history.place) (hn : s.history.place n ≠ place) :
    s'.Holds place a := by
  obtain ⟨l, hl, hmem⟩ := h
  refine ⟨l, ?_, fun m => by rw [hmem m, hplace]⟩
  rw [hnext]
  exact hl.update (fun hm => hn ((hmem n).mp hm)) b

/-- A node is put in front of the list of its new place. -/
theorem Holds.cons {place : Place ι} (h : s.Holds place a) (hn : s.epochs.retiredNext n = a)
    (hnext : s'.epochs.retiredNext = s.epochs.retiredNext)
    (hplace : ∀ m, s'.history.place m = place ↔ m = n ∨ s.history.place m = place) :
    s'.Holds place (some n) := by
  obtain ⟨l, hl, hmem⟩ := h
  refine ⟨n :: l, ?_, fun m => ?_⟩
  · rw [hnext]
    exact hl.cons hn
  · rw [List.mem_cons, hmem m, hplace m]

/-- The first node of a list leaves its place. -/
theorem Holds.tail {place : Place ι} (h : s.Holds place (some n))
    (hnext : s'.epochs.retiredNext = s.epochs.retiredNext)
    (hplace : ∀ m, s'.history.place m = place ↔ m ≠ n ∧ s.history.place m = place) :
    s'.Holds place (s.epochs.retiredNext n) := by
  obtain ⟨l, hl, hmem⟩ := h
  cases l with
  | nil => cases hl
  | cons x l =>
    obtain rfl := Option.some.inj hl.1
    have hx := (List.nodup_cons.mp hl.nodup).1
    refine ⟨l, hnext ▸ hl.2, fun m => ?_⟩
    rw [hplace m, ← hmem m, List.mem_cons]
    constructor
    · exact fun hm => ⟨fun heq => hx (heq ▸ hm), .inr hm⟩
    · exact fun ⟨hne, hm⟩ => hm.resolve_left hne

theorem Holds.nothing {place : Place ι} (h : ∀ n, s.history.place n ≠ place) : s.Holds place none :=
  ⟨[], rfl, fun n => ⟨nofun, fun hn => absurd hn (h n)⟩⟩

theorem Holds.empty {place : Place ι} (h : s.Holds place none) (n : Address) :
    s.history.place n ≠ place := by
  obtain ⟨l, hl, hmem⟩ := h
  cases l with
  | nil => exact fun hn => List.not_mem_nil ((hmem n).mpr hn)
  | cons x l => cases hl.1

theorem Holds.head {place : Place ι} (h : s.Holds place (some n)) : s.history.place n = place := by
  obtain ⟨l, hl, hmem⟩ := h
  cases l with
  | nil => cases hl
  | cons x l =>
    obtain rfl := Option.some.inj hl.1
    exact (hmem n).mp List.mem_cons_self

/-- One node moves between two places; a third one keeps its nodes. -/
theorem update_place {place : Address → Place ι} {x y : Place ι} (hn : place n ≠ y) (hx : x ≠ y)
    (m : Address) : Function.update place n x m = y ↔ place m = y := by
  by_cases hm : m = n
  · subst hm
    simp [hn, hx]
  · rw [Function.update_of_ne hm]

theorem Accounted.empty : ({} : State ι T).Accounted where
  buckets _ := .nothing fun _ => nofun
  taken _ := .nothing fun _ => nofun
  retiring _ _ := ⟨nofun, nofun⟩
  stored _ := trivial
  live _ := ⟨fun _ => nofun, fun _ => rfl⟩
  freed _ := ⟨nofun, nofun⟩
  once := .nil

-- ---------------------------------------------------------------------------
-- What a step does to the retired nodes
-- ---------------------------------------------------------------------------

structure SameRetired (s s' : State ι T) : Prop where
  reclaimNode : s'.epochs.reclaimNode = s.epochs.reclaimNode
  retiredNext : s'.epochs.retiredNext = s.epochs.retiredNext
  unlinked : s'.history.unlinked = s.history.unlinked
  place : s'.history.place = s.history.place
  freed : s'.history.freed = s.history.freed

structure SameWitness (s s' : State ι T) : Prop where
  seen : s'.history.seen = s.history.seen
  during : s'.history.during = s.history.during
  removing : s'.history.removing = s.history.removing

@[simp] theorem moveTail_epochs : (s.moveTail last next).epochs = s.epochs := by
  unfold State.moveTail
  split <;> rfl

theorem moveTail_same : s.SameRetired (s.moveTail last next) ∧ s.SameWitness (s.moveTail last next) := by
  unfold State.moveTail
  split <;> exact ⟨⟨rfl, rfl, rfl, rfl, rfl⟩, rfl, rfl, rfl⟩

variable [DecidableEq ι]

/-- What a step of a thread does to the retired nodes. -/
inductive Effect (s : State ι T) (t : ι) : State ι T → Prop
  | quiet {s' : State ι T} (p : Pc T) : s.SameRetired s' → s.SameWitness s' →
      s'.pc = Function.update s.pc t p → (s.pc t).Keeps p → Effect s t s'
  | read (ptr : Option Address) (p : Pc T) : (s.pc t).bare → (s.pc t).inGuard → p.bare → p.inGuard →
      Effect s t ((s.see t ptr).goto t p)
  | leave {s' : State ι T} (p : Pc T) : s.SameRetired s' →
      s'.history.seen = Function.update s.history.seen t [] →
      s'.history.during = Function.update s.history.during t [] →
      s'.history.removing = Function.update s.history.removing t [] →
      s'.pc = Function.update s.pc t p → (s.pc t).bare → p.bare → Effect s t s'
  | unlink : s.pc t = .pop ticket popping (.swing first next) → s.queue.head = some first →
      Effect s t ((s.unlink t ticket first next).goto t (.pop ticket popping (.retireLoad first next)))
  | store : s.pc t = .pop ticket popping (.retireStore first next top) →
      Effect s t (s.runPop t ticket popping (.retireStore first next top))
  | park : s.pc t = .pop ticket popping (.retireSwap first next top) →
      s.epochs.reclaimNode ticket = top →
      Effect s t (({ s with
        epochs := { s.epochs with
          reclaimNode := Function.update s.epochs.reclaimNode ticket (some first) }
        history := { s.history with
          place := Function.update s.history.place first (.bucket ticket) } } : State ι T).goto t
        (.pop ticket popping (.countDown next)))
  | detach (p : Pc T) : (s.pc t).detaches = some (index, ptr) → s.epochs.reclaimNode index = some ptr →
      p.taken = some ptr → p.retiring = none → (∀ next, p.Stored next) →
      Effect s t ((s.detach t index).goto t p)
  | free (node : Address) (p : Pc T) : (s.pc t).taken = some node → (s.pc t).retiring = none →
      (s.pc t).inGuard = false → p.taken = s.epochs.retiredNext node → p.retiring = none →
      (∀ next, p.Stored next) → Effect s t ((s.free node).goto t p)

/-- A step that only moves the thread. -/
theorem Effect.moves (p : Pc T) (h : (s.pc t).Keeps p) : s.Effect t (s.goto t p) :=
  .quiet p ⟨rfl, rfl, rfl, rfl, rfl⟩ ⟨rfl, rfl, rfl⟩ rfl h

theorem runEnter_effect (hpc : s.pc t = .enter op at_) : s.Effect t (s.runEnter t op at_) := by
  cases at_ with
  | total =>
    exact .quiet _ ⟨rfl, rfl, rfl, rfl, rfl⟩ ⟨rfl, rfl, rfl⟩ rfl (by
      rw [hpc]; exact Pc.bare_keeps rfl rfl (by rintro ⟨⟩))
  | load total =>
    refine .moves _ ?_
    rw [hpc]
    split <;> exact Pc.bare_keeps rfl rfl (by rintro ⟨⟩)
  | swap total ep =>
    simp only [runEnter]
    split
    · exact .quiet _ ⟨rfl, rfl, rfl, rfl, rfl⟩ ⟨rfl, rfl, rfl⟩ rfl (by
        rw [hpc]; exact Pc.bare_keeps rfl rfl (by rintro ⟨⟩))
    · exact .moves _ (by rw [hpc]; exact Pc.bare_keeps rfl rfl (by rintro ⟨⟩))
  | sweep epochIndex index =>
    refine .moves _ ?_
    rw [hpc]
    split
    · split <;> exact Pc.bare_keeps rfl rfl (by rintro ⟨⟩)
    · exact Pc.bare_keeps rfl rfl (by rintro ⟨⟩)
  | sweepLoad epochIndex index =>
    refine .moves _ ?_
    rw [hpc]
    split <;> exact Pc.bare_keeps rfl rfl (by rintro ⟨⟩)
  | sweepDetach epochIndex index ptr =>
    simp only [runEnter]
    split
    · rename_i hptr
      exact .detach _ (by rw [hpc]; rfl) hptr rfl rfl fun _ => trivial
    · exact .moves _ (by rw [hpc]; exact Pc.bare_keeps rfl rfl (by rintro ⟨⟩))
  | sweepFree epochIndex index node =>
    cases node with
    | none => exact .moves _ (by rw [hpc]; exact ⟨rfl, rfl, rfl, fun _ => trivial, by rintro ⟨⟩⟩)
    | some node =>
      exact .free node _ (by rw [hpc]; rfl) (by rw [hpc]; rfl) (by rw [hpc]; rfl) rfl rfl fun _ => trivial
  | count epochIndex =>
    refine .quiet _ ⟨rfl, rfl, rfl, rfl, rfl⟩ ⟨rfl, rfl, rfl⟩ rfl ?_
    rw [hpc]
    exact Pc.bare_keeps rfl Pc.start_bare.1 (by rintro ⟨⟩)

theorem runPush_effect (hpc : s.pc t = .push ticket item at_) :
    s.Effect t (s.runPush t ticket item at_) := by
  have hmoves : ∀ at_', (s.pc t).Keeps (.push ticket item at_') := fun at_' => by
    rw [hpc]
    exact Pc.bare_keeps rfl rfl fun _ => rfl
  cases at_ with
  | count => exact .quiet _ ⟨rfl, rfl, rfl, rfl, rfl⟩ ⟨rfl, rfl, rfl⟩ rfl (hmoves _)
  | loadTail new | loadNext new last =>
    exact .read _ _ (by rw [hpc]; rfl) (by rw [hpc]; rfl) rfl rfl
  | recheck new last next => exact .moves _ (hmoves _)
  | link new last =>
    simp only [State.runPush]
    split
    · exact .quiet _ ⟨rfl, rfl, rfl, rfl, rfl⟩ ⟨rfl, rfl, rfl⟩ rfl (hmoves _)
    · exact .moves _ (hmoves _)
  | help new last next =>
    obtain ⟨h1, h2⟩ : s.SameRetired (s.moveTail last next) ∧ _ := moveTail_same
    exact .quiet _ ⟨h1.1, h1.2, h1.3, h1.4, h1.5⟩ ⟨h2.1, h2.2, h2.3⟩
      (congrArg (Function.update · t _) moveTail_pc) (hmoves _)
  | swing new last =>
    obtain ⟨h1, h2⟩ : s.SameRetired (s.moveTail last new) ∧ _ := moveTail_same
    exact .quiet _ ⟨h1.1, h1.2, h1.3, h1.4, h1.5⟩ ⟨h2.1, h2.2, h2.3⟩
      (congrArg (Function.update · t _) moveTail_pc) (hmoves _)
  | total =>
    refine .quiet _ ⟨rfl, rfl, rfl, rfl, rfl⟩ ⟨rfl, rfl, rfl⟩ rfl ?_
    rw [hpc]
    exact Pc.bare_keeps rfl rfl fun _ => rfl

theorem runPop_effect (hpc : s.pc t = .pop ticket popping at_) :
    s.Effect t (s.runPop t ticket popping at_) := by
  have hmoves : ∀ p, (Pc.pop ticket popping at_).bare → p.bare ∧ p.inGuard → (s.pc t).Keeps p :=
    fun p hbare hp => by
      rw [hpc]
      exact Pc.bare_keeps hbare hp.1 fun _ => hp.2
  cases at_ with
  | loadTail | loadHead last => exact .read _ _ (by rw [hpc]; rfl) (by rw [hpc]; rfl) rfl rfl
  | loadNext last first =>
    cases first with
    | none => exact .moves _ (hmoves _ rfl ⟨rfl, rfl⟩)
    | some first => exact .read _ _ (by rw [hpc]; rfl) (by rw [hpc]; rfl) rfl rfl
  | recheck last first next =>
    refine .moves _ (hmoves _ rfl ?_)
    split
    · split
      · cases next with
        | none =>
          dsimp only
          split
          · exact ⟨rfl, rfl⟩
          · exact Pc.popped_bare
        | some next => exact ⟨rfl, rfl⟩
      · exact ⟨rfl, rfl⟩
    · exact ⟨rfl, rfl⟩
  | spin last =>
    simp only [State.runPop]
    split
    · refine .quiet (s.pc t) ⟨rfl, rfl, rfl, rfl, rfl⟩ ⟨rfl, rfl, rfl⟩ (Function.update_eq_self ..).symm ?_
      exact hmoves _ rfl (by rw [hpc]; exact ⟨rfl, rfl⟩)
    · exact .moves _ (hmoves _ rfl ⟨rfl, rfl⟩)
  | help last next =>
    obtain ⟨h1, h2⟩ : s.SameRetired (s.moveTail last next) ∧ _ := moveTail_same
    exact .quiet _ ⟨h1.1, h1.2, h1.3, h1.4, h1.5⟩ ⟨h2.1, h2.2, h2.3⟩
      (congrArg (Function.update · t _) moveTail_pc) (hmoves _ rfl ⟨rfl, rfl⟩)
  | swing first next =>
    simp only [State.runPop]
    split
    · rename_i hhead
      exact .unlink hpc hhead
    · exact .moves _ (hmoves _ rfl ⟨rfl, rfl⟩)
  | retireLoad first next =>
    exact .moves _ (by rw [hpc]; exact ⟨rfl, rfl, rfl, fun _ => trivial, id⟩)
  | retireStore first next top => exact .store hpc
  | retireSwap first next top =>
    simp only [State.runPop]
    split
    · rename_i htop
      exact .park hpc htop
    · exact .moves _ (by rw [hpc]; exact ⟨rfl, rfl, rfl, fun _ => trivial, id⟩)
  | countDown next =>
    exact .quiet _ ⟨rfl, rfl, rfl, rfl, rfl⟩ ⟨rfl, rfl, rfl⟩ rfl (hmoves _ rfl ⟨rfl, rfl⟩)
  | take next =>
    cases next with
    | none => exact .moves _ (hmoves _ rfl ⟨rfl, rfl⟩)
    | some node =>
      exact .quiet _ ⟨rfl, rfl, rfl, rfl, rfl⟩ ⟨rfl, rfl, rfl⟩ rfl (hmoves _ rfl Pc.popped_bare)
  | again =>
    refine .moves _ (hmoves _ rfl ?_)
    split
    · exact ⟨rfl, rfl⟩
    · split <;> exact ⟨rfl, rfl⟩

theorem runLeave_effect (hpc : s.pc t = .leave ticket at_) : s.Effect t (s.runLeave t ticket at_) := by
  cases at_ with
  | count =>
    refine .leave _ ⟨rfl, rfl, rfl, rfl, rfl⟩ rfl rfl rfl rfl (by rw [hpc]; rfl) ?_
    split <;> rfl
  | load =>
    refine .moves _ ?_
    rw [hpc]
    split <;> exact Pc.bare_keeps rfl rfl (by rintro ⟨⟩)
  | take =>
    refine .moves _ ?_
    rw [hpc]
    split <;> exact Pc.bare_keeps rfl rfl (by rintro ⟨⟩)
  | detach ptr =>
    simp only [runLeave]
    split
    · rename_i hptr
      exact .detach _ (by rw [hpc]; rfl) hptr rfl rfl fun _ => trivial
    · exact .moves _ (by rw [hpc]; exact Pc.bare_keeps rfl rfl (by rintro ⟨⟩))
  | free node =>
    cases node with
    | none => exact .moves _ (by rw [hpc]; exact ⟨rfl, rfl, rfl, fun _ => trivial, by rintro ⟨⟩⟩)
    | some node =>
      exact .free node _ (by rw [hpc]; rfl) (by rw [hpc]; rfl) (by rw [hpc]; rfl) rfl rfl fun _ => trivial

theorem step_effect {x : Action ι T} (hs : s.step x = some s') : s.Effect x.thread s' := by
  cases x with
  | call t call =>
    simp only [State.step] at hs
    split at hs
    · rename_i hpc
      obtain ⟨op, -, rfl⟩ := Option.map_eq_some_iff.mp hs
      exact Effect.moves (t := t) _ (by rw [hpc]; exact Pc.bare_keeps rfl rfl (by rintro ⟨⟩))
    · cases hs
  | run t =>
    simp only [State.step, State.run] at hs
    split at hs
    · cases hs
    · cases hs
    · rename_i hpc
      exact Option.some.inj hs ▸ runEnter_effect hpc
    · rename_i hpc
      exact Option.some.inj hs ▸ runPush_effect hpc
    · rename_i hpc
      exact Option.some.inj hs ▸ runPop_effect hpc
    · rename_i hpc
      exact Option.some.inj hs ▸ runLeave_effect hpc
  | casFails t =>
    simp only [State.step] at hs
    split at hs
    · rename_i hpc
      obtain rfl := Option.some.inj hs
      exact Effect.moves (t := t) _ (by rw [hpc]; exact Pc.bare_keeps rfl rfl id)
    · cases hs
  | timeout t =>
    simp only [State.step] at hs
    split at hs
    · rename_i hpc
      obtain rfl := Option.some.inj hs
      exact Effect.moves (t := t) _ (by rw [hpc]; exact Pc.bare_keeps rfl rfl id)
    · cases hs

-- ---------------------------------------------------------------------------
-- Every step keeps the account
-- ---------------------------------------------------------------------------

theorem taken_update {u : ι} (hp : p.taken = (s.pc t).taken) :
    (Function.update s.pc t p u).taken = (s.pc u).taken := update_same Pc.taken hp u

theorem stored_update {next : Address → Option Address} (h : ∀ u, (s.pc u).Stored next)
    (hp : p.Stored next) (u : ι) : (Function.update s.pc t p u).Stored next := by
  by_cases hu : u = t
  · subst hu
    rwa [Function.update_self]
  · rw [Function.update_of_ne hu]
    exact h u

theorem Accounted.quiet (h : s.Accounted) (hs : s.SameRetired s')
    (hpc : s'.pc = Function.update s.pc t p) (htaken : p.taken = (s.pc t).taken)
    (hretiring : p.retiring = (s.pc t).retiring) (hstored : ∀ next, p.Stored next) : s'.Accounted where
  buckets i := by
    rw [hs.reclaimNode]
    exact (h.buckets i).congr hs.retiredNext fun n => by rw [hs.place]
  taken u := by
    rw [hpc, taken_update htaken]
    exact (h.taken u).congr hs.retiredNext fun n => by rw [hs.place]
  retiring u n := by
    rw [hpc, update_same Pc.retiring hretiring, hs.place]
    exact h.retiring u n
  stored u := by
    rw [hpc, hs.retiredNext]
    exact stored_update h.stored (hstored _) u
  live n := by
    rw [hs.place, hs.unlinked]
    exact h.live n
  freed n := by
    rw [hs.place, hs.freed]
    exact h.freed n
  once := hs.freed ▸ h.once

theorem Accounted.unlink (h : s.Accounted) (hc : s.Chain)
    (hpc : s.pc t = .pop ticket popping (.swing first next)) (hhead : s.queue.head = some first) :
    ((s.unlink t ticket first next).goto t (.pop ticket popping (.retireLoad first next))).Accounted := by
  have hlive : s.history.place first = .live := (h.live first).mpr (hc.head_fresh hhead)
  have hplace : ∀ y : Place ι, y ≠ .live → y ≠ .held t → ∀ m,
      Function.update s.history.place first (.held t) m = y ↔ s.history.place m = y :=
    fun _ hl hh => update_place (hlive ▸ hl.symm) hh.symm
  refine ⟨fun i => (h.buckets i).congr rfl (hplace _ nofun nofun), fun u => ?_, fun u n => ?_, ?_, fun n => ?_,
    fun n => (h.freed n).trans (hplace .freed nofun nofun n).symm, h.once⟩
  · have htaken := taken_update (s := s) (t := t) (u := u) (p := .pop ticket popping (.retireLoad first next))
      (by rw [hpc]; rfl)
    show Holds _ _ (Function.update s.pc t _ u).taken
    rw [htaken]
    exact (h.taken u).congr rfl (hplace _ nofun nofun)
  · show Function.update s.history.place first (.held t) n = .held u ↔
      (Function.update s.pc t (.pop ticket popping (.retireLoad first next)) u).retiring = some n
    by_cases hu : u = t
    · subst hu
      rw [Function.update_self]
      by_cases hn : n = first
      · subst hn
        simp [Pc.retiring]
      · rw [Function.update_of_ne hn, h.retiring u n, hpc]
        simp [Pc.retiring, Ne.symm hn]
    · rw [Function.update_of_ne hu, ← h.retiring u n]
      exact hplace (.held u) nofun (fun heq => hu (by cases heq; rfl)) n
  · exact stored_update h.stored trivial
  · show Function.update s.history.place first (.held t) n = .live ↔ n ∉ s.history.unlinked ++ [first]
    by_cases hn : n = first
    · subst hn
      simp
    · rw [Function.update_of_ne hn, h.live n]
      simp [hn]

theorem Accounted.store (h : s.Accounted)
    (hpc : s.pc t = .pop ticket popping (.retireStore first next top)) :
    (s.runPop t ticket popping (.retireStore first next top)).Accounted := by
  have hheld : s.history.place first = .held t := (h.retiring t first).mpr (by rw [hpc]; rfl)
  refine ⟨fun i => (h.buckets i).write rfl rfl (by simp [hheld]), fun u => ?_, fun u n => ?_, fun u => ?_,
    h.live, h.freed, h.once⟩
  · have htaken := taken_update (s := s) (t := t) (u := u)
      (p := .pop ticket popping (.retireSwap first next top)) (by rw [hpc]; rfl)
    show Holds _ _ (Function.update s.pc t _ u).taken
    rw [htaken]
    exact (h.taken u).write rfl rfl (by simp [hheld])
  · have hretiring := update_same (s := s) (t := t)
      (p := .pop ticket popping (.retireSwap first next top)) Pc.retiring (by rw [hpc]; rfl) u
    exact (h.retiring u n).trans (by rw [← hretiring]; rfl)
  · show (Function.update s.pc t (.pop ticket popping (.retireSwap first next top)) u).Stored
      (Function.update s.epochs.retiredNext first top)
    by_cases hu : u = t
    · subst hu
      rw [Function.update_self]
      exact Function.update_self ..
    · -- the node of another pop is another one
      rw [Function.update_of_ne hu]
      have hne : (s.pc u).retiring ≠ some first := fun heq => by
        have hplace := (h.retiring u first).mpr heq
        rw [hheld] at hplace
        exact hu (by cases hplace; rfl)
      have hold := h.stored u
      generalize s.pc u = q at hne hold ⊢
      unfold Pc.Stored at hold ⊢
      split
      · rw [Function.update_of_ne (by rintro rfl; exact hne rfl)]
        exact hold
      · trivial

theorem Accounted.park (h : s.Accounted)
    (hpc : s.pc t = .pop ticket popping (.retireSwap first next top))
    (htop : s.epochs.reclaimNode ticket = top)
    (hepochs : s'.epochs = { s.epochs with
      reclaimNode := Function.update s.epochs.reclaimNode ticket (some first) })
    (hhistory : s'.history = { s.history with
      place := Function.update s.history.place first (.bucket ticket) })
    (hpc' : s'.pc = Function.update s.pc t (.pop ticket popping (.countDown next))) : s'.Accounted := by
  have hheld : s.history.place first = .held t := (h.retiring t first).mpr (by rw [hpc]; rfl)
  have hplace' : s'.history.place = Function.update s.history.place first (.bucket ticket) := by
    rw [hhistory]
  have hplace : ∀ y : Place ι, y ≠ .held t → y ≠ .bucket ticket → ∀ m,
      s'.history.place m = y ↔ s.history.place m = y := fun y hh hb m => by
    rw [hplace']
    exact update_place (hheld ▸ hh.symm) hb.symm m
  have hnext : s'.epochs.retiredNext = s.epochs.retiredNext := by rw [hepochs]
  refine ⟨fun i => ?_, fun u => ?_, fun u n => ?_, fun u => ?_, fun n => ?_, fun n => ?_, ?_⟩
  · rw [hepochs]
    by_cases hi : i = ticket
    · subst hi
      have hstored := h.stored t
      rw [hpc] at hstored
      show Holds _ _ (Function.update s.epochs.reclaimNode i (some first) i)
      rw [Function.update_self]
      refine (h.buckets i).cons (hstored.trans htop.symm) hnext fun m => ?_
      rw [hplace']
      by_cases hm : m = first
      · simp [hm]
      · simp [hm]
    · show Holds _ _ (Function.update s.epochs.reclaimNode ticket (some first) i)
      rw [Function.update_of_ne hi]
      exact (h.buckets i).congr hnext (hplace _ nofun fun heq => hi (by cases heq; rfl))
  · rw [hpc', taken_update (by rw [hpc]; rfl)]
    exact (h.taken u).congr hnext (hplace _ nofun nofun)
  · rw [hpc']
    by_cases hu : u = t
    · subst hu
      rw [Function.update_self, hplace']
      by_cases hn : n = first
      · subst hn
        simp [Pc.retiring]
      · rw [Function.update_of_ne hn, h.retiring u n, hpc]
        simp [Pc.retiring, Ne.symm hn]
    · rw [Function.update_of_ne hu, ← h.retiring u n]
      exact hplace (.held u) (fun heq => hu (by cases heq; rfl)) nofun n
  · rw [hpc', hnext]
    exact stored_update h.stored (p := .pop ticket popping (.countDown next)) trivial u
  · rw [hplace .live nofun nofun, hhistory]
    exact h.live n
  · rw [hplace .freed nofun nofun, hhistory]
    exact h.freed n
  · rw [hhistory]
    exact h.once

theorem Accounted.detach (h : s.Accounted) (index : EpochIndex)
    (htaken : p.taken = s.epochs.reclaimNode index) (hbare : (s.pc t).bare) (hretiring : p.retiring = none)
    (hstored : ∀ next, p.Stored next) : ((s.detach t index).goto t p).Accounted := by
  have hnone : ∀ n, s.history.place n ≠ .detached t :=
    (Pc.bare_taken hbare ▸ h.taken t).empty
  have hplace : ∀ y : Place ι, y ≠ .bucket index → y ≠ .detached t → ∀ m,
      (s.detach t index).history.place m = y ↔ s.history.place m = y := fun y hb hd m => by
    show (if s.history.place m = .bucket index then Place.detached t else s.history.place m) = y ↔ _
    split
    · rename_i hm
      rw [hm]
      exact ⟨fun heq => absurd heq.symm hd, fun heq => absurd heq.symm hb⟩
    · rfl
  refine ⟨fun i => ?_, fun u => ?_, fun u n => ?_, fun u => ?_,
    fun n => (hplace .live nofun nofun n).trans (h.live n),
    fun n => (h.freed n).trans (hplace .freed nofun nofun n).symm, h.once⟩
  · show Holds _ _ (Function.update s.epochs.reclaimNode index none i)
    by_cases hi : i = index
    · subst hi
      rw [Function.update_self]
      refine .nothing fun n => ?_
      show (if s.history.place n = .bucket i then Place.detached t else s.history.place n) ≠ _
      split
      · exact nofun
      · assumption
    · rw [Function.update_of_ne hi]
      exact (h.buckets i).congr rfl (hplace _ (fun heq => hi (by cases heq; rfl)) nofun)
  · show Holds _ _ (Function.update s.pc t p u).taken
    by_cases hu : u = t
    · subst hu
      rw [Function.update_self, htaken]
      obtain ⟨l, hl, hmem⟩ := h.buckets index
      refine ⟨l, hl, fun n => ?_⟩
      show _ ↔ (if s.history.place n = .bucket index then Place.detached u else s.history.place n) = _
      rw [hmem n]
      split
      · simpa
      · exact ⟨fun hn => absurd hn ‹_›, fun hn => absurd hn (hnone n)⟩
    · rw [Function.update_of_ne hu]
      exact (h.taken u).congr rfl (hplace _ nofun fun heq => hu (by cases heq; rfl))
  · have hsame := update_same (s := s) (t := t) Pc.retiring
      (hretiring.trans (Pc.bare_retiring hbare).symm) u
    exact (hplace (.held u) nofun nofun n).trans ((h.retiring u n).trans (by rw [← hsame]; rfl))
  · exact stored_update h.stored (hstored _) u

theorem Accounted.free (h : s.Accounted) (node : Address) (hold : (s.pc t).taken = some node)
    (hnone : (s.pc t).retiring = none) (htaken : p.taken = s.epochs.retiredNext node)
    (hretiring : p.retiring = none) (hstored : ∀ next, p.Stored next) :
    ((s.free node).goto t p).Accounted := by
  have hlist := h.taken t
  rw [hold] at hlist
  have hdetached := hlist.head
  have hplace : ∀ y : Place ι, y ≠ .detached t → y ≠ .freed → ∀ m,
      Function.update s.history.place node .freed m = y ↔ s.history.place m = y :=
    fun _ hd hf => update_place (hdetached ▸ hd.symm) hf.symm
  refine ⟨fun i => (h.buckets i).congr rfl (hplace _ nofun nofun), fun u => ?_, fun u n => ?_, fun u => ?_,
    fun n => (hplace .live nofun nofun n).trans (h.live n), fun n => ?_, ?_⟩
  · show Holds _ _ (Function.update s.pc t p u).taken
    by_cases hu : u = t
    · subst hu
      rw [Function.update_self, htaken]
      show ((s.free node).goto u p).Holds _ _
      refine hlist.tail rfl fun m => ?_
      show Function.update s.history.place node .freed m = _ ↔ _
      by_cases hm : m = node
      · simp [hm]
      · simp [hm]
    · rw [Function.update_of_ne hu]
      exact (h.taken u).congr rfl (hplace _ (fun heq => hu (by cases heq; rfl)) nofun)
  · have hsame := update_same (s := s) (t := t) Pc.retiring (hretiring.trans hnone.symm) u
    exact (hplace (.held u) nofun nofun n).trans ((h.retiring u n).trans (by rw [← hsame]; rfl))
  · exact stored_update h.stored (hstored _) u
  · show n ∈ s.history.freed ++ [node] ↔ Function.update s.history.place node .freed n = .freed
    by_cases hn : n = node
    · simp [hn]
    · rw [Function.update_of_ne hn, ← h.freed n]
      simp [hn]
  · have hnode : node ∉ s.history.freed := fun hm => by
      rw [(h.freed node).mp hm] at hdetached
      cases hdetached
    exact List.nodup_append.mpr ⟨h.once, List.nodup_singleton _, fun x hx y hy => by
      rw [List.mem_singleton.mp hy]
      exact fun heq => hnode (heq ▸ hx)⟩

theorem Accounted.effect (h : s.Accounted) (hc : s.Chain) (he : s.Effect t s') : s'.Accounted := by
  cases he with
  | quiet p hs _ hpc hp => exact h.quiet hs hpc hp.taken hp.retiring hp.stored
  | read ptr p hold _ hnew =>
    exact h.quiet (t := t) ⟨rfl, rfl, rfl, rfl, rfl⟩ rfl ((Pc.bare_taken hnew).trans (Pc.bare_taken hold).symm)
      ((Pc.bare_retiring hnew).trans (Pc.bare_retiring hold).symm) (Pc.bare_stored hnew)
  | leave p hs _ _ _ hpc hold hnew =>
    exact h.quiet hs hpc ((Pc.bare_taken hnew).trans (Pc.bare_taken hold).symm)
      ((Pc.bare_retiring hnew).trans (Pc.bare_retiring hold).symm) (Pc.bare_stored hnew)
  | unlink hpc hhead => exact h.unlink hc hpc hhead
  | store hpc => exact h.store hpc
  | park hpc htop => exact h.park hpc htop rfl rfl rfl
  | detach p hpc hptr htaken hretiring hstored =>
    exact h.detach _ (htaken.trans hptr.symm) (Pc.detaches_bare hpc).1 hretiring hstored
  | free node p hold hnone _ htaken hretiring hstored =>
    exact h.free node hold hnone htaken hretiring hstored

theorem Accounted.step {x : Action ι T} (h : s.Accounted) (hc : s.Chain) (hs : s.step x = some s') :
    s'.Accounted := h.effect hc (step_effect hs)

end State
end Dmn.BlockingQueueLf
