import Dmn.Lib.Transition
import Mathlib.Data.List.DropRight
import Mathlib.Data.List.Nodup

/-!
# Publishing, registration and replay

`Dmn_Pub` with its subscribers. All tasks run one after the other in the
publisher's context, so each is one step. The callbacks are a parameter: the
filter is a function of a subscriber and an item, and what a notification
throws may depend on everything the subscriber has been notified of. What a
subscriber has been notified of is recorded in the state, and no step of the
publisher reads it.
-/

namespace Dmn.PubSub

open Dmn.Lib

inductive CallbackFailureKind
  | kFilter
  | kNotify
  deriving DecidableEq

structure CallbackFailure (E : Type) where
  kind : CallbackFailureKind := .kFilter
  subscriberName : String := "unknown"
  exception : E

/-- A publisher as it is constructed, and the code of its subscribers. -/
structure Pub (σ T E : Type) where
  capacity : Nat := 10
  filterFn : Option (σ → T → Except E Bool) := none
  callbackFailureCapacity : Int := -1
  getName : σ → String := fun _ => "unknown"
  replayQuantity : σ → Int := fun _ => -1
  -- What `notify` throws for the last of the items.
  notify : σ → List T → Option E := fun _ _ => none

structure State (σ T E : Type) where
  buffer : List T := []
  subscribers : List σ := []
  -- The publisher is among the `m_pubs` of the subscriber.
  pubs : σ → Bool := fun _ => false
  callbackFailures : List (CallbackFailure E) := []
  received : σ → List T := fun _ => []

inductive Task (σ T : Type)
  | publish (item : T)
  | registerSubscriber (sub : σ)
  | unregisterSubscriber (sub : σ)
  | takeCallbackFailures
  deriving DecidableEq

namespace Pub

variable {σ T E : Type} [DecidableEq σ] (p : Pub σ T E)

def recordCallbackFailure (s : State σ T E) (kind : CallbackFailureKind) (sub : σ) (exception : E) :
    State σ T E :=
  if p.callbackFailureCapacity = 0 then s
  else
    let failures :=
      if 0 < p.callbackFailureCapacity ∧
          p.callbackFailureCapacity.toNat ≤ s.callbackFailures.length then
        s.callbackFailures.drop 1
      else s.callbackFailures
    { s with callbackFailures := failures ++ [⟨kind, p.getName sub, exception⟩] }

/-- `sub->notify(item, this)` in its try block, and what it threw. -/
def notifySub (s : State σ T E) (sub : σ) (item : T) : State σ T E × Option E :=
  let items := s.received sub ++ [item]
  let s' := { s with received := Function.update s.received sub items }
  match p.notify sub items with
  | none => (s', none)
  | some e => (p.recordCallbackFailure s' .kNotify sub e, some e)

def runFilter (sub : σ) (item : T) : Except E Bool :=
  match p.filterFn with
  | none => .ok true
  | some f => f sub item

/-- One round of the loop of `publishInternal`, with its first failure. -/
def deliver (item : T) (acc : State σ T E × Option E) (sub : σ) : State σ T E × Option E :=
  match p.runFilter sub item with
  | .error e => (p.recordCallbackFailure acc.1 .kFilter sub e, acc.2.or (some e))
  | .ok false => acc
  | .ok true =>
    let (s, failure) := p.notifySub acc.1 sub item
    (s, acc.2.or failure)

/-- The buffer without the items beyond its capacity, the oldest first. -/
def trim (buffer : List T) : List T :=
  if p.capacity < buffer.length then buffer.drop (buffer.length - p.capacity) else buffer

/-- The failure is what the task rethrows. -/
def publishInternal (s : State σ T E) (item : T) : State σ T E × Option E :=
  s.subscribers.foldl (p.deliver item) ({ s with buffer := p.trim (s.buffer ++ [item]) }, none)

def numberOfItemsToBeSkipped (s : State σ T E) (sub : σ) : Nat :=
  if p.replayQuantity sub = 0 then s.buffer.length
  else if 0 < p.replayQuantity sub ∧ (p.replayQuantity sub).toNat < s.buffer.length then
    s.buffer.length - (p.replayQuantity sub).toNat
  else 0

def registerSubscriber (s : State σ T E) (sub : σ) : State σ T E :=
  if s.pubs sub then s
  else
    let s' := { s with
      pubs := Function.update s.pubs sub true
      subscribers := s.subscribers ++ [sub] }
    (s.buffer.drop (p.numberOfItemsToBeSkipped s sub)).foldl
      (fun s item => (p.notifySub s sub item).1) s'

/-- Only a registered subscriber is unregistered; the code asserts it. -/
def unregisterSubscriber (s : State σ T E) (sub : σ) : Option (State σ T E) :=
  if s.pubs sub then
    some { s with
      pubs := Function.update s.pubs sub false
      subscribers := s.subscribers.filter (· ≠ sub) }
  else none

def step (s : State σ T E) : Task σ T → Option (State σ T E)
  | .publish item => some (p.publishInternal s item).1
  | .registerSubscriber sub => some (p.registerSubscriber s sub)
  | .unregisterSubscriber sub => unregisterSubscriber s sub
  | .takeCallbackFailures => some { s with callbackFailures := [] }

-- ---------------------------------------------------------------------------
-- What is received
-- ---------------------------------------------------------------------------

/-- The filter lets the item through. -/
def Accepts (sub : σ) (item : T) : Bool :=
  match p.runFilter sub item with
  | .ok accepted => accepted
  | .error _ => false

/-- Only the recorded failures differ. -/
structure SameBut (s s' : State σ T E) : Prop where
  buffer : s'.buffer = s.buffer
  subscribers : s'.subscribers = s.subscribers
  pubs : s'.pubs = s.pubs
  received : s'.received = s.received

variable {p} {s s' : State σ T E}

omit [DecidableEq σ] in
theorem recordCallbackFailure_same (kind : CallbackFailureKind) (sub : σ) (e : E) :
    SameBut s (p.recordCallbackFailure s kind sub e) := by
  unfold recordCallbackFailure
  split <;> exact ⟨rfl, rfl, rfl, rfl⟩

/-- A notification is received whether it throws or not. -/
theorem notifySub_same (s : State σ T E) (sub : σ) (item : T) :
    SameBut { s with received := Function.update s.received sub (s.received sub ++ [item]) }
      (p.notifySub s sub item).1 := by
  unfold notifySub
  dsimp only
  split
  · exact ⟨rfl, rfl, rfl, rfl⟩
  · exact recordCallbackFailure_same _ _ _

theorem deliver_same (sub : σ) (item : T) (acc : State σ T E × Option E) :
    SameBut { acc.1 with received := (if p.Accepts sub item then
        Function.update acc.1.received sub (acc.1.received sub ++ [item]) else acc.1.received) }
      (p.deliver item acc sub).1 := by
  unfold deliver Accepts
  cases p.runFilter sub item with
  | error e => exact recordCallbackFailure_same _ _ _
  | ok accepted =>
    cases accepted with
    | false => exact ⟨rfl, rfl, rfl, rfl⟩
    | true => exact notifySub_same acc.1 sub item

/-- A publication reaches each subscriber that accepts it. -/
theorem foldl_deliver (item : T) (subs : List σ) (hnodup : subs.Nodup) (acc : State σ T E × Option E) :
    (subs.foldl (p.deliver item) acc).1.buffer = acc.1.buffer ∧
    (subs.foldl (p.deliver item) acc).1.subscribers = acc.1.subscribers ∧
    (subs.foldl (p.deliver item) acc).1.pubs = acc.1.pubs ∧
    ∀ u, (subs.foldl (p.deliver item) acc).1.received u =
      acc.1.received u ++ if u ∈ subs ∧ p.Accepts u item then [item] else [] := by
  induction subs generalizing acc with
  | nil => simp
  | cons v subs ih =>
    obtain ⟨hv, hnodup⟩ := List.nodup_cons.mp hnodup
    have hone := deliver_same (p := p) v item acc
    obtain ⟨hbuffer, hsubscribers, hpubs, hreceived⟩ := ih hnodup (p.deliver item acc v)
    refine ⟨hbuffer.trans hone.buffer, hsubscribers.trans hone.subscribers, hpubs.trans hone.pubs,
      fun u => ?_⟩
    rw [List.foldl_cons, hreceived u, hone.received]
    by_cases huv : u = v
    · subst huv
      by_cases hacc : p.Accepts u item <;> simp [hacc, hv]
    · by_cases hacc : p.Accepts v item <;> simp [hacc, huv]

theorem foldl_notifySub (sub : σ) (items : List T) (s : State σ T E) :
    SameBut { s with received := Function.update s.received sub (s.received sub ++ items) }
      (items.foldl (fun s item => (p.notifySub s sub item).1) s) := by
  induction items generalizing s with
  | nil =>
    refine ⟨rfl, rfl, rfl, ?_⟩
    simp
  | cons x items ih =>
    have hone := notifySub_same (p := p) s sub x
    have hrest := ih (p.notifySub s sub x).1
    refine ⟨hrest.buffer.trans hone.buffer, hrest.subscribers.trans hone.subscribers,
      hrest.pubs.trans hone.pubs, ?_⟩
    rw [List.foldl_cons, hrest.received, hone.received]
    simp

end Pub
end Dmn.PubSub
