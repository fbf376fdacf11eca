import Dmn.Dbus.Match
import Dmn.Lib.Census
import Dmn.Lib.Transition
import Mathlib.Algebra.BigOperators.Group.Finset.Piecewise

/-!
# The match rules at the daemon

`subscribe` and `cancel` with the daemon, step by step. The commands of the
connection are one queue, and the daemon processes them in that order. It
counts the occurrences of each rule. Every call of `subscribe` has an index,
which is its id too, and what it subscribes to has been checked.
-/

namespace Dmn.Dbus

open Dmn.Lib

/-- What is sent to the daemon, and for which call of `subscribe`. -/
inductive Command (ι : Type)
  | addMatch (call : ι) (rule : String)
  | removeMatch (call : ι) (rule : String)
  deriving DecidableEq

def Command.call {ι : Type} : Command ι → ι
  | .addMatch call _ | .removeMatch call _ => call

/-- Where a subscription is. -/
inductive Place
  | idle
  -- It is in `m_subscriptions`, and `AddMatch` is to be sent.
  | submits
  | waits
  -- There is no good reply to `AddMatch`.
  | fails
  -- It is erased, and `RemoveMatch` is to be sent.
  | removes (rule : String)
  -- `subscribe` has returned its id.
  | live
  | gone
  deriving DecidableEq

structure Rules (ι : Type) where
  place : ι → Place := fun _ => .idle
  subscriptions : ι → Option SignalMatch := fun _ => none
  -- The commands that the daemon has not processed.
  commands : List (Command ι) := []
  -- The reply to `AddMatch`.
  reply : ι → Option Bool := fun _ => none
  -- How often the daemon has a rule.
  occurrences : String → Nat := fun _ => 0
  -- The rule that the daemon has stored for a call, and has not been told to remove.
  stored : ι → Option String := fun _ => none

namespace Rules

variable {ι : Type}

inductive Action (ι : Type)
  | subscribe (call : ι) (criteria : SignalMatch)
  -- `submit` sends `AddMatch`, or fails before it does.
  | submit (call : ι) (sent : Bool)
  -- The daemon processes a command; it may refuse a rule.
  | process (accepted : Bool)
  -- The reply is read; one that is not empty is malformed.
  | receive (call : ι) (isEmpty : Bool)
  | timeOut (call : ι)
  | erase (call : ι)
  | cancel (call : ι)
  -- `sendMatchCommand` sends `RemoveMatch`, or there is no memory for it.
  | remove (call : ι) (sent : Bool)

variable [DecidableEq ι] [Fintype ι]

/-- `m_subscriptions.size()` -/
def size (s : Rules ι) : Nat := (Finset.univ.filter fun call => (s.subscriptions call).isSome).card

/-- The entries of `m_subscriptions` that have the rule. -/
def entries (s : Rules ι) (rule : String) : Nat :=
  (Finset.univ.filter fun call => (s.subscriptions call).map (·.makeMatchRule) = some rule).card

def move (s : Rules ι) (call : ι) (place : Place) : Rules ι :=
    { s with place := Function.update s.place call place }

def erased (s : Rules ι) (call : ι) : Rules ι :=
  { s.move call (.removes ((s.subscriptions call).elim "" (·.makeMatchRule))) with
    subscriptions := Function.update s.subscriptions call none }

def send (s : Rules ι) (command : Command ι) : Rules ι := { s with commands := s.commands ++ [command] }

/-- The daemon processes a command. -/
def processed (s : Rules ι) (command : Command ι) (accepted : Bool) : Rules ι :=
  match command with
  | .addMatch call rule =>
    if accepted then
      { s with
        reply := Function.update s.reply call (some true)
        occurrences := Function.update s.occurrences rule (s.occurrences rule + 1)
        stored := Function.update s.stored call (some rule) }
    else { s with reply := Function.update s.reply call (some false) }
  | .removeMatch call rule =>
    { s with
      occurrences := Function.update s.occurrences rule (s.occurrences rule - 1)
      stored := Function.update s.stored call none }

def step (maxQueuedCommands : Nat) (s : Rules ι) : Action ι → Option (Rules ι)
  | .subscribe call criteria =>
    match s.place call with
    | .idle =>
      if maxQueuedCommands ≤ s.size then some (s.move call .gone)
      else
        some { s.move call .submits with subscriptions := Function.update s.subscriptions call (some criteria) }
    | _ => none
  | .submit call sent =>
    match s.place call, s.subscriptions call with
    | .submits, some criteria =>
      if sent then some ((s.move call .waits).send (.addMatch call criteria.makeMatchRule)) else some
        (s.move call .fails)
    | _, _ => none
  | .process accepted =>
    match s.commands with
    | [] => none
    | command :: commands => some ({ s with commands }.processed command accepted)
  | .receive call isEmpty =>
    match s.place call, s.reply call with
    | .waits, some accepted => some (s.move call (if accepted && isEmpty then .live else .fails))
    | _, _ => none
  | .timeOut call =>
    match s.place call with
    | .waits => some (s.move call .fails)
    | _ => none
  | .erase call =>
    match s.place call with
    | .fails => some (s.erased call)
    | _ => none
  | .cancel call =>
    match s.place call with
    | .live => some (s.erased call)
    | _ => none
  | .remove call sent =>
    match s.place call with
    | .removes rule =>
      if sent then some ((s.move call .gone).send (.removeMatch call rule)) else some (s.move call .gone)
    | _ => none

/-- No call is between two steps, and no command is on its way. -/
def Quiet (s : Rules ι) : Prop := s.commands = [] ∧ ∀ call, s.place call = .idle ∨ s.place call =
    .live ∨ s.place call = .gone

instance (s : Rules ι) : Decidable s.Quiet :=
  inferInstanceAs (Decidable (_ ∧ ∀ call, s.place call = .idle ∨ s.place call = .live ∨ s.place call = .gone))

-- ---------------------------------------------------------------------------
-- The condition
-- ---------------------------------------------------------------------------

/-- A `RemoveMatch` whose `AddMatch` has stored nothing finds no equal rule. -/
def Harmless (s : Rules ι) : Command ι → Prop
  | .addMatch .. => True
  | .removeMatch call rule => s.stored call = none → s.occurrences rule = 0

/-- No `RemoveMatch` meets the rule of another subscription, and none is missing. -/
def Paired (s : Rules ι) : Action ι → Prop
  | .process _ => ∀ command ∈ s.commands.head?, s.Harmless command
  | .remove call sent => sent = false → s.stored call = none ∧ s.commands.all (·.call ≠ call)
  | _ => True

instance (s : Rules ι) : ∀ command, Decidable (s.Harmless command)
  | .addMatch .. => instDecidableTrue
  | .removeMatch call rule => inferInstanceAs (Decidable (s.stored call = none → s.occurrences rule = 0))

instance (s : Rules ι) : ∀ action, Decidable (s.Paired action)
  | .process _ => inferInstanceAs (Decidable (∀ command ∈ s.commands.head?, s.Harmless command))
  | .remove call sent =>
    inferInstanceAs (Decidable (sent = false → s.stored call = none ∧ s.commands.all (·.call ≠ call)))
  | .subscribe .. | .submit .. | .receive .. | .timeOut _ | .erase _ | .cancel _ => instDecidableTrue

-- ---------------------------------------------------------------------------
-- The invariant
-- ---------------------------------------------------------------------------

/-- The commands of one call. -/
def commandsOf (s : Rules ι) (call : ι) : List (Command ι) := s.commands.filter (·.call = call)

/-- `AddMatch` has been sent: the daemon has it before it, or has replied. -/
def Sent (call : ι) (rule : String) (commands : List (Command ι)) (stored : Option String)
    (reply : Option Bool) : Prop :=
  commands = [.addMatch call rule] ∧ stored = none ∧ reply = none ∨
    commands = [] ∧ (reply = some true ∧ stored = some rule ∨ reply = some false ∧ stored = none)

/-- Whatever has become of `AddMatch`. -/
def Open (call : ι) (rule : String) (commands : List (Command ι)) (stored : Option String) : Prop :=
  commands = [.addMatch call rule] ∧ stored = none ∨ commands = [] ∧ (stored = none ∨ stored = some rule)

/-- Whatever has become of `AddMatch`, and `RemoveMatch` is behind it. -/
def Closing (call : ι) (commands : List (Command ι)) (stored : Option String) : Prop :=
  commands = [] ∧ stored = none ∨
    ∃ rule, commands = [.addMatch call rule, .removeMatch call rule] ∧ stored = none ∨
      commands = [.removeMatch call rule] ∧ (stored = none ∨ stored = some rule)

/-- What the daemon knows of a call, by the place of the call. -/
def Agrees (call : ι) (entry : Option SignalMatch) (commands : List (Command ι)) (stored : Option String)
    (reply : Option Bool) : Place → Prop
  | .idle => entry = none ∧ commands = [] ∧ stored = none ∧ reply = none
  | .submits => ∃ criteria, entry = some criteria ∧ commands = [] ∧ stored = none ∧ reply = none
  | .waits => ∃ criteria, entry = some criteria ∧ Sent call criteria.makeMatchRule commands stored reply
  | .fails => ∃ criteria, entry = some criteria ∧ Open call criteria.makeMatchRule commands stored
  | .removes rule => entry = none ∧ Open call rule commands stored
  | .live => ∃ criteria, entry = some criteria ∧ commands = [] ∧ stored = some criteria.makeMatchRule
  | .gone => entry = none ∧ Closing call commands stored

structure Inv (s : Rules ι) : Prop where
  agrees : ∀ call, Agrees call (s.subscriptions call) (s.commandsOf call) (s.stored call)
    (s.reply call) (s.place call)
  count : ∀ rule, s.occurrences rule = census (fun stored => if stored = some rule then 1 else 0) s.stored

theorem initial_inv : Inv ({} : Rules ι) where
  agrees _ := ⟨rfl, rfl, rfl, rfl⟩
  count rule := by
    symm
    exact Finset.sum_eq_zero fun call _ => if_neg nofun

variable {s s' : Rules ι} {call : ι}

/-- Only one call is concerned. -/
theorem Inv.frame (h : s.Inv) (call : ι)
    (hother : ∀ other, other ≠ call → s'.place other = s.place other ∧ s'.subscriptions other =
    s.subscriptions other ∧
      s'.commandsOf other = s.commandsOf other ∧ s'.stored other = s.stored other ∧ s'.reply other =
        s.reply other)
    (hcall : Agrees call (s'.subscriptions call) (s'.commandsOf call) (s'.stored call) (s'.reply call)
    (s'.place call))
    (hcount : ∀ rule, s'.occurrences rule = census (fun stored => if stored = some rule then 1 else 0)
    s'.stored) :
    s'.Inv where
  agrees other := by
    by_cases hsame : other = call
    · exact hsame ▸ hcall
    · obtain ⟨hplace, hsubscriptions, hcommands, hstored, hreply⟩ := hother other hsame
      rw [hplace, hsubscriptions, hcommands, hstored, hreply]
      exact h.agrees other
  count := hcount

omit [Fintype ι] in
theorem commandsOf_send (s : Rules ι) (command : Command ι) (other : ι) :
    (s.send command).commandsOf other = s.commandsOf other ++ if command.call =
    other then [command] else [] := by
  rw [commandsOf, send, List.filter_append, List.filter_singleton]
  simp [commandsOf]

/-- The call moves, and its entry may be written. -/
theorem Inv.moved (h : s.Inv) (place : Place) (entry : Option SignalMatch)
    (hcall : Agrees call entry (s.commandsOf call) (s.stored call) (s.reply call) place) :
    Inv { s.move call place with subscriptions := Function.update s.subscriptions call entry } := by
  refine h.frame call (fun other hne => ⟨?_, ?_, rfl, rfl, rfl⟩) ?_ h.count
  · exact Function.update_of_ne hne _ _
  · exact Function.update_of_ne hne _ _
  · show Agrees call (Function.update s.subscriptions call entry call) _ _ _
      (Function.update s.place call place call)
    rw [Function.update_self, Function.update_self]
    exact hcall

theorem Inv.move (h : s.Inv) (place : Place)
    (hcall : Agrees call (s.subscriptions call) (s.commandsOf call) (s.stored call) (s.reply call) place) :
    (s.move call place).Inv := by
  have hmoved := h.moved place (s.subscriptions call) hcall
  rwa [Function.update_eq_self] at hmoved

theorem Inv.sends (h : s.Inv) (place : Place) (command : Command ι) (hcommand : command.call = call)
    (hcall : Agrees call (s.subscriptions call) (s.commandsOf call ++ [command]) (s.stored call)
    (s.reply call) place) :
    ((s.move call place).send command).Inv := by
  refine h.frame call (fun other hne => ⟨Function.update_of_ne hne _ _, rfl, ?_, rfl, rfl⟩) ?_ h.count
  · rw [commandsOf_send, hcommand, if_neg (Ne.symm hne), List.append_nil]
    rfl
  · rw [commandsOf_send, hcommand, if_pos rfl]
    show Agrees call _ _ _ _ (Function.update s.place call place call)
    rw [Function.update_self]
    exact hcall

/-- The call erases its entry. -/
theorem Inv.erased (h : s.Inv) {criteria : SignalMatch} (hentry : s.subscriptions call = some criteria)
    (hopen : Open call criteria.makeMatchRule (s.commandsOf call) (s.stored call)) : (s.erased call).Inv := by
  have hmoved := h.moved (.removes criteria.makeMatchRule) none ⟨rfl, hopen⟩
  unfold Rules.erased
  rw [hentry]
  exact hmoved

omit [DecidableEq ι] [Fintype ι] in
/-- The daemon processes `AddMatch`. -/
theorem Agrees.addMatch {entry : Option SignalMatch} {rule : String} {rest : List (Command ι)}
    {stored : Option String}
    {reply : Option Bool} {place : Place} (h : Agrees call entry (.addMatch call rule :: rest) stored
    reply place) :
    stored = none ∧ Agrees call entry rest (some rule) (some true) place ∧ Agrees call entry rest none
      (some false) place := by
  cases place with
  | idle =>
    obtain ⟨-, hcommands, -⟩ := h
    cases hcommands
  | submits =>
    obtain ⟨_, -, hcommands, -⟩ := h
    cases hcommands
  | live =>
    obtain ⟨_, -, hcommands, -⟩ := h
    cases hcommands
  | waits =>
    obtain ⟨criteria, hentry, ⟨hcommands, hstored, -⟩ | ⟨hcommands, -⟩⟩ := h
    · cases hcommands
      exact ⟨hstored, ⟨criteria, hentry, .inr ⟨rfl, .inl ⟨rfl, rfl⟩⟩⟩, criteria, hentry, .inr ⟨rfl,
        .inr ⟨rfl, rfl⟩⟩⟩
    · cases hcommands
  | fails =>
    obtain ⟨criteria, hentry, ⟨hcommands, hstored⟩ | ⟨hcommands, -⟩⟩ := h
    · cases hcommands
      exact ⟨hstored, ⟨criteria, hentry, .inr ⟨rfl, .inr rfl⟩⟩, criteria, hentry, .inr ⟨rfl, .inl rfl⟩⟩
    · cases hcommands
  | removes =>
    obtain ⟨hentry, ⟨hcommands, hstored⟩ | ⟨hcommands, -⟩⟩ := h
    · cases hcommands
      exact ⟨hstored, ⟨hentry, .inr ⟨rfl, .inr rfl⟩⟩, hentry, .inr ⟨rfl, .inl rfl⟩⟩
    · cases hcommands
  | gone =>
    obtain ⟨hentry, ⟨hcommands, -⟩ | ⟨_, ⟨hcommands, hstored⟩ | ⟨hcommands, -⟩⟩⟩ := h
    · cases hcommands
    · cases hcommands
      exact ⟨hstored, ⟨hentry, .inr ⟨rule, .inr ⟨rfl, .inr rfl⟩⟩⟩, hentry, .inr ⟨rule, .inr ⟨rfl, .inl rfl⟩⟩⟩
    · cases hcommands

omit [DecidableEq ι] [Fintype ι] in
/-- The daemon processes `RemoveMatch`. -/
theorem Agrees.removeMatch {entry : Option SignalMatch} {rule : String} {rest : List (Command ι)}
    {stored : Option String}
    {reply : Option Bool} {place : Place} (h : Agrees call entry (.removeMatch call rule :: rest)
    stored reply place) :
    (stored = none ∨ stored = some rule) ∧ Agrees call entry rest none reply place := by
  cases place with
  | idle =>
    obtain ⟨-, hcommands, -⟩ := h
    cases hcommands
  | submits =>
    obtain ⟨_, -, hcommands, -⟩ := h
    cases hcommands
  | live =>
    obtain ⟨_, -, hcommands, -⟩ := h
    cases hcommands
  | waits =>
    obtain ⟨_, -, ⟨hcommands, -⟩ | ⟨hcommands, -⟩⟩ := h <;> cases hcommands
  | fails =>
    obtain ⟨_, -, ⟨hcommands, -⟩ | ⟨hcommands, -⟩⟩ := h <;> cases hcommands
  | removes =>
    obtain ⟨-, ⟨hcommands, -⟩ | ⟨hcommands, -⟩⟩ := h <;> cases hcommands
  | gone =>
    obtain ⟨hentry, ⟨hcommands, -⟩ | ⟨_, ⟨hcommands, -⟩ | ⟨hcommands, hstored⟩⟩⟩ := h
    · cases hcommands
    · cases hcommands
    · cases hcommands
      exact ⟨hstored, hentry, .inl ⟨rfl, rfl⟩⟩

/-- What is stored for one call changes. -/
theorem census_stored (stored : ι → Option String) (call : ι) (found : Option String) (rule : String) :
    census (fun stored => if stored = some rule then 1 else 0) (Function.update stored call found) +
        (if stored call = some rule then 1 else 0) =
      census (fun stored => if stored = some rule then 1 else 0) stored + if found = some rule then 1 else 0 :=
  census_update _ stored call found

theorem Inv.process {command : Command ι} {rest : List (Command ι)} {accepted : Bool} (h : s.Inv)
    (hcommands : s.commands = command :: rest) (hharmless : s.Harmless command) :
    ({ s with commands := rest }.processed command accepted).Inv := by
  have hother : ∀ other, other ≠ command.call → rest.filter (·.call = other) = s.commandsOf other := by
    intro other hne
    rw [commandsOf, hcommands, List.filter_cons_of_neg]
    exact fun heq => hne (of_decide_eq_true heq).symm
  have hmine : s.commandsOf command.call = command :: rest.filter (·.call = command.call) := by
    rw [commandsOf, hcommands, List.filter_cons_of_pos]
    exact decide_eq_true rfl
  have hagrees := h.agrees command.call
  rw [hmine] at hagrees
  cases command with
  | addMatch call rule =>
    dsimp only [Command.call] at hagrees hother
    obtain ⟨hstored, hyes, hno⟩ := hagrees.addMatch
    unfold processed
    dsimp only
    split
    · refine h.frame call (fun other hne => ⟨rfl, rfl, hother other hne, Function.update_of_ne hne _ _,
        Function.update_of_ne hne _ _⟩) ?_ fun found => ?_
      · dsimp only
        rw [Function.update_self, Function.update_self]
        exact hyes
      · have hcensus := census_stored s.stored call (some rule) found
        have hcount := h.count found
        rw [hstored, if_neg nofun] at hcensus
        change Function.update s.occurrences rule (s.occurrences rule + 1) found =
          census _ (Function.update s.stored call (some rule))
        by_cases hfound : found = rule
        · subst hfound
          rw [if_pos rfl] at hcensus
          rw [Function.update_self]
          omega
        · rw [if_neg fun heq => hfound (Option.some.inj heq).symm] at hcensus
          rw [Function.update_of_ne hfound]
          omega
    · refine h.frame call (fun other hne => ⟨rfl, rfl, hother other hne, rfl,
        Function.update_of_ne hne _ _⟩) ?_ h.count
      dsimp only
      rw [Function.update_self, hstored]
      exact hno
  | removeMatch call rule =>
    dsimp only [Command.call] at hagrees hother
    obtain ⟨hstored, hrest⟩ := hagrees.removeMatch
    refine h.frame call (fun other hne => ⟨rfl, rfl, hother other hne, Function.update_of_ne hne _ _,
      rfl⟩) ?_ fun found => ?_
    · dsimp only [processed]
      rw [Function.update_self]
      exact hrest
    · have hcensus := census_stored s.stored call none found
      have hcount := h.count found
      rw [if_neg (c := none = some found) nofun] at hcensus
      change Function.update s.occurrences rule (s.occurrences rule - 1) found =
        census _ (Function.update s.stored call none)
      rw [Function.update_apply]
      obtain hnone | hsome := hstored
      · -- Nothing is stored for the call, and there is no such rule.
        have hzero := hharmless hnone
        rw [hnone, if_neg nofun] at hcensus
        split
        · rename_i hfound
          subst hfound
          omega
        · omega
      · rw [hsome] at hcensus
        split
        · rename_i hfound
          subst hfound
          rw [if_pos rfl] at hcensus
          omega
        · rename_i hfound
          rw [if_neg fun heq => hfound (Option.some.inj heq).symm] at hcensus
          omega

theorem step_inv {maxQueuedCommands : Nat} {action : Action ι} (h : s.Inv) (hpaired : s.Paired action)
    (hs : s.step maxQueuedCommands action = some s') : s'.Inv := by
  cases action with
  | subscribe call criteria =>
    have hagrees := h.agrees call
    simp only [step] at hs
    split at hs
    · rename_i hplace
      rw [hplace] at hagrees
      obtain ⟨hentry, hcommands, hstored, hreply⟩ := hagrees
      split at hs
      · obtain rfl := Option.some.inj hs
        exact h.move .gone ⟨hentry, .inl ⟨hcommands, hstored⟩⟩
      · obtain rfl := Option.some.inj hs
        exact h.moved .submits (some criteria) ⟨criteria, rfl, hcommands, hstored, hreply⟩
    · cases hs
  | submit call sent =>
    have hagrees := h.agrees call
    simp only [step] at hs
    split at hs
    · rename_i criteria hplace hentry
      rw [hplace] at hagrees
      obtain ⟨_, -, hcommands, hstored, hreply⟩ := hagrees
      split at hs
      · obtain rfl := Option.some.inj hs
        refine h.sends .waits _ rfl ⟨criteria, hentry, .inl ⟨?_, hstored, hreply⟩⟩
        rw [hcommands]
        rfl
      · obtain rfl := Option.some.inj hs
        exact h.move .fails ⟨criteria, hentry, .inr ⟨hcommands, .inl hstored⟩⟩
    · cases hs
  | process accepted =>
    simp only [step] at hs
    split at hs
    · cases hs
    · rename_i command rest hcommands
      obtain rfl := Option.some.inj hs
      refine h.process hcommands (hpaired command ?_)
      rw [hcommands]
      rfl
  | receive call isEmpty =>
    have hagrees := h.agrees call
    simp only [step] at hs
    split at hs
    · rename_i accepted hplace hreply
      rw [hplace] at hagrees
      obtain rfl := Option.some.inj hs
      obtain ⟨criteria, hentry, hsent⟩ := hagrees
      rw [hreply] at hsent
      obtain ⟨-, -, hnone⟩ | ⟨hcommands, hreplied⟩ := hsent
      · cases hnone
      · split
        · rename_i hgood
          refine h.move .live ⟨criteria, hentry, hcommands, ?_⟩
          obtain ⟨-, hstored⟩ | ⟨hrefused, -⟩ := hreplied
          · exact hstored
          · rw [Option.some.inj hrefused] at hgood
            cases hgood
        · exact h.move .fails ⟨criteria, hentry, .inr ⟨hcommands,
            hreplied.elim (fun h => .inr h.2) fun h => .inl h.2⟩⟩
    · cases hs
  | timeOut call =>
    have hagrees := h.agrees call
    simp only [step] at hs
    split at hs
    · rename_i hplace
      rw [hplace] at hagrees
      obtain rfl := Option.some.inj hs
      obtain ⟨criteria, hentry, hsent⟩ := hagrees
      refine h.move .fails ⟨criteria, hentry, hsent.imp (fun h => ⟨h.1, h.2.1⟩) fun h => ⟨h.1, ?_⟩⟩
      exact h.2.elim (fun h => .inr h.2) fun h => .inl h.2
    · cases hs
  | erase call =>
    have hagrees := h.agrees call
    simp only [step] at hs
    split at hs
    · rename_i hplace
      rw [hplace] at hagrees
      obtain rfl := Option.some.inj hs
      obtain ⟨criteria, hentry, hopen⟩ := hagrees
      exact h.erased hentry hopen
    · cases hs
  | cancel call =>
    have hagrees := h.agrees call
    simp only [step] at hs
    split at hs
    · rename_i hplace
      rw [hplace] at hagrees
      obtain rfl := Option.some.inj hs
      obtain ⟨criteria, hentry, hcommands, hstored⟩ := hagrees
      exact h.erased hentry (.inr ⟨hcommands, .inr hstored⟩)
    · cases hs
  | remove call sent =>
    have hagrees := h.agrees call
    simp only [step] at hs
    split at hs
    · rename_i rule hplace
      rw [hplace] at hagrees
      obtain ⟨hentry, hopen⟩ := hagrees
      split at hs
      · obtain rfl := Option.some.inj hs
        refine h.sends .gone _ rfl ⟨hentry, .inr ⟨rule, ?_⟩⟩
        exact hopen.imp (fun h => ⟨by rw [h.1]; rfl, h.2⟩) fun h => ⟨by rw [h.1]; rfl, h.2⟩
      · rename_i hsent
        obtain rfl := Option.some.inj hs
        obtain ⟨hstored, hall⟩ := hpaired (eq_false_of_ne_true hsent)
        refine h.move .gone ⟨hentry, .inl ⟨?_, hstored⟩⟩
        rw [commandsOf, List.filter_eq_nil_iff]
        exact fun command hmem hcall => of_decide_eq_true (List.all_eq_true.mp hall command hmem)
          (of_decide_eq_true hcall)
    · cases hs

/-- Once everything is done, the rules of the daemon are the rules of `m_subscriptions`, and a
subscription that lives always has its rule. -/
theorem occurrences_eq_entries {maxQueuedCommands : Nat} (h : ReachesBy (step maxQueuedCommands) Paired {} s) :
    (s.Quiet → ∀ rule, s.occurrences rule = s.entries rule) ∧
      ∀ call criteria, s.place call = .live → s.subscriptions call = some criteria →
        0 < s.occurrences criteria.makeMatchRule := by
  have hinv : s.Inv := h.invariant initial_inv fun hold hpaired hs => step_inv hold hpaired hs
  constructor
  · intro hquiet rule
    have hnone : ∀ call, s.commandsOf call = [] := fun call => by rw [commandsOf, hquiet.1]; rfl
    have hstored : ∀ call, s.stored call = (s.subscriptions call).map (·.makeMatchRule) := by
      intro call
      have hagrees := hinv.agrees call
      rw [hnone] at hagrees
      obtain hplace | hplace | hplace := hquiet.2 call
      · rw [hplace] at hagrees
        rw [hagrees.1, hagrees.2.2.1]
        rfl
      · rw [hplace] at hagrees
        obtain ⟨criteria, hentry, -, hstored⟩ := hagrees
        rw [hentry, hstored]
        rfl
      · rw [hplace] at hagrees
        obtain ⟨hentry, ⟨-, hstored⟩ | ⟨_, ⟨hcommands, -⟩ | ⟨hcommands, -⟩⟩⟩ := hagrees
        · rw [hentry, hstored]
          rfl
        · cases hcommands
        · cases hcommands
    rw [hinv.count, entries, Finset.card_filter, census]
    exact Finset.sum_congr rfl fun call _ => by rw [hstored]
  · intro call criteria hplace hentry
    have hagrees := hinv.agrees call
    rw [hplace] at hagrees
    obtain ⟨_, hentry', -, hstored⟩ := hagrees
    obtain rfl := Option.some.inj (hentry.symm.trans hentry')
    rw [hinv.count]
    refine Nat.lt_of_lt_of_le ?_ (le_census s.stored call)
    rw [hstored, if_pos rfl]
    exact Nat.one_pos

def progress : SignalMatch := { interface := "i.i", member := "m" }

/-- The subscription is set up. -/
def subscribed (call : Bool) : List (Action Bool) :=
  [.subscribe call progress, .submit call true, .process true, .receive call true]

/-- Two equal subscriptions, and one of them is cancelled. -/
def cancelled : List (Action Bool) := subscribed true ++ subscribed false ++
    [Action.cancel false, .remove false true, .process true]

theorem occurrences_eq_entries_cancelled :
    ∃ s : Rules Bool, s.place true = .live ∧ s.place false = .gone ∧
      s.occurrences progress.makeMatchRule = s.entries progress.makeMatchRule :=
  have h : ReachesBy (step 256) Paired ({} : Rules Bool) _ := .of_isSome_by cancelled (by decide +kernel)
  ⟨_, by decide +kernel, by decide +kernel, (occurrences_eq_entries h).1 (by decide +kernel) _⟩

/-- The second `AddMatch` is not sent, as too many calls are in flight. -/
def rolledBack : List (Action Bool) :=
  subscribed true ++ [Action.subscribe false progress, .submit false false, .erase false,
    .remove false true, .process true]

/-- The other subscription lives, and the daemon has no rule for it. -/
theorem occurrences_rolledBack :
    ∃ s : Rules Bool, Reaches (step 256) {} s ∧ s.Quiet ∧ s.place true = .live ∧
      s.entries progress.makeMatchRule = 1 ∧ s.occurrences progress.makeMatchRule = 0 :=
  ReachesBy.exists_of_any rolledBack (by decide +kernel)

end Rules
end Dmn.Dbus
