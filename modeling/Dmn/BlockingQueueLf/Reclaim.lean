import Dmn.BlockingQueueLf.Retired

/-!
# Reclamation in the lock-free queue

A bucket's list is detached when the count of the bucket is zero, or has just
become so, and the calls in the other buckets are not asked. A node can so be
freed under a call that has seen it. Where a list is detached only while no
call is in its bucket, and the calls in the other buckets have entered their
guards since a pop of that bucket last moved the head, no node is freed in use. The rest holds in
every run: no node is freed twice, and a
bucket with a list is the current one, or has a call in it, or a thread that
is about to take the list.
-/

namespace Dmn.BlockingQueueLf

open Lib

namespace Pc

variable {T : Type}

/-- The bucket that counts the call. -/
def entered : Pc T → Option EpochIndex
  | .push ticket _ _ | .pop ticket _ _ | .leave ticket .count | .crashed ticket => some ticket
  | _ => none

def guards (index : EpochIndex) (p : Pc T) : Nat := if p.entered = some index then 1 else 0

/-- The thread is yet to look at the list of the bucket. -/
def Tends (index : EpochIndex) : Pc T → Prop
  | .enter _ (.sweep epochIndex k) => epochIndex ≠ index ∧ k ≤ index
  | .enter _ (.sweepLoad epochIndex k) | .enter _ (.sweepDetach epochIndex k _) =>
    epochIndex ≠ index ∧ k ≤ index
  | .enter _ (.sweepFree epochIndex k _) => epochIndex ≠ index ∧ k < index
  | .leave ticket .load | .leave ticket .take | .leave ticket (.detach _) => ticket = index
  | _ => False

theorem guards_congr {p q : Pc T} (h : q.entered = p.entered) (index : EpochIndex) :
    q.guards index = p.guards index := by
  simp [guards, h]

theorem popped_entered {ticket : EpochIndex} {result : Option T} {popping : Popping T} :
    (State.popped ticket result popping).entered = some ticket := by
  cases popping <;> rfl

theorem start_entered {ticket : EpochIndex} {op : Operation T} :
    (op.start ticket).entered = some ticket := by
  cases op <;> rfl

end Pc

namespace State

variable {ι T : Type} [Inhabited T] {s s' : State ι T} {t : ι} {p : Pc T}

-- ---------------------------------------------------------------------------
-- A bucket with a list
-- ---------------------------------------------------------------------------

structure Tended [Fintype ι] (s : State ι T) : Prop where
  counted : ∀ i, s.epochs.inFlightCount i = census (Pc.guards i) s.pc
  tended : ∀ i, s.epochs.reclaimNode i ≠ none → i = calcEpochIndex s.epochs.epochData.id ∨
    0 < s.epochs.inFlightCount i ∨ ∃ t, (s.pc t).Tends i

theorem Tended.empty [Fintype ι] : ({} : State ι T).Tended where
  counted i := by simp [census, Pc.guards, Pc.entered]
  tended i h := absurd rfl h

/-- A call in its guard is counted. -/
theorem Tended.pos [Fintype ι] (h : s.Tended) (ht : (s.pc t).entered = some i) :
    0 < s.epochs.inFlightCount i := by
  rw [h.counted i]
  refine Nat.lt_of_lt_of_le ?_ (le_census s.pc t)
  simp [Pc.guards, ht]

variable [DecidableEq ι]

/-- The thread moves. A bucket with a list is tended to by what the step does,
or as before. -/
theorem Tended.moves [Fintype ι] (h : s.Tended) (hpc : s'.pc = Function.update s.pc t p)
    (hcount : ∀ i, s'.epochs.inFlightCount i + (s.pc t).guards i =
      s.epochs.inFlightCount i + p.guards i)
    (htends : ∀ i, s'.epochs.reclaimNode i ≠ none → i = calcEpochIndex s'.epochs.epochData.id ∨
      0 < s'.epochs.inFlightCount i ∨ p.Tends i ∨ s.epochs.reclaimNode i ≠ none ∧
        s'.epochs.epochData = s.epochs.epochData ∧
        s.epochs.inFlightCount i ≤ s'.epochs.inFlightCount i ∧ ¬(s.pc t).Tends i) : s'.Tended where
  counted i := by
    have hc := census_update (Pc.guards i) s.pc t p
    have hcounted := h.counted i
    have := hcount i
    rw [hpc]
    omega
  tended i hi := by
    rw [hpc]
    rcases htends i hi with hglobal | hpos | hp | ⟨hold, hdata, hle, hnot⟩
    · exact .inl hglobal
    · exact .inr (.inl hpos)
    · exact .inr (.inr ⟨t, by rwa [Function.update_self]⟩)
    · rcases h.tended i hold with hglobal | hpos | ⟨u, hu⟩
      · exact .inl (hdata ▸ hglobal)
      · exact .inr (.inl (hpos.trans_le hle))
      · have hut : u ≠ t := by
          rintro rfl
          exact hnot hu
        exact .inr (.inr ⟨u, by rwa [Function.update_of_ne hut]⟩)

/-- The buckets stay as they are. -/
theorem Tended.still [Fintype ι] (h : s.Tended) (hpc : s'.pc = Function.update s.pc t p)
    (hdata : s'.epochs.epochData = s.epochs.epochData)
    (hcount : s'.epochs.inFlightCount = s.epochs.inFlightCount)
    (hreclaim : s'.epochs.reclaimNode = s.epochs.reclaimNode) (hentered : p.entered = (s.pc t).entered)
    (htends : ∀ i, (s.pc t).Tends i → s.epochs.reclaimNode i ≠ none →
      i = calcEpochIndex s.epochs.epochData.id ∨ 0 < s.epochs.inFlightCount i ∨ p.Tends i) : s'.Tended := by
  refine h.moves hpc (fun i => by rw [hcount, Pc.guards_congr hentered]) fun i hi => ?_
  rw [hreclaim] at hi
  by_cases ht : (s.pc t).Tends i
  · rw [hdata, hcount]
    rcases htends i ht hi with hglobal | hpos | hp
    · exact .inl hglobal
    · exact .inr (.inl hpos)
    · exact .inr (.inr (.inl hp))
  · exact .inr (.inr (.inr ⟨hi, hdata, by rw [hcount], ht⟩))

/-- The list of a bucket is detached. -/
theorem Tended.detach [Fintype ι] (h : s.Tended) (index : EpochIndex) (hentered : p.entered = (s.pc t).entered)
    (htends : ∀ i, i ≠ index → (s.pc t).Tends i → p.Tends i) : ((s.detach t index).goto t p).Tended := by
  refine h.moves rfl (fun i => by rw [Pc.guards_congr hentered]; rfl) fun i hi => ?_
  have hi : Function.update s.epochs.reclaimNode index none i ≠ none := hi
  have hne : i ≠ index := by
    rintro rfl
    simp at hi
  rw [Function.update_of_ne hne] at hi
  by_cases ht : (s.pc t).Tends i
  · exact .inr (.inr (.inl (htends i hne ht)))
  · exact .inr (.inr (.inr ⟨hi, rfl, le_rfl, ht⟩))

theorem Tended.runEnter [Fintype ι] (h : s.Tended) (hpc : s.pc t = .enter op at_) :
    (s.runEnter t op at_).Tended := by
  cases at_ with
  | total => exact h.still rfl rfl rfl rfl (by rw [hpc]; rfl) (by rw [hpc]; rintro _ ⟨⟩)
  | load total =>
    refine h.still (t := t) rfl rfl rfl rfl ?_ (by rw [hpc]; rintro _ ⟨⟩)
    rw [hpc]
    split <;> rfl
  | swap total ep =>
    simp only [State.runEnter]
    split
    · refine h.moves (t := t) rfl (fun i => by rw [hpc]; rfl) fun i _ => ?_
      by_cases hi : i = calcEpochIndex (ep.id + 1)
      · exact .inl hi
      · exact .inr (.inr (.inl ⟨Ne.symm hi, Nat.zero_le _⟩))
    · exact h.still (t := t) rfl rfl rfl rfl (by rw [hpc]; rfl) (by rw [hpc]; rintro _ ⟨⟩)
  | sweep epochIndex k =>
    refine h.still (t := t) rfl rfl rfl rfl ?_ fun i hi _ => ?_
    · rw [hpc]
      split
      · split <;> rfl
      · rfl
    · rw [hpc] at hi
      obtain ⟨hne, hle⟩ : epochIndex ≠ i ∧ k ≤ i := hi
      split
      · rename_i hk
        split
        · exact .inr (.inr ⟨hne, hle⟩)
        · rename_i hbusy
          rcases Nat.eq_or_lt_of_le hle with heq | hlt
          · -- the bucket is passed over since it has a call in it
            obtain rfl : i = ⟨k, hk⟩ := Fin.ext heq.symm
            exact .inr (.inl (Nat.pos_of_ne_zero fun hzero => hbusy ⟨hne, hzero⟩))
          · exact .inr (.inr ⟨hne, hlt⟩)
      · exact absurd i.isLt (by omega)
  | sweepLoad epochIndex k =>
    refine h.still (t := t) rfl rfl rfl rfl ?_ fun i hi hlist => ?_
    · rw [hpc]
      split <;> rfl
    · rw [hpc] at hi
      obtain ⟨hne, hle⟩ : epochIndex ≠ i ∧ k ≤ i := hi
      split
      · rename_i hnone
        refine .inr (.inr ⟨hne, ?_⟩)
        have hki : k ≠ i := by
          rintro rfl
          exact hlist hnone
        exact Nat.lt_of_le_of_ne hle (fun heq => hki (Fin.ext heq))
      · exact .inr (.inr ⟨hne, hle⟩)
  | sweepDetach epochIndex k ptr =>
    simp only [State.runEnter]
    split
    · refine h.detach k (by rw [hpc]; rfl) fun i hik hi => ?_
      rw [hpc] at hi
      exact ⟨hi.1, lt_of_le_of_ne hi.2 (Ne.symm hik)⟩
    · refine h.still (t := t) rfl rfl rfl rfl (by rw [hpc]; rfl) fun i hi _ => ?_
      rw [hpc] at hi
      exact .inr (.inr hi)
  | sweepFree epochIndex k node =>
    cases node with
    | none =>
      refine h.still (t := t) rfl rfl rfl rfl (by rw [hpc]; rfl) fun i hi _ => ?_
      rw [hpc] at hi
      exact .inr (.inr hi)
    | some node =>
      refine h.still (t := t) rfl rfl rfl rfl (by rw [hpc]; rfl) fun i hi _ => ?_
      rw [hpc] at hi
      exact .inr (.inr hi)
  | count epochIndex =>
    refine h.moves (t := t) rfl (fun i => ?_) fun i hi => ?_
    · show Function.update s.epochs.inFlightCount epochIndex _ i + _ = _
      have hguards : (op.start epochIndex).guards i = if epochIndex = i then 1 else 0 := by
        simp [Pc.guards, Pc.start_entered]
      rw [hguards, hpc]
      by_cases hie : i = epochIndex
      · subst hie
        simp [Pc.guards, Pc.entered]
      · simp [Pc.guards, Pc.entered, hie, Ne.symm hie]
    · refine .inr (.inr (.inr ⟨hi, rfl, ?_, by rw [hpc]; exact id⟩))
      show _ ≤ Function.update s.epochs.inFlightCount epochIndex _ i
      by_cases hie : i = epochIndex
      · subst hie
        simp
      · rw [Function.update_of_ne hie]

/-- A push stays in its guard and leaves the buckets alone. -/
theorem runPush_guard (s : State ι T) (t : ι) (ticket : EpochIndex) (item : T) (at_ : PushPc) :
    (s.runPush t ticket item at_).epochs = s.epochs ∧
      ∃ p, (s.runPush t ticket item at_).pc = Function.update s.pc t p ∧ p.entered = some ticket := by
  cases at_ with
  | count | loadTail | loadNext | recheck | total => exact ⟨rfl, _, rfl, rfl⟩
  | link new last =>
    simp only [State.runPush]
    split <;> exact ⟨rfl, _, rfl, rfl⟩
  | help new last next => exact ⟨moveTail_epochs, _, congrArg (Function.update · t _) moveTail_pc, rfl⟩
  | swing new last => exact ⟨moveTail_epochs, _, congrArg (Function.update · t _) moveTail_pc, rfl⟩

/-- From one place of a call in its guard to another one. -/
theorem Tended.stay [Fintype ι] (h : s.Tended) (hpc : s'.pc = Function.update s.pc t p)
    (hdata : s'.epochs.epochData = s.epochs.epochData)
    (hcount : s'.epochs.inFlightCount = s.epochs.inFlightCount)
    (hreclaim : s'.epochs.reclaimNode = s.epochs.reclaimNode) (hold : (s.pc t).entered = some ticket)
    (hnew : p.entered = some ticket) : s'.Tended := by
  refine h.still hpc hdata hcount hreclaim (hnew.trans hold.symm) fun i hi _ => ?_
  generalize s.pc t = q at hold hi
  cases q with
  | enter => cases hold
  | leave ticket at_ => cases at_ <;> first | exact hi.elim | cases hold
  | _ => exact hi.elim

theorem Tended.runPop [Fintype ι] (h : s.Tended) (hpc : s.pc t = .pop ticket popping at_) :
    (s.runPop t ticket popping at_).Tended := by
  have hold : (s.pc t).entered = some ticket := by rw [hpc]; rfl
  cases at_ with
  | loadTail | loadHead | retireLoad | retireStore | countDown => exact h.stay rfl rfl rfl rfl hold rfl
  | loadNext last first => cases first <;> exact h.stay (t := t) rfl rfl rfl rfl hold rfl
  | recheck last first next =>
    refine h.stay (t := t) rfl rfl rfl rfl hold ?_
    split
    · split
      · cases next with
        | none =>
          dsimp only
          split
          · rfl
          · exact Pc.popped_entered
        | some next => rfl
      · rfl
    · rfl
  | spin last =>
    simp only [State.runPop]
    split
    · exact h
    · exact h.stay (t := t) rfl rfl rfl rfl hold rfl
  | help last next =>
    exact h.stay (congrArg (Function.update · t _) moveTail_pc) (congrArg Epochs.epochData moveTail_epochs)
      (congrArg Epochs.inFlightCount moveTail_epochs) (congrArg Epochs.reclaimNode moveTail_epochs) hold rfl
  | swing first next =>
    simp only [State.runPop]
    split <;> exact h.stay (t := t) rfl rfl rfl rfl hold rfl
  | retireSwap first next top =>
    simp only [State.runPop]
    split
    · refine h.moves (t := t) rfl (fun i => by rw [hpc]; rfl) fun i hi => ?_
      have hi : Function.update s.epochs.reclaimNode ticket (some first) i ≠ none := hi
      by_cases hit : i = ticket
      · subst hit
        exact .inr (.inl (h.pos hold))
      · rw [Function.update_of_ne hit] at hi
        exact .inr (.inr (.inr ⟨hi, rfl, le_rfl, by rw [hpc]; exact id⟩))
    · exact h.stay (t := t) rfl rfl rfl rfl hold rfl
  | take next =>
    cases next with
    | none => exact h.stay (t := t) rfl rfl rfl rfl hold rfl
    | some node => exact h.stay (t := t) rfl rfl rfl rfl hold Pc.popped_entered
  | again =>
    refine h.stay (t := t) rfl rfl rfl rfl hold ?_
    split
    · rfl
    · split <;> rfl

theorem Tended.runLeave [Fintype ι] (h : s.Tended) (hpc : s.pc t = .leave ticket at_) :
    (s.runLeave t ticket at_).Tended := by
  cases at_ with
  | count =>
    have hpos := h.pos (t := t) (i := ticket) (by rw [hpc]; rfl)
    refine h.moves (t := t) rfl (fun i => ?_) fun i hi => ?_
    · show Function.update s.epochs.inFlightCount ticket _ i + _ = _
      have hnew : (if s.epochs.inFlightCount ticket = 1 then Pc.leave (T :=
        T) ticket .load else .idle).guards i = 0 := by
        split <;> rfl
      rw [hnew, hpc]
      by_cases hit : i = ticket
      · subst hit
        simp [Pc.guards, Pc.entered]
        omega
      · simp [Pc.guards, Pc.entered, hit, Ne.symm hit]
    · show _ ∨ 0 < Function.update s.epochs.inFlightCount ticket _ i ∨ _
      by_cases hit : i = ticket
      · subst hit
        rw [Function.update_self]
        split
        · exact .inr (.inr (.inl rfl))
        · exact .inr (.inl (by omega))
      · refine .inr (.inr (.inr ⟨hi, rfl, ?_, by rw [hpc]; exact id⟩))
        show _ ≤ Function.update s.epochs.inFlightCount ticket _ i
        rw [Function.update_of_ne hit]
  | load =>
    refine h.still (t := t) rfl rfl rfl rfl ?_ fun i hi _ => ?_
    · rw [hpc]
      split <;> rfl
    · rw [hpc] at hi
      obtain rfl : ticket = i := hi
      split
      · exact .inr (.inr rfl)
      · rename_i hglobal
        exact .inl (not_not.mp hglobal).symm
  | take =>
    refine h.still (t := t) rfl rfl rfl rfl ?_ fun i hi hlist => ?_
    · rw [hpc]
      split <;> rfl
    · rw [hpc] at hi
      obtain rfl : ticket = i := hi
      split
      · rename_i hnone
        exact absurd hnone hlist
      · exact .inr (.inr rfl)
  | detach ptr =>
    simp only [State.runLeave]
    split
    · refine h.detach ticket (by rw [hpc]; rfl) fun i hit hi => ?_
      rw [hpc] at hi
      exact absurd hi.symm hit
    · refine h.still (t := t) rfl rfl rfl rfl (by rw [hpc]; rfl) fun i hi _ => ?_
      rw [hpc] at hi
      exact .inr (.inr hi)
  | free node =>
    cases node with
    | none => exact h.still (t := t) rfl rfl rfl rfl (by rw [hpc]; rfl) (by rw [hpc]; rintro _ ⟨⟩)
    | some node => exact h.still (t := t) rfl rfl rfl rfl (by rw [hpc]; rfl) (by rw [hpc]; rintro _ ⟨⟩)

theorem Tended.step [Fintype ι] {x : Action ι T} (h : s.Tended) (hs : s.step x = some s') :
    s'.Tended := by
  cases x with
  | call t call =>
    simp only [State.step] at hs
    split at hs
    · rename_i hpc
      obtain ⟨op, -, rfl⟩ := Option.map_eq_some_iff.mp hs
      exact h.still (t := t) rfl rfl rfl rfl (by rw [hpc]; rfl) (by rw [hpc]; rintro _ ⟨⟩)
    · cases hs
  | run t =>
    simp only [State.step, State.run] at hs
    split at hs
    · cases hs
    · cases hs
    · rename_i hpc
      exact Option.some.inj hs ▸ h.runEnter hpc
    · rename_i ticket item at_ hpc
      obtain rfl := Option.some.inj hs
      obtain ⟨hepochs, p, hpc', hnew⟩ := runPush_guard s t ticket item at_
      exact h.stay hpc' (by rw [hepochs]) (by rw [hepochs]) (by rw [hepochs]) (by rw [hpc]; rfl) hnew
    · rename_i hpc
      exact Option.some.inj hs ▸ h.runPop hpc
    · rename_i hpc
      exact Option.some.inj hs ▸ h.runLeave hpc
  | casFails t =>
    simp only [State.step] at hs
    split at hs
    · rename_i hpc
      obtain rfl := Option.some.inj hs
      exact h.stay (t := t) rfl rfl rfl rfl (by rw [hpc]; rfl) rfl
    · cases hs
  | timeout t =>
    simp only [State.step] at hs
    split at hs
    · rename_i hpc
      obtain rfl := Option.some.inj hs
      exact h.stay (t := t) rfl rfl rfl rfl (by rw [hpc]; rfl) rfl
    · cases hs

-- ---------------------------------------------------------------------------
-- What the calls have seen
-- ---------------------------------------------------------------------------

omit [DecidableEq ι] in
/-- Only a call in its guard has seen a node, and it was there when the node
was unlinked. -/
structure Witnessed (s : State ι T) : Prop where
  seen : ∀ t n, n ∈ s.history.seen t → (s.pc t).inGuard
  during : ∀ t n, n ∈ s.history.during t → (s.pc t).inGuard
  unlinked : ∀ t n, n ∈ s.history.seen t → n ∈ s.history.unlinked → n ∈ s.history.during t

/-- No call is in the bucket, and the calls in the other buckets have entered
their guards since a pop of the bucket last moved the head. -/
def Lapsed (s : State ι T) (index : EpochIndex) : Prop :=
  s.epochs.inFlightCount index = 0 ∧
  ∀ t ticket, (s.pc t).entered = some ticket → ticket ≠ index → index ∉ s.history.removing t

/-- A list is detached when its bucket has lapsed. -/
def Graceful (s : State ι T) (x : Action ι T) : Prop :=
  match (s.pc x.thread).detaches with
  | some (index, ptr) => s.epochs.reclaimNode index = some ptr → s.Lapsed index
  | none => True

/-- A bucket that has, or is to get, a node that was unlinked while a call was
in its guard is marked for the call. -/
structure Marked (s : State ι T) : Prop where
  bucket : ∀ t n i, n ∈ s.history.during t → s.history.place n = .bucket i → i ∈ s.history.removing t
  held : ∀ t n u i, n ∈ s.history.during t → s.history.place n = .held u →
    (s.pc u).parks = some i → i ∈ s.history.removing t

/-- A node that was unlinked while a call was in its guard is not on its way to be freed. -/
def Spared (s : State ι T) : Prop :=
  ∀ t n, n ∈ s.history.during t → (∃ u, s.history.place n = .held u) ∨ ∃ i, s.history.place n = .bucket i

theorem Witnessed.quiet (h : s.Witnessed) (hs : s.SameWitness s')
    (hunlinked : s'.history.unlinked = s.history.unlinked) (hpc : s'.pc = Function.update s.pc t p)
    (hguard : (s.pc t).inGuard → p.inGuard) : s'.Witnessed := by
  have hkeeps : ∀ u, (s.pc u).inGuard → (s'.pc u).inGuard := fun u hu => by
    rw [hpc]
    by_cases hut : u = t
    · subst hut
      rw [Function.update_self]
      exact hguard hu
    · rwa [Function.update_of_ne hut]
  refine ⟨fun u n hn => ?_, fun u n hn => ?_, fun u n hn => ?_⟩
  · rw [hs.seen] at hn
    exact hkeeps u (h.seen u n hn)
  · rw [hs.during] at hn
    exact hkeeps u (h.during u n hn)
  · rw [hs.seen] at hn
    rw [hs.during, hunlinked]
    exact h.unlinked u n hn

/-- A node that is read has not been unlinked, or does not count. -/
theorem Witnessed.read (h : s.Witnessed) (ptr : Option Address) (hold : (s.pc t).inGuard)
    (hnew : p.inGuard) : ((s.see t ptr).goto t p).Witnessed := by
  have hkeeps : ∀ u, (s.pc u).inGuard → (Function.update s.pc t p u).inGuard := fun u hu => by
    by_cases hut : u = t
    · subst hut
      rwa [Function.update_self]
    · rwa [Function.update_of_ne hut]
  have hseen : ∀ u n, n ∈ ((s.see t ptr).goto t p).history.seen u →
      n ∈ s.history.seen u ∨ u = t ∧ n ∉ s.history.unlinked := fun u n hn => by
    by_cases hut : u = t
    · subst hut
      simp only [goto, see, Function.update_self, List.mem_append, List.mem_filter,
        decide_eq_true_eq] at hn
      exact hn.symm.imp_right fun hn => ⟨rfl, hn.2⟩
    · simp only [goto, see, Function.update_of_ne hut] at hn
      exact .inl hn
  refine ⟨fun u n hn => ?_, fun u n hn => hkeeps u (h.during u n hn), fun u n hn hu => ?_⟩
  · rcases hseen u n hn with hn | ⟨rfl, -⟩
    · exact hkeeps u (h.seen u n hn)
    · exact hkeeps u hold
  · rcases hseen u n hn with hn | ⟨-, hn⟩
    · exact h.unlinked u n hn hu
    · exact absurd hu hn

theorem Witnessed.leave (h : s.Witnessed) (hseen : s'.history.seen = Function.update s.history.seen t [])
    (hduring : s'.history.during = Function.update s.history.during t [])
    (hunlinked : s'.history.unlinked = s.history.unlinked) (hpc : s'.pc = Function.update s.pc t p) :
    s'.Witnessed := by
  refine ⟨fun u n hn => ?_, fun u n hn => ?_, fun u n hn => ?_⟩
  · have hut : u ≠ t := by
      rintro rfl
      simp [hseen] at hn
    rw [hseen, Function.update_of_ne hut] at hn
    rw [hpc, Function.update_of_ne hut]
    exact h.seen u n hn
  · have hut : u ≠ t := by
      rintro rfl
      simp [hduring] at hn
    rw [hduring, Function.update_of_ne hut] at hn
    rw [hpc, Function.update_of_ne hut]
    exact h.during u n hn
  · have hut : u ≠ t := by
      rintro rfl
      simp [hseen] at hn
    rw [hseen, Function.update_of_ne hut] at hn
    rw [hduring, Function.update_of_ne hut, hunlinked]
    exact h.unlinked u n hn

omit [DecidableEq ι] in
theorem mem_during_unlink [DecidableEq ι] {u : ι} :
    n ∈ (s.unlink t ticket first next).history.during u ↔
      n = first ∧ (s.pc u).inGuard ∨ n ∈ s.history.during u := by
  show n ∈ (if (s.pc u).inGuard then first :: s.history.during u else s.history.during u) ↔ _
  split
  · rename_i hu
    simp [hu]
  · rename_i hu
    simp [hu]

theorem Witnessed.unlink (h : s.Witnessed) (hpc : s.pc t = .pop ticket popping (.swing first next)) :
    ((s.unlink t ticket first next).goto t (.pop ticket popping (.retireLoad first next))).Witnessed := by
  have hkeeps : ∀ u, (s.pc u).inGuard →
      (Function.update s.pc t (.pop ticket popping (.retireLoad first next)) u).inGuard := fun u hu => by
    by_cases hut : u = t
    · subst hut
      rw [Function.update_self]
      rfl
    · rwa [Function.update_of_ne hut]
  refine ⟨fun u n hn => hkeeps u (h.seen u n hn), fun u n hn => ?_, fun u n hn hu => ?_⟩
  · rcases mem_during_unlink.mp hn with ⟨-, hu⟩ | hn
    · exact hkeeps u hu
    · exact hkeeps u (h.during u n hn)
  · refine mem_during_unlink.mpr ?_
    rcases List.mem_append.mp hu with hu | hu
    · exact .inr (h.unlinked u n hn hu)
    · exact .inl ⟨List.mem_singleton.mp hu, h.seen u n hn⟩

theorem Witnessed.step {x : Action ι T} (h : s.Witnessed) (hs : s.step x = some s') : s'.Witnessed := by
  have hout : ∀ {q : Pc T}, (s.pc x.thread).inGuard = false →
      (s.pc x.thread).inGuard → q.inGuard := fun hf ht => by
    rw [hf] at ht
    cases ht
  cases step_effect hs with
  | quiet p hsame hw hpc hp => exact h.quiet hw hsame.unlinked hpc hp.inGuard
  | read ptr p _ hold _ hnew => exact h.read ptr hold hnew
  | leave p hsame hseen hduring _ hpc => exact h.leave hseen hduring hsame.unlinked hpc
  | unlink hpc => exact h.unlink hpc
  | store hpc => exact h.quiet (t := x.thread) ⟨rfl, rfl, rfl⟩ rfl rfl fun _ => rfl
  | park hpc => exact h.quiet (t := x.thread) ⟨rfl, rfl, rfl⟩ rfl rfl fun _ => rfl
  | detach p hpc =>
    exact h.quiet (t := x.thread) ⟨rfl, rfl, rfl⟩ rfl rfl (hout (Pc.detaches_bare hpc).2)
  | free node p _ _ hguard => exact h.quiet (t := x.thread) ⟨rfl, rfl, rfl⟩ rfl rfl (hout hguard)

omit [DecidableEq ι] in
theorem mem_removing_unlink [DecidableEq ι] {u : ι} :
    i ∈ (s.unlink t ticket first next).history.removing u ↔
      i = ticket ∧ (s.pc u).inGuard ∨ i ∈ s.history.removing u := by
  show i ∈ (if (s.pc u).inGuard then ticket :: s.history.removing u else s.history.removing u) ↔ _
  split
  · rename_i hu
    simp [hu]
  · rename_i hu
    simp [hu]

/-- The nodes stay where they are, and a thread that has one to park goes on with it. -/
theorem Marked.moves (h : s.Marked) (hplace : s'.history.place = s.history.place)
    (hpc : s'.pc = Function.update s.pc t p) (hparks : p.parks = (s.pc t).parks)
    (hduring : ∀ u, s'.history.during u ⊆ s.history.during u)
    (hremoving : ∀ u, s'.history.during u ≠ [] → s.history.removing u ⊆ s'.history.removing u) : s'.Marked where
  bucket v n i hn hi := by
    refine hremoving v (List.ne_nil_of_mem hn) (h.bucket v n i (hduring v hn) ?_)
    rwa [← hplace]
  held v n u i hn hu hi := by
    refine hremoving v (List.ne_nil_of_mem hn) (h.held v n u i (hduring v hn) (hplace ▸ hu) ?_)
    rw [hpc] at hi
    by_cases hut : u = t
    · subst hut
      rwa [Function.update_self, hparks] at hi
    · rwa [Function.update_of_ne hut] at hi

theorem Marked.unlink (h : s.Marked) (ha : s.Accounted) (hw : s.Witnessed)
    (hpc : s.pc t = .pop ticket popping (.swing first next)) :
    ((s.unlink t ticket first next).goto t (.pop ticket popping (.retireLoad first next))).Marked := by
  have hmark : ∀ v, first ∈ ((s.unlink t ticket first next).goto t
      (.pop ticket popping (.retireLoad first next))).history.during v →
      ticket ∈ (s.unlink t ticket first next).history.removing v := fun v hn => by
    refine mem_removing_unlink.mpr (.inl ⟨rfl, ?_⟩)
    exact (mem_during_unlink.mp hn).elim And.right fun hn => hw.during v first hn
  refine ⟨fun v n i hn hi => ?_, fun v n u i hn hu hi => ?_⟩
  · replace hi : Function.update s.history.place first (.held t) n = .bucket i := hi
    have hne : n ≠ first := by
      rintro rfl
      rw [Function.update_self] at hi
      cases hi
    rw [Function.update_of_ne hne] at hi
    have hn := (mem_during_unlink.mp hn).resolve_left fun hn => hne hn.1
    exact mem_removing_unlink.mpr (.inr (h.bucket v n i hn hi))
  · replace hu : Function.update s.history.place first (.held t) n = .held u := hu
    replace hi : (Function.update s.pc t (.pop ticket popping (.retireLoad first next)) u).parks = some i := hi
    by_cases hne : n = first
    · subst hne
      rw [Function.update_self] at hu
      cases hu
      rw [Function.update_self] at hi
      cases hi
      exact hmark v hn
    · rw [Function.update_of_ne hne] at hu
      have hut : u ≠ t := by
        rintro rfl
        have := (ha.retiring u n).mp hu
        rw [hpc] at this
        cases this
      rw [Function.update_of_ne hut] at hi
      have hn := (mem_during_unlink.mp hn).resolve_left fun hn => hne hn.1
      exact mem_removing_unlink.mpr (.inr (h.held v n u i hn hu hi))

/-- Nodes change their places, but for none that a thread is to park or that
gets into a bucket. -/
theorem Marked.placed (h : s.Marked) (hpc : s'.pc = Function.update s.pc t p) (hnone : p.parks = none)
    (hduring : s'.history.during = s.history.during) (hremoving : s'.history.removing = s.history.removing)
    (hbucket : ∀ n i v, n ∈ s.history.during v → s'.history.place n = .bucket i →
      s.history.place n = .bucket i ∨ i ∈ s.history.removing v)
    (hheld : ∀ n u, s'.history.place n = .held u → s.history.place n = .held u) : s'.Marked where
  bucket v n i hn hi := by
    rw [hduring] at hn
    rw [hremoving]
    exact (hbucket n i v hn hi).elim (h.bucket v n i hn) id
  held v n u i hn hu hi := by
    rw [hduring] at hn
    rw [hremoving]
    refine h.held v n u i hn (hheld n u hu) ?_
    rw [hpc] at hi
    by_cases hut : u = t
    · subst hut
      rw [Function.update_self, hnone] at hi
      cases hi
    · rwa [Function.update_of_ne hut] at hi

theorem Marked.step {x : Action ι T} (h : s.Marked) (ha : s.Accounted) (hw : s.Witnessed)
    (hs : s.step x = some s') : s'.Marked := by
  have hsub : ∀ u, s.history.during u ⊆ s.history.during u := fun u => List.Subset.refl _
  have hrem : ∀ u, s.history.removing u ⊆ s.history.removing u := fun u => List.Subset.refl _
  cases step_effect hs with
  | quiet p hsame hws hpc hp =>
    exact h.moves hsame.place hpc hp.parks (fun u => by rw [hws.during]; exact hsub u)
      fun u _ => by rw [hws.removing]; exact hrem u
  | read ptr p hold _ hnew =>
    refine h.moves (t := x.thread) rfl rfl ?_ hsub fun u _ => hrem u
    rw [Pc.parks_none (Pc.bare_retiring hnew), Pc.parks_none (Pc.bare_retiring hold)]
  | leave p hsame _ hduring hremoving hpc hold hnew =>
    refine h.moves hsame.place hpc ?_ (fun u => ?_) fun u hu => ?_
    · rw [Pc.parks_none (Pc.bare_retiring hnew), Pc.parks_none (Pc.bare_retiring hold)]
    · rw [hduring]
      by_cases hut : u = x.thread
      · subst hut
        rw [Function.update_self]
        exact List.nil_subset _
      · rw [Function.update_of_ne hut]
        exact hsub u
    · rw [hduring] at hu
      have hut : u ≠ x.thread := by
        rintro rfl
        simp at hu
      rw [hremoving, Function.update_of_ne hut]
      exact hrem u
  | unlink hpc => exact h.unlink ha hw hpc
  | store hpc => exact h.moves (t := x.thread) rfl rfl (by rw [hpc]; rfl) hsub fun u _ => hrem u
  | @park ticket _ first _ _ hpc =>
    refine h.placed (t := x.thread) rfl rfl rfl rfl (fun n i v hn hi => ?_) fun n u hu => ?_
    · by_cases hne : n = first
      · subst hne
        simp only [goto, Function.update_self, Place.bucket.injEq] at hi
        subst hi
        -- the pop held the node for this bucket
        have hheld : s.history.place n = .held x.thread := (ha.retiring _ n).mpr (by rw [hpc]; rfl)
        exact .inr (h.held v n _ _ hn hheld (by rw [hpc]; rfl))
      · simp only [goto, Function.update_of_ne hne] at hi
        exact .inl hi
    · by_cases hne : n = first
      · subst hne
        simp [goto] at hu
      · simpa only [goto, Function.update_of_ne hne] using hu
  | @detach index ptr p hpc hptr _ hretiring =>
    refine h.placed (t := x.thread) rfl (Pc.parks_none hretiring) rfl rfl (fun n i v _ hi =>
      ?_) fun n u hu => ?_
    · simp only [goto, detach] at hi
      split at hi
      · cases hi
      · exact .inl hi
    · simp only [goto, detach] at hu
      split at hu
      · cases hu
      · exact hu
  | free node p _ _ _ _ hretiring =>
    refine h.placed (t := x.thread) rfl (Pc.parks_none hretiring) rfl rfl (fun n i v _ hi =>
      ?_) fun n u hu => ?_
    · by_cases hne : n = node
      · subst hne
        simp [goto, free] at hi
      · simp only [goto, free, Function.update_of_ne hne] at hi
        exact .inl hi
    · by_cases hne : n = node
      · subst hne
        simp [goto, free] at hu
      · simpa only [goto, free, Function.update_of_ne hne] using hu

omit [DecidableEq ι] in
theorem inGuard_entered (h : (s.pc t).inGuard) : ∃ ticket, (s.pc t).entered = some ticket := by
  generalize s.pc t = q at h
  cases q with
  | leave ticket at_ => cases at_ <;> first | exact ⟨_, rfl⟩ | cases h
  | push | pop | crashed => exact ⟨_, rfl⟩
  | _ => cases h

omit [DecidableEq ι] in
/-- The list of a bucket that has lapsed has outlived the calls in their guards:
those of the bucket are counted, and for the others the bucket is not marked. -/
theorem Lapsed.outlived [Fintype ι] (h : s.Lapsed index) (ht : s.Tended) (hw : s.Witnessed) (hm : s.Marked)
    (hplace : s.history.place n = .bucket index) (hn : n ∈ s.history.during t) : False := by
  obtain ⟨ticket, hticket⟩ := inGuard_entered (hw.during t n hn)
  by_cases hne : ticket = index
  · subst hne
    exact (ht.pos hticket).ne' h.1
  · exact h.2 t ticket hticket hne (hm.bucket t n index hn hplace)

theorem Spared.step [Fintype ι] {x : Action ι T} (h : s.Spared) (ha : s.Accounted) (ht : s.Tended)
    (hw : s.Witnessed) (hm : s.Marked) (hok : s.Graceful x) (hs : s.step x = some s') : s'.Spared := by
  cases step_effect hs with
  | quiet p hsame hw =>
    intro u n hn
    rw [hw.during] at hn
    rw [hsame.place]
    exact h u n hn
  | read ptr p => exact h
  | leave p hsame _ hduring =>
    intro u n hn
    have hu : u ≠ x.thread := by
      rintro rfl
      simp [hduring] at hn
    rw [hduring, Function.update_of_ne hu] at hn
    rw [hsame.place]
    exact h u n hn
  | @unlink _ _ first next hpc =>
    intro u n hn
    show (∃ v, Function.update s.history.place first (.held x.thread) n = .held v) ∨
      ∃ i, Function.update s.history.place first (.held x.thread) n = .bucket i
    by_cases hne : n = first
    · exact .inl ⟨x.thread, by rw [hne, Function.update_self]⟩
    · rw [Function.update_of_ne hne]
      exact h u n ((mem_during_unlink.mp hn).resolve_left fun hn => hne hn.1)
  | store hpc => exact h
  | @park ticket _ first _ _ hpc =>
    intro u n hn
    show (∃ v, Function.update s.history.place first (.bucket ticket) n = .held v) ∨
      ∃ i, Function.update s.history.place first (.bucket ticket) n = .bucket i
    by_cases hne : n = first
    · exact .inr ⟨ticket, by rw [hne, Function.update_self]⟩
    · rw [Function.update_of_ne hne]
      exact h u n hn
  | @detach index ptr p hpc hptr =>
    intro u n hn
    have hlapsed : s.Lapsed index := by
      rw [Graceful, hpc] at hok
      exact hok hptr
    have hplace : s.history.place n ≠ .bucket index := fun hplace => hlapsed.outlived ht hw hm hplace hn
    show (∃ v, (if s.history.place n = .bucket index then Place.detached x.thread else _) = _) ∨
      ∃ i, (if s.history.place n = .bucket index then Place.detached x.thread else _) = _
    rw [if_neg hplace]
    exact h u n hn
  | free node p hold =>
    intro u n hn
    have hdetached : s.history.place node = .detached x.thread := (hold ▸ ha.taken x.thread).head
    have hne : n ≠ node := by
      rintro rfl
      rcases h u n hn with ⟨v, hv⟩ | ⟨i, hi⟩
      · cases hdetached.symm.trans hv
      · cases hdetached.symm.trans hi
    show (∃ v, Function.update s.history.place node .freed n = .held v) ∨
      ∃ i, Function.update s.history.place node .freed n = .bucket i
    rw [Function.update_of_ne hne]
    exact h u n hn

-- ---------------------------------------------------------------------------
-- The destructor
-- ---------------------------------------------------------------------------

omit [DecidableEq ι] [Inhabited T] in
/-- `freeNodeChain` frees the nodes of a list, in order. -/
theorem freeNodeChain_linked {next : Address → Option Address} {fuel : Nat} {l : List Address}
    (h : Linked next a l) (hfuel : l.length ≤ fuel) : freeNodeChain next fuel a = l := by
  induction l generalizing a fuel with
  | nil =>
    obtain rfl : a = none := h
    cases fuel <;> rfl
  | cons x l ih =>
    obtain ⟨rfl, hl⟩ := h
    cases fuel with
    | zero => simp at hfuel
    | succ fuel => rw [freeNodeChain, ih hl (by simpa using hfuel)]

omit [DecidableEq ι] in
/-- A list of nodes of the chain is no longer than there are nodes. -/
theorem Chain.length_le {l : List Address} (h : s.Chain) (hl : l.Nodup) (hmem : ∀ n ∈ l, n ∈ s.chain) :
    l.length ≤ s.queue.allocated := by
  have hsub : l ⊆ List.range s.queue.allocated := fun n hn =>
    List.mem_range.mpr (h.allocated n (hmem n hn))
  simpa using (hl.subperm hsub).length_le

omit [DecidableEq ι] in
/-- The chain from the head on: nodes that have not been unlinked, each once. -/
theorem Chain.freeHead (h : s.Chain) :
    (freeNodeChain s.queue.next s.queue.allocated s.queue.head).Nodup ∧
    ∀ n ∈ freeNodeChain s.queue.next s.queue.allocated s.queue.head, n ∉ s.history.unlinked := by
  cases hhead : s.queue.head with
  | none =>
    rw [freeNodeChain_linked (l := []) rfl (Nat.zero_le _)]
    exact ⟨.nil, nofun⟩
  | some first =>
    have hat : s.queue.head = s.chain[s.history.unlinked.length]? :=
      h.head.resolve_left (by simp [hhead])
    have hlt : s.history.unlinked.length < s.chain.length :=
      (List.getElem?_eq_some_iff.mp (hat.symm.trans hhead)).1
    have hl := h.linked.drop _ hlt
    rw [← hat, hhead] at hl
    have hlen := h.length_le hl.nodup fun n hn => List.mem_of_mem_drop hn
    rw [freeNodeChain_linked hl hlen]
    refine ⟨hl.nodup, fun n hn hu => ?_⟩
    obtain ⟨r, hr⟩ := h.unlinked
    have hnodup := h.nodup
    rw [← hr, List.nodup_append] at hnodup
    rw [← hr, List.drop_left] at hn
    exact hnodup.2.2 n hu n hn rfl

omit [DecidableEq ι] in
/-- The list of a bucket, as the destructor walks it. -/
theorem Accounted.freeBucket (h : s.Accounted) (hc : s.Chain) (i : EpochIndex) :
    (freeNodeChain s.epochs.retiredNext s.queue.allocated (s.epochs.reclaimNode i)).Nodup ∧
    ∀ n, n ∈ freeNodeChain s.epochs.retiredNext s.queue.allocated (s.epochs.reclaimNode i) ↔
      s.history.place n = .bucket i := by
  obtain ⟨l, hl, hmem⟩ := h.buckets i
  have hchain : ∀ n ∈ l, n ∈ s.chain := fun n hn => by
    refine hc.unlinked.subset ?_
    by_contra hnot
    cases ((h.live n).mpr hnot).symm.trans ((hmem n).mp hn)
  rw [freeNodeChain_linked hl (hc.length_le hl.nodup hchain)]
  exact ⟨hl.nodup, hmem⟩

omit [DecidableEq ι] in
/-- Once the calls have left, an unlinked node is in a bucket or has been freed. -/
theorem Accounted.settled (h : s.Accounted) (hidle : ∀ t, s.pc t = .idle) (hn : n ∈ s.history.unlinked) :
    n ∈ s.history.freed ∨ ∃ i, s.history.place n = .bucket i := by
  cases hplace : s.history.place n with
  | live => exact absurd hn ((h.live n).mp hplace)
  | held t =>
    have := (h.retiring t n).mp hplace
    rw [hidle t] at this
    cases this
  | bucket i => exact .inr ⟨i, rfl⟩
  | detached t =>
    have hempty := h.taken t
    rw [hidle t] at hempty
    exact absurd hplace (hempty.empty n)
  | freed => exact .inl ((h.freed n).mpr hplace)

omit [DecidableEq ι] in
/-- The destructor frees what has been left, and nothing that has been freed. -/
theorem Accounted.destroy_nodup (h : s.Accounted) (hc : s.Chain) :
    (s.history.freed ++ s.destroy).Nodup := by
  have hfree : ∀ n ∈ s.history.freed, n ∈ s.history.unlinked := fun n hn => by
    by_contra hnot
    cases ((h.live n).mpr hnot).symm.trans ((h.freed n).mp hn)
  have hbucket : ∀ i n, s.history.place n = .bucket i → n ∈ s.history.unlinked := fun i n hi => by
    by_contra hnot
    cases ((h.live n).mpr hnot).symm.trans hi
  obtain ⟨hhead, hnot⟩ := hc.freeHead
  refine List.nodup_append.mpr ⟨h.once, List.nodup_append.mpr ⟨hhead, ?_, ?_⟩, ?_⟩
  · refine List.nodup_flatMap.mpr ⟨fun i _ => (h.freeBucket hc i).1, ?_⟩
    refine (List.nodup_finRange 50).imp fun {i j} hij n hi hj => hij ?_
    have hplace := ((h.freeBucket hc i).2 n).mp hi
    cases hplace.symm.trans (((h.freeBucket hc j).2 n).mp hj)
    rfl
  · rintro n hn m hm rfl
    obtain ⟨i, -, hi⟩ := List.mem_flatMap.mp hm
    exact hnot n hn (hbucket i n (((h.freeBucket hc i).2 n).mp hi))
  · rintro n hn m hm rfl
    rcases List.mem_append.mp hm with hm | hm
    · exact hnot n hm (hfree n hn)
    · obtain ⟨i, -, hi⟩ := List.mem_flatMap.mp hm
      cases ((h.freed n).mp hn).symm.trans (((h.freeBucket hc i).2 n).mp hi)

-- ---------------------------------------------------------------------------
-- No node is freed in use
-- ---------------------------------------------------------------------------

/-- A freed node has not been seen by a call that is in its guard; no node is
freed twice; and once the calls have left, only the current bucket has a list,
and each unlinked node has been freed or is freed by the destructor, once. -/
structure Reclaims (s : State ι T) : Prop where
  unused : ∀ n ∈ s.history.freed, ∀ t, n ∉ s.history.seen t
  freed : s.history.freed.Nodup ∧ s.history.freed ⊆ s.history.unlinked
  once : (∀ t, s.pc t = .idle) → (s.history.freed ++ s.destroy).Nodup ∧
    s.history.unlinked ⊆ s.history.freed ++ s.destroy
  empty : (∀ t, s.pc t = .idle) →
    ∀ i, i ≠ calcEpochIndex s.epochs.epochData.id → s.epochs.reclaimNode i = none

omit [DecidableEq ι] in
theorem Accounted.safe [Fintype ι] (h : s.Accounted) (hc : s.Chain) (ht : s.Tended)
    (hw : s.Witnessed) (hspared : s.Spared) : s.Reclaims := by
  have hunlinked : s.history.freed ⊆ s.history.unlinked := fun n hn => by
    by_contra hnot
    cases ((h.live n).mpr hnot).symm.trans ((h.freed n).mp hn)
  refine ⟨fun n hn t hseen => ?_, ⟨h.once, hunlinked⟩,
    fun hidle => ⟨h.destroy_nodup hc, fun n hn => ?_⟩, fun hidle i hi => ?_⟩
  · have hfreed := (h.freed n).mp hn
    rcases hspared t n (hw.unlinked t n hseen (hunlinked hn)) with ⟨u, hu⟩ | ⟨i, hi⟩
    · cases hfreed.symm.trans hu
    · cases hfreed.symm.trans hi
  · rcases h.settled hidle hn with hn | ⟨i, hi⟩
    · exact List.mem_append_left _ hn
    · refine List.mem_append_right _ (List.mem_append_right _ ?_)
      exact List.mem_flatMap.mpr ⟨i, List.mem_finRange i, ((h.freeBucket hc i).2 n).mpr hi⟩
  · by_contra hlist
    rcases ht.tended i hlist with hglobal | hpos | ⟨t, htends⟩
    · exact hi hglobal
    · have hzero : s.epochs.inFlightCount i = 0 := by
        rw [ht.counted i]
        exact Finset.sum_eq_zero fun t _ => by rw [hidle t]; rfl
      omega
    · rw [hidle t] at htends
      exact htends

/-- Where each list that is detached has a bucket that has lapsed, reclamation is safe. -/
theorem reclaims [Fintype ι] (h : ReachesBy step Graceful ({} : State ι T) s) : s.Reclaims := by
  have hc : s.Chained := h.reaches.invariant Chained.empty fun hc _ hs => hc.step hs
  have ht : s.Tended ∧ s.Witnessed := h.reaches.invariant (I := fun s => s.Tended ∧ s.Witnessed)
    ⟨.empty, nofun, nofun, nofun⟩ fun ⟨ht, hw⟩ _ hs => ⟨ht.step hs, hw.step hs⟩
  have ha : s.Accounted ∧ s.Spared ∧ s.Marked ∧ s.Chained ∧ s.Tended ∧ s.Witnessed :=
    h.invariant (I := fun s => s.Accounted ∧ s.Spared ∧ s.Marked ∧ s.Chained ∧ s.Tended ∧ s.Witnessed)
      ⟨.empty, nofun, ⟨nofun, nofun⟩, .empty, .empty, nofun, nofun, nofun⟩
      fun ⟨ha, hp, hm, hc, ht, hw⟩ hok hs =>
        ⟨ha.step hc.chain hs, hp.step ha ht hw hm hok hs, hm.step ha hw hs, hc.step hs, ht.step hs, hw.step hs⟩
  exact ha.1.safe hc.chain ht.1 ht.2 ha.2.1

instance [Fintype ι] (s : State ι T) (index : EpochIndex) : Decidable (s.Lapsed index) :=
  inferInstanceAs (Decidable (s.epochs.inFlightCount index = 0 ∧
    ∀ t ticket, (s.pc t).entered = some ticket → ticket ≠ index → index ∉ s.history.removing t))

instance [Fintype ι] (s : State ι T) (x : Action ι T) : Decidable (s.Graceful x) := by
  unfold Graceful
  split <;> infer_instance

/-- A queue that has been found empty so many times. -/
def spent (total : UInt64) : State (Fin 4) Nat := { epochs := { inFlightTotal := total } }

def turns (t : Fin 4) (n : Nat) : List (Action (Fin 4) Nat) := List.replicate n (.run t)

/-- The first thread has read the epoch, and takes part in it. -/
def counting (total : UInt64) : State (Fin 4) Nat :=
  { spent total with
    pc := Function.update (fun _ => .idle) 0
      (.enter (.pop (.optional false)) (.count (calcEpochIndex 0))) }

theorem spent_counting (h : total < 500) :
    execBy step Graceful (spent total) (.call 0 .popNoWait :: turns 0 2) = some (counting (total + 1)) := by
  have hearly : ¬epochTimeScale ≤ total := by simpa [epochTimeScale] using h
  simp [turns, spent, counting, execBy, Graceful, Action.thread, Pc.detaches, step, operation, State.run,
    runEnter, goto, hearly, List.replicate]

theorem counting_spent : execBy step Graceful (counting total) (turns 0 7) = some (spent total) := by
  obtain ⟨s, hs, rfl⟩ : ∃ s, execBy step Graceful (counting total) (turns 0 7) = some s ∧ s = spent total := by
    refine ⟨_, rfl, ?_⟩
    simp [spent, counting, runEnter, runPop, runLeave, goto, see, Operation.start, Popping.wait, popped]
  exact hs

theorem spent_reaches (n : Nat) (h : n ≤ 500) : ReachesBy step Graceful {} (spent (.ofNat n)) := by
  induction n with
  | zero => exact .refl
  | succ n ih =>
    have hlt : UInt64.ofNat n < 500 := by
      rw [UInt64.lt_iff_toNat_lt, UInt64.toNat_ofNat']
      simp
      omega
    have hround := (ReachesBy.of_execBy (spent_counting hlt)).trans (.of_execBy counting_spent)
    rw [show UInt64.ofNat n + 1 = UInt64.ofNat (n + 1) by simp] at hround
    exact (ih (by omega)).trans hround

/-- One item is pushed, and a pop enters the current bucket. Two calls read a
total each, and the later total is the first to move the epoch on; the earlier
one is below the total of that epoch, and moves it again. -/
def crowded : List (Action (Fin 4) Nat) :=
  .call 0 (.push 7) :: turns 0 12 ++ .call 1 .popNoWait :: turns 1 3 ++
  .call 2 .popNoWait :: turns 2 1 ++ .call 3 .popNoWait :: turns 3 3 ++ turns 2 2

/-- The pop removes the dummy and leaves as the last of its bucket. -/
theorem reclaims_lastOut :
    ((execBy step Graceful (spent 498) (crowded ++ turns 1 15)).get (by decide)).history.freed = [0] ∧
    ((execBy step Graceful (spent 498) (crowded ++ turns 1 15)).get (by decide)).Reclaims :=
  ⟨by decide, reclaims ((spent_reaches 498 (by decide)).trans (.of_execBy (Option.some_get _).symm))⟩

/-- Before it does, a pop enters the next bucket and reads the head. -/
def underFoot : List (Action (Fin 4) Nat) :=
  crowded ++ .call 0 .popNoWait :: turns 0 6 ++ turns 1 15

theorem underFoot_freed :
    Reaches step ({} : State (Fin 4) Nat) ((exec step (spent 498) underFoot).get (by decide)) ∧
    ¬((exec step (spent 498) underFoot).get (by decide)).Reclaims := by
  have hfreed : ((exec step (spent 498) underFoot).get (by decide)).history.freed = [0] ∧
      0 ∈ ((exec step (spent 498) underFoot).get (by decide)).history.seen 0 := by
    decide
  refine ⟨(spent_reaches 498 (by decide)).reaches.trans (.of_exec (Option.some_get _).symm), fun h => ?_⟩
  exact h.unused 0 (by rw [hfreed.1]; exact List.mem_singleton.mpr rfl) 0 hfreed.2

end State
end Dmn.BlockingQueueLf
