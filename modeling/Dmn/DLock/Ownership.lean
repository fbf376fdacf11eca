import Dmn.DLock.Exclusion
import Dmn.Lib.StrictOrder

/-!
# Ownership by request id

A request id is derived from `m_next_sequence` before the request may block,
and the sequence is consumed when it is granted. A request that blocks can so
be granted under the id of a later one. Where no grant comes between the
derivation of an id and its own grant, ids name grants.
-/

namespace Dmn.DLock

open Lib

/-- What the requests and the acquisitions of a thread satisfy. -/
def Pc.Carries (Q : Request → Prop) (R : Acquire → Prop) : Pc → Prop
  | .acquire r | .asyncLock r | .asyncFlag r | .asyncReap r _ | .asyncJoin r _ | .asyncSpawn r => Q r
  | .check a | .flag a | .wait a | .waiting a | .relock a | .flagAfter a | .grant a => R a
  | _ => True

namespace State

variable {ι : Type} {s s' : State ι} {t : Tid ι} {p : Pc} {Q : Request → Prop} {R : Acquire → Prop}

-- ---------------------------------------------------------------------------
-- Derived ids
-- ---------------------------------------------------------------------------

/-- The id derived for a sequence number. -/
def derivedId (sequence : Nat) : String := "req-" ++ toString sequence

theorem toString_injective {m n : Nat} (h : toString m = toString n) : m = n := by
  have hd : Nat.toDigits 10 m = Nat.toDigits 10 n := by
    simpa [toString, Nat.toList_repr] using congrArg String.toList h
  rw [← Nat.ofDigitChars_ten_toDigits (n := m), hd, Nat.ofDigitChars_ten_toDigits]

theorem derivedId_injective (h : derivedId m = derivedId n) : m = n := by
  have hl := congrArg String.toList h
  simp only [derivedId, String.toList_append, List.append_cancel_left_eq] at hl
  exact toString_injective (String.toList_injective hl)

/-- The calls leave the id of the request to the lock. -/
def Anonymous : Action ι → Prop
  | .call _ (.acquireLock r) | .call _ (.acquireLockAsync r) => r.options.requestId = ""
  | _ => True

/-- A grant comes while the sequence is the one its id was derived from, and
does not wrap it. -/
def InTime (s : State ι) : Pc → Prop
  | .grant a => s.table.nextSequence = a.derivedAt ∧ s.grants.length + 1 < 2 ^ 64
  | _ => True

def Timely (s : State ι) : Action ι → Prop
  | .run t => s.InTime (s.pc t)
  | _ => True

instance (x : Action ι) : Decidable (Anonymous x) :=
  match x with
  | .call _ (.acquireLock r) => inferInstanceAs (Decidable (r.options.requestId = ""))
  | .call _ (.acquireLockAsync r) => inferInstanceAs (Decidable (r.options.requestId = ""))
  | .call _ (.releaseLock _) | .call _ .destroy | .run _ | .execFails _ | .spuriousWakeUp _ =>
    isTrue trivial

instance (s : State ι) (p : Pc) : Decidable (s.InTime p) := by
  cases p <;> first | exact instDecidableAnd | exact isTrue trivial

instance (s : State ι) (x : Action ι) : Decidable (s.Timely x) :=
  match x with
  | .run t => inferInstanceAs (Decidable (s.InTime (s.pc t)))
  | .call _ _ | .execFails _ | .spuriousWakeUp _ => isTrue trivial

/-- The ids of the held grants are distinct, and the id of a grant finds that
grant or nothing. -/
structure Ownership (s : State ι) : Prop where
  distinct : s.table.entries.Pairwise fun a b => a.requestId ≠ b.requestId
  held : ∀ g ∈ s.grants, ∀ e ∈ s.table.entries, e.sequence = g.sequence →
    e.requestId = g.requestId ∧ e.range = g.range
  release : ∀ g ∈ s.grants, ∀ e rest, removeRequest g.requestId s.table.entries = some (e, rest) →
    e.range = g.range ∧ e.sequence = g.sequence ∧
      rest = s.table.entries.filter fun x => x.sequence != g.sequence

structure Named (d : String) (s : State ι) : Prop where
  inv : s.Inv d
  bound : s.grants.length < 2 ^ 64
  pcs : ∀ u, (s.pc u).Carries (fun r => r.options.requestId = "")
    fun a => a.requestId = derivedId (next a.derivedAt)
  ids : ∀ g ∈ s.grants, g.requestId = derivedId g.sequence
  granted : ∀ e ∈ s.table.entries,
    ∃ g ∈ s.grants, g.requestId = e.requestId ∧ g.range = e.range ∧ g.sequence = e.sequence
  distinct : s.table.entries.Pairwise fun a b => a.sequence ≠ b.sequence

theorem Named.counted (h : s.Named d) : Counted s.grants s.table := h.inv.counted h.bound

theorem Named.grant_unique (h : s.Named d) (hg : g ∈ s.grants) (hg' : g' ∈ s.grants)
    (heq : g.sequence = g'.sequence) : g = g' := by
  refine List.inj_on_of_nodup_map (f := Grant.sequence) ?_ hg hg' heq
  rw [h.counted.sequences]
  exact List.nodup_range'

theorem Named.entry_id (h : s.Named d) (he : e ∈ s.table.entries) :
    e.requestId = derivedId e.sequence := by
  obtain ⟨g, hg, hid, -, hseq⟩ := h.granted e he
  rw [← hid, h.ids g hg, hseq]

theorem Named.owns (h : s.Named d) : s.Ownership where
  distinct := h.distinct.imp_of_mem fun ha hb hne heq => hne (derivedId_injective (by
    rwa [← h.entry_id ha, ← h.entry_id hb]))
  held g hg e he heq := by
    obtain ⟨g', hg', hid, hrange, hseq⟩ := h.granted e he
    obtain rfl := h.grant_unique hg hg' (by rw [hseq, heq])
    exact ⟨hid.symm, hrange.symm⟩
  release g hg e rest hrem := by
    obtain ⟨e', hfind, heq⟩ := Option.map_eq_some_iff.mp hrem
    obtain ⟨rfl, rfl⟩ := Prod.mk.inj heq
    have he := List.mem_of_find?_eq_some hfind
    have hid : e'.requestId = g.requestId := by simpa using List.find?_some hfind
    have hseq : e'.sequence = g.sequence := derivedId_injective (by
      rw [← h.entry_id he, hid, h.ids g hg])
    obtain ⟨g', hg', -, hrange, hseq'⟩ := h.granted e' he
    obtain rfl := h.grant_unique hg hg' (by rw [hseq', hseq])
    refine ⟨hrange.symm, hseq, ?_⟩
    rw [← hseq]
    exact (RemovedAt.of_find? hfind).eq_filter (List.pairwise_map.mpr h.distinct)

theorem Named.construct (d : String) : (construct d : State ι).Named d where
  inv := .construct d
  bound := by simp [State.construct]
  pcs _ := trivial
  ids := by simp [State.construct]
  granted := by simp [State.construct]
  distinct := .nil

/-- The table and the grants are as they were. -/
theorem Named.same (h : s.Named d) (hi : s'.Inv d) (htable : s'.table = s.table)
    (hgrants : s'.grants = s.grants)
    (hpcs : ∀ u, (s'.pc u).Carries (fun r => r.options.requestId = "")
      fun a => a.requestId = derivedId (next a.derivedAt)) : s'.Named d where
  inv := hi
  bound := hgrants ▸ h.bound
  pcs := hpcs
  ids := hgrants ▸ h.ids
  granted := by
    rw [htable, hgrants]
    exact h.granted
  distinct := htable ▸ h.distinct

theorem requestIdFor_anonymous {r : Request} (h : r.options.requestId = "") :
    s.requestIdFor r = derivedId (next s.table.nextSequence) := by
  rw [requestIdFor, if_pos h, derivedId]

-- ---------------------------------------------------------------------------
-- Steps hand the requests on
-- ---------------------------------------------------------------------------

theorem carries_wake (h : p.Carries Q R) : (wake p).Carries Q R := by
  cases p <;> exact h

theorem carries_returnPc : (returnPc t result).Carries Q R := by
  cases t <;> trivial

variable [DecidableEq ι]

theorem carries_update {f : Tid ι → Pc} (h : ∀ u, (f u).Carries Q R) (hpc : p.Carries Q R)
    (u : Tid ι) : (Function.update f t p u).Carries Q R := by
  by_cases hu : u = t
  · subst hu
    simpa using hpc
  · simpa [hu] using h u

theorem carries_return {result : Result} (h : ∀ u, (s.pc u).Carries Q R) (u : Tid ι) :
    ((s.return_ t result).pc u).Carries Q R := by
  rw [return_eq]
  exact carries_update h carries_returnPc u

theorem carries_grant (h : ∀ u, (s.pc u).Carries Q R) (u : Tid ι) :
    ((s.grant t a).pc u).Carries Q R := by
  simp only [grant]
  split
  · exact carries_return (s := s.unlock) h u
  · exact carries_return (s := State.unlock _) (fun v => carries_wake (h v)) u

theorem carries_release (h : ∀ u, (s.pc u).Carries Q R) (u : Tid ι) :
    ((s.release t r).pc u).Carries Q R := by
  unfold release
  split
  · exact carries_update h (p := .idle) trivial u
  · exact carries_update (f := fun v => wake (s.pc v)) (fun v => carries_wake (h v)) (p := .idle)
      trivial u

/-- A step makes acquisitions of requests and hands both on. -/
theorem carries_run (h : ∀ u, (s.pc u).Carries Q R)
    (hderive : ∀ r, Q r → R ⟨r, s.requestIdFor r, s.table.nextSequence⟩) (hs : s.run t = some s')
    (u : Tid ι) : (s'.pc u).Carries Q R := by
  have ht := h t
  unfold run at hs
  cases hpc : s.pc t with
  | idle | waiting | exited => simp [hpc] at hs
  | acquire r =>
    rw [hpc] at ht
    simp only [hpc] at hs
    split at hs
    · exact Option.some.inj hs ▸ carries_return h u
    · split at hs
      · cases hs
      · exact Option.some.inj hs ▸ carries_update h (p := .check _) (hderive r ht) u
  | check a =>
    rw [hpc] at ht
    simp only [hpc] at hs
    refine Option.some.inj hs ▸ carries_update h ?_ u
    split <;> exact ht
  | flag a =>
    rw [hpc] at ht
    simp only [hpc] at hs
    split at hs
    · exact Option.some.inj hs ▸ carries_return (s := s.unlock) h u
    · split at hs
      · exact Option.some.inj hs ▸ carries_return (s := s.unlock) h u
      · exact Option.some.inj hs ▸ carries_update h (p := .wait a) ht u
  | wait a =>
    rw [hpc] at ht
    simp only [hpc] at hs
    exact Option.some.inj hs ▸ carries_update h (p := .waiting a) ht u
  | relock a =>
    rw [hpc] at ht
    simp only [hpc] at hs
    split at hs
    · cases hs
    · exact Option.some.inj hs ▸ carries_update h (p := .check a) ht u
  | flagAfter a =>
    rw [hpc] at ht
    simp only [hpc] at hs
    split at hs
    · exact Option.some.inj hs ▸ carries_return (s := s.unlock) h u
    · exact Option.some.inj hs ▸ carries_update h (p := .grant a) ht u
  | grant a =>
    simp only [hpc] at hs
    exact Option.some.inj hs ▸ carries_grant h u
  | release requestId =>
    simp only [hpc] at hs
    split at hs
    · cases hs
    · exact Option.some.inj hs ▸ carries_release h u
  | asyncLock r =>
    rw [hpc] at ht
    simp only [hpc] at hs
    split at hs
    · cases hs
    · exact Option.some.inj hs ▸ carries_update h (p := .asyncFlag r) ht u
  | asyncFlag r =>
    rw [hpc] at ht
    simp only [hpc] at hs
    split at hs
    · exact Option.some.inj hs ▸ carries_update h (p := .idle) trivial u
    · exact Option.some.inj hs ▸ carries_update h (p := .asyncReap r 0) ht u
  | asyncReap r index =>
    rw [hpc] at ht
    simp only [hpc] at hs
    split at hs
    · exact Option.some.inj hs ▸ carries_update h (p := .asyncSpawn r) ht u
    · refine Option.some.inj hs ▸ carries_update h ?_ u
      split <;> exact ht
  | asyncJoin r index =>
    rw [hpc] at ht
    simp only [hpc] at hs
    split at hs
    · cases hs
    · split at hs
      · exact Option.some.inj hs ▸ carries_update h (p := .asyncReap r index) ht u
      · cases hs
  | asyncSpawn r =>
    rw [hpc] at ht
    simp only [hpc] at hs
    exact Option.some.inj hs ▸
      carries_update (carries_update h (p := .acquire r) ht) (p := .idle) trivial u
  | promise result =>
    simp only [hpc] at hs
    split at hs
    · cases hs
    · exact Option.some.inj hs ▸ carries_update h (p := .complete) trivial u
  | complete | exiting | destroyStore =>
    simp only [hpc] at hs
    exact Option.some.inj hs ▸ carries_update h (by trivial) u
  | destroyNotify =>
    simp only [hpc] at hs
    exact Option.some.inj hs ▸ carries_update (f := fun v => wake (s.pc v))
      (fun v => carries_wake (h v)) (p := .destroyLock) trivial u
  | destroyLock =>
    simp only [hpc] at hs
    split at hs
    · cases hs
    · exact Option.some.inj hs ▸ carries_update h (by trivial) u
  | destroyWait index =>
    simp only [hpc] at hs
    split at hs
    · exact Option.some.inj hs ▸ carries_update h (by trivial) u
    · split at hs
      · exact Option.some.inj hs ▸ carries_update h (by trivial) u
      · cases hs
  | destroyJoin index =>
    simp only [hpc] at hs
    split at hs
    · cases hs
    · split at hs
      · exact Option.some.inj hs ▸ carries_update h (by trivial) u
      · cases hs

theorem table_return : (s.return_ t result).table = s.table ∧ (s.return_ t result).grants = s.grants := by
  cases t <;> exact ⟨rfl, rfl⟩

/-- Only a grant and a release touch the table. -/
theorem table_run (hs : s.run t = some s') :
    (s'.table = s.table ∧ s'.grants = s.grants) ∨ (∃ a, s.pc t = .grant a ∧ s' = s.grant t a) ∨
      ∃ requestId, s.pc t = .release requestId ∧ s' = s.release t requestId := by
  unfold run at hs
  cases hpc : s.pc t with
  | grant a =>
    simp only [hpc] at hs
    exact .inr (.inl ⟨a, rfl, (Option.some.inj hs).symm⟩)
  | release requestId =>
    simp only [hpc] at hs
    split at hs
    · cases hs
    · exact .inr (.inr ⟨requestId, rfl, (Option.some.inj hs).symm⟩)
  | _ =>
    left
    simp only [hpc] at hs
    repeat' split at hs
    all_goals first
      | cases hs
        done
      | exact Option.some.inj hs ▸ table_return
      | exact Option.some.inj hs ▸ ⟨rfl, rfl⟩

-- ---------------------------------------------------------------------------
-- Runs of timely grants
-- ---------------------------------------------------------------------------

theorem Named.release (h : s.Named d) (hi : (s.release t requestId).Inv d) :
    (s.release t requestId).Named d := by
  have hpcs := fun u => carries_release (t := t) (r := requestId) h.pcs u
  revert hi hpcs
  unfold State.release
  split
  · exact fun hi hpcs => h.same hi rfl rfl hpcs
  · rename_i e entries hrem
    intro hi hpcs
    obtain ⟨e', -, heq⟩ := Option.map_eq_some_iff.mp hrem
    have hsub : entries.Sublist s.table.entries := by
      rw [← (Prod.mk.inj heq).2]
      exact List.eraseP_sublist
    exact ⟨hi, h.bound, hpcs, h.ids, fun x hx => h.granted x (hsub.subset hx), h.distinct.sublist hsub⟩

theorem Named.grant (h : s.Named d) (hpc : s.pc t = .grant a)
    (hseq : s.table.nextSequence = a.derivedAt) (hlen : s.grants.length + 1 < 2 ^ 64)
    (hi : (s.grant t a).Inv d) : (s.grant t a).Named d := by
  have hpcs := fun u => carries_grant (t := t) (a := a) h.pcs u
  have hid := h.pcs t
  rw [hpc] at hid
  by_cases hd : s.domain = ""
  · rw [grant_refused hd] at hi hpcs ⊢
    exact h.same hi (table_return (s := s.unlock)).1 (table_return (s := s.unlock)).2 hpcs
  · obtain ⟨heq, -, hent⟩ := grant_eq h.inv hpc hd
    rw [heq] at hi hpcs ⊢
    refine ⟨hi, by simpa [State.notifyAll, unlock, goto] using hlen, hpcs, ?_, ?_, ?_⟩
    · intro g hg
      rcases List.mem_append.mp hg with hg | hg
      · exact h.ids g hg
      · obtain rfl := List.mem_singleton.mp hg
        show a.requestId = derivedId (next s.table.nextSequence)
        rw [hseq]
        exact hid
    · intro e he
      have he : e ∈ (s.grantedTable a).entries := he
      rw [hent, TableSnapshot.mem_inserted] at he
      rcases he with rfl | he
      · exact ⟨s.grantOf a, List.mem_append.mpr (.inr (by simp)), rfl, rfl, rfl⟩
      · obtain ⟨g, hg, hgs⟩ := h.granted e he
        exact ⟨g, List.mem_append.mpr (.inl hg), hgs⟩
    · show (s.grantedTable a).entries.Pairwise _
      rw [hent, (TableSnapshot.inserted_perm _ _).pairwise_iff Ne.symm, List.pairwise_cons]
      refine ⟨fun x hx => ?_, h.distinct⟩
      have hx := (h.counted.entries x hx).1
      have hnext : (s.grantedEntry a).sequence = s.grants.length + 1 := by
        rw [grantedEntry, h.counted.nextSequence, next_eq hlen]
      omega

theorem carries_enter (h : ∀ u, (s.pc u).Carries Q R) (hpc : p.Carries Q R)
    (hs : call.enter s c p = some s') (u : Tid ι) : (s'.pc u).Carries Q R := by
  unfold call.enter at hs
  split at hs
  · exact Option.some.inj hs ▸ carries_update h hpc u
  · cases hs

theorem table_enter (hs : call.enter s c p = some s') :
    s'.table = s.table ∧ s'.grants = s.grants := by
  unfold call.enter at hs
  split at hs
  · exact Option.some.inj hs ▸ ⟨rfl, rfl⟩
  · cases hs

theorem Named.enter (h : s.Named d) (hi : s'.Inv d)
    (hpc : p.Carries (fun r => r.options.requestId = "") fun a => a.requestId = derivedId (next a.derivedAt))
    (hs : call.enter s c p = some s') : s'.Named d :=
  h.same hi (table_enter hs).1 (table_enter hs).2 (carries_enter h.pcs hpc hs)

theorem Named.step {x : Action ι} (h : s.Named d) (ha : Anonymous x) (ht : s.Timely x)
    (hs : s.step x = some s') : s'.Named d := by
  have hi := h.inv.step hs
  cases x with
  | call c op =>
    cases op with
    | acquireLock r => exact h.enter (p := .acquire r) hi ha hs
    | acquireLockAsync r => exact h.enter (p := .asyncLock r) hi ha hs
    | releaseLock requestId => exact h.enter (p := .release requestId) hi (by trivial) hs
    | destroy =>
      obtain ⟨s'', hs'', rfl⟩ := Option.map_eq_some_iff.mp hs
      have hpcs := carries_enter h.pcs (p := .destroyStore) (by trivial) hs''
      exact h.same hi (table_enter hs'').1 (table_enter hs'').2 hpcs
  | run t =>
    have hpcs := carries_run h.pcs (fun r hr => requestIdFor_anonymous hr) hs
    rcases table_run hs with ⟨htable, hgrants⟩ | ⟨a, hpc, rfl⟩ | ⟨requestId, -, rfl⟩
    · exact h.same hi htable hgrants hpcs
    · have ht : s.InTime (s.pc t) := ht
      rw [hpc] at ht
      obtain ⟨hseq, hlen⟩ := ht
      exact h.grant hpc hseq hlen hi
    · exact h.release hi
  | execFails t =>
    simp only [State.step, State.execFails] at hs
    split at hs
    · obtain rfl := Option.some.inj hs
      exact h.same hi rfl rfl fun u => carries_update h.pcs (p := .idle) (by trivial) u
    · cases hs
  | spuriousWakeUp t =>
    simp only [State.step] at hs
    split at hs
    · rename_i a hpc
      obtain rfl := Option.some.inj hs
      have ha := h.pcs t
      rw [hpc] at ha
      exact h.same hi rfl rfl fun u => carries_update h.pcs (p := .relock a) ha u
    · cases hs

/-- A range is taken and given back, and another thread takes it. -/
def handedOn : List (Action (Fin 2)) :=
  .call 0 (.acquireLock ⟨⟨0, 9⟩, {}⟩) :: List.replicate 4 (.run (.client 0)) ++
  [.call 0 (.releaseLock "req-1"), .run (.client 0)] ++
  .call 1 (.acquireLock ⟨⟨0, 9⟩, {}⟩) :: List.replicate 4 (.run (.client 1))

/-- Two threads wait for a range and a third takes another one. The first
waiter is granted under the id the third one has, which the second keeps. -/
def overtaken : List (Action (Fin 3)) :=
  .call 0 (.acquireLock ⟨⟨0, 9⟩, {}⟩) :: List.replicate 4 (.run (.client 0)) ++
  .call 1 (.acquireLock ⟨⟨0, 9⟩, {}⟩) :: List.replicate 4 (.run (.client 1)) ++
  .call 2 (.acquireLock ⟨⟨20, 29⟩, {}⟩) :: List.replicate 4 (.run (.client 2)) ++
  [.call 0 (.releaseLock "req-1"), .run (.client 0)] ++ List.replicate 4 (.run (.client 1))

end State
end Dmn.DLock
