import Mathlib.Logic.Function.Basic

/-!
# Ownership of a mutex

A program with a mutex marks the places in which a thread holds it. `Owned`
ties the owner word to the places; it survives every step that moves one
thread and keeps, takes or drops the mutex accordingly.
-/

namespace Dmn.Lib

/-- The owner word names the thread whose place holds the mutex. -/
def Owned (owner : Option τ) (holds : τ → Prop) : Prop := ∀ t, owner = some t ↔ holds t

namespace Owned

variable {owner : Option τ} {holds holds' : τ → Prop} {t u : τ}

theorem unique (h : Owned owner holds) (ht : holds t) (hu : holds u) : t = u :=
  Option.some.inj (((h t).mpr ht).symm.trans ((h u).mpr hu))

theorem free (h : Owned owner holds) (hn : owner = none) : ¬holds t := fun ht => by
  have := (h t).mpr ht
  simp [hn] at this

theorem keep (h : Owned owner holds) (hs : ∀ u, holds' u ↔ holds u) : Owned owner holds' :=
  fun u => (h u).trans (hs u).symm

theorem take (h : Owned owner holds) (hn : owner = none) (ht : holds' t)
    (hs : ∀ u, u ≠ t → (holds' u ↔ holds u)) : Owned (some t) holds' := by
  intro u
  by_cases hu : u = t
  · subst hu
    exact ⟨fun _ => ht, fun _ => rfl⟩
  · rw [hs u hu]
    exact ⟨fun h => absurd (Option.some.inj h).symm hu, fun h' => absurd h' (h.free hn)⟩

theorem drop (h : Owned owner holds) (ht : holds t) (ht' : ¬holds' t)
    (hs : ∀ u, u ≠ t → (holds' u ↔ holds u)) : Owned none holds' := by
  intro u
  refine ⟨nofun, fun hu => ?_⟩
  have hne : u ≠ t := fun heq => ht' (heq ▸ hu)
  exact absurd (h.unique ((hs u hne).mp hu) ht) hne

/-- The mutex is free or a thread holds it. -/
theorem exists_holder (h : Owned owner holds) : owner = none ∨ ∃ t, holds t := by
  cases owner with
  | none => exact .inl rfl
  | some t => exact .inr ⟨t, (h t).mp rfl⟩

-- ---------------------------------------------------------------------------
-- One thread moves
-- ---------------------------------------------------------------------------

variable [DecidableEq τ] {P : Type*} {at_ : τ → P} {holdsAt : P → Bool} {p : P}

theorem move (h : Owned owner fun u => holdsAt (at_ u)) (hk : holdsAt p = holdsAt (at_ t)) :
    Owned owner fun u => holdsAt (Function.update at_ t p u) :=
  h.keep fun u => by
    by_cases hu : u = t
    · subst hu
      simp [hk]
    · simp [hu]

theorem moveTake (h : Owned owner fun u => holdsAt (at_ u)) (hn : owner = none) (hk : holdsAt p) :
    Owned (some t) fun u => holdsAt (Function.update at_ t p u) :=
  h.take hn (by simpa using hk) fun u hu => by simp [hu]

theorem moveDrop (h : Owned owner fun u => holdsAt (at_ u)) (ht : holdsAt (at_ t))
    (hk : holdsAt p = false) : Owned none fun u => holdsAt (Function.update at_ t p u) :=
  h.drop ht (by simpa using hk) fun u hu => by simp [hu]

end Owned
end Dmn.Lib
