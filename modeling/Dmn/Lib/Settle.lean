import Mathlib.Logic.Function.Basic

/-!
# Operations that may be done again

An operation on a cell sets it, keeps it, or edits what is in it. Where the
edits are closed under composition and idempotent, so are the operations: a
whole sequence that is done once more changes nothing.
-/

namespace Dmn.Lib

variable {ρ : Type*} {G : (ρ → ρ) → Prop} {f f' : Option ρ → Option ρ}

/-- The operation sets the cell, keeps it, or edits what is in it. -/
def Settles (G : (ρ → ρ) → Prop) (f : Option ρ → Option ρ) : Prop :=
  (∃ c, ∀ x, f x = c) ∨ (∀ x, f x = x) ∨ ∃ g, G g ∧ ∀ x, f x = x.map g

theorem Settles.sets (c : Option ρ) (h : ∀ x, f x = c) : Settles G f := .inl ⟨c, h⟩

theorem Settles.keeps (h : ∀ x, f x = x) : Settles G f := .inr (.inl h)

theorem Settles.edits {g : ρ → ρ} (hg : G g) (h : ∀ x, f x = x.map g) : Settles G f := .inr (.inr ⟨g, hg, h⟩)

theorem Settles.comp (hG : ∀ g g', G g → G g' → G (g' ∘ g)) (hf : Settles G f) (hf' : Settles G f') :
    Settles G (f' ∘ f) := by
  obtain ⟨c', hset'⟩ | hkeep' | ⟨g', hg', hedit'⟩ := hf'
  · exact .sets c' fun x => hset' (f x)
  · have hcomp : f' ∘ f = f := funext fun x => hkeep' (f x)
    rw [hcomp]
    exact hf
  · obtain ⟨c, hset⟩ | hkeep | ⟨g, hg, hedit⟩ := hf
    · exact .sets (c.map g') fun x => by rw [Function.comp, hset, hedit']
    · exact .edits hg' fun x => by rw [Function.comp, hkeep, hedit']
    · exact .edits (hG g g' hg hg') fun x => by rw [Function.comp, hedit, hedit', Option.map_map]

theorem Settles.idem (hG : ∀ g, G g → ∀ r, g (g r) = g r) (hf : Settles G f) (x : Option ρ) :
    f (f x) = f x := by
  obtain ⟨c, hset⟩ | hkeep | ⟨g, hg, hedit⟩ := hf
  · rw [hset, hset]
  · rw [hkeep]
  · rw [hedit, hedit, Option.map_map]
    exact congrArg (Option.map · x) (funext (hG g hg))

end Dmn.Lib
