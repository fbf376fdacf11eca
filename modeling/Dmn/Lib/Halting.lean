import Mathlib.Logic.Function.Basic

/-!
# Computations that may stop halfway

`EStateM` programs whose exception leaves what has been done so far. `final` is
the state in the end, thrown or not, and `Keeps` the invariant rule.
-/

namespace Dmn.Lib

variable {ε σ α β : Type}

/-- The state in the end. -/
def final (m : EStateM ε σ α) (s : σ) : σ :=
  match m s with
  | .ok _ t | .error _ t => t

@[simp] theorem final_pure (a : α) (s : σ) : final (pure a : EStateM ε σ α) s = s := rfl

@[simp] theorem final_throw (e : ε) (s : σ) : final (throw e : EStateM ε σ α) s = s := rfl

@[simp] theorem final_modify (f : σ → σ) (s : σ) : final (modify f : EStateM ε σ PUnit) s = f s := rfl

@[simp] theorem final_get_bind (f : σ → EStateM ε σ β) (s : σ) : final (get >>= f) s = final (f s) s := rfl

@[simp] theorem final_pure_bind (a : α) (f : α → EStateM ε σ β) (s : σ) : final (pure a >>= f) s =
    final (f a) s := rfl

@[simp] theorem final_throw_bind (e : ε) (f : α → EStateM ε σ β) (s : σ) :
    final ((throw e : EStateM ε σ α) >>= f) s = s := rfl

@[simp] theorem final_modify_bind (g : σ → σ) (f : PUnit → EStateM ε σ β) (s : σ) :
    final (modify g >>= f) s = final (f ⟨⟩) (g s) := rfl

theorem final_bind_ok {m : EStateM ε σ α} {f : α → EStateM ε σ β} {s t : σ} {a : α} (h : m s = .ok a t) :
    final (m >>= f) s = final (f a) t := by
  change (match (match m s with | .ok a t => f a t | .error e t => .error e t) with
    | .ok _ t | .error _ t => t) = _
  rw [h]
  rfl

/-- What the computation leaves true, wherever it stops. -/
def Keeps (I : σ → Prop) (m : EStateM ε σ α) : Prop := ∀ s, I s → I (final m s)

/-- From one state. -/
theorem final_bind_of {I : σ → Prop} {m : EStateM ε σ α} {f : α → EStateM ε σ β} {s : σ} (h : I (final m s))
    (hf : ∀ a t, m s = .ok a t → I (final (f a) t)) : I (final (m >>= f) s) := by
  change I (match (match m s with | .ok a t => f a t | .error e t => .error e t) with
    | .ok _ t | .error _ t => t)
  unfold final at h
  cases hm : m s with
  | ok a t => exact hf a t hm
  | error e t =>
    rw [hm] at h
    exact h

theorem Keeps.bind {I : σ → Prop} {m : EStateM ε σ α} {f : α → EStateM ε σ β} (h : Keeps I m)
    (hf : ∀ a, Keeps I (f a)) : Keeps I (m >>= f) := fun s hs =>
  final_bind_of (h s hs) fun a t hm => hf a t (by have ht := h s hs; unfold final at ht; rwa [hm] at ht)

theorem Keeps.of_ok {I : σ → Prop} {m : EStateM ε σ α} {s t : σ} {a : α} (h : Keeps I m) (hs : I s)
    (hok : m s = .ok a t) :
    I t := by
  have ht := h s hs
  rwa [final, hok] at ht

/-- A sequence that does not throw does not throw halfway. -/
theorem bind_eq_ok {m : EStateM ε σ α} {f : α → EStateM ε σ β} {s u : σ} {b : β} (h : (m >>= f) s = .ok b u) :
    ∃ a t, m s = .ok a t ∧ f a t = .ok b u := by
  change EStateM.bind m f s = .ok b u at h
  unfold EStateM.bind at h
  split at h
  · rename_i a t heq
    exact ⟨a, t, heq, h⟩
  · cases h

theorem except_bind_eq_ok {x : Except ε α} {f : α → Except ε β} {b : β} (h : x >>= f = .ok b) :
    ∃ a, x = .ok a ∧ f a = .ok b := by
  cases x with
  | ok a => exact ⟨a, rfl, h⟩
  | error e => cases h

/-- Something that is only read. -/
def reads (x : Except ε α) : EStateM ε σ α :=
  match x with
  | .ok a => pure a
  | .error e => throw e

theorem reads_bind_eq_ok {x : Except ε α} {f : α → EStateM ε σ β} {s u : σ} {b : β}
    (h : (reads x >>= f) s = .ok b u) : ∃ a, x = .ok a ∧ f a s = .ok b u := by
  cases x with
  | ok a => exact ⟨a, rfl, h⟩
  | error e => cases h

theorem final_reads_ok {x : Except ε α} {f : α → EStateM ε σ β} {s : σ} {a : α} (h : x = .ok a) :
    final (reads x >>= f) s = final (f a) s := by
  rw [h]
  rfl

theorem final_reads_bind {I : σ → Prop} {x : Except ε α} {f : α → EStateM ε σ β} {s : σ} (h : I s)
    (hf : ∀ a, x = .ok a → I (final (f a) s)) : I (final (reads x >>= f) s) := by
  cases x with
  | ok a => exact hf a rfl
  | error e => exact h

theorem Keeps.reads {I : σ → Prop} {x : Except ε α} {f : α → EStateM ε σ β} (hf : ∀ a, Keeps I (f a)) :
    Keeps I (Dmn.Lib.reads x >>= f) := fun s hs => final_reads_bind hs fun a _ => hf a s hs

theorem Keeps.pure {I : σ → Prop} (a : α) : Keeps I (Pure.pure a : EStateM ε σ α) := fun _ h => h

theorem Keeps.throw {I : σ → Prop} (e : ε) : Keeps I (MonadExcept.throw e : EStateM ε σ α) := fun _ h => h

theorem Keeps.modify {I : σ → Prop} {f : σ → σ} (hf : ∀ s, I s → I (f s)) :
    Keeps I (modify f : EStateM ε σ PUnit) := hf

/-- The state is read. -/
theorem Keeps.get {I : σ → Prop} {f : σ → EStateM ε σ β} (hf : ∀ s, Keeps I (f s)) :
    Keeps I (MonadState.get >>= f) :=
  fun s h => hf s s h

end Dmn.Lib
