import Mathlib

/-!
# Dialogues

A program that makes calls and goes on with what they return, whoever answers
them. `run` is a conversation with one partner; `Meets` says of every partner
that the conversation follows a protocol and how it ends, and is proved along
the program. `Obeys` is the same for a program that may throw.
-/

namespace Dmn.Lib

/-- A program of calls in `C`, with answers in `A`. -/
inductive Dialogue (C : Type) (A : C → Type) (α : Type)
  | done (a : α)
  | call (c : C) (k : A c → Dialogue C A α)

/-- A call, and what it returned. -/
abbrev Exchange (C : Type) (A : C → Type) := (c : C) × A c

namespace Dialogue

variable {C : Type} {A : C → Type} {α β ε σ : Type}

protected def bind : Dialogue C A α → (α → Dialogue C A β) → Dialogue C A β
  | done a, f => f a
  | call c k, f => call c fun a => (k a).bind f

instance : Monad (Dialogue C A) where
  pure := done
  bind := Dialogue.bind

def ask (c : C) : Dialogue C A (A c) := call c done

/-- Whoever answers, knowing what has been said. -/
abbrev Partner (C : Type) (A : C → Type) := List (Exchange C A) → (c : C) → A c

/-- What is said from here on, and the result. -/
def run (partner : Partner C A) : Dialogue C A α → List (Exchange C A) → List (Exchange C A) × α
  | done a, _ => ([], a)
  | call c k, said =>
    let exchange : Exchange C A := ⟨c, partner said c⟩
    let (rest, a) := (k exchange.2).run partner (said ++ [exchange])
    (exchange :: rest, a)

-- ---------------------------------------------------------------------------
-- Protocols
-- ---------------------------------------------------------------------------

section
variable (ok : σ → Exchange C A → Prop) (next : σ → Exchange C A → σ)

/-- Every exchange is allowed where it is made. -/
def Follows : σ → List (Exchange C A) → Prop
  | _, [] => True
  | s, e :: es => ok s e ∧ Follows (next s e) es

theorem follows_append {s : σ} {before after : List (Exchange C A)} :
    Follows ok next s (before ++ after) ↔ Follows ok next s before ∧
      Follows ok next (before.foldl next s) after := by
  induction before generalizing s with
  | nil => simp [Follows]
  | cons e es ih => simp [Follows, ih, and_assoc]

/-- What the allowed exchanges are while an invariant is kept. -/
theorem Follows.forall {I : σ → Prop} {P : Exchange C A → Prop} {s : σ} {said : List (Exchange C A)}
    (h : Follows ok next s said) (hinit : I s) (hnext : ∀ s e, I s → ok s e → P e ∧ I (next s e)) :
    ∀ e ∈ said, P e := by
  induction said generalizing s with
  | nil => exact fun e mem => absurd mem List.not_mem_nil
  | cons e es ih =>
    obtain ⟨here, kept⟩ := hnext s e hinit h.1
    exact List.forall_mem_cons.mpr ⟨here, ih h.2 kept⟩

/-- Whatever is answered, the calls are allowed and the end is as told. -/
def Meets : Dialogue C A α → σ → (α → σ → Prop) → Prop
  | done a, s, Q => Q a s
  | call c k, s, Q => ∀ a, ok s ⟨c, a⟩ ∧ (k a).Meets (next s ⟨c, a⟩) Q

variable {ok next}

theorem Meets.mono {p : Dialogue C A α} {s : σ} {Q R : α → σ → Prop} (h : p.Meets ok next s Q)
    (himp : ∀ a s, Q a s → R a s) : p.Meets ok next s R := by
  induction p generalizing s with
  | done a => exact himp a s h
  | call c k ih => exact fun a => ⟨(h a).1, ih a (h a).2⟩

theorem meets_bind {p : Dialogue C A α} {f : α → Dialogue C A β} {s : σ} {Q : β → σ → Prop} :
    (p.bind f).Meets ok next s Q ↔ p.Meets ok next s fun a s => (f a).Meets ok next s Q := by
  induction p generalizing s with
  | done a => exact Iff.rfl
  | call c k ih => exact forall_congr' fun a => and_congr_right fun _ => ih a

/-- What is proved along the program holds of every conversation. -/
theorem Meets.run {p : Dialogue C A α} {s : σ} {Q : α → σ → Prop} (h : p.Meets ok next s Q)
    (partner : Partner C A)
    (said : List (Exchange C A)) :
    Follows ok next s (p.run partner said).1 ∧ Q (p.run partner said).2 ((p.run partner said).1.foldl
      next s) := by
  induction p generalizing s said with
  | done a => exact ⟨trivial, h⟩
  | call c k ih =>
    obtain ⟨allowed, rest⟩ := h (partner said c)
    obtain ⟨follows, ends⟩ := ih _ rest (said ++ [⟨c, partner said c⟩])
    exact ⟨⟨allowed, follows⟩, ends⟩

-- ---------------------------------------------------------------------------
-- Programs that may throw
-- ---------------------------------------------------------------------------

variable (ok next)

/-- It ends in `Q`, or throws in `E`. -/
def Obeys (p : ExceptT ε (Dialogue C A) α) (s : σ) (Q : α → σ → Prop) (E : ε → σ → Prop) : Prop :=
  Meets ok next p.run s fun
    | .ok a, s => Q a s
    | .error e, s => E e s

variable {ok next} {s : σ} {Q : α → σ → Prop} {E : ε → σ → Prop}

theorem Obeys.pure {a : α} (h : Q a s) : Obeys ok next (Pure.pure a : ExceptT ε (Dialogue C A) α) s Q E := h

theorem Obeys.throw {e : ε} (h : E e s) : Obeys ok next (MonadExcept.throw e : ExceptT ε (Dialogue C A) α)
    s Q E := h

theorem Obeys.call {c : C} {f : A c → ExceptT ε (Dialogue C A) α} (allowed : ∀ a, ok s ⟨c, a⟩)
    (h : ∀ a, Obeys ok next (f a) (next s ⟨c, a⟩) Q E) : Obeys ok next (ExceptT.lift (ask c) >>= f) s Q E :=
  fun a => ⟨allowed a, h a⟩

theorem Obeys.bind {p : ExceptT ε (Dialogue C A) α} {f : α → ExceptT ε (Dialogue C A) β} {R : β → σ → Prop}
    (h : Obeys ok next p s Q E) (hf : ∀ a s, Q a s → Obeys ok next (f a) s R E) :
    Obeys ok next (p >>= f) s R E := by
  refine meets_bind.mpr (Meets.mono h ?_)
  rintro (e | a) s hs
  · exact hs
  · exact hf a s hs

theorem Obeys.mono {p : ExceptT ε (Dialogue C A) α} {R : α → σ → Prop} (h : Obeys ok next p s Q E)
    (himp : ∀ a s, Q a s → R a s) : Obeys ok next p s R E := by
  refine Meets.mono h ?_
  rintro (e | a) s hs
  · exact hs
  · exact himp a s hs

theorem Obeys.tryCatch {p : ExceptT ε (Dialogue C A) α} {handle : ε → ExceptT ε (Dialogue C A) α}
    {F : ε → σ → Prop}
    (h : Obeys ok next p s Q F) (hcatch : ∀ e s, F e s → Obeys ok next (handle e) s Q E) :
    Obeys ok next (MonadExcept.tryCatch p handle) s Q E := by
  refine meets_bind.mpr (Meets.mono h ?_)
  rintro (e | a) s hs
  · exact hcatch e s hs
  · exact hs

end
end Dialogue
end Dmn.Lib
