import Mathlib.Logic.Relation

/-! # Transition systems

Invariants of a step relation, carried along whole runs. Simulations use
`Relation.ReflTransGen.lift'` directly. -/

namespace Transition

open Relation (ReflTransGen)

variable {σ : Type*}

/-- `I` survives every single step of `R`. -/
def Preserved (R : σ → σ → Prop) (I : σ → Prop) : Prop :=
  ∀ ⦃s t⦄, R s t → I s → I t

theorem Preserved.run {R : σ → σ → Prop} {I : σ → Prop} (h : Preserved R I) {s t : σ}
    (hr : ReflTransGen R s t) (hs : I s) : I t := by
  induction hr with
  | refl => exact hs
  | tail _ hstep ih => exact h hstep ih

/-- A property of pairs that every step extends relates both ends of a run. -/
theorem run_relates {R P : σ → σ → Prop} (hrefl : ∀ s, P s s)
    (hstep : ∀ {s t u}, P s t → R t u → P s u) {s t : σ} (hr : ReflTransGen R s t) : P s t := by
  induction hr with
  | refl => exact hrefl s
  | tail _ h ih => exact hstep ih h

end Transition
