import Mathlib.Data.List.Range
import Mathlib.Data.Nat.Cast.Basic

/-! # Numbered logs

A log is a list whose entries carry an ordinal. `Consecutive` says that the
ordinals are 1, 2, …, length in list order; `ClosedBy p` says that an entry
satisfying `p` can only be the last one. Both are kept by appending the next
entry. -/

namespace OrdinalLog

variable {α β N : Type*} [NatCast N] {ord : α → N} {p : α → Prop} {xs ys : List α} {x : α}

/-- The ordinals are exactly 1..length, in order. -/
def Consecutive (ord : α → N) (xs : List α) : Prop :=
  xs.map ord = (List.range' 1 xs.length).map Nat.cast

/-- Only the last entry may satisfy `p`. -/
def ClosedBy (p : α → Prop) (xs : List α) : Prop := ∀ x ∈ xs.dropLast, ¬ p x

theorem Consecutive.nil : Consecutive ord [] := rfl

theorem Consecutive.append (h : Consecutive ord xs)
    (hy : ys.map ord = (List.range' (xs.length + 1) ys.length).map Nat.cast) :
    Consecutive ord (xs ++ ys) := by
  unfold Consecutive at *
  rw [List.map_append, h, hy, List.length_append, ← List.range'_append, List.map_append]
  simp [Nat.add_comm]

/-- `Consecutive.append` with the new ordinals as natural numbers. -/
theorem Consecutive.append_range {ord : α → ℕ} (h : Consecutive ord xs)
    (hy : ys.map ord = List.range' (xs.length + 1) ys.length) : Consecutive ord (xs ++ ys) := by
  refine h.append ?_
  rw [hy]
  exact (List.map_id'' (fun n => Nat.cast_id n) _).symm

theorem Consecutive.snoc (h : Consecutive ord xs) (hx : ord x = ((xs.length + 1 : ℕ) : N)) :
    Consecutive ord (xs ++ [x]) :=
  h.append (by simp [hx])

theorem Consecutive.map {f : α → α} (h : Consecutive ord xs) (hf : ∀ x ∈ xs, ord (f x) = ord x) :
    Consecutive ord (xs.map f) := by
  unfold Consecutive at *
  rw [List.map_map, List.length_map, ← h]
  exact List.map_congr_left hf

theorem consecutive_map {f : β → α} {zs : List β} :
    Consecutive ord (zs.map f) ↔ Consecutive (ord ∘ f) zs := by
  simp [Consecutive]

theorem Consecutive.ord_getElem (h : Consecutive ord xs) {i : ℕ} (hi : i < xs.length) :
    ord xs[i] = ((i + 1 : ℕ) : N) := by
  have hget := congrArg (·[i]?) h
  simpa [hi, Nat.add_comm] using hget

theorem Consecutive.range {ord : α → ℕ} (h : Consecutive ord xs) :
    xs.map ord = List.range' 1 xs.length :=
  Eq.trans h (List.map_id'' (fun n => Nat.cast_id n) _)

theorem Consecutive.ord_le_length {ord : α → ℕ} (h : Consecutive ord xs) (hx : x ∈ xs) :
    ord x ≤ xs.length := by
  obtain ⟨i, hi, rfl⟩ := List.getElem_of_mem hx
  rw [h.ord_getElem hi, Nat.cast_id]
  exact hi

theorem Consecutive.left (h : Consecutive ord (xs ++ ys)) : Consecutive ord xs := by
  refine List.ext_getElem (by simp) fun i hi _ => ?_
  rw [List.length_map] at hi
  have hord := h.ord_getElem (i := i) (by simp; omega)
  rw [List.getElem_append_left hi] at hord
  simpa [Nat.add_comm] using hord

/-- The ordinals fix where an entry stands, so a log with entries of another one only is
where that one begins. -/
theorem Consecutive.isPrefix_of_subset (hcast : Function.Injective (Nat.cast : ℕ → N))
    (hx : Consecutive ord xs) (hy : Consecutive ord ys) (hsub : xs ⊆ ys) : xs <+: ys := by
  have hat : ∀ i (hi : i < xs.length), ∃ hj : i < ys.length, xs[i] = ys[i] := by
    intro i hi
    obtain ⟨j, hj, hij⟩ := List.getElem_of_mem (hsub (List.getElem_mem hi))
    have hord : ((j + 1 : ℕ) : N) = ((i + 1 : ℕ) : N) := by
      rw [← hy.ord_getElem hj, hij, hx.ord_getElem hi]
    obtain rfl : j = i := Nat.succ.inj (hcast hord)
    exact ⟨hj, hij.symm⟩
  rw [List.prefix_iff_getElem]
  refine ⟨?_, fun i hi => (hat i hi).2⟩
  by_contra hlen
  obtain ⟨hj, -⟩ := hat ys.length (by omega)
  omega

theorem ClosedBy.nil : ClosedBy p [] := fun _ hx => absurd hx List.not_mem_nil

theorem ClosedBy.snoc (h : ∀ y ∈ xs, ¬ p y) : ClosedBy p (xs ++ [x]) := by
  intro y hy
  rw [List.dropLast_concat] at hy
  exact h y hy

/-- Nothing follows an entry that satisfies `p`. -/
theorem ClosedBy.nothing_after (h : ClosedBy p xs) {before after : List α}
    (hxs : xs = before ++ x :: after) (hx : p x) : after = [] := by
  cases after with
  | nil => rfl
  | cons y rest =>
    refine absurd hx (h x ?_)
    rw [hxs, List.dropLast_append_of_ne_nil (by simp)]
    simp

theorem ClosedBy.countP_le_one [DecidablePred p] (h : ClosedBy p xs) :
    xs.countP (fun x => decide (p x)) ≤ 1 := by
  rcases List.eq_nil_or_concat xs with rfl | ⟨init, last, rfl⟩
  · simp
  have hinit : init.countP (fun x => decide (p x)) = 0 := by
    refine List.countP_eq_zero.mpr fun y hy => ?_
    have hnot := h y (by rwa [List.concat_eq_append, List.dropLast_concat])
    simpa using hnot
  rw [List.concat_eq_append, List.countP_append, hinit, Nat.zero_add]
  exact List.countP_le_length

end OrdinalLog
