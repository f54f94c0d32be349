import Mathlib.Data.Int.Log
import Mathlib.Data.Rat.Floor

/-! # Numbers of IEEE 754 binary64

Rounding of an exact rational to the nearest representable value, ties to even.
Only what a decimal literal can become is modelled: the value itself and the
sign of zero. -/

namespace Binary64

inductive Number where
  | finite (q : ℚ)
  | negativeZero
  | infinite (negative : Bool)
  | nan
  deriving DecidableEq

def roundHalfEven (q : ℚ) : ℤ :=
  let below := ⌊q⌋
  let excess := q - below
  if excess < 1 / 2 then below
  else if 1 / 2 < excess then below + 1
  else if below % 2 = 0 then below
  else below + 1

/-- The exponent of the last place for a magnitude, gradual underflow included. -/
def lastPlace (magnitude : ℚ) : ℤ := max (Int.log 2 magnitude - 52) (-1074)

/-- The representable magnitude nearest to a positive rational. -/
def nearest (magnitude : ℚ) : ℚ :=
  roundHalfEven (magnitude / 2 ^ lastPlace magnitude) * 2 ^ lastPlace magnitude

/-- Zero with the sign of its literal. -/
def zero (negative : Bool) : Number := if negative then .negativeZero else .finite 0

/-- Correct rounding of a magnitude with a sign. -/
def round (negative : Bool) (magnitude : ℚ) : Number :=
  if magnitude = 0 then zero negative
  else
    let x := nearest magnitude
    if (2 : ℚ) ^ (1024 : ℤ) ≤ x then .infinite negative
    else if x = 0 then zero negative
    else .finite (if negative then -x else x)

def maxSafeInteger : ℤ := 9007199254740991

/-- The integer of a number that is one exactly and whose neighbours are too. -/
def Number.safeInteger? : Number → Option ℤ
  | .finite q => if q.den = 1 ∧ |q.num| ≤ maxSafeInteger then some q.num else none
  | .negativeZero => some 0
  | .infinite _ | .nan => none

theorem roundHalfEven_intCast (n : ℤ) : roundHalfEven n = n := by
  simp [roundHalfEven]

/-- Integers below `2 ^ 53` are representable. -/
theorem nearest_natCast {n : Nat} (hpos : 0 < n) (h : n < 2 ^ 53) : nearest n = n := by
  have hlog : Int.log 2 (n : ℚ) ≤ 52 := by
    have hlt : Int.log 2 (n : ℚ) < 53 := by
      refine (Int.lt_zpow_iff_log_lt (by norm_num) (by exact_mod_cast hpos)).mp ?_
      exact_mod_cast h
    omega
  have hplace : lastPlace n ≤ 0 := by
    unfold lastPlace
    omega
  obtain ⟨k, hk⟩ : ∃ k : ℕ, lastPlace n = -k := ⟨(lastPlace n).natAbs, by omega⟩
  have hscaled : (n : ℚ) / 2 ^ lastPlace n = ((n * 2 ^ k : ℕ) : ℤ) := by
    rw [hk, zpow_neg, zpow_natCast, div_inv_eq_mul]
    push_cast
    rfl
  have hne : (2 : ℚ) ^ lastPlace (n : ℚ) ≠ 0 := zpow_ne_zero _ two_ne_zero
  unfold nearest
  rw [hscaled, roundHalfEven_intCast, ← hscaled, div_mul_cancel₀ _ hne]

theorem round_natCast {negative : Bool} {n : Nat} (h : (n : ℤ) ≤ maxSafeInteger) :
    (round negative n).safeInteger? = some (if negative then -(n : ℤ) else n) := by
  have hbound : n < 2 ^ 53 := by
    unfold maxSafeInteger at h
    omega
  unfold round
  by_cases hzero : (n : ℚ) = 0
  · have hn : n = 0 := by exact_mod_cast hzero
    subst hn
    cases negative <;> rfl
  have hpos : 0 < n := Nat.pos_of_ne_zero fun hn => hzero (by exact_mod_cast hn)
  rw [if_neg hzero, nearest_natCast hpos hbound]
  have hlt : ¬ (2 : ℚ) ^ (1024 : ℤ) ≤ n := by
    rw [not_le]
    have hpow : (n : ℚ) < 2 ^ (53 : ℤ) := by exact_mod_cast hbound
    exact hpow.trans_le (zpow_le_zpow_right₀ one_le_two (by omega))
  rw [if_neg hlt, if_neg hzero]
  cases negative with
  | false =>
    simp only [Bool.false_eq_true, if_false, Number.safeInteger?]
    rw [if_pos ⟨Rat.den_natCast .., by simpa using h⟩, Rat.num_natCast]
  | true =>
    simp only [if_true, Number.safeInteger?]
    rw [if_pos ⟨by simp, by simpa using h⟩]
    simp

end Binary64
