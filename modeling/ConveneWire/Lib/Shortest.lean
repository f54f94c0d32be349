import ConveneWire.Lib.Binary64

/-! # Shortest decimals that round back

A formatter for binary64 picks, for each number, a decimal with as few digits as
possible among those that round to it. Where its decimal point falls is then
decided by the magnitude of the number alone. -/

namespace Binary64

/-! ## Rounding is monotone -/

theorem le_roundHalfEven {n : ℤ} {q : ℚ} (h : (n : ℚ) ≤ q) : n ≤ roundHalfEven q := by
  have hfloor : n ≤ ⌊q⌋ := Int.le_floor.mpr h
  unfold roundHalfEven
  dsimp only
  split_ifs <;> omega

theorem roundHalfEven_le_succ (q : ℚ) : roundHalfEven q ≤ ⌊q⌋ + 1 := by
  unfold roundHalfEven
  dsimp only
  split_ifs <;> omega

theorem roundHalfEven_le {n : ℤ} {q : ℚ} (h : q ≤ n) : roundHalfEven q ≤ n := by
  have hfloor : ⌊q⌋ ≤ n := by exact_mod_cast (Int.floor_le q).trans h
  rcases hfloor.lt_or_eq with hlt | heq
  · exact (roundHalfEven_le_succ q).trans hlt
  · have hq : q = n := le_antisymm h (heq ▸ Int.floor_le q)
    rw [hq, roundHalfEven_intCast]

theorem roundHalfEven_mono {q r : ℚ} (h : q ≤ r) : roundHalfEven q ≤ roundHalfEven r := by
  rcases (Int.floor_mono h).lt_or_eq with hlt | heq
  · exact (roundHalfEven_le_succ q).trans (hlt.trans_le (le_roundHalfEven (Int.floor_le r)))
  have hexcess : q - ⌊r⌋ ≤ r - ⌊r⌋ := by linarith
  unfold roundHalfEven
  dsimp only
  rw [heq]
  split_ifs <;> first | omega | linarith

theorem nearest_nonneg {x : ℚ} (h : 0 ≤ x) : 0 ≤ nearest x := by
  have hpos : (0 : ℚ) ≤ 2 ^ lastPlace x := (zpow_pos two_pos _).le
  have hround : 0 ≤ roundHalfEven (x / 2 ^ lastPlace x) :=
    le_roundHalfEven (by exact_mod_cast div_nonneg h hpos)
  exact mul_nonneg (by exact_mod_cast hround) hpos

theorem nearest_mono {x y : ℚ} (hx : 0 < x) (h : x ≤ y) : nearest x ≤ nearest y := by
  have hy : 0 < y := hx.trans_le h
  have hlog : Int.log 2 x ≤ Int.log 2 y := Int.log_mono_right hx h
  have hpos : ∀ e : ℤ, (0 : ℚ) < 2 ^ e := fun e => zpow_pos two_pos e
  by_cases hplace : lastPlace x = lastPlace y
  · have hscaled : x / 2 ^ lastPlace y ≤ y / 2 ^ lastPlace y :=
      div_le_div_of_nonneg_right h (hpos _).le
    unfold nearest
    rw [hplace]
    exact mul_le_mul_of_nonneg_right (by exact_mod_cast roundHalfEven_mono hscaled) (hpos _).le
  -- A power of two separates the two binades.
  have hlast : lastPlace y = Int.log 2 y - 52 ∧ lastPlace x < Int.log 2 y - 52 := by
    unfold lastPlace at hplace ⊢
    omega
  have hxlog : Int.log 2 x < Int.log 2 y := by
    have : Int.log 2 x - 52 ≤ lastPlace x := le_max_left _ _
    omega
  have hxe : x ≤ 2 ^ Int.log 2 y :=
    (Int.lt_zpow_succ_log_self (b := 2) (by norm_num) x).le.trans
      (zpow_le_zpow_right₀ one_le_two (by omega))
  have hye : (2 : ℚ) ^ Int.log 2 y ≤ y := Int.zpow_log_le_self (by norm_num) hy
  obtain ⟨k, hk⟩ : ∃ k : ℕ, Int.log 2 y - lastPlace x = k := ⟨_, (Int.toNat_of_nonneg (by omega)).symm⟩
  have hleft : nearest x ≤ 2 ^ Int.log 2 y := by
    have hbound : x / 2 ^ lastPlace x ≤ ((2 ^ k : ℤ) : ℚ) := by
      rw [div_le_iff₀ (hpos _)]
      push_cast
      rw [← zpow_natCast, ← hk, ← zpow_add₀ two_ne_zero, sub_add_cancel]
      exact hxe
    have hround : (roundHalfEven (x / 2 ^ lastPlace x) : ℚ) ≤ 2 ^ k := by
      exact_mod_cast roundHalfEven_le hbound
    calc nearest x ≤ 2 ^ k * 2 ^ lastPlace x :=
          mul_le_mul_of_nonneg_right hround (hpos _).le
      _ = 2 ^ Int.log 2 y := by
          rw [← zpow_natCast, ← hk, ← zpow_add₀ two_ne_zero, sub_add_cancel]
  have hright : 2 ^ Int.log 2 y ≤ nearest y := by
    have hpower : ((2 ^ 52 : ℤ) : ℚ) * 2 ^ lastPlace y = 2 ^ Int.log 2 y := by
      rw [hlast.1, show ((2 ^ 52 : ℤ) : ℚ) = 2 ^ (52 : ℤ) by norm_num, ← zpow_add₀ two_ne_zero,
        add_sub_cancel]
    have hbound : ((2 ^ 52 : ℤ) : ℚ) ≤ y / 2 ^ lastPlace y := by
      rw [le_div_iff₀ (hpos _), hpower]
      exact hye
    rw [← hpower]
    exact mul_le_mul_of_nonneg_right (by exact_mod_cast le_roundHalfEven hbound) (hpos _).le
  exact hleft.trans hright

/-! ## Shortest digits -/

/-- The number `d` times a power of ten. -/
def decimal (d : ℕ) (e : ℤ) : ℚ := d * 10 ^ e

def digitCount (d : ℕ) : ℕ := (Nat.toDigits 10 d).length

/-- A choice of digits and exponent for every positive number a decimal can round to. -/
structure ShortestDigits where
  digits : ℚ → ℕ × ℤ
  positive : ∀ d e, 0 < d → 0 < nearest (decimal d e) → 0 < (digits (nearest (decimal d e))).1
  roundsBack : ∀ d e, 0 < d → 0 < nearest (decimal d e) →
    nearest (decimal (digits (nearest (decimal d e))).1 (digits (nearest (decimal d e))).2) =
      nearest (decimal d e)
  shortest : ∀ d e, 0 < d → 0 < nearest (decimal d e) →
    digitCount (digits (nearest (decimal d e))).1 ≤ digitCount d

open Classical in
theorem lt_pow_digitCount (d : ℕ) : d < 10 ^ digitCount d :=
  (Nat.length_toDigits_le_iff (by omega) (List.length_pos_iff.mpr Nat.toDigits_ne_nil)).mp le_rfl

variable {d : ℕ} {e : ℤ}

theorem pow_digitCount_le (h : 0 < d) : 10 ^ (digitCount d - 1) ≤ d := by
  by_contra hlt
  rw [not_le] at hlt
  by_cases hone : digitCount d - 1 = 0
  · rw [hone, pow_zero] at hlt
    omega
  · have hle := (Nat.length_toDigits_le_iff (by omega) (show 0 < digitCount d - 1 by omega)).mpr hlt
    unfold digitCount at hle hone
    omega

theorem decimal_pos (h : 0 < d) : 0 < decimal d e :=
  mul_pos (by exact_mod_cast h) (zpow_pos (by norm_num) e)

/-- Where the decimal point falls, counted from the first digit. -/
theorem decimal_bounds (h : 0 < d) :
    (10 : ℚ) ^ (e + digitCount d - 1) ≤ decimal d e ∧ decimal d e < 10 ^ (e + digitCount d) := by
  have hten : (10 : ℚ) ≠ 0 := by norm_num
  have hpow : (0 : ℚ) < 10 ^ e := zpow_pos (by norm_num) e
  have hcount : 1 ≤ digitCount d := List.length_pos_iff.mpr Nat.toDigits_ne_nil
  constructor
  · have hle : ((10 ^ (digitCount d - 1) : ℕ) : ℚ) ≤ d := by exact_mod_cast pow_digitCount_le h
    rw [show e + digitCount d - 1 = ((digitCount d - 1 : ℕ) : ℤ) + e by omega, zpow_add₀ hten,
      zpow_natCast]
    push_cast at hle
    exact mul_le_mul_of_nonneg_right hle hpow.le
  · have hlt : (d : ℚ) < ((10 ^ digitCount d : ℕ) : ℚ) := by exact_mod_cast lt_pow_digitCount d
    rw [add_comm, zpow_add₀ hten, zpow_natCast]
    push_cast at hlt
    exact mul_lt_mul_of_pos_right hlt hpow

namespace ShortestDigits

/-- The position of the decimal point before which the digits of a number start. -/
def point (F : ShortestDigits) (v : ℚ) : ℤ := (F.digits v).2 + digitCount (F.digits v).1

/-- The decimal point is right of a power of ten exactly for the numbers that reach it. The power
itself has one digit, and no other decimal of one digit rounds there. -/
theorem lt_point_iff (F : ShortestDigits) {p : ℤ} (hd : 0 < d) (hv : 0 < nearest (decimal d e))
    (hgap : nearest (decimal 9 (p - 1)) < nearest (decimal 1 p)) :
    p < F.point (nearest (decimal d e)) ↔ nearest (decimal 1 p) ≤ nearest (decimal d e) := by
  have hpositive := F.positive d e hd hv
  have hback := F.roundsBack d e hd hv
  have hshort : ∀ d' e', 0 < d' → nearest (decimal d' e') = nearest (decimal d e) →
      digitCount (F.digits (nearest (decimal d e))).1 ≤ digitCount d' := by
    intro d' e' hd' heq
    have := F.shortest d' e' hd' (heq ▸ hv)
    rwa [heq] at this
  unfold point
  generalize nearest (decimal d e) = v at hpositive hback hshort ⊢
  generalize F.digits v = chosen at hpositive hback hshort ⊢
  obtain ⟨s, x⟩ := chosen
  dsimp only at hpositive hback hshort ⊢
  obtain ⟨hlow, hhigh⟩ := decimal_bounds (e := x) hpositive
  have hone : decimal 1 p = 10 ^ p := by simp [decimal]
  have honePos : 0 < decimal 1 p := decimal_pos Nat.one_pos
  rw [← hback]
  constructor
  · intro hlt
    have hexponent : p ≤ x + digitCount s - 1 := by omega
    refine nearest_mono honePos ?_
    rw [hone]
    exact (zpow_le_zpow_right₀ (by norm_num) hexponent).trans hlow
  intro hle
  by_contra hnot
  have hexponent : x + digitCount s ≤ p := by omega
  have hbelow : decimal s x < decimal 1 p := by
    rw [hone]
    exact hhigh.trans_le (zpow_le_zpow_right₀ (by norm_num) hexponent)
  have hsame : nearest (decimal 1 p) = v :=
    (le_antisymm hle (nearest_mono (decimal_pos hpositive) hbelow.le)).trans hback
  -- One digit is enough, so the digits are one digit, below the power.
  have hcount : digitCount s ≤ 1 := hshort 1 p Nat.one_pos hsame
  have hpos : 1 ≤ digitCount s := List.length_pos_iff.mpr Nat.toDigits_ne_nil
  have hdigit : s ≤ 9 := by
    have := lt_pow_digitCount s
    rw [show digitCount s = 1 by omega] at this
    omega
  have hnine : decimal s x ≤ decimal 9 (p - 1) := by
    unfold decimal
    refine mul_le_mul (by exact_mod_cast hdigit) (zpow_le_zpow_right₀ (by norm_num) (by omega))
      (zpow_pos (by norm_num) x).le (by norm_num)
  have := nearest_mono (decimal_pos hpositive) hnine
  rw [hback, ← hsame] at this
  exact absurd this (not_le.mpr hgap)

end ShortestDigits

end Binary64
