import Mathlib.Data.List.Basic

/-! # UTF-16

Strings as sequences of 16-bit code units, for programs that index, compare or
check text in that form. A sequence is well formed when it is the encoding of
some characters; `decode` finds them. -/

namespace Utf16

def isHigh (u : Nat) : Bool := 0xD800 ≤ u && u ≤ 0xDBFF

def isLow (u : Nat) : Bool := 0xDC00 ≤ u && u ≤ 0xDFFF

/-- The character a surrogate pair stands for. -/
def pair (high low : Nat) : Char :=
  Char.ofNat (0x10000 + (high - 0xD800) * 0x400 + (low - 0xDC00))

def units (c : Char) : List Nat :=
  if c.toNat < 0x10000 then [c.toNat]
  else [0xD800 + (c.toNat - 0x10000) / 0x400, 0xDC00 + (c.toNat - 0x10000) % 0x400]

def encode (s : List Char) : List Nat := s.flatMap units

def decode : List Nat → Option (List Char)
  | [] => some []
  | u :: rest =>
    if isHigh u then
      match rest with
      | v :: rest => if isLow v then (decode rest).map (pair u v :: ·) else none
      | [] => none
    else if isLow u then none
    else (decode rest).map (Char.ofNat u :: ·)

def isWellFormed (us : List Nat) : Bool := (decode us).isSome

@[simp] theorem encode_nil : encode [] = [] := rfl

variable {c : Char} {s : List Char} {u : Nat}

@[simp] theorem encode_cons : encode (c :: s) = units c ++ encode s :=
  rfl

/-! ## Characters and pairs -/

theorem toNat_ofNat {n : Nat} (h : n.isValidChar) : (Char.ofNat n).toNat = n := by
  rw [Char.ofNat, dif_pos h]
  rfl

/-- Characters are never surrogates. -/
theorem valid_toNat (c : Char) : c.toNat < 0xD800 ∨ 0xDFFF < c.toNat ∧ c.toNat < 0x110000 := c.valid

theorem units_bmp (h : c.toNat < 0x10000) : units c = [c.toNat] := if_pos h

theorem units_pair {v : Nat} (hu : isHigh u = true) (hv : isLow v = true) :
    units (pair u v) = [u, v] := by
  simp only [isHigh, isLow, Bool.and_eq_true, decide_eq_true_eq] at hu hv
  have hvalid : (0x10000 + (u - 0xD800) * 0x400 + (v - 0xDC00)).isValidChar := by
    right
    omega
  have hval : (pair u v).toNat = _ := toNat_ofNat hvalid
  unfold units
  rw [hval, if_neg (by omega)]
  simp only [List.cons.injEq, and_true]
  omega

theorem pair_units (h : 0x10000 ≤ c.toNat) : isHigh (0xD800 + (c.toNat - 0x10000) / 0x400) = true ∧
      isLow (0xDC00 + (c.toNat - 0x10000) % 0x400) = true ∧
      pair (0xD800 + (c.toNat - 0x10000) / 0x400) (0xDC00 + (c.toNat - 0x10000) % 0x400) = c := by
  have hc := valid_toNat c
  refine ⟨?_, ?_, ?_⟩
  · simp only [isHigh, Bool.and_eq_true, decide_eq_true_eq]
    omega
  · simp only [isLow, Bool.and_eq_true, decide_eq_true_eq]
    omega
  · unfold pair
    rw [show 0x10000 + (0xD800 + (c.toNat - 0x10000) / 0x400 - 0xD800) * 0x400 +
      (0xDC00 + (c.toNat - 0x10000) % 0x400 - 0xDC00) = c.toNat by omega]
    exact Char.ofNat_toNat c

theorem isHigh_toNat (c : Char) : isHigh c.toNat = false := by
  have := valid_toNat c
  simp only [isHigh, Bool.and_eq_false_iff, decide_eq_false_iff_not]
  omega

theorem isLow_toNat (c : Char) : isLow c.toNat = false := by
  have := valid_toNat c
  simp only [isLow, Bool.and_eq_false_iff, decide_eq_false_iff_not]
  omega

theorem not_high_of_low (h : isLow u = true) : isHigh u = false := by
  simp only [isLow, isHigh, Bool.and_eq_true, Bool.and_eq_false_iff, decide_eq_true_eq,
    decide_eq_false_iff_not] at h ⊢
  omega

/-! ## Decoding -/

theorem decode_units_append (c : Char) (us : List Nat) :
    decode (units c ++ us) = (decode us).map (c :: ·) := by
  by_cases h : c.toNat < 0x10000
  · rw [units_bmp h, List.singleton_append, decode.eq_def]
    simp only [isHigh_toNat, isLow_toNat, Char.ofNat_toNat, Bool.false_eq_true, if_false]
  · obtain ⟨hhigh, hlow, hpair⟩ := pair_units (Nat.le_of_not_lt h)
    rw [units, if_neg h, List.cons_append, List.singleton_append, decode.eq_def]
    simp only [hhigh, hlow, hpair, if_true]

@[simp] theorem decode_encode (s : List Char) : decode (encode s) = some s := by
  induction s with
  | nil => rfl
  | cons c s ih => rw [encode_cons, decode_units_append, ih, Option.map_some]

theorem encode_injective {t : List Char} (h : encode s = encode t) : s = t := by
  have := congrArg decode h
  rwa [decode_encode, decode_encode, Option.some.injEq] at this

/-- A unit that stands alone is the whole encoding of its character. -/
theorem units_ofNat (h : u < 0x10000) (hh : isHigh u = false) (hl : isLow u = false) :
    units (Char.ofNat u) = [u] := by
  simp only [isHigh, isLow, Bool.and_eq_false_iff, decide_eq_false_iff_not] at hh hl
  have hval : (Char.ofNat u).toNat = u := toNat_ofNat (by
    rcases hh with hh | hh
    · exact .inl (by omega)
    · exact .inr ⟨by omega, by omega⟩)
  rw [units_bmp (by omega), hval]

/-- Decoding loses nothing. -/
theorem encode_decode {us : List Nat} (hbound : ∀ u ∈ us, u < 0x10000) (h : decode us = some s) :
    encode s = us := by
  fun_induction decode us generalizing s with
  | case1 => cases h; rfl
  | case2 u hhigh v rest hlow ih =>
    obtain ⟨s', hs', rfl⟩ := Option.map_eq_some_iff.mp h
    have hrest := ih (fun w hw => hbound w (by simp [hw])) hs'
    rw [encode_cons, units_pair hhigh hlow, hrest]
    rfl
  | case3 => cases h
  | case4 => cases h
  | case5 => cases h
  | case6 u rest hhigh hlow ih =>
    obtain ⟨s', hs', rfl⟩ := Option.map_eq_some_iff.mp h
    have hrest := ih (fun w hw => hbound w (by simp [hw])) hs'
    rw [encode_cons, units_ofNat (hbound u (by simp)) (by simpa using hhigh) (by simpa using hlow),
      hrest]
    rfl

end Utf16
