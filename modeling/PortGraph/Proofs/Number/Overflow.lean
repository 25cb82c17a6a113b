import PortGraph.Proofs.Number.Binary

/-!
# Numbers that are too large

A magnitude is rounded to infinity from half a unit above the greatest finite one on
(`BinaryFormat.roundMagnitude_lt_iff`).  So a number becomes a finite 32-bit float just if it is below
that (`BinaryNumber.isFinite_toFloat32_iff`).
-/

set_option autoImplicit false

namespace PortGraph

/-- Rounding stays below an even natural as long as more than half a unit is left to it. -/
theorem roundHalfEven_lt_iff {num den n : ℕ} (hden : 0 < den) (hn : Even n) :
    roundHalfEven num den < n ↔ (num : ℚ) / den < n - 1 / 2 := by
  obtain ⟨m, rfl⟩ := hn
  have hpos : (0 : ℚ) < den := Nat.cast_pos.mpr hden
  have hhalf : (num : ℚ) / den < (m + m : ℕ) - 1 / 2 ↔ 2 * num + den < 4 * (den * m) := by
    rw [div_lt_iff₀ hpos, ← Nat.cast_lt (α := ℚ)]
    push_cast
    constructor <;> intro h <;> linarith
  rw [hhalf, roundHalfEven]
  have hsplit := Nat.div_add_mod num den
  have hrest := Nat.mod_lt num hden
  generalize num / den = q at *
  generalize num % den = r at *
  rcases Nat.lt_trichotomy (q + 1) (m + m) with hlt | heq | hgt
  · have hmul := Nat.mul_le_mul_left den (Nat.succ_le_of_lt hlt)
    simp only [Nat.mul_add, Nat.mul_succ] at hmul
    split_ifs <;> omega
  · have hmul := congrArg (den * ·) heq
    simp only [Nat.mul_add, Nat.mul_one] at hmul
    split_ifs <;> omega
  · have hmul := Nat.mul_le_mul_left den (Nat.le_of_lt_succ hgt)
    simp only [Nat.mul_add] at hmul
    split_ifs <;> omega

namespace BinaryFormat

/-- The exponent of the greatest finite magnitudes. -/
def maxExponent (fmt : BinaryFormat) : ℤ := fmt.minExponent + (2 ^ fmt.exponent - 3)

/-- The least magnitude that is rounded to infinity, half a unit above the greatest finite one. -/
def overflow (fmt : BinaryFormat) : ℚ := (2 ^ (fmt.fraction + 1) - 1 / 2) * 2 ^ fmt.maxExponent

example : single.overflow = 2 ^ 128 - 2 ^ 103 := by
  norm_num [overflow, maxExponent, minExponent, single]

/-- Magnitudes of a lesser exponent are not rounded to infinity. -/
theorem lt_overflow {fmt : BinaryFormat} {x : ℚ} {e : ℤ} (he : e < fmt.maxExponent)
    (hx : x < 2 ^ (fmt.fraction + 1) * 2 ^ e) : x < fmt.overflow := by
  have hone : (1 : ℚ) ≤ 2 ^ fmt.fraction := one_le_pow₀ one_le_two
  refine hx.trans_le ?_
  calc (2 : ℚ) ^ (fmt.fraction + 1) * 2 ^ e = 2 ^ fmt.fraction * 2 ^ (e + 1) := by
        rw [zpow_add₀ two_ne_zero, zpow_one]; ring
    _ ≤ 2 ^ fmt.fraction * 2 ^ fmt.maxExponent := by gcongr <;> [exact one_le_two; omega]
    _ ≤ fmt.overflow := by
        rw [overflow, pow_succ]
        gcongr
        linarith

/-- Magnitudes of a greater exponent are rounded to infinity. -/
theorem overflow_le {fmt : BinaryFormat} {x : ℚ} {e : ℤ} (he : fmt.maxExponent < e)
    (hx : 2 ^ fmt.fraction * 2 ^ e ≤ x) : fmt.overflow ≤ x := by
  refine le_trans ?_ hx
  calc fmt.overflow ≤ 2 ^ (fmt.fraction + 1) * 2 ^ fmt.maxExponent := by
        rw [overflow]
        gcongr
        linarith
    _ = 2 ^ fmt.fraction * 2 ^ (fmt.maxExponent + 1) := by
        rw [zpow_add₀ two_ne_zero, zpow_one]; ring
    _ ≤ 2 ^ fmt.fraction * 2 ^ e := by gcongr <;> [exact one_le_two; omega]

/-- Infinity follows the greatest exponent. -/
theorem infinityWord_eq {fmt : BinaryFormat} (hexponent : 2 ≤ fmt.exponent) :
    ∃ width : ℕ, fmt.maxExponent = fmt.minExponent + width ∧
      fmt.infinityWord = (width + 2) * 2 ^ fmt.fraction := by
  obtain ⟨width, hwidth⟩ := Nat.exists_eq_add_of_le
    (show 4 ≤ 2 ^ fmt.exponent from Nat.pow_le_pow_right (n := 2) (by omega) hexponent)
  have hcast : (2 : ℤ) ^ fmt.exponent = 4 + width := by exact_mod_cast hwidth
  refine ⟨width + 1, ?_, ?_⟩
  · rw [maxExponent, hcast]
    push_cast
    ring
  · rw [infinityWord, Nat.pow_eq, Nat.pow_eq, hwidth]
    congr 1
    omega

/-- The scale of a positive fraction. -/
theorem scaleOf_spec {num den : ℕ} (hnum : 0 < num) (hden : 0 < den) :
    (2 : ℚ) ^ scaleOf num den ≤ num / den ∧ (num : ℚ) / den < 2 ^ (scaleOf num den + 1) := by
  have hpos : (0 : ℚ) < num / den := div_pos (Nat.cast_pos.mpr hnum) (Nat.cast_pos.mpr hden)
  have hlow := Int.zpow_log_le_self (b := 2) one_lt_two hpos
  have hhigh := Int.lt_zpow_succ_log_self (b := 2) one_lt_two ((num : ℚ) / den)
  rw [Nat.cast_ofNat] at hlow hhigh
  rw [scaleOf_eq hnum hden hlow hhigh]
  exact ⟨hlow, hhigh⟩

/-- A mantissa at an exponent stays below an even one as long as more than half a unit is left. -/
theorem roundMantissa_lt_iff (num : ℕ) {den n : ℕ} (hden : 0 < den) (e : ℤ) (hn : Even n) :
    roundHalfEven (scaleByTwo num den (-e)).1 (scaleByTwo num den (-e)).2 < n ↔
      (num : ℚ) / den < (n - 1 / 2) * 2 ^ e := by
  have hpos : (0 : ℚ) < 2 ^ e := by positivity
  rw [roundHalfEven_lt_iff (scaleByTwo_snd_pos hden _) hn, scaleByTwo_div, zpow_neg,
    ← div_eq_mul_inv, div_lt_iff₀ hpos]

/-- **What is rounded to infinity.** -/
theorem roundMagnitude_lt_iff {fmt : BinaryFormat} (hfraction : 1 ≤ fmt.fraction)
    (hexponent : 2 ≤ fmt.exponent) {num den : ℕ} (hden : 0 < den) :
    fmt.roundMagnitude num den < fmt.infinityWord ↔ (num : ℚ) / den < fmt.overflow := by
  have heven : Even (2 ^ fmt.fraction) := even_two.pow_of_ne_zero (by omega)
  have htwo : 2 ≤ 2 ^ fmt.fraction := Nat.le_self_pow (by omega) 2
  obtain ⟨width, hmax, hinfinity⟩ := infinityWord_eq hexponent
  rw [roundMagnitude]
  split
  · rename_i hzero
    have hlarge : (1 : ℚ) ≤ 2 ^ (fmt.fraction + 1) := one_le_pow₀ one_le_two
    have hhalf : (0 : ℚ) < 2 ^ (fmt.fraction + 1) - 1 / 2 := by linarith
    rw [hzero, hinfinity, Nat.cast_zero, zero_div]
    exact iff_of_true (by positivity) (mul_pos hhalf (by positivity))
  · rename_i hnum
    obtain ⟨hlow, hhigh⟩ := scaleOf_spec (Nat.pos_of_ne_zero hnum) hden
    generalize scaleOf num den = k at *
    obtain ⟨e, he⟩ : ∃ e, e = max fmt.minExponent (k - fmt.fraction) := ⟨_, rfl⟩
    obtain ⟨d, hd⟩ : ∃ d : ℕ, e = fmt.minExponent + d := ⟨(e - fmt.minExponent).toNat, by omega⟩
    have hmantissa : ∀ n, Even n → _ := fun n ↦ roundMantissa_lt_iff num (n := n) hden e
    simp only [Nat.pow_eq, ← he, min_lt_iff, lt_irrefl, false_or]
    rw [show (e - fmt.minExponent).toNat = d by omega, hinfinity]
    generalize roundHalfEven _ _ = mantissa at *
    rcases lt_trichotomy e fmt.maxExponent with hlt | heq | hgt
    · -- below the greatest exponent there is room for every mantissa
      have hbelow : (num : ℚ) / den < 2 ^ (fmt.fraction + 1) * 2 ^ e := by
        refine hhigh.trans_le ?_
        rw [← zpow_natCast, ← zpow_add₀ two_ne_zero]
        exact zpow_le_zpow_right₀ one_le_two (by push_cast; omega)
      have hroom := (hmantissa (2 ^ (fmt.fraction + 1) + 2) (by simp [Nat.even_add, pow_succ])).mpr
        (hbelow.trans_le (by gcongr; push_cast; linarith))
      have hmul := Nat.mul_le_mul_right (2 ^ fmt.fraction) (show d + 1 ≤ width by omega)
      refine iff_of_true ?_ (lt_overflow hlt hbelow)
      rw [pow_succ] at hroom
      rw [Nat.add_mul] at hmul ⊢
      omega
    · -- at the greatest exponent it is the mantissa that decides
      have hdecides := hmantissa (2 ^ (fmt.fraction + 1)) (by simp [pow_succ])
      rw [Nat.cast_pow, Nat.cast_ofNat, heq] at hdecides
      rw [overflow, ← hdecides, show d = width by omega, Nat.add_mul, pow_succ']
      omega
    · -- above it there is none
      have habove : (2 : ℚ) ^ fmt.fraction * 2 ^ e ≤ num / den := by
        refine le_trans ?_ hlow
        rw [← zpow_natCast, ← zpow_add₀ two_ne_zero]
        exact zpow_le_zpow_right₀ one_le_two (by omega)
      have hnone := (not_congr (hmantissa (2 ^ fmt.fraction) heven)).mpr
        (not_lt.mpr (le_trans (by gcongr; push_cast; linarith) habove))
      have hmul := Nat.mul_le_mul_right (2 ^ fmt.fraction) (show width + 1 ≤ d by omega)
      refine iff_of_false ?_ (overflow_le hgt habove).not_gt
      rw [Nat.add_mul] at hmul ⊢
      omega

/-- No magnitude is rounded to more than infinity. -/
theorem roundMagnitude_le (fmt : BinaryFormat) (num den : ℕ) :
    fmt.roundMagnitude num den ≤ fmt.infinityWord := by
  rw [roundMagnitude]
  split
  · exact Nat.zero_le _
  · exact Nat.min_le_left _ _

end BinaryFormat

/-! ## The machine type -/

/-- **A format has room for a number**: it is not rounded to an infinity. -/
def BinaryNumber.Fits (fmt : BinaryFormat) : BinaryNumber → Prop
  | .finite _ mantissa exponent => (mantissa : ℚ) * 2 ^ exponent < fmt.overflow
  | _ => False

namespace BinaryNumber

/-- Infinities stay infinite. -/
theorem isFinite_infinityWord (negative : Bool) :
    (Float32.ofBits (.ofNat (BinaryFormat.single.infinityWord +
      if negative then BinaryFormat.single.signWord else 0))).isFinite = false := by
  cases negative <;> decide +kernel

/-- **A number becomes a finite 32-bit float just if there is room for it.** -/
theorem isFinite_toFloat32_iff (n : BinaryNumber) :
    n.toFloat32.isFinite = true ↔ n.Fits .single := by
  cases n with
  | infinite negative => exact iff_of_false (by simp [toFloat32, BinaryFormat.toWord,
      -UInt32.ofNat_add, isFinite_infinityWord]) id
  | nan => exact iff_of_false (by decide +kernel) id
  | finite negative mantissa exponent =>
    obtain ⟨num, hnum⟩ : ∃ num, num = (scaleByTwo mantissa 1 exponent).1 := ⟨_, rfl⟩
    obtain ⟨den, hden⟩ : ∃ den, den = (scaleByTwo mantissa 1 exponent).2 := ⟨_, rfl⟩
    have hvalue : (num : ℚ) / den = mantissa * 2 ^ exponent := by
      rw [hnum, hden, scaleByTwo_div, Nat.cast_one, div_one]
    have hround : BinaryFormat.single.roundMagnitude num den < BinaryFormat.single.infinityWord ↔
        (num : ℚ) / den < BinaryFormat.single.overflow :=
      BinaryFormat.roundMagnitude_lt_iff (by decide) (by decide)
        (hden ▸ scaleByTwo_snd_pos Nat.one_pos exponent)
    have hword : BinaryFormat.single.toWord (.finite negative mantissa exponent) =
        BinaryFormat.single.roundMagnitude num den +
          if negative then BinaryFormat.single.signWord else 0 := by rw [hnum, hden]; rfl
    rw [Fits, ← hvalue, ← hround, toFloat32, hword]
    have hle := BinaryFormat.single.roundMagnitude_le num den
    generalize BinaryFormat.single.roundMagnitude num den = word at *
    -- The sign bit stands above the magnitude and has no part in the comparison.
    rcases Nat.lt_or_ge word BinaryFormat.single.infinityWord with hlt | hge
    · obtain ⟨bits, hbits⟩ : ∃ bits : UInt32, bits = .ofNat (word +
        if negative then BinaryFormat.single.signWord else 0) := ⟨_, rfl⟩
      have hmagnitude : bits.toNat % BinaryFormat.single.signWord <
          BinaryFormat.single.infinityWord := by
        have hsign : BinaryFormat.single.signWord = 2 ^ 31 := by decide
        have hinfinity : BinaryFormat.single.infinityWord = 255 * 2 ^ 23 := by decide
        rw [hinfinity] at hlt ⊢
        rw [hbits, UInt32.toNat_ofNat', hsign]
        cases negative <;> simp only [if_true, if_false, Bool.false_eq_true] <;> omega
      rw [← hbits, isFinite_iff_magnitude_lt, toBits_ofBits_single hmagnitude]
      exact iff_of_true hmagnitude hlt
    · rw [Nat.le_antisymm hle hge, isFinite_infinityWord]
      simp

end BinaryNumber
end PortGraph
