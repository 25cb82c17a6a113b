import Mathlib
import PortGraph.Number.Binary

/-!
# Exact rounding

A magnitude that has a word in a format (`BinaryFormat.HasWord`) is rounded to that word, whatever
fraction it is written as (`BinaryFormat.roundMagnitude_eq`).  Every finite 32-bit float has a word
of 64 bits, so widening it loses nothing, and narrowing what comes of it gives the float back
(`narrow_widen`).

Fractions are compared as rationals, where powers of two may have negative exponents.
-/

set_option autoImplicit false

namespace PortGraph

/-! ## Powers of two -/

/-- What lies between two powers of two puts their exponents in order. -/
theorem lt_of_zpow_le_of_lt {v : ℚ} {a b : ℤ} (ha : (2 : ℚ) ^ a ≤ v) (hb : v < 2 ^ b) : a < b :=
  (zpow_lt_zpow_iff_right₀ one_lt_two).mp (ha.trans_lt hb)

theorem zpow_log2_le {n : ℕ} (hn : n ≠ 0) : (2 : ℚ) ^ (n.log2 : ℤ) ≤ n := by
  rw [zpow_natCast]
  exact_mod_cast Nat.log2_self_le hn

theorem lt_zpow_log2_succ (n : ℕ) : (n : ℚ) < 2 ^ ((n.log2 : ℤ) + 1) := by
  rw [← Nat.cast_succ, zpow_natCast]
  exact_mod_cast Nat.lt_log2_self

/-! ## Fractions -/

theorem scaleByTwo_snd_pos {num den : ℕ} (hden : 0 < den) (shift : ℤ) :
    0 < (scaleByTwo num den shift).2 := by
  rw [scaleByTwo]
  split
  · exact hden
  · exact Nat.mul_pos hden (Nat.pow_pos (by decide))

/-- Scaling a fraction multiplies it. -/
theorem scaleByTwo_div {num den : ℕ} (shift : ℤ) :
    ((scaleByTwo num den shift).1 : ℚ) / (scaleByTwo num den shift).2 = num / den * 2 ^ shift := by
  rw [scaleByTwo]
  split
  · rename_i hshift
    obtain ⟨k, rfl⟩ := Int.eq_ofNat_of_zero_le hshift
    push_cast [Int.toNat_natCast, zpow_natCast, Nat.pow_eq]
    ring
  · rename_i hshift
    obtain ⟨k, hk⟩ := Int.eq_ofNat_of_zero_le (le_of_lt (neg_pos.mpr (not_le.mp hshift)))
    rw [hk, show shift = -(k : ℤ) by omega, zpow_neg, zpow_natCast]
    push_cast [Int.toNat_natCast, Nat.pow_eq]
    rw [div_mul_eq_div_div, div_eq_mul_inv ((num : ℚ) / den)]

/-- A fraction that is a natural is rounded to it. -/
theorem roundHalfEven_eq {num den m : ℕ} (hden : 0 < den) (h : (num : ℚ) / den = m) :
    roundHalfEven num den = m := by
  have hnum : num = m * den := by
    have hne : (den : ℚ) ≠ 0 := Nat.cast_ne_zero.mpr hden.ne'
    rw [div_eq_iff hne] at h
    exact_mod_cast h
  rw [roundHalfEven, hnum, Nat.mul_mod_left, Nat.mul_div_cancel m hden, Nat.mul_zero]
  simp [hden]

namespace BinaryFormat

/-- The scale of a fraction is told by the powers of two it lies between. -/
theorem scaleOf_eq {num den : ℕ} {k : ℤ} (hnum : 0 < num) (hden : 0 < den)
    (hlow : (2 : ℚ) ^ k ≤ num / den) (hhigh : (num : ℚ) / den < 2 ^ (k + 1)) :
    scaleOf num den = k := by
  have hpos : (0 : ℚ) < den := Nat.cast_pos.mpr hden
  obtain ⟨guess, hguess⟩ : ∃ guess : ℤ, guess = num.log2 - den.log2 := ⟨_, rfl⟩
  -- the quotient of the leading powers of two is off by a factor of two at most
  have habove : (num : ℚ) / den < 2 ^ (guess + 1) := by
    rw [div_lt_iff₀ hpos]
    calc (num : ℚ) < 2 ^ ((num.log2 : ℤ) + 1) := lt_zpow_log2_succ num
      _ = 2 ^ (guess + 1) * 2 ^ (den.log2 : ℤ) := by
        rw [← zpow_add₀ two_ne_zero, hguess]
        congr 1
        ring
      _ ≤ 2 ^ (guess + 1) * den :=
        mul_le_mul_of_nonneg_left (zpow_log2_le hden.ne') (by positivity)
  have hbelow : (2 : ℚ) ^ (guess - 1) ≤ num / den := by
    rw [le_div_iff₀ hpos]
    calc (2 : ℚ) ^ (guess - 1) * den ≤ 2 ^ (guess - 1) * 2 ^ ((den.log2 : ℤ) + 1) :=
        mul_le_mul_of_nonneg_left (lt_zpow_log2_succ den).le (by positivity)
      _ = 2 ^ (num.log2 : ℤ) := by
        rw [← zpow_add₀ two_ne_zero, hguess]
        congr 1
        ring
      _ ≤ num := zpow_log2_le hnum.ne'
  have hcompare : (scaleByTwo num den (-guess)).2 ≤ (scaleByTwo num den (-guess)).1 ↔
      (2 : ℚ) ^ guess ≤ num / den := by
    have hscaled : (0 : ℚ) < (scaleByTwo num den (-guess)).2 :=
      Nat.cast_pos.mpr (scaleByTwo_snd_pos hden _)
    rw [← Nat.cast_le (α := ℚ), ← one_le_div₀ hscaled, scaleByTwo_div, zpow_neg,
      ← div_eq_mul_inv, one_le_div₀ (by positivity)]
  rw [scaleOf]
  simp only [← hguess, hcompare]
  split
  · rename_i hge
    have h₁ := lt_of_zpow_le_of_lt hge hhigh
    have h₂ := lt_of_zpow_le_of_lt hlow habove
    omega
  · rename_i hlt
    have h₁ := lt_of_zpow_le_of_lt hbelow hhigh
    have h₂ := lt_of_zpow_le_of_lt hlow (not_le.mp hlt)
    omega

/-! ## Words of magnitudes -/

/-- The magnitude `m · 2 ^ q` has a word of its own. -/
structure HasWord (fmt : BinaryFormat) (m : ℕ) (q : ℤ) : Prop where
  /-- The mantissa fits. -/
  mantissa_lt : m < 2 * 2 ^ fmt.fraction
  /-- The exponent is not too small. -/
  minExponent_le : fmt.minExponent ≤ q
  /-- The leading bit is set, or the exponent is as small as possible. -/
  normal : q = fmt.minExponent ∨ 2 ^ fmt.fraction ≤ m
  /-- The magnitude is not too large. -/
  bounded : (q - fmt.minExponent).toNat * 2 ^ fmt.fraction + m < fmt.infinityWord

/-- The word of a magnitude that has one. -/
def magnitudeWord (fmt : BinaryFormat) (m : ℕ) (q : ℤ) : ℕ :=
  (q - fmt.minExponent).toNat * 2 ^ fmt.fraction + m

theorem infinityWord_lt_signWord (fmt : BinaryFormat) : fmt.infinityWord < fmt.signWord := by
  simp only [infinityWord, signWord, Nat.pow_eq]
  rw [Nat.pow_add, Nat.mul_comm (2 ^ fmt.fraction)]
  have hexponent := Nat.two_pow_pos fmt.exponent
  exact Nat.mul_lt_mul_of_pos_right (by omega) (Nat.two_pow_pos _)

/-- The sign stands apart from the magnitude. -/
theorem HasWord.magnitudeWord_mod {fmt : BinaryFormat} {m : ℕ} {q : ℤ} (h : fmt.HasWord m q)
    (negative : Bool) :
    (fmt.magnitudeWord m q + if negative then fmt.signWord else 0) % fmt.signWord =
      fmt.magnitudeWord m q := by
  have hlt : fmt.magnitudeWord m q < fmt.signWord :=
    Nat.lt_trans h.bounded fmt.infinityWord_lt_signWord
  cases negative with
  | false => exact Nat.mod_eq_of_lt hlt
  | true => exact (Nat.add_mod_right _ _).trans (Nat.mod_eq_of_lt hlt)

/-- **Rounding is exact**: a magnitude that has a word is rounded to it. -/
theorem roundMagnitude_eq {fmt : BinaryFormat} {m : ℕ} {q : ℤ} (h : fmt.HasWord m q)
    {num den : ℕ} (hden : 0 < den) (hv : (num : ℚ) / den = m * 2 ^ q) :
    fmt.roundMagnitude num den = fmt.magnitudeWord m q := by
  have hpos : (0 : ℚ) < den := Nat.cast_pos.mpr hden
  have htwo : (0 : ℚ) < 2 ^ q := by positivity
  rw [roundMagnitude]
  split
  · rename_i hnum
    have hm : m = 0 := by
      rw [hnum, Nat.cast_zero, zero_div] at hv
      rcases mul_eq_zero.mp hv.symm with hm | hq
      · exact_mod_cast hm
      · exact absurd hq htwo.ne'
    have hpow := Nat.two_pow_pos fmt.fraction
    have hq : q = fmt.minExponent := h.normal.resolve_right (by omega)
    rw [magnitudeWord, hq, hm]
    simp
  · rename_i hnum
    have hm : m ≠ 0 := by
      rintro rfl
      rw [Nat.cast_zero, zero_mul, div_eq_zero_iff] at hv
      rcases hv with hv | hv
      · exact hnum (by exact_mod_cast hv)
      · exact hpos.ne' hv
    have hscale : scaleOf num den = m.log2 + q := by
      refine scaleOf_eq (Nat.pos_of_ne_zero hnum) hden ?_ ?_
      · rw [hv, zpow_add₀ two_ne_zero]
        exact mul_le_mul_of_nonneg_right (zpow_log2_le hm) htwo.le
      · rw [hv, add_right_comm, zpow_add₀ two_ne_zero]
        exact mul_lt_mul_of_pos_right (lt_zpow_log2_succ m) htwo
    -- the exponent that is chosen is the one that the magnitude has
    have hexponent : max fmt.minExponent (scaleOf num den - fmt.fraction) = q := by
      have hlt : m.log2 < fmt.fraction + 1 :=
        (Nat.log2_lt hm).mpr (by rw [Nat.pow_succ, Nat.mul_comm]; exact h.mantissa_lt)
      have hmin := h.minExponent_le
      rw [hscale]
      rcases h.normal with hq | hnormal
      · omega
      · have hge : fmt.fraction ≤ m.log2 := (Nat.le_log2 hm).mpr hnormal
        omega
    have hmantissa : roundHalfEven (scaleByTwo num den (-q)).1 (scaleByTwo num den (-q)).2 = m := by
      refine roundHalfEven_eq (scaleByTwo_snd_pos hden _) ?_
      rw [scaleByTwo_div, hv, mul_assoc, ← zpow_add₀ two_ne_zero, add_neg_cancel, zpow_zero, mul_one]
    simp only [hexponent, hmantissa, Nat.pow_eq]
    exact Nat.min_eq_right h.bounded.le

/-! ## Reading words -/

theorem ofWord_magnitudeWord {fmt : BinaryFormat} {m : ℕ} {q : ℤ} (h : fmt.HasWord m q)
    (negative : Bool) :
    BinaryNumber.ofWord fmt (fmt.magnitudeWord m q + if negative then fmt.signWord else 0) =
      .finite negative m q := by
  have hinfinity := fmt.infinityWord_lt_signWord
  have hbounded : fmt.magnitudeWord m q < fmt.infinityWord := h.bounded
  have hsign : decide (fmt.signWord ≤ fmt.magnitudeWord m q + if negative then fmt.signWord else 0) =
      negative := by
    cases negative with
    | false => simpa using hbounded.trans hinfinity
    | true => simp
  have hmagnitude := h.magnitudeWord_mod negative
  have hpow := Nat.two_pow_pos fmt.fraction
  have hmin := h.minExponent_le
  rw [BinaryNumber.ofWord]
  simp only [hsign, hmagnitude, if_pos hbounded, Nat.pow_eq]
  rw [magnitudeWord]
  by_cases hm : m < 2 ^ fmt.fraction
  · have hq : q = fmt.minExponent := h.normal.resolve_right (Nat.not_le.mpr hm)
    rw [hq, Int.sub_self, Int.toNat_zero, Nat.zero_mul, Nat.zero_add, Nat.div_eq_of_lt hm,
      Nat.mod_eq_of_lt hm, if_pos rfl]
  · -- a mantissa with its leading bit counts one into the exponent
    obtain ⟨f, rfl⟩ : ∃ f, m = 2 ^ fmt.fraction + f := ⟨m - 2 ^ fmt.fraction, by omega⟩
    have hf : f < 2 ^ fmt.fraction := by
      have hlt := h.mantissa_lt
      omega
    have hsplit : (q - fmt.minExponent).toNat * 2 ^ fmt.fraction + (2 ^ fmt.fraction + f) =
        f + 2 ^ fmt.fraction * ((q - fmt.minExponent).toNat + 1) := by ring
    rw [hsplit, Nat.add_mul_div_left _ _ hpow, Nat.add_mul_mod_self_left, Nat.div_eq_of_lt hf,
      Nat.mod_eq_of_lt hf, Nat.zero_add, if_neg (Nat.succ_ne_zero _)]
    congr 1
    omega

theorem hasWord_ofWord {fmt : BinaryFormat} {word : ℕ}
    (h : word % fmt.signWord < fmt.infinityWord) :
    ∃ m q, BinaryNumber.ofWord fmt word = .finite (fmt.signWord ≤ word) m q ∧ fmt.HasWord m q ∧
      fmt.magnitudeWord m q = word % fmt.signWord := by
  have hpow := Nat.two_pow_pos fmt.fraction
  have hlt := Nat.mod_lt (word % fmt.signWord) hpow
  have hsplit := Nat.div_add_mod (word % fmt.signWord) (2 ^ fmt.fraction)
  rw [BinaryNumber.ofWord]
  simp only [if_pos h, Nat.pow_eq]
  generalize word % fmt.signWord = magnitude at *
  split
  · rename_i hzero
    rw [hzero, Nat.mul_zero, Nat.zero_add] at hsplit
    refine ⟨_, _, rfl, ⟨by omega, le_rfl, .inl rfl, ?_⟩, ?_⟩
    · rwa [Int.sub_self, Int.toNat_zero, Nat.zero_mul, Nat.zero_add, hsplit]
    · rw [magnitudeWord, Int.sub_self, Int.toNat_zero, Nat.zero_mul, Nat.zero_add, hsplit]
  · rename_i hne
    obtain ⟨e, he⟩ := Nat.exists_eq_succ_of_ne_zero hne
    have hexponent : (fmt.minExponent + (((magnitude / 2 ^ fmt.fraction : ℕ) : ℤ) - 1) -
        fmt.minExponent).toNat = e := by omega
    have hword : e * 2 ^ fmt.fraction + (2 ^ fmt.fraction + magnitude % 2 ^ fmt.fraction) =
        magnitude := by
      rw [he] at hsplit
      rw [← hsplit]
      simp only [Nat.succ_eq_add_one, Nat.mul_add_mod_self_left, Nat.mod_mod]
      ring
    refine ⟨_, _, rfl, ⟨by omega, by omega, .inr (Nat.le_add_right _ _), ?_⟩, ?_⟩
    · rwa [hexponent, hword]
    · rw [magnitudeWord, hexponent, hword]

/-- **Writing is exact**: any number that is equal to one with a word is written as that word. -/
theorem toWord_finite {fmt : BinaryFormat} {m n : ℕ} {q p : ℤ} (h : fmt.HasWord m q)
    (hv : (n : ℚ) * 2 ^ p = m * 2 ^ q) (negative : Bool) :
    fmt.toWord (.finite negative n p) =
      fmt.magnitudeWord m q + if negative then fmt.signWord else 0 := by
  have hscaled : ((scaleByTwo n 1 p).1 : ℚ) / (scaleByTwo n 1 p).2 = m * 2 ^ q := by
    rw [scaleByTwo_div, Nat.cast_one, div_one, hv]
  rw [toWord]
  simp only [roundFraction]
  rw [roundMagnitude_eq h (scaleByTwo_snd_pos Nat.one_pos p) hscaled]

/-! ## From 32 bits to 64 and back -/

/-- A magnitude of 32 bits has a word of 64 bits as well. -/
theorem HasWord.double {m : ℕ} {q : ℤ} (h : single.HasWord m q) :
    ∃ n p, double.HasWord n p ∧ (n : ℚ) * 2 ^ p = m * 2 ^ q := by
  obtain ⟨hm, hmin, -, hbounded⟩ := h
  simp only [single, minExponent, infinityWord, Nat.pow_eq] at hm hmin hbounded
  norm_num at hm hmin hbounded
  by_cases hzero : m = 0
  · refine ⟨0, BinaryFormat.double.minExponent, ⟨by simp, le_rfl, .inl rfl, ?_⟩, by simp [hzero]⟩
    simp [BinaryFormat.double, infinityWord]
  · -- the mantissa is shifted until its leading bit is set
    have hlog : m.log2 < 24 := (Nat.log2_lt hzero).mpr (by omega)
    have hlow := Nat.log2_self_le hzero
    have hhigh := Nat.lt_log2_self (n := m)
    obtain ⟨s, hs⟩ : ∃ s, m.log2 + s = 52 := ⟨52 - m.log2, by omega⟩
    have hlow' : 2 ^ 52 ≤ m * 2 ^ s := by
      rw [← hs, Nat.pow_add]
      exact Nat.mul_le_mul_right _ hlow
    have hhigh' : m * 2 ^ s < 2 ^ 53 := by
      rw [show 53 = m.log2 + 1 + s by omega, Nat.pow_add]
      exact Nat.mul_lt_mul_of_pos_right hhigh (Nat.two_pow_pos s)
    refine ⟨m * 2 ^ s, q - s, ⟨?_, ?_, .inr ?_, ?_⟩, ?_⟩
    · exact hhigh'.trans_eq (Nat.pow_succ' (n := 52))
    · simp only [BinaryFormat.double, minExponent, Nat.pow_eq]
      norm_num
      omega
    · exact hlow'
    · have hexponent : (q - s - BinaryFormat.double.minExponent).toNat ≤ 2000 := by
        simp only [BinaryFormat.double, minExponent, Nat.pow_eq]
        norm_num
        omega
      calc (q - s - BinaryFormat.double.minExponent).toNat * 2 ^ 52 + m * 2 ^ s
          < 2000 * 2 ^ 52 + 2 ^ 53 :=
            Nat.add_lt_add_of_le_of_lt (Nat.mul_le_mul_right _ hexponent) hhigh'
        _ ≤ BinaryFormat.double.infinityWord := by decide
    · rw [Nat.cast_mul, Nat.cast_pow, Nat.cast_ofNat, mul_assoc, ← zpow_natCast,
        ← zpow_add₀ two_ne_zero, add_sub_cancel]

/-- What a finite word of 32 bits stands for has a word of 64 bits, and is written as the word
again. -/
theorem exists_double {word : ℕ} (hword : word < 2 * single.signWord)
    (h : word % single.signWord < single.infinityWord) :
    ∃ negative n p, double.HasWord n p ∧
      double.toWord (.ofWord single word) =
        double.magnitudeWord n p + (if negative then double.signWord else 0) ∧
      single.toWord (.finite negative n p) = word := by
  obtain ⟨m, q, hof, hm, hmagnitude⟩ := hasWord_ofWord h
  obtain ⟨n, p, hdouble, hvalue⟩ := hm.double
  refine ⟨single.signWord ≤ word, n, p, hdouble, ?_, ?_⟩
  · rw [hof, toWord_finite hdouble hvalue.symm]
  · have hpos : 0 < single.signWord := by decide
    rw [toWord_finite hm hvalue, hmagnitude]
    simp only [decide_eq_true_eq]
    split
    · rename_i hge
      rw [Nat.mod_eq_sub_mod hge, Nat.mod_eq_of_lt (by omega), Nat.sub_add_cancel hge]
    · rename_i hlt
      rw [Nat.mod_eq_of_lt (Nat.not_le.mp hlt), Nat.add_zero]

end BinaryFormat

/-! ## The machine types -/

open Float.Model Float.Model.UnpackedFloat

/-- A pattern stands for a finite number unless its exponent bits are all set. -/
theorem isFinite_unpack_iff {spec : Format} (b : BitVec spec.numBits) :
    (UnpackedFloat.unpack spec b).isFinite = true ↔ unpackExponent b ≠ -1#(spec.exponentBits) := by
  rw [UnpackedFloat.unpack]
  split
  · split <;> simp_all [UnpackedFloat.isFinite]
  · split
    · split <;> simp_all [UnpackedFloat.isFinite]
    · simp_all [UnpackedFloat.isFinite]

/-- The format of a machine type. -/
def BinaryFormat.ofSpec (spec : Format) : BinaryFormat :=
  ⟨spec.mantissaBitsWithoutImplicit, spec.exponentBits⟩

/-- The exponent bits are not all set just if the magnitude is below infinity. -/
theorem unpackExponent_ne_iff {spec : Format} (b : BitVec spec.numBits) :
    unpackExponent b ≠ -1#(spec.exponentBits) ↔
      b.toNat % (BinaryFormat.ofSpec spec).signWord < (BinaryFormat.ofSpec spec).infinityWord := by
  have hbits : (unpackExponent b).toNat = b.toNat / 2 ^ spec.mantissaBitsWithoutImplicit %
      2 ^ spec.exponentBits := by
    rw [unpackExponent_def, BitVec.extractLsb'_toNat, Nat.shiftRight_eq_div_pow]
  have hlt := (unpackExponent b).isLt
  rw [ne_eq, ← BitVec.toNat_inj, BitVec.neg_one_eq_allOnes, BitVec.toNat_allOnes,
    BinaryFormat.signWord, BinaryFormat.infinityWord, BinaryFormat.ofSpec]
  simp only [Nat.pow_eq]
  rw [← Nat.div_lt_iff_lt_mul (Nat.two_pow_pos _), Nat.pow_add, Nat.mod_mul_right_div_self, ← hbits]
  omega

/-- A 32-bit float is finite just if its magnitude is below infinity. -/
theorem isFinite_iff_magnitude_lt {x : Float32} : x.isFinite = true ↔
    x.toBits.toNat % BinaryFormat.single.signWord < BinaryFormat.single.infinityWord :=
  (@isFinite_unpack_iff Format.binary32 x.toBits.toBitVec).trans (unpackExponent_ne_iff _)

/-- The pattern of a finite 32-bit float is kept. -/
theorem toBits_ofBits_single {word : UInt32}
    (h : word.toNat % BinaryFormat.single.signWord < BinaryFormat.single.infinityWord) :
    (Float32.ofBits word).toBits = word :=
  UInt32.toBitVec_inj.mp (pack_unpack_of_valid
    ⟨fun hall ↦ absurd hall ((@unpackExponent_ne_iff Format.binary32 word.toBitVec).mpr h)⟩)

/-- The pattern of a finite number is kept. -/
theorem toBits_ofBits (word : UInt64)
    (h : word.toNat % BinaryFormat.double.signWord < BinaryFormat.double.infinityWord) :
    (Float.ofBits word).toBits = word ∧ (Float.ofBits word).isFinite = true := by
  have hexponent := (@unpackExponent_ne_iff Format.binary64 word.toBitVec).mpr h
  have hbits : (Float.ofBits word).toBits = word :=
    UInt64.toBitVec_inj.mp (pack_unpack_of_valid ⟨fun hall ↦ absurd hall hexponent⟩)
  refine ⟨hbits, ?_⟩
  have hunpack := (@isFinite_unpack_iff Format.binary64 word.toBitVec).mpr hexponent
  rw [← hbits] at hunpack
  exact hunpack

/-- What the pattern is of a finite 32-bit float when it is widened. -/
theorem widen_spec {x : Float32} (h : x.isFinite = true) :
    (widen x).isFinite = true ∧ ∃ negative n p, BinaryFormat.double.HasWord n p ∧
      (widen x).toBits.toNat = BinaryFormat.double.magnitudeWord n p +
        (if negative then BinaryFormat.double.signWord else 0) ∧
      BinaryFormat.single.toWord (.finite negative n p) = x.toBits.toNat := by
  have hsign : BinaryFormat.double.signWord = 2 ^ 63 := by decide
  obtain ⟨negative, n, p, hword, hwide, hback⟩ :=
    BinaryFormat.exists_double x.toBits.toNat_lt (isFinite_iff_magnitude_lt.mp h)
  have hlt := Nat.lt_trans hword.bounded BinaryFormat.double.infinityWord_lt_signWord
  have hmod := hword.magnitudeWord_mod negative
  have hfits : BinaryFormat.double.magnitudeWord n p +
      (if negative then BinaryFormat.double.signWord else 0) < UInt64.size := by
    rw [BinaryFormat.magnitudeWord]
    cases negative <;> simp only [if_true, if_false, Bool.false_eq_true, UInt64.size] <;> omega
  have hwiden : widen x = Float.ofBits (.ofNat _) := congrArg (fun w ↦ Float.ofBits (.ofNat w)) hwide
  obtain ⟨hbits, hfinite⟩ := toBits_ofBits (.ofNat _)
    (by rw [UInt64.toNat_ofNat_of_lt' hfits, hmod]; exact hword.bounded)
  refine ⟨hwiden ▸ hfinite, negative, n, p, hword, ?_, hback⟩
  rw [hwiden, hbits, UInt64.toNat_ofNat_of_lt' hfits]

theorem isFinite_widen {x : Float32} (h : x.isFinite = true) : (widen x).isFinite = true :=
  (widen_spec h).1

/-- **No finite 32-bit float is lost by widening it**: narrowing gives it back. -/
theorem narrow_widen {x : Float32} (h : x.isFinite = true) : narrow (widen x) = x := by
  obtain ⟨-, negative, n, p, hword, hbits, hback⟩ := widen_spec h
  rw [narrow, BinaryNumber.ofFloat, hbits, BinaryFormat.ofWord_magnitudeWord hword,
    BinaryNumber.toFloat32, hback, UInt32.ofNat_toNat, Float32.ofBits_toBits]

end PortGraph
