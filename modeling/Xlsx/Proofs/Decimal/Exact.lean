import Mathlib.Algebra.Group.Nat.Defs
import Xlsx.Decimal.Double

/-! # Exact values

A quotient that is a binary64 value is rounded to this value. Whole numbers of at most fifty-three bits
are such quotients.

* **`Double.Fits`**: the mantissas and scales of finite values.
* **`Double.ofRatio_eq`**: a quotient that is a value.
* **`Double.magnitude_ofNat`**, **`Double.wholePart_ofNat`**: whole numbers are values. -/

namespace Xlsx.Double

/-- **A mantissa and a scale of a finite value**: a mantissa of fifty-three bits, or of fewer at the
least scale. -/
structure Fits (m s : Nat) : Prop where
  lt : m < 2 ^ 53
  normal : 2 ^ 52 ≤ m ∨ s = 0
  scale_le : s ≤ 2045

/-! ## Rounding -/

/-- There is a unit in which doubles are counted. -/
theorem unit_pos : 0 < unit := by decide +kernel

/-- A whole quotient needs no rounding. -/
theorem roundEven_mul (q : Nat) {d : Nat} (hd : 0 < d) : roundEven (q * d) d = q := by
  unfold roundEven
  rw [Nat.mul_div_cancel q hd, Nat.mul_mod_left]
  exact if_pos hd

/-- The scale at which the mantissa of a quotient has fifty-three bits. -/
theorem Fits.log2_sub {m s : Nat} (h : Fits m s) : (m * 2 ^ s).log2 - 52 = s := by
  by_cases hm : m = 0
  · subst hm
    rcases h.normal with hle | hs
    · exact absurd hle (by decide)
    · rw [hs]
      rfl
  · have hlog : m.log2 < 53 := (Nat.log2_lt hm).mpr h.lt
    have hmul : (m * 2 ^ s).log2 = m.log2 + s := by
      rw [Nat.log2_eq_iff (Nat.mul_ne_zero hm (Nat.ne_of_gt (Nat.two_pow_pos s)))]
      constructor
      · rw [Nat.pow_add]
        exact Nat.mul_le_mul_right _ (Nat.log2_self_le hm)
      · rw [Nat.add_right_comm, Nat.pow_add]
        exact Nat.mul_lt_mul_of_pos_right Nat.lt_log2_self (Nat.two_pow_pos s)
    rw [hmul]
    rcases h.normal with hle | hs
    · have hlow : 52 ≤ m.log2 := (Nat.le_log2 hm).mpr hle
      omega
    · omega

/-- **The bits of a quotient that is a value**: its scale, and its mantissa stacked on top. -/
theorem nearestBits_of_fits {m s num den : Nat} (h : Fits m s) (hden : 0 < den)
    (hquotient : num * unit = den * (m * 2 ^ s)) : nearestBits num den = s * 2 ^ 52 + m := by
  have hdiv : num * unit / den = m * 2 ^ s := by rw [hquotient, Nat.mul_div_cancel_left _ hden]
  have hround : roundEven (num * unit) (den * 2 ^ s) = m := by
    rw [hquotient, Nat.mul_left_comm]
    exact roundEven_mul m (Nat.mul_pos hden (Nat.two_pow_pos s))
  have hbound : s * 2 ^ 52 + m ≤ infinityBits := by
    have hlt := h.lt
    have hscale := h.scale_le
    show _ ≤ 2047 * 2 ^ 52
    omega
  unfold nearestBits
  simp only [hdiv, h.log2_sub]
  rw [show Nat.pow 2 s = 2 ^ s from rfl, hround]
  exact Nat.min_eq_left hbound

/-! ## The parts of a value -/

/-- The parts of a value that is made of a mantissa and a scale. -/
structure Parts (x : Double) (m s : Nat) : Prop where
  finite : x.isFinite = true
  notNegative : x.isNegative = false
  mantissa : x.mantissa = m
  scale : x.scale = s

/-- Bits that are made of a mantissa and a scale have these for their parts. -/
theorem Fits.parts {m s : Nat} (h : Fits m s) {x : Double} (hx : x.bits.toNat = s * 2 ^ 52 + m) :
    x.Parts m s := by
  obtain ⟨hlt, hnormal, hscale⟩ := h
  have h52 : Nat.pow 2 52 = 2 ^ 52 := rfl
  have hexponent : x.exponentBits = if 2 ^ 52 ≤ m then s + 1 else 0 := by
    rw [exponentBits, hx, h52, show Nat.pow 2 11 = 2048 from rfl]
    split <;> omega
  have hfraction : x.fractionBits = if 2 ^ 52 ≤ m then m - 2 ^ 52 else m := by
    rw [fractionBits, hx, h52]
    split <;> omega
  refine ⟨?_, ?_, ?_, ?_⟩
  · rw [isFinite, hexponent, bne_iff_ne]
    split <;> omega
  · rw [isNegative, hx, decide_eq_false_iff_not, show Nat.pow 2 63 = 2 ^ 63 from rfl]
    omega
  · by_cases hm : 2 ^ 52 ≤ m
    · rw [if_pos hm] at hexponent hfraction
      rw [Double.mantissa, hexponent, hfraction, h52, if_neg (Nat.succ_ne_zero s)]
      omega
    · rw [if_neg hm] at hexponent hfraction
      rw [Double.mantissa, hexponent, hfraction, if_pos rfl]
  · rw [Double.scale, hexponent]
    split <;> omega

/-- A finite value is made of its mantissa and its scale. -/
theorem fits_of_isFinite {x : Double} (hfinite : x.isFinite = true) (hsign : x.isNegative = false) :
    Fits x.mantissa x.scale ∧ x.bits.toNat = x.scale * 2 ^ 52 + x.mantissa := by
  have hbits : x.bits.toNat < 2 ^ 63 := by
    have := of_decide_eq_false hsign
    rwa [Nat.not_le] at this
  have h52 : Nat.pow 2 52 = 2 ^ 52 := rfl
  have hexponent : x.exponentBits = x.bits.toNat / 2 ^ 52 := by
    rw [exponentBits, h52, show Nat.pow 2 11 = 2048 from rfl]
    omega
  have hfraction : x.fractionBits = x.bits.toNat % 2 ^ 52 := rfl
  have hlimit : x.exponentBits ≠ 2047 := bne_iff_ne.mp hfinite
  rw [Double.mantissa, Double.scale]
  split
  · exact ⟨⟨by omega, .inr (by omega), by omega⟩, by omega⟩
  · exact ⟨⟨by omega, .inl (by omega), by omega⟩, by omega⟩

/-- **A quotient that is a value** is rounded to it. -/
theorem ofRatio_eq {x : Double} (hfinite : x.isFinite = true) (hsign : x.isNegative = false)
    {num den : Nat} (hden : 0 < den) (h : num * unit = den * x.magnitude) : ofRatio false num den = x := by
  obtain ⟨hfits, hbits⟩ := fits_of_isFinite hfinite hsign
  rw [ofRatio, nearestBits_of_fits hfits hden h, ← hbits]
  show Double.mk (UInt64.ofNat x.bits.toNat) = x
  rw [UInt64.ofNat_toNat]

/-! ## Whole numbers -/

/-- Whole numbers of at most fifty-three bits have a mantissa and a scale. -/
theorem exists_fits {n : Nat} (h : n < 2 ^ 53) : ∃ m s, Fits m s ∧ m * 2 ^ s = n * unit := by
  by_cases hn : n = 0
  · exact ⟨0, 0, ⟨by decide, .inr rfl, by decide⟩, by rw [hn, Nat.zero_mul, Nat.zero_mul]⟩
  · have hlog : n.log2 ≤ 52 := Nat.le_of_lt_succ ((Nat.log2_lt hn).mpr h)
    have hsplit : ∀ k : Nat, 2 ^ k * 2 ^ (52 - n.log2) = 2 ^ (k + 52 - n.log2) := by
      intro k
      rw [← Nat.pow_add]
      congr 1
      omega
    refine ⟨n * 2 ^ (52 - n.log2), 1022 + n.log2, ⟨?_, .inl ?_, by omega⟩, ?_⟩
    · calc n * 2 ^ (52 - n.log2) < 2 ^ (n.log2 + 1) * 2 ^ (52 - n.log2) :=
            Nat.mul_lt_mul_of_pos_right Nat.lt_log2_self (Nat.two_pow_pos _)
        _ = 2 ^ 53 := by
            rw [hsplit]
            congr 1
            omega
    · calc 2 ^ 52 = 2 ^ n.log2 * 2 ^ (52 - n.log2) := by
            rw [hsplit]
            congr 1
            omega
        _ ≤ n * 2 ^ (52 - n.log2) := Nat.mul_le_mul_right _ (Nat.log2_self_le hn)
    · rw [Nat.mul_assoc, ← Nat.pow_add]
      congr 2
      omega

variable {n : Nat}

/-- The parts of a whole number. -/
theorem parts_ofNat (h : n < 2 ^ 53) : ∃ m s, (ofNat n).Parts m s ∧ m * 2 ^ s = n * unit := by
  obtain ⟨m, s, hfits, hmagnitude⟩ := exists_fits h
  refine ⟨m, s, hfits.parts ?_, hmagnitude⟩
  have hbits : nearestBits n 1 = s * 2 ^ 52 + m :=
    nearestBits_of_fits hfits Nat.one_pos (by rw [hmagnitude, Nat.one_mul])
  have hlt := hfits.lt
  have hscale := hfits.scale_le
  rw [ofNat, ofRatio, hbits]
  show (UInt64.ofNat (s * 2 ^ 52 + m)).toNat = _
  rw [UInt64.toNat_ofNat', Nat.mod_eq_of_lt (by omega)]

/-- A number below 2⁵³ is no infinity. -/
theorem isFinite_ofNat (h : n < 2 ^ 53) : (ofNat n).isFinite = true := by
  obtain ⟨m, s, hparts, -⟩ := parts_ofNat h
  exact hparts.finite

/-- It has no sign. -/
theorem isNegative_ofNat (h : n < 2 ^ 53) : (ofNat n).isNegative = false := by
  obtain ⟨m, s, hparts, -⟩ := parts_ofNat h
  exact hparts.notNegative

/-- **Whole numbers are values.** -/
theorem magnitude_ofNat (h : n < 2 ^ 53) : (ofNat n).magnitude = n * unit := by
  obtain ⟨m, s, hparts, hmagnitude⟩ := parts_ofNat h
  rw [magnitude, hparts.mantissa, hparts.scale]
  exact hmagnitude

/-- A whole number is its own whole part. -/
theorem wholePart_ofNat (h : n < 2 ^ 53) : (ofNat n).wholePart = n := by
  rw [wholePart, magnitude_ofNat h, Nat.mul_div_cancel n unit_pos]

/-- It has no fraction. -/
theorem isWhole_ofNat (h : n < 2 ^ 53) : (ofNat n).isWhole = true := by
  rw [isWhole, fractionPart, magnitude_ofNat h, Nat.mul_mod_left]
  rfl

/-- A whole value has its whole part for a numerator. -/
theorem magnitude_of_isWhole {x : Double} (h : x.isWhole = true) : x.magnitude = x.wholePart * unit := by
  have hfraction : x.magnitude % unit = 0 := eq_of_beq h
  rw [wholePart, Nat.div_mul_cancel (Nat.dvd_of_mod_eq_zero hfraction)]

/-- A zero of either sign. -/
theorem wholePart_of_isZero {x : Double} (h : x.isZero = true) : x.wholePart = 0 := by
  have hbits : x.bits.toNat % 2 ^ 63 = 0 := eq_of_beq h
  have hexponent : x.exponentBits = 0 := by
    show x.bits.toNat / 2 ^ 52 % 2 ^ 11 = 0
    omega
  have hfraction : x.fractionBits = 0 := by
    show x.bits.toNat % 2 ^ 52 = 0
    omega
  rw [wholePart, magnitude, mantissa, if_pos hexponent, hfraction, Nat.zero_mul, Nat.zero_div]

/-- What is finite is a number. -/
theorem isNaN_of_isFinite {x : Double} (h : x.isFinite = true) : x.isNaN = false := by
  have hexponent : x.exponentBits ≠ 2047 := bne_iff_ne.mp h
  rw [isNaN, beq_eq_false_iff_ne.mpr hexponent, Bool.false_and]

/-- **A whole value equals its whole part**, unless it is negative and no zero. -/
theorem numEq_ofNat_wholePart {x : Double} (hwhole : x.isWhole = true) (hfinite : x.isFinite = true)
    (hsign : x.isNegative = true → x.isZero = true) : (ofNat x.wholePart).numEq x = true := by
  by_cases hnegative : x.isNegative = true
  · -- Only the negative zero is not the value itself.
    have hzero := hsign hnegative
    have hofNat : ofNat x.wholePart = zero := by
      rw [wholePart_of_isZero hzero]
      decide +kernel
    have hparts : zero.isNaN = false ∧ zero.isZero = true := by decide
    simp [hofNat, numEq, isNaN_of_isFinite hfinite, hzero, hparts]
  · have hself : ofNat x.wholePart = x := by
      refine ofRatio_eq hfinite (by simpa using hnegative) Nat.one_pos ?_
      rw [magnitude_of_isWhole hwhole, Nat.one_mul]
    simp [hself, numEq, isNaN_of_isFinite hfinite]

/-- A whole number of units is rounded to the whole number. -/
theorem ofRatio_mul_unit (h : n < 2 ^ 53) : ofRatio false (n * unit) unit = ofNat n := by
  refine ofRatio_eq (isFinite_ofNat h) (isNegative_ofNat h) unit_pos ?_
  rw [magnitude_ofNat h, Nat.mul_comm]

end Xlsx.Double
