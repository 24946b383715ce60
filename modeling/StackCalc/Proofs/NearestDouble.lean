import StackCalc.Proofs.Doubles
import StackCalc.Proofs.WholeNumbers

/-! The double nearest to a quotient. Around every double lies an interval of the numbers that are
rounded to it. Its ends are halfway to the neighbours, and they belong to it when the mantissa is
even. The bit pattern that is computed for a quotient is the pattern of the double in whose interval
the quotient lies. -/
namespace StackCalc.Number

theorem zpow_eq_div (base : Nat) (k : Int) :
    (base : ℚ) ^ k = (Nat.pow base k.toNat : ℕ) / (Nat.pow base (-k).toNat : ℕ) := by
  obtain ⟨n, rfl | rfl⟩ := k.eq_nat_or_neg
  · simp
  · simp

/-- Powers are compared with fractions in natural numbers, on whichever side the exponent is
positive. -/
theorem powerLe_iff {base num den : Nat} {k : Int} (hBase : 0 < base) (hDen : 0 < den) :
    powerLe base k num den = true ↔ (base : ℚ) ^ k ≤ num / den := by
  have hScale : (0 : ℚ) < (Nat.pow base (-k).toNat : ℕ) := by
    exact_mod_cast Nat.pow_pos hBase
  have hDen' : (0 : ℚ) < den := by exact_mod_cast hDen
  rw [powerLe, decide_eq_true_eq, zpow_eq_div, div_le_div_iff₀ hScale hDen', mul_comm]
  exact_mod_cast Iff.rfl

/-- A quotient of numbers with known leading places is known up to one place, which a comparison
decides. -/
theorem floorLog_bounds {base num den a c : Nat} (hBase : 1 < base) (hDen : 0 < den)
    (hNum : Nat.pow base a ≤ num ∧ num < Nat.pow base (a + 1))
    (hDenPlace : Nat.pow base c ≤ den ∧ den < Nat.pow base (c + 1)) {k : Int}
    (hk : k = if powerLe base ((a : Int) - c) num den then (a : Int) - c else (a : Int) - c - 1) :
    (base : ℚ) ^ k ≤ num / den ∧ (num / den : ℚ) < (base : ℚ) ^ (k + 1) := by
  have hBase' : (0 : ℚ) < base := by exact_mod_cast Nat.lt_trans Nat.zero_lt_one hBase
  have hDen' : (0 : ℚ) < den := by exact_mod_cast hDen
  have hPlace : ∀ i j : Nat, (base : ℚ) ^ ((i : Int) - j) = (base : ℚ) ^ i / (base : ℚ) ^ j := by
    intro i j
    rw [zpow_sub₀ hBase'.ne', zpow_natCast, zpow_natCast]
  have hNumLow : (base : ℚ) ^ a ≤ num := by exact_mod_cast hNum.1
  have hNumHigh : (num : ℚ) < (base : ℚ) ^ (a + 1) := by exact_mod_cast hNum.2
  have hDenLow : (base : ℚ) ^ c ≤ den := by exact_mod_cast hDenPlace.1
  have hDenHigh : (den : ℚ) < (base : ℚ) ^ (c + 1) := by exact_mod_cast hDenPlace.2
  have hLow : (base : ℚ) ^ ((a : Int) - c - 1) ≤ num / den := by
    have hShift : (a : Int) - c - 1 = (a : Int) - (c + 1 : Nat) := by omega
    rw [hShift, hPlace]
    exact div_le_div₀ (by positivity) hNumLow hDen' hDenHigh.le
  have hHigh : (num / den : ℚ) < (base : ℚ) ^ ((a : Int) - c + 1) := by
    have hShift : (a : Int) - c + 1 = (a + 1 : Nat) - (c : Int) := by omega
    rw [hShift, hPlace]
    exact div_lt_div₀ hNumHigh hDenLow (by positivity) (by positivity)
  have hLe : powerLe base ((a : Int) - c) num den = true ↔
      (base : ℚ) ^ ((a : Int) - c) ≤ num / den :=
    powerLe_iff (Nat.lt_trans Nat.zero_lt_one hBase) hDen
  split at hk
  · rename_i hPower
    rw [hk]
    exact ⟨hLe.mp hPower, hHigh⟩
  · rename_i hPower
    rw [hk, sub_add_cancel]
    exact ⟨hLow, not_le.mp (mt hLe.mpr hPower)⟩

/-- `floorLog2` is the floor of the binary logarithm, stated as a Galois connection. -/
theorem le_floorLog2_iff {num den : Nat} (hNum : 0 < num) (hDen : 0 < den) {k : Int} :
    k ≤ floorLog2 num den ↔ (2 : ℚ) ^ k ≤ num / den := by
  have hPlaces : ∀ n : Nat, 0 < n → Nat.pow 2 n.log2 ≤ n ∧ n < Nat.pow 2 (n.log2 + 1) :=
    fun n hn => ⟨Nat.log2_self_le (Nat.ne_of_gt hn), Nat.lt_log2_self⟩
  obtain ⟨hLow, hHigh⟩ : (2 : ℚ) ^ floorLog2 num den ≤ num / den ∧ _ :=
    floorLog_bounds Nat.one_lt_two hDen (hPlaces num hNum) (hPlaces den hDen) rfl
  constructor
  · intro h
    exact (zpow_le_zpow_right₀ one_le_two h).trans hLow
  · intro h
    exact Int.lt_add_one_iff.mp ((zpow_lt_zpow_iff_right₀ one_lt_two).mp (h.trans_lt hHigh))

/-- Rounding gives the natural that is at most half a unit away; at exactly half a unit the even
one. -/
theorem roundHalfEven_eq {num den k : Nat} (hDen : 0 < den)
    (hLow : 2 * (k * den) ≤ 2 * num + den) (hHigh : 2 * num ≤ 2 * (k * den) + den)
    (hEnds : k % 2 = 0 ∨ 2 * (k * den) < 2 * num + den ∧ 2 * num < 2 * (k * den) + den) :
    roundHalfEven num den = k := by
  have hNum : num / den * den + num % den = num := Nat.div_add_mod' num den
  have hRest : num % den < den := Nat.mod_lt num hDen
  have hNear : k = num / den ∨ k = num / den + 1 := by
    have hMore : num / den < k + 1 := by
      apply Nat.lt_of_mul_lt_mul_right (a := den)
      rw [Nat.succ_mul]
      omega
    have hLess : k < num / den + 2 := by
      apply Nat.lt_of_mul_lt_mul_right (a := den)
      rw [Nat.add_mul]
      omega
    omega
  unfold roundHalfEven
  dsimp only
  rcases hNear with rfl | rfl
  · split
    · rfl
    · split <;> omega
  · have hNext : (num / den + 1) * den = num / den * den + den := Nat.succ_mul _ _
    split
    · omega
    · split <;> omega

/-- How far below `m * 2 ^ q` the numbers that are rounded to it begin, in units of `2 ^ q`. Below a
power of two the next double is nearer. -/
def gapBelow (m : Nat) (q : Int) : ℚ :=
  if m = Nat.pow 2 52 ∧ leastExponent < q then 1 / 4 else 1 / 2

/-- The number is rounded to `m * 2 ^ q`. -/
structure RoundsTo (m : Nat) (q : Int) (r : ℚ) : Prop where
  low : (m - gapBelow m q) * 2 ^ q ≤ r
  high : r ≤ (m + 1 / 2) * 2 ^ q
  ends : m % 2 = 0 ∨ (m - gapBelow m q) * 2 ^ q < r ∧ r < (m + 1 / 2) * 2 ^ q

/-- Strictly within the gaps, the rule for halves is not needed. -/
theorem RoundsTo.of_lt {m : Nat} {q : Int} {r : ℚ} (hLow : (m - gapBelow m q) * 2 ^ q < r)
    (hHigh : r < (m + 1 / 2) * 2 ^ q) : RoundsTo m q r :=
  ⟨hLow.le, hHigh.le, .inr ⟨hLow, hHigh⟩⟩

/-- The gap below a double is half a unit, or a quarter at a power of two. -/
theorem gapBelow_bounds (m : Nat) (q : Int) : 1 / 4 ≤ gapBelow m q ∧ gapBelow m q ≤ 1 / 2 := by
  unfold gapBelow
  split <;> norm_num

/-- The exact value of a double is rounded to it. -/
theorem roundsTo_self (m : Nat) (q : Int) : RoundsTo m q (m * 2 ^ q) := by
  have hUnit : (0 : ℚ) < 2 ^ q := by positivity
  have hGap := gapBelow_bounds m q
  have hLow : (m - gapBelow m q) * 2 ^ q < m * 2 ^ q := by nlinarith
  have hHigh : (m : ℚ) * 2 ^ q < (m + 1 / 2) * 2 ^ q := by nlinarith
  exact .of_lt hLow hHigh

/-- The same for a quotient that is given by its distance from a natural. -/
theorem roundHalfEven_of_near {num den k : Nat} (hDen : 0 < den)
    (hLow : (k : ℚ) - 1 / 2 ≤ num / den) (hHigh : (num / den : ℚ) ≤ k + 1 / 2)
    (hEnds : k % 2 = 0 ∨ (k : ℚ) - 1 / 2 < num / den ∧ (num / den : ℚ) < k + 1 / 2) :
    roundHalfEven num den = k := by
  have hDen' : (0 : ℚ) < den := by exact_mod_cast hDen
  have hLow' : 2 * ((k : ℚ) * den) ≤ 2 * num + den := by
    rw [le_div_iff₀ hDen'] at hLow
    linarith
  have hHigh' : 2 * (num : ℚ) ≤ 2 * (k * den) + den := by
    rw [div_le_iff₀ hDen'] at hHigh
    linarith
  refine roundHalfEven_eq hDen (by exact_mod_cast hLow') (by exact_mod_cast hHigh') ?_
  refine hEnds.imp_right fun ⟨hAbove, hBelow⟩ => ?_
  have hAbove' : 2 * ((k : ℚ) * den) < 2 * num + den := by
    rw [lt_div_iff₀ hDen'] at hAbove
    linarith
  have hBelow' : 2 * (num : ℚ) < 2 * (k * den) + den := by
    rw [div_lt_iff₀ hDen'] at hBelow
    linarith
  exact ⟨by exact_mod_cast hAbove', by exact_mod_cast hBelow'⟩

/-- The mantissa that a quotient is rounded to in units of `2 ^ q`. -/
theorem scaled_eq (num den : Nat) (q : Int) :
    ((num * Nat.pow 2 (-q).toNat : ℕ) : ℚ) / (den * Nat.pow 2 q.toNat : ℕ) =
      num / den / 2 ^ q := by
  have hPower := zpow_eq_div 2 q
  rw [Nat.cast_ofNat] at hPower
  rw [hPower]
  push_cast
  field_simp

/-- The exponent comes from the leading place of the quotient, and what is rounded to the mantissa
is the quotient in units of that exponent. -/
theorem nearestBits_of_unit {num den k : Nat} {e : Int} (hNum : 0 < num) (hDen : 0 < den)
    (hUnit : max (floorLog2 num den - 52) leastExponent = e)
    (hLow : (k : ℚ) - 1 / 2 ≤ num / den / 2 ^ e) (hHigh : (num / den / 2 ^ e : ℚ) ≤ k + 1 / 2)
    (hEnds : k % 2 = 0 ∨
      (k : ℚ) - 1 / 2 < num / den / 2 ^ e ∧ (num / den / 2 ^ e : ℚ) < k + 1 / 2) :
    nearestBits num den = min (patternOf k e) infinityBits := by
  have hScaled : 0 < den * Nat.pow 2 e.toNat := Nat.mul_pos hDen (Nat.two_pow_pos _)
  rw [← scaled_eq] at hLow hHigh hEnds
  have hRound := roundHalfEven_of_near hScaled hLow hHigh hEnds
  simp only [nearestBits, Nat.ne_of_gt hNum, if_false, hUnit, hRound, patternOf]

section
variable {num den m : Nat} {q : Int}

theorem RoundsTo.value_pos {r : ℚ} (hm : 0 < m) (h : RoundsTo m q r) : 0 < r := by
  have hUnit : (0 : ℚ) < 2 ^ q := by positivity
  have hGap := (gapBelow_bounds m q).2
  have hOne : (1 : ℚ) ≤ m := by exact_mod_cast hm
  exact (mul_pos (by linarith) hUnit).trans_le h.low

theorem RoundsTo.pos (hm : 0 < m) (h : RoundsTo m q (num / den)) : 0 < num := by
  have hPos := h.value_pos hm
  apply Nat.pos_of_ne_zero
  rintro rfl
  simp at hPos

theorem floorLog2_lt (hNum : 0 < num) (hDen : 0 < den) (n : Nat) :
    floorLog2 num den < n + q ↔ (num / den : ℚ) < 2 ^ n * 2 ^ q := by
  rw [← not_le, le_floorLog2_iff hNum hDen, not_le, zpow_add₀ two_ne_zero, zpow_natCast]

/-- What rounds to a canonical magnitude is below the next binade. -/
theorem RoundsTo.floorLog2_lt (hDen : 0 < den) (hm : 0 < m) (hCanonical : Canonical m q)
    (h : RoundsTo m q (num / den)) : floorLog2 num den < (53 : Nat) + q := by
  have hUnit : (0 : ℚ) < 2 ^ q := by positivity
  have hBelow : (m : ℚ) + 1 ≤ 2 ^ 53 := by exact_mod_cast hCanonical.below
  rw [Number.floorLog2_lt (h.pos hm) hDen]
  exact h.high.trans_lt (by nlinarith)

/-- The quotient has the exponent of the double it is rounded to. -/
theorem RoundsTo.nearestBits_of_binade (hDen : 0 < den) (hm : 0 < m) (hCanonical : Canonical m q)
    (h : RoundsTo m q (num / den))
    (hBinade : (2 : ℚ) ^ 52 * 2 ^ q ≤ num / den ∨ q = leastExponent) :
    nearestBits num den = patternOf m q := by
  have hUnit : (0 : ℚ) < 2 ^ q := by positivity
  have hNum := h.pos hm
  have hGap := gapBelow_bounds m q
  have hExponent : max (floorLog2 num den - 52) leastExponent = q := by
    have hLeast := hCanonical.least
    have hTop := h.floorLog2_lt hDen hm hCanonical
    rcases hBinade with hLeading | hEq
    · have hBottom := mt (Number.floorLog2_lt hNum hDen 52).mp (not_lt.mpr hLeading)
      omega
    · omega
  obtain ⟨hLow, hHigh, hEnds⟩ := h
  rw [nearestBits_of_unit hNum hDen hExponent]
  · exact min_eq_left (Nat.le_of_lt hCanonical.patternOf_lt)
  · rw [le_div_iff₀ hUnit]
    nlinarith
  · rwa [div_le_iff₀ hUnit]
  · refine hEnds.imp_right fun ⟨hAbove, hBelow⟩ => ⟨?_, ?_⟩
    · rw [lt_div_iff₀ hUnit]
      nlinarith
    · rwa [div_lt_iff₀ hUnit]

/-- The quotient is just below the power of two that it is rounded up to. Its exponent is one less,
and its mantissa is rounded up to the next power of two. -/
theorem RoundsTo.nearestBits_below_binade (hDen : 0 < den) (hm : 0 < m)
    (hCanonical : Canonical m q) (h : RoundsTo m q (num / den))
    (hUnder : (num / den : ℚ) < 2 ^ 52 * 2 ^ q) (hNotLeast : q ≠ leastExponent) :
    nearestBits num den = patternOf m q := by
  have hUnit : (0 : ℚ) < 2 ^ q := by positivity
  have hNum := h.pos hm
  have hGap := gapBelow_bounds m q
  have hLow := h.low
  -- A larger mantissa is more than half a unit away, so the double is the power of two itself.
  obtain rfl : m = Nat.pow 2 52 := by
    apply Nat.le_antisymm _ (hCanonical.leading.resolve_right hNotLeast)
    by_contra hMore
    have hMore' : (2 : ℚ) ^ 52 + 1 ≤ m := by exact_mod_cast Nat.lt_of_not_le hMore
    nlinarith
  have hLeast : leastExponent < q := lt_of_le_of_ne hCanonical.least (Ne.symm hNotLeast)
  have hMantissa : ((Nat.pow 2 52 : ℕ) : ℚ) = 2 ^ 52 := by norm_num
  rw [gapBelow, if_pos ⟨rfl, hLeast⟩, hMantissa] at hLow
  have hExponent : max (floorLog2 num den - 52) leastExponent = q - 1 := by
    have hLess := (Number.floorLog2_lt hNum hDen 52).mpr hUnder
    have hMore := mt (Number.floorLog2_lt (q := q) hNum hDen 51).mp (not_lt.mpr (by linarith))
    omega
  have hHalf : (2 : ℚ) ^ (q - 1) = 2 ^ q / 2 := zpow_sub_one₀ two_ne_zero q
  have hEven : Nat.pow 2 53 % 2 = 0 := by decide +kernel
  have hNext : ((Nat.pow 2 53 : ℕ) : ℚ) = 2 ^ 53 := by norm_num
  have hSame : patternOf (Nat.pow 2 53) (q - 1) = patternOf (Nat.pow 2 52) q := by
    simp only [patternOf, leastExponent, two_pow_widths] at hLeast ⊢
    omega
  rw [nearestBits_of_unit hNum hDen hExponent _ _ (.inl hEven), hSame]
  · exact min_eq_left (Nat.le_of_lt hCanonical.patternOf_lt)
  · rw [hNext, hHalf, le_div_iff₀ (by linarith)]
    linarith
  · rw [hNext, hHalf, div_le_iff₀ (by linarith)]
    linarith

/-- The computed pattern is that of the double that the quotient is rounded to. -/
theorem RoundsTo.nearestBits_eq (hDen : 0 < den) (hm : 0 < m) (hCanonical : Canonical m q)
    (h : RoundsTo m q (num / den)) : nearestBits num den = patternOf m q := by
  by_cases hBinade : (2 : ℚ) ^ 52 * 2 ^ q ≤ num / den ∨ q = leastExponent
  · exact h.nearestBits_of_binade hDen hm hCanonical hBinade
  · obtain ⟨hUnder, hNotLeast⟩ := not_or.mp hBinade
    exact h.nearestBits_below_binade hDen hm hCanonical (not_le.mp hUnder) hNotLeast

end

end StackCalc.Number
