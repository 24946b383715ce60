import StackCalc.Number.Binary64

/-! Which whole numbers have a nearest double. Those from `2 ^ 1024 - 2 ^ 970` on have none: halfway
between the largest double and the next power of two, rounding goes up to the even side. -/
namespace StackCalc.Number

theorem roundHalfEven_bounds (num den : Nat) :
    num / den ≤ roundHalfEven num den ∧ roundHalfEven num den ≤ num / den + 1 := by
  unfold roundHalfEven
  dsimp only
  split
  · omega
  · split <;> omega

/-- Rounding reaches an even number from half a unit below it. -/
theorem le_roundHalfEven_iff {num den k : Nat} (hDen : 0 < den) (hEven : k % 2 = 0) :
    k ≤ roundHalfEven num den ↔ 2 * (k * den) ≤ 2 * num + den := by
  have hBounds := roundHalfEven_bounds num den
  have hNum : num / den * den + num % den = num := Nat.div_add_mod' num den
  have hRest : num % den < den := Nat.mod_lt num hDen
  rcases Nat.lt_trichotomy k (num / den + 1) with hBelow | rfl | hAbove
  · have hLe : k * den ≤ num / den * den := Nat.mul_le_mul_right den (by omega)
    omega
  · -- The quotient is odd, so a half goes up.
    have hNext : (num / den + 1) * den = num / den * den + den := Nat.succ_mul _ _
    unfold roundHalfEven
    dsimp only
    split
    · omega
    · split <;> omega
  · have hLe : (num / den + 2) * den ≤ k * den := Nat.mul_le_mul_right den (by omega)
    have hNext : (num / den + 2) * den = num / den * den + 2 * den := Nat.add_mul _ _ _
    omega

theorem floorLog2_one {n : Nat} (h : n ≠ 0) : floorLog2 n 1 = n.log2 := by
  have hStart : (n.log2 : Int) - ((1 : Nat).log2 : Nat) = n.log2 := Int.sub_zero _
  have hNeg : (-(n.log2 : Int)).toNat = 0 := by omega
  have hPower : powerLe 2 n.log2 n 1 = true := by
    rw [powerLe, decide_eq_true_eq, Int.toNat_natCast, hNeg, Nat.one_mul]
    exact Nat.le_trans (Nat.log2_self_le h) (Nat.le_of_eq (Nat.mul_one n).symm)
  simp only [floorLog2, hStart, hPower, if_true]

/-- The bit pattern of the double nearest to a natural, from its highest bit and the 53 bits that it
is rounded to. -/
theorem nearestBits_one {n : Nat} (h : n ≠ 0) :
    nearestBits n 1 = min ((n.log2 + 1022) * Nat.pow 2 52 +
      roundHalfEven (n * Nat.pow 2 (52 - n.log2)) (Nat.pow 2 (n.log2 - 52))) infinityBits := by
  have hExponent : max (floorLog2 n 1 - 52) leastExponent = (n.log2 : Int) - 52 := by
    rw [floorLog2_one h, leastExponent]
    omega
  have hDown : (-((n.log2 : Int) - 52)).toNat = 52 - n.log2 := by omega
  have hUp : ((n.log2 : Int) - 52).toNat = n.log2 - 52 := by omega
  have hField : ((n.log2 : Int) - 52 - leastExponent).toNat = n.log2 + 1022 := by
    rw [leastExponent]
    omega
  simp only [nearestBits, h, if_false, hExponent, hDown, hUp, hField, Nat.one_mul]

/-- A natural that is scaled to 53 bits has its highest bit at place 52. -/
theorem scaled_bounds {n : Nat} (h : n ≠ 0) :
    Nat.pow 2 52 ≤ n * Nat.pow 2 (52 - n.log2) / Nat.pow 2 (n.log2 - 52) ∧
      n * Nat.pow 2 (52 - n.log2) / Nat.pow 2 (n.log2 - 52) < Nat.pow 2 53 := by
  have hLow : Nat.pow 2 n.log2 ≤ n := Nat.log2_self_le h
  have hHigh : n < Nat.pow 2 (n.log2 + 1) := Nat.lt_log2_self
  have hUnit : 0 < Nat.pow 2 (n.log2 - 52) := Nat.two_pow_pos _
  have hScale : 0 < Nat.pow 2 (52 - n.log2) := Nat.two_pow_pos _
  have hShift : ∀ j, Nat.pow 2 (n.log2 + j) * Nat.pow 2 (52 - n.log2) =
      Nat.pow 2 (52 + j) * Nat.pow 2 (n.log2 - 52) := by
    intro j
    calc Nat.pow 2 (n.log2 + j) * Nat.pow 2 (52 - n.log2)
        = Nat.pow 2 (n.log2 + j + (52 - n.log2)) := (Nat.pow_add 2 _ _).symm
      _ = Nat.pow 2 (52 + j + (n.log2 - 52)) := congrArg (Nat.pow 2) (by omega)
      _ = Nat.pow 2 (52 + j) * Nat.pow 2 (n.log2 - 52) := Nat.pow_add 2 _ _
  constructor
  · rw [Nat.le_div_iff_mul_le hUnit, ← hShift 0]
    exact Nat.mul_le_mul_right _ hLow
  · rw [Nat.div_lt_iff_lt_mul hUnit, ← hShift 1]
    exact Nat.mul_lt_mul_of_pos_right hHigh hScale

/-- The least natural that is out of the range of doubles. -/
def rangeEnd : Nat := Nat.pow 2 1024 - Nat.pow 2 970

/-- The end of the range lies half a unit below the next power of two. -/
theorem rangeEnd_add_half {k : Nat} (h : k = 971) :
    2 * (Nat.pow 2 53 * Nat.pow 2 k) = 2 * rangeEnd + Nat.pow 2 k := by
  subst h
  decide +kernel

/-- The nearest double to a natural is infinite from the end of the range on. -/
theorem nearestBits_eq_infinityBits_iff {n : Nat} :
    nearestBits n 1 = infinityBits ↔ rangeEnd ≤ n := by
  by_cases hZero : n = 0
  · subst hZero
    decide +kernel
  have hLow : Nat.pow 2 n.log2 ≤ n := Nat.log2_self_le hZero
  have hHigh : n < Nat.pow 2 (n.log2 + 1) := Nat.lt_log2_self
  obtain ⟨hLeast, hMost⟩ := scaled_bounds hZero
  obtain ⟨hDown, hUp⟩ := roundHalfEven_bounds (n * Nat.pow 2 (52 - n.log2))
    (Nat.pow 2 (n.log2 - 52))
  have hDouble : Nat.pow 2 53 = 2 * Nat.pow 2 52 := by decide +kernel
  have hInfinity : infinityBits = 2047 * Nat.pow 2 52 := rfl
  have hReached : ∀ bits, min bits infinityBits = infinityBits ↔ 2047 * Nat.pow 2 52 ≤ bits := by
    intro bits
    omega
  rw [nearestBits_one hZero, hReached]
  rcases Nat.lt_trichotomy n.log2 1023 with hSmall | hEdge | hLarge
  · have hField : (n.log2 + 1022) * Nat.pow 2 52 ≤ 2044 * Nat.pow 2 52 :=
      Nat.mul_le_mul_right _ (by omega)
    have hPower : Nat.pow 2 (n.log2 + 1) ≤ Nat.pow 2 1023 := by
      apply Nat.pow_le_pow_right (by decide)
      omega
    have hEnd : Nat.pow 2 1023 ≤ rangeEnd := by decide +kernel
    omega
  · -- Only here the rounding decides.
    have hField : (n.log2 + 1022) * Nat.pow 2 52 = 2045 * Nat.pow 2 52 := by rw [hEdge]
    have hScaled : n * Nat.pow 2 (52 - n.log2) = n := by
      rw [show 52 - n.log2 = 0 by omega]
      exact Nat.mul_one n
    have hEven : Nat.pow 2 53 % 2 = 0 := by decide +kernel
    have hRound : Nat.pow 2 53 ≤ roundHalfEven n (Nat.pow 2 (n.log2 - 52)) ↔ _ :=
      le_roundHalfEven_iff (Nat.two_pow_pos _) hEven
    rw [rangeEnd_add_half (by omega)] at hRound
    rw [hField, hScaled]
    omega
  · have hField : 2046 * Nat.pow 2 52 ≤ (n.log2 + 1022) * Nat.pow 2 52 :=
      Nat.mul_le_mul_right _ (by omega)
    have hPower : Nat.pow 2 1024 ≤ Nat.pow 2 n.log2 := by
      apply Nat.pow_le_pow_right (by decide)
      omega
    have hEnd : rangeEnd ≤ Nat.pow 2 1024 := by decide +kernel
    omega

theorem ofInt?_eq_none_iff {n : Int} : ofInt? n = none ↔ rangeEnd ≤ n.natAbs := by
  rw [← nearestBits_eq_infinityBits_iff, ofInt?]
  split
  · rename_i hBits
    exact iff_of_true rfl hBits
  · rename_i hBits
    exact iff_of_false (by simp) hBits

end StackCalc.Number
