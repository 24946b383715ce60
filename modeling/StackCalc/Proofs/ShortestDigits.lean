import StackCalc.Number.Shortest
import StackCalc.Proofs.NearestDouble

/-! The shortest digits of a double read back. What is compared with the ends of the interval of a
double are grid points, in exact arithmetic, and a grid of seventeen digits is so fine that one of
the two points next to the double lies inside. So the search always finds a decimal, and it is
rounded to the double. -/
namespace StackCalc.Number

def Decimal.value (d : Decimal) : ℚ :=
  d.digits * 10 ^ d.exponent

/-- Quarters of the unit of a double and grid points are compared without dividing. -/
theorem compare_grid (n d : Nat) (q k : Int) :
    (n * Nat.pow 2 q.toNat * Nat.pow 10 (-k).toNat ≤
        d * Nat.pow 10 k.toNat * (4 * Nat.pow 2 (-q).toNat) ↔
      (n / 4 : ℚ) * 2 ^ q ≤ d * 10 ^ k) ∧
    (d * Nat.pow 10 k.toNat * (4 * Nat.pow 2 (-q).toNat) ≤
        n * Nat.pow 2 q.toNat * Nat.pow 10 (-k).toNat ↔
      (d * 10 ^ k : ℚ) ≤ n / 4 * 2 ^ q) := by
  have hTwo := zpow_eq_div 2 q
  have hTen := zpow_eq_div 10 k
  rw [Nat.cast_ofNat] at hTwo hTen
  have hUnit : (0 : ℚ) < 4 * (Nat.pow 2 (-q).toNat : ℕ) := by
    exact_mod_cast Nat.mul_pos (by decide) (Nat.two_pow_pos _)
  have hScale : (0 : ℚ) < (Nat.pow 10 (-k).toNat : ℕ) := by
    exact_mod_cast Nat.pow_pos (by decide)
  rw [hTwo, hTen, div_mul_div_comm, ← mul_div_assoc, div_le_div_iff₀ hUnit hScale,
    div_le_div_iff₀ hScale hUnit]
  exact ⟨by exact_mod_cast Iff.rfl, by exact_mod_cast Iff.rfl⟩

namespace Interval
variable {m d : Nat} {q k : Int}

/-- The lower end of an interval in quarters of a unit. -/
theorem quarters_low (hm : 0 < m) (q : Int) :
    ((if m = Nat.pow 2 52 ∧ leastExponent < q then 4 * m - 1 else 4 * m - 2 : ℕ) : ℚ) / 4 =
      m - gapBelow m q := by
  unfold gapBelow
  split
  · rw [Nat.cast_sub (by omega)]
    push_cast
    linarith
  · rw [Nat.cast_sub (by omega)]
    push_cast
    linarith

theorem contains_iff (hm : 0 < m) :
    (Interval.of m q).contains d k = true ↔ RoundsTo m q (d * 10 ^ k) := by
  obtain ⟨hLow, hAbove⟩ := compare_grid
    (if m = Nat.pow 2 52 ∧ leastExponent < q then 4 * m - 1 else 4 * m - 2) d q k
  obtain ⟨hBelow, hHigh⟩ := compare_grid (4 * m + 2) d q k
  have hTop : ((4 * m + 2 : ℕ) : ℚ) / 4 = m + 1 / 2 := by
    push_cast
    linarith
  rw [quarters_low hm] at hLow hAbove
  rw [hTop] at hBelow hHigh
  unfold contains
  simp only [Interval.of, decide_eq_true_eq]
  split
  · rename_i hEven
    simp only [Bool.and_eq_true, decide_eq_true_eq, hLow, hHigh]
    exact ⟨fun ⟨hl, hh⟩ => ⟨hl, hh, .inl hEven⟩, fun h => ⟨h.low, h.high⟩⟩
  · rename_i hOdd
    simp only [Bool.and_eq_true, decide_eq_true_eq, lt_iff_lt_of_le_iff_le hAbove,
      lt_iff_lt_of_le_iff_le hBelow]
    exact ⟨fun ⟨hl, hh⟩ => .of_lt hl hh, fun h => h.ends.resolve_left hOdd⟩

/-- The grid point that is chosen is rounded to the double. -/
theorem contains_gridPoint? {i : Interval} (h : i.gridPoint? k = some d) :
    i.contains d k = true := by
  unfold gridPoint? at h
  dsimp only at h
  split at h
  · rename_i hBelow hAbove
    cases h
    have hBounds :=
      roundHalfEven_bounds (i.value * Nat.pow 10 (-k).toNat) (i.den * Nat.pow 10 k.toNat)
    rcases Nat.eq_or_lt_of_le hBounds.1 with hEq | hLt
    · rwa [← hEq]
    · rwa [Nat.le_antisymm hBounds.2 hLt]
  · cases h
    assumption
  · cases h
    assumption
  · cases h

/-- The two grid points next to the double. -/
theorem grid_bounds (m : Nat) (q k : Int) :
    ∃ d, (Interval.of m q).value * Nat.pow 10 (-k).toNat /
        ((Interval.of m q).den * Nat.pow 10 k.toNat) = d ∧
      (d * 10 ^ k : ℚ) ≤ m * 2 ^ q ∧ (m * 2 ^ q : ℚ) < (d + 1) * 10 ^ k := by
  refine ⟨_, rfl, ?_⟩
  generalize hNum : (Interval.of m q).value * Nat.pow 10 (-k).toNat = num
  generalize hDen : (Interval.of m q).den * Nat.pow 10 k.toNat = den
  have hPos : 0 < den := by
    rw [← hDen]
    exact Nat.mul_pos (Nat.mul_pos (by decide) (Nat.two_pow_pos _)) (Nat.pow_pos (by decide))
  have hPoint : ∀ d, d * Nat.pow 10 k.toNat * (4 * Nat.pow 2 (-q).toNat) = d * den := by
    intro d
    rw [← hDen, Nat.mul_assoc, Nat.mul_comm (Nat.pow 10 k.toNat)]
    rfl
  have hWhole : ((4 * m : ℕ) : ℚ) / 4 = m := by
    push_cast
    linarith
  have hBelow := (compare_grid (4 * m) (num / den) q k).2
  have hAbove := (compare_grid (4 * m) (num / den + 1) q k).2
  have hValue : 4 * m * Nat.pow 2 q.toNat * Nat.pow 10 (-k).toNat = num := hNum
  rw [hPoint, hValue, hWhole] at hBelow hAbove
  constructor
  · exact hBelow.mp (Nat.div_mul_le_self num den)
  · have hNot : ¬ (num / den + 1) * den ≤ num := by
      rw [← Nat.le_div_iff_mul_le hPos]
      exact Nat.not_succ_le_self _
    rw [hAbove, not_le, Nat.cast_succ] at hNot
    exact hNot

/-- On a grid finer than the interval one of the two points next to the double lies inside. -/
theorem exists_gridPoint? (hm : 0 < m) (hFine : (10 : ℚ) ^ k < (gapBelow m q + 1 / 2) * 2 ^ q) :
    ∃ d, (Interval.of m q).gridPoint? k = some d := by
  obtain ⟨below, hBelow, hLow, hHigh⟩ := grid_bounds m q k
  have hUnit : (0 : ℚ) < 2 ^ q := zpow_pos two_pos q
  obtain ⟨hGap, -⟩ := gapBelow_bounds m q
  unfold gridPoint?
  simp only [hBelow]
  split
  · exact ⟨_, rfl⟩
  · exact ⟨_, rfl⟩
  · exact ⟨_, rfl⟩
  · rename_i hOutBelow hOutAbove
    -- Both points are outside, so the interval fits between them.
    exfalso
    have hStart : (below * 10 ^ k : ℚ) ≤ (m - gapBelow m q) * 2 ^ q := by
      by_contra hIn
      have hContained := (contains_iff hm).mpr (RoundsTo.of_lt (not_le.mp hIn) (by linarith))
      rw [hOutBelow] at hContained
      exact Bool.noConfusion hContained
    have hEnd : ((m + 1 / 2) * 2 ^ q : ℚ) ≤ (below + 1) * 10 ^ k := by
      by_contra hIn
      have hContained : (Interval.of m q).contains (below + 1) k = true := by
        rw [contains_iff hm, Nat.cast_succ]
        exact RoundsTo.of_lt (by nlinarith) (not_le.mp hIn)
      rw [hOutAbove] at hContained
      exact Bool.noConfusion hContained
    linarith

/-- Every result of the search is rounded to the double. -/
theorem contains_search {i : Interval} {grids : Nat} {found : Decimal}
    (h : i.search grids k = some found) : i.contains found.digits found.exponent = true := by
  induction grids generalizing k with
  | zero => cases h
  | succ grids ih =>
    unfold search at h
    split at h
    · rename_i hPoint
      cases h
      exact contains_gridPoint? hPoint
    · exact ih h

theorem exists_search {i : Interval} {grids j : Nat} (hj : j < grids)
    (hPoint : ∃ d, i.gridPoint? (k - j) = some d) : ∃ found, i.search grids k = some found := by
  induction grids generalizing k j with
  | zero => cases hj
  | succ grids ih =>
    unfold search
    split
    · exact ⟨_, rfl⟩
    · rename_i hNone
      cases j with
      | zero =>
        obtain ⟨d, hSome⟩ := hPoint
        rw [Int.natCast_zero, Int.sub_zero, hNone] at hSome
        cases hSome
      | succ j =>
        apply ih (Nat.lt_of_succ_lt_succ hj)
        rwa [show k - 1 - j = k - (j + 1 : Nat) by omega]

end Interval

theorem digitCount_bounds {n : Nat} (hn : 0 < n) :
    ∃ places, digitCount n = places + 1 ∧ Nat.pow 10 places ≤ n ∧ n < Nat.pow 10 (places + 1) := by
  have hPos : 0 < digitCount n := Nat.length_toDigits_pos
  refine ⟨digitCount n - 1, by omega, ?_, ?_⟩
  · by_cases hOne : digitCount n = 1
    · rw [hOne]
      exact hn
    · by_contra hLess
      have hShort := (Nat.length_toDigits_le_iff (b := 10) (n := n) (k := digitCount n - 1)
        (by decide) (by omega)).mpr (not_le.mp hLess)
      unfold digitCount at hPos hOne hShort
      omega
  · rw [Nat.sub_add_cancel hPos]
    exact (Nat.length_toDigits_le_iff (by decide) hPos).mp (Nat.le_refl _)

theorem floorLog10_le {num den : Nat} (hNum : 0 < num) (hDen : 0 < den) :
    (10 : ℚ) ^ floorLog10 num den ≤ num / den := by
  obtain ⟨a, hCountNum, hPlaceNum⟩ := digitCount_bounds hNum
  obtain ⟨c, hCountDen, hPlaceDen⟩ := digitCount_bounds hDen
  have hLog : floorLog10 num den =
      if powerLe 10 ((a : Int) - c) num den then (a : Int) - c else (a : Int) - c - 1 := by
    unfold floorLog10
    rw [hCountNum, hCountDen, show ((a + 1 : Nat) : Int) - (c + 1 : Nat) = a - c by omega]
  exact_mod_cast (floorLog_bounds (by decide) hDen hPlaceNum hPlaceDen hLog).1

theorem Decimal.value_withoutTrailingZeros (d : Decimal) (fuel : Nat) :
    (d.withoutTrailingZeros fuel).value = d.value := by
  induction fuel generalizing d with
  | zero => rfl
  | succ fuel ih =>
    unfold withoutTrailingZeros
    split
    · rename_i hZero
      have hDigits : (d.digits : ℚ) = (d.digits / 10 : ℕ) * 10 := by
        exact_mod_cast (Nat.div_mul_cancel (Nat.dvd_of_mod_eq_zero hZero)).symm
      rw [ih, value, value, zpow_add_one₀ (by norm_num), hDigits, mul_assoc, mul_comm (10 : ℚ)]
    · rfl

/-- Sixteen places below its leading digit, the grid is finer than the interval of a double. -/
theorem seventeenth_grid_fine {m : Nat} {q k : Int} (hBelow : m < Nat.pow 2 53)
    (hPlace : (10 : ℚ) ^ k ≤ m * 2 ^ q) :
    (10 : ℚ) ^ (k - (16 : Nat)) < (gapBelow m q + 1 / 2) * 2 ^ q := by
  have hUnit : (0 : ℚ) < 2 ^ q := zpow_pos two_pos q
  have hMantissa : (m : ℚ) < (gapBelow m q + 1 / 2) * 10 ^ 16 := by
    unfold gapBelow
    split
    · rename_i hLeast
      rw [hLeast.1]
      norm_num
    · have hCast : (m : ℚ) < (2 : ℚ) ^ 53 := by exact_mod_cast hBelow
      norm_num at hCast ⊢
      linarith
  rw [zpow_sub₀ (by norm_num), zpow_natCast, div_lt_iff₀ (by norm_num)]
  calc (10 : ℚ) ^ k
    _ ≤ m * 2 ^ q := hPlace
    _ < (gapBelow m q + 1 / 2) * 10 ^ 16 * 2 ^ q := by
      exact mul_lt_mul_of_pos_right hMantissa hUnit
    _ = (gapBelow m q + 1 / 2) * 2 ^ q * 10 ^ 16 := mul_right_comm _ _ _

/-- The shortest digits of a positive double are rounded to it. -/
theorem shortest_roundsTo {m : Nat} {q : Int} (hm : 0 < m) (hBelow : m < Nat.pow 2 53) :
    RoundsTo m q (shortest m q).value := by
  have hValue : ((Interval.of m q).value : ℚ) / (Interval.of m q).den = m * 2 ^ q := by
    have hTwo := zpow_eq_div 2 q
    rw [Nat.cast_ofNat] at hTwo
    rw [hTwo, ← mul_div_assoc]
    simp only [Interval.of, Nat.cast_mul, Nat.cast_ofNat, mul_assoc]
    exact mul_div_mul_left _ _ (by norm_num)
  have hPlace :
      (10 : ℚ) ^ floorLog10 (Interval.of m q).value (Interval.of m q).den ≤ m * 2 ^ q := by
    rw [← hValue]
    apply floorLog10_le
    · exact Nat.mul_pos (Nat.mul_pos (by decide) hm) (Nat.two_pow_pos _)
    · exact Nat.mul_pos (by decide) (Nat.two_pow_pos _)
  have hGrids : 16 < 17 := by decide
  obtain ⟨found, hFound⟩ := Interval.exists_search hGrids
    (Interval.exists_gridPoint? hm (seventeenth_grid_fine hBelow hPlace))
  unfold shortest
  simp only [hFound, Decimal.value_withoutTrailingZeros]
  exact (Interval.contains_iff hm).mp (Interval.contains_search hFound)

end StackCalc.Number
