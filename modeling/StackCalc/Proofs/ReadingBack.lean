import StackCalc.Proofs.Numeral
import StackCalc.Proofs.ShortestDigits

/-! What is written reads back. A written form is a text of the number pattern that stands for a
rational number, and that number is rounded to the double that was written. So reading gives the
double again, apart from the sign of zero, which the brief form does not show. -/
namespace StackCalc.Number
open Text Numeral

section Range
variable {m : Nat} {q : Int} {r : ℚ}

/-- The bound on decimal exponents leaves room for all doubles, as `2 ^ 3 ≤ 10`. -/
theorem two_zpow_le_ten_zpow : (2 : ℚ) ^ (3 * powerLimit) ≤ 10 ^ powerLimit := by
  rw [zpow_mul]
  apply zpow_le_zpow_left₀ <;> norm_num [powerLimit]

/-- What rounds to a positive double is not so small that reading takes it for zero at once. -/
theorem RoundsTo.least_le (hm : 0 < m) (hCanonical : Canonical m q) (h : RoundsTo m q r) :
    10 ^ (-powerLimit) ≤ r := by
  have hLeast : (2 : ℚ) ^ leastExponent ≤ 2 ^ q := zpow_le_zpow_right₀ one_le_two hCanonical.least
  have hOne : (1 : ℚ) ≤ m := by exact_mod_cast hm
  have hGap := (gapBelow_bounds m q).2
  calc (10 : ℚ) ^ (-powerLimit)
    _ ≤ 2 ^ (-(3 * powerLimit)) := by
      rw [zpow_neg, zpow_neg]
      exact inv_anti₀ (by positivity) two_zpow_le_ten_zpow
    _ ≤ 2 ^ (leastExponent - 1) := zpow_le_zpow_right₀ one_le_two (by decide)
    _ = 1 / 2 * 2 ^ leastExponent := by rw [zpow_sub_one₀ two_ne_zero, mul_comm, one_div]
    _ ≤ (m - gapBelow m q) * 2 ^ q := mul_le_mul (by linarith) hLeast (by positivity) (by linarith)
    _ ≤ r := h.low

/-- What rounds to a finite double is not so large that reading takes it for infinity at once. -/
theorem RoundsTo.lt_most (hCanonical : Canonical m q) (h : RoundsTo m q r) :
    r < 10 ^ powerLimit := by
  have hMost : (2 : ℚ) ^ q ≤ 2 ^ (971 : Int) := zpow_le_zpow_right₀ one_le_two hCanonical.most
  have hBelow : (m : ℚ) + 1 / 2 < 2 ^ (53 : Int) := by
    have hNext : (m : ℚ) + 1 ≤ 2 ^ 53 := by exact_mod_cast hCanonical.below
    rw [zpow_ofNat]
    linarith
  calc r
    _ ≤ (m + 1 / 2) * 2 ^ q := h.high
    _ < 2 ^ (53 : Int) * 2 ^ (971 : Int) :=
      mul_lt_mul hBelow hMost (by positivity) (by positivity)
    _ = 2 ^ (53 + 971 : Int) := (zpow_add₀ two_ne_zero _ _).symm
    _ ≤ 2 ^ (3 * powerLimit) := zpow_le_zpow_right₀ one_le_two (by decide)
    _ ≤ 10 ^ powerLimit := two_zpow_le_ten_zpow

theorem Decimal.digits_pos {d : Decimal} (h : 0 < d.value) : 0 < d.digits := by
  apply Nat.pos_of_ne_zero
  intro hZero
  rw [value, hZero, Nat.cast_zero, zero_mul] at h
  exact lt_irrefl 0 h

/-- Digits that are many places behind the point cannot make up for them. -/
theorem Decimal.value_lt_of_exponent {d : Decimal}
    (h : d.exponent < -(powerLimit + d.digits.log2)) : d.value < 10 ^ (-powerLimit) := by
  have hDigits : (d.digits : ℚ) < 10 ^ ((d.digits.log2 : Int) + 1) := by
    calc (d.digits : ℚ)
      _ < 2 ^ (d.digits.log2 + 1) := by exact_mod_cast Nat.lt_log2_self
      _ ≤ 10 ^ (d.digits.log2 + 1) := pow_le_pow_left₀ (by norm_num) (by norm_num) _
      _ = 10 ^ ((d.digits.log2 : Int) + 1) := by rw [← zpow_natCast, Nat.cast_succ]
  have hPower : (10 : ℚ) ^ d.exponent ≤ 10 ^ (-powerLimit - ((d.digits.log2 : Int) + 1)) :=
    zpow_le_zpow_right₀ (by norm_num) (by omega)
  calc d.value
    _ < 10 ^ ((d.digits.log2 : Int) + 1) * 10 ^ (-powerLimit - ((d.digits.log2 : Int) + 1)) :=
      mul_lt_mul hDigits hPower (by positivity) (by positivity)
    _ = 10 ^ (-powerLimit) := by
      rw [← zpow_add₀ (by norm_num), add_sub_cancel]

/-- A decimal beyond the bound on exponents is too large to round to a finite double. -/
theorem Decimal.le_value_of_exponent {d : Decimal} (hPos : 0 < d.digits)
    (h : powerLimit < d.exponent) : 10 ^ powerLimit ≤ d.value := by
  have hOne : (1 : ℚ) ≤ d.digits := by exact_mod_cast hPos
  calc (10 : ℚ) ^ powerLimit
    _ ≤ 10 ^ d.exponent := zpow_le_zpow_right₀ (by norm_num) h.le
    _ ≤ d.value := le_mul_of_one_le_left (by positivity) hOne

/-- A decimal that is rounded to a double is in the range where its power is computed, and it is
read as that double. -/
theorem Decimal.toFloat_of_roundsTo {d : Decimal} (hm : 0 < m) (hCanonical : Canonical m q)
    (h : RoundsTo m q d.value) (negative : Bool) :
    d.toFloat negative = ofMagnitude negative (patternOf m q) := by
  have hLow := h.least_le hm hCanonical
  have hHigh := h.lt_most hCanonical
  have hPos : 0 < d.digits := digits_pos (h.value_pos hm)
  have hNotSmall : ¬ d.exponent < -(powerLimit + d.digits.log2) :=
    fun hSmall => absurd hLow (not_le.mpr (value_lt_of_exponent hSmall))
  have hNotLarge : ¬ powerLimit < d.exponent :=
    fun hLarge => absurd hHigh (not_lt.mpr (le_value_of_exponent hPos hLarge))
  have hRatio : d.value = ((d.digits * Nat.pow 10 d.exponent.toNat : ℕ) : ℚ) /
      (Nat.pow 10 (-d.exponent).toNat : ℕ) := by
    have hTen := zpow_eq_div 10 d.exponent
    rw [Nat.cast_ofNat] at hTen
    rw [value, hTen, Nat.cast_mul, mul_div_assoc]
  have hDen : 0 < Nat.pow 10 (-d.exponent).toNat := Nat.pow_pos (by decide)
  rw [hRatio] at h
  rw [toFloat, if_neg (not_or.mpr ⟨Nat.ne_of_gt hPos, hNotSmall⟩), if_neg hNotLarge, ofRatio,
    h.nearestBits_eq hDen hm hCanonical]

end Range

/-- The text has the number pattern and stands for the number. -/
def Denotes (cs : List Char) (r : ℚ) : Prop :=
  Numeral cs ∧ ∃ d, decimal? cs = some d ∧ d.value = r

/-- The value of a numeral from its three parts. -/
theorem denotes_mk {whole fraction exponent : List Char} (hWhole : Whole whole)
    (hFraction : Fraction fraction) (hExponent : Exponent exponent) {n : Nat} {e k : Int}
    (hDigits : natOfDigits (whole ++ fraction.tail) = n) (hRead : exponent? exponent = some e)
    (hPlaces : e - fraction.tail.length = k) :
    Denotes (whole ++ fraction ++ exponent) (n * 10 ^ k) := by
  refine ⟨.mk hWhole hFraction hExponent, _, decimal?_eq hWhole hFraction hExponent hRead, ?_⟩
  rw [Decimal.value, hDigits, hPlaces]

/-- Reading a text that stands for a number gives the double that the number is rounded to. -/
theorem Denotes.readChars? {cs : List Char} {r : ℚ} (h : Denotes cs r) {m : Nat} {q : Int}
    (hm : 0 < m) (hCanonical : Canonical m q) (hRounds : RoundsTo m q r) (negative : Bool) :
    readChars? (signed negative cs) = some (ofMagnitude negative (patternOf m q)) := by
  obtain ⟨hNumeral, d, hDecimal, rfl⟩ := h
  rw [hNumeral.readChars?_signed, hDecimal, Option.map_some,
    Decimal.toFloat_of_roundsTo hm hCanonical hRounds]

section Digits

/-- Digits behind others shift them up. -/
theorem natOfDigits_append (cs ds : List Char) :
    natOfDigits (cs ++ ds) = Nat.pow 10 ds.length * natOfDigits cs + natOfDigits ds := by
  show Nat.ofDigitChars 10 (cs ++ ds) 0 = _
  rw [Nat.ofDigitChars_append, Nat.ofDigitChars_eq_ofDigitChars_zero]
  rfl

theorem natOfDigits_zeros (n : Nat) : natOfDigits (List.replicate n '0') = 0 := by
  show Nat.ofDigitChars 10 (List.replicate n '0') 0 = 0
  rw [Nat.ofDigitChars_replicate_zero, Nat.mul_zero]

theorem natOfDigits_toDigits (n : Nat) : natOfDigits (Nat.toDigits 10 n) = n :=
  Nat.ofDigitChars_ten_toDigits

theorem digits_toDigits (n : Nat) : Digits (Nat.toDigits 10 n) := by
  intro c hc
  have hDigit := Nat.isDigit_of_mem_toDigits (by decide) (by decide) hc
  simpa [isPlainDigit, Char.isDigit, Char.le_def] using hDigit

theorem digits_zeros (n : Nat) : Digits (List.replicate n '0') := by
  intro c hc
  rw [List.eq_of_mem_replicate hc]
  rfl

theorem natOfDigits_zeros_append (n : Nat) (cs : List Char) :
    natOfDigits (List.replicate n '0' ++ cs) = natOfDigits cs := by
  rw [natOfDigits_append, natOfDigits_zeros, Nat.mul_zero, Nat.zero_add]

/-- The digits of a positive natural have no leading zero. -/
theorem head_toDigits {n : Nat} (hn : 0 < n) : ∀ c ∈ (Nat.toDigits 10 n).head?, c ≠ '0' := by
  induction n using Nat.strongRecOn with
  | _ n ih =>
    rw [Nat.toDigits_eq_if (by decide)]
    split
    · rename_i hOne
      have hDigits : ∀ d < 10, 0 < d → d.digitChar ≠ '0' := by decide
      simpa using hDigits n hOne hn
    · rename_i hMore
      rw [List.head?_append_of_ne_nil _ Nat.toDigits_ne_nil]
      exact ih (n / 10) (by omega) (by omega)

theorem exists_cons_toDigits {n : Nat} (hn : 0 < n) :
    ∃ c ds, Nat.toDigits 10 n = c :: ds ∧ c ≠ '0' ∧ Digits (c :: ds) := by
  obtain ⟨c, ds, hCons⟩ := List.exists_cons_of_ne_nil (Nat.toDigits_ne_nil (n := n) (b := 10))
  have hHead := head_toDigits hn
  have hAll := digits_toDigits n
  rw [hCons] at hHead hAll
  exact ⟨c, ds, hCons, hHead c rfl, hAll⟩

end Digits

section Written

/-- A whole number is written by its digits. -/
theorem denotes_toDigits (n : Nat) : Denotes (Nat.toDigits 10 n) n := by
  have hWhole : Whole (Nat.toDigits 10 n) := by
    rcases Nat.eq_zero_or_pos n with rfl | hPos
    · exact .zero
    · obtain ⟨c, ds, hCons, hZero, hDigits⟩ := exists_cons_toDigits hPos
      rw [hCons]
      exact .digits hZero hDigits
  have hValue : natOfDigits (Nat.toDigits 10 n ++ []) = n := by
    rw [List.append_nil, natOfDigits_toDigits]
  have h := denotes_mk hWhole .absent .absent hValue rfl rfl
  simpa using h

section Positional
variable {c : Char} {ds : List Char}

/-- Digits that all stand behind the point, after some zeros. -/
theorem denotes_behind_point (hDigits : Digits (c :: ds)) (zeros : Nat) :
    Denotes ('0' :: '.' :: (List.replicate zeros '0' ++ c :: ds))
      (natOfDigits (c :: ds) * 10 ^ (-(zeros + (c :: ds).length) : Int)) := by
  have hPlaces : Digits (List.replicate zeros '0' ++ c :: ds) := (digits_zeros zeros).append hDigits
  have hSome : List.replicate zeros '0' ++ c :: ds ≠ [] := by simp
  have hLength : 0 - ((List.replicate zeros '0' ++ c :: ds).length : Int) =
      -(zeros + (c :: ds).length) := by
    rw [List.length_append, List.length_replicate]
    omega
  have h := denotes_mk .zero (.digits hSome hPlaces) .absent
    (natOfDigits_zeros_append (zeros + 1) (c :: ds)) rfl hLength
  simpa using h

/-- Digits that all stand before the point, with zeros to fill up the places. -/
theorem denotes_before_point (hZero : c ≠ '0') (hDigits : Digits (c :: ds)) (zeros : Nat) :
    Denotes (c :: ds ++ List.replicate zeros '0' ++ ['.', '0'])
      (natOfDigits (c :: ds) * 10 ^ (zeros : Int)) := by
  have hWhole : Whole (c :: (ds ++ List.replicate zeros '0')) :=
    .digits hZero (hDigits.append (digits_zeros zeros))
  have hValue : natOfDigits (c :: (ds ++ List.replicate zeros '0') ++ ['0']) =
      Nat.pow 10 (zeros + 1) * natOfDigits (c :: ds) := by
    have hZeros : c :: (ds ++ List.replicate zeros '0') ++ ['0'] =
        c :: ds ++ List.replicate (zeros + 1) '0' := by
      rw [List.replicate_succ']
      simp
    rw [hZeros, natOfDigits_append, natOfDigits_zeros, List.length_replicate, Nat.add_zero]
  have h := denotes_mk hWhole (.digits (List.cons_ne_nil _ _) (digits_zeros 1)) .absent
    hValue rfl (show (0 : Int) - 1 = -1 from rfl)
  have hPower : ((Nat.pow 10 (zeros + 1) * natOfDigits (c :: ds) : ℕ) : ℚ) * 10 ^ (-1 : Int) =
      natOfDigits (c :: ds) * 10 ^ (zeros : Int) := by
    rw [Nat.cast_mul, mul_right_comm, mul_comm]
    congr 1
    simp [pow_succ]
  rw [hPower] at h
  simpa using h

/-- Digits on both sides of the point. -/
theorem denotes_around_point (hZero : c ≠ '0') (hDigits : Digits (c :: ds)) {k : Nat}
    (hShort : k < ds.length) :
    Denotes (c :: ds.take k ++ '.' :: ds.drop k)
      (natOfDigits (c :: ds) * 10 ^ ((k + 1 : Int) - (c :: ds).length)) := by
  obtain ⟨hDigit, hRest⟩ := List.forall_mem_cons.mp hDigits
  have hWhole : Whole (c :: ds.take k) :=
    .digits hZero (List.forall_mem_cons.mpr ⟨hDigit, fun x hx => hRest x (List.mem_of_mem_take hx)⟩)
  have hPlaces : Digits (ds.drop k) := fun x hx => hRest x (List.mem_of_mem_drop hx)
  have hSome : ds.drop k ≠ [] := by
    intro hNil
    exact absurd (List.drop_eq_nil_iff.mp hNil) (Nat.not_le.mpr hShort)
  have hValue : natOfDigits (c :: ds.take k ++ ds.drop k) = natOfDigits (c :: ds) := by
    rw [List.cons_append, List.take_append_drop]
  have hLength : 0 - ((ds.drop k).length : Int) = (k + 1 : Int) - (c :: ds).length := by
    rw [List.length_drop, List.length_cons]
    omega
  have h := denotes_mk hWhole (.digits hSome hPlaces) .absent hValue rfl hLength
  simpa using h

end Positional

/-- The point moves the digits, whichever side of them it stands on. -/
theorem denotes_positional {n : Nat} (hn : 0 < n) (point : Int) :
    Denotes (positional (Nat.toDigits 10 n) point)
      (n * 10 ^ (point - (Nat.toDigits 10 n).length)) := by
  have hValue := natOfDigits_toDigits n
  obtain ⟨c, ds, hCons, hZero, hDigits⟩ := exists_cons_toDigits hn
  rw [hCons] at hValue ⊢
  unfold positional
  split
  · rename_i hPoint
    have h := denotes_behind_point hDigits (-point).toNat
    rwa [hValue, show (-((-point).toNat + (c :: ds).length) : Int) = point - (c :: ds).length by
      omega] at h
  · rename_i hPoint
    split
    · rename_i hLong
      have h := denotes_before_point hZero hDigits (point.toNat - (c :: ds).length)
      rwa [hValue, show ((point.toNat - (c :: ds).length : Nat) : Int) = point - (c :: ds).length by
        omega] at h
    · rename_i hShort
      obtain ⟨k, rfl⟩ : ∃ k : Nat, point = k + 1 := ⟨(point - 1).toNat, by omega⟩
      rw [List.length_cons] at hShort
      have h := denotes_around_point hZero hDigits (k := k) (by omega)
      rwa [hValue] at h

/-- A written exponent is read back, with its sign and any zeros before it. -/
theorem exponent?_written (exponent : Int) (zeros : Nat) :
    exponent? ('e' :: (if exponent < 0 then '-' else '+') ::
      (List.replicate zeros '0' ++ Nat.toDigits 10 exponent.natAbs)) = some exponent := by
  generalize hDigits : List.replicate zeros '0' ++ Nat.toDigits 10 exponent.natAbs = digits
  have hSign : takeSign ((if exponent < 0 then '-' else '+') :: digits) =
      (decide (exponent < 0), digits) := by
    by_cases hNegative : exponent < 0 <;> simp [hNegative, takeSign]
  have hSome : digits.isEmpty = false := by
    simp [← hDigits, Nat.toDigits_ne_nil]
  have hAll : digits.all isPlainDigit = true := by
    rw [← hDigits, List.all_eq_true]
    exact (digits_zeros zeros).append (digits_toDigits _)
  have hValue : natOfDigits digits = exponent.natAbs := by
    rw [← hDigits, natOfDigits_zeros_append, natOfDigits_toDigits]
  simp only [exponent?, hSign, hSome, hAll, hValue, decide_eq_true_eq]
  show some (if exponent < 0 then -(exponent.natAbs : Int) else exponent.natAbs) = some exponent
  rw [Option.some.injEq]
  split <;> omega

/-- Scientific notation denotes the digits times their power of ten. -/
theorem denotes_scientific {n : Nat} (hn : 0 < n) (exponent : Int) :
    Denotes (scientific (Nat.toDigits 10 n) exponent)
      (n * 10 ^ (exponent - ((Nat.toDigits 10 n).length - 1))) := by
  have hValue := natOfDigits_toDigits n
  obtain ⟨c, ds, hCons, hZero, hDigits⟩ := exists_cons_toDigits hn
  rw [hCons] at hValue ⊢
  obtain ⟨hDigit, hRest⟩ := List.forall_mem_cons.mp hDigits
  have hWhole : Whole [c] := .digits hZero (by simpa [Digits] using hDigit)
  have hFraction : Fraction (if ds.isEmpty then [] else '.' :: ds) := by
    split
    · exact .absent
    · rename_i hSome
      exact .digits (by simpa using hSome) hRest
  have hTail : (if ds.isEmpty then [] else '.' :: ds).tail = ds := by
    cases ds <;> rfl
  have hExponent : ∀ zeros, Exponent ('e' :: ([if exponent < 0 then '-' else '+'] ++
      (List.replicate zeros '0' ++ Nat.toDigits 10 exponent.natAbs))) := by
    intro zeros
    apply Exponent.digits (.inl rfl)
    · by_cases hNegative : exponent < 0 <;> simp [hNegative]
    · simp [Nat.toDigits_ne_nil]
    · exact (digits_zeros zeros).append (digits_toDigits _)
  apply denotes_mk hWhole hFraction (hExponent _) _ (exponent?_written exponent _)
  · rw [hTail, List.length_cons]
    omega
  · rw [hTail]
    exact hValue

/-- The written form of a decimal stands for it. -/
theorem Decimal.denotes_written {d : Decimal} (hd : 0 < d.digits) : Denotes d.written d.value := by
  unfold Decimal.written Decimal.value
  dsimp only
  split
  · have h := denotes_positional hd (d.exponent + (Nat.toDigits 10 d.digits).length - 1 + 1)
    rwa [show d.exponent + (Nat.toDigits 10 d.digits).length - 1 + 1 -
      (Nat.toDigits 10 d.digits).length = d.exponent by omega] at h
  · have h := denotes_scientific hd (d.exponent + (Nat.toDigits 10 d.digits).length - 1)
    rwa [show d.exponent + (Nat.toDigits 10 d.digits).length - 1 -
      ((Nat.toDigits 10 d.digits).length - 1) = d.exponent by omega] at h

end Written

section Brief
variable {negative : Bool} {m : Nat} {q : Int}

/-- A whole number is written with its sign and its exact digits. -/
theorem Parts.writtenInt_of_whole? (hm : 0 < m) {n : Int}
    (h : (Parts.finite negative m q).whole? = some n) :
    ∃ a : Nat, (a : ℚ) = m * 2 ^ q ∧ writtenInt n = signed negative (Nat.toDigits 10 a) := by
  simp only [Parts.whole?] at h
  split at h
  · rename_i hWhole
    generalize hScaled : m * Nat.pow 2 q.toNat = scaled at h hWhole
    generalize hUnit : Nat.pow 2 (-q).toNat = unit at h hWhole
    have hUnitPos : 0 < unit := hUnit ▸ Nat.two_pow_pos _
    have hExact : scaled / unit * unit = scaled :=
      Nat.div_mul_cancel (Nat.dvd_of_mod_eq_zero hWhole)
    have hPos : 0 < scaled / unit := by
      apply Nat.pos_of_ne_zero
      intro hZero
      rw [hZero, Nat.zero_mul, ← hScaled] at hExact
      exact absurd hExact (Nat.ne_of_lt (Nat.mul_pos hm (Nat.two_pow_pos _)))
    refine ⟨scaled / unit, ?_, ?_⟩
    · have hTwo := zpow_eq_div 2 q
      rw [Nat.cast_ofNat, hUnit] at hTwo
      have hUnit' : (unit : ℚ) ≠ 0 := by exact_mod_cast hUnitPos.ne'
      rw [hTwo, ← mul_div_assoc, eq_div_iff hUnit']
      exact_mod_cast hExact.trans hScaled.symm
    · cases h
      -- The integer is not zero, so its sign is that of the double.
      generalize scaled / unit = a at hPos ⊢
      cases negative with
      | false =>
        have hSign : ¬ (a : Int) < 0 := by omega
        simp only [writtenInt, hSign, decide_false, Bool.false_eq_true, if_false,
          Int.natAbs_natCast]
      | true =>
        have hSign : -(a : Int) < 0 := by omega
        simp only [writtenInt, hSign, decide_true, if_true, Int.natAbs_neg, Int.natAbs_natCast]
  · cases h

/-- The brief form of a double other than zero has its sign, and behind it a text for a number that
is rounded to the double. -/
theorem Parts.writtenBrief_eq (negative : Bool) (q : Int) (hm : 0 < m) (hBelow : m < Nat.pow 2 53) :
    ∃ cs r, (Parts.finite negative m q).writtenBrief = signed negative cs ∧ Denotes cs r ∧
      RoundsTo m q r := by
  have hShortest := shortest_roundsTo (q := q) hm hBelow
  have hFull : (Parts.finite negative m q).written = signed negative (shortest m q).written := by
    rw [Parts.written, if_neg (Nat.ne_of_gt hm)]
  have hWritten := Decimal.denotes_written (Decimal.digits_pos (hShortest.value_pos hm))
  unfold Parts.writtenBrief
  split
  · rename_i n hWhole
    split
    · obtain ⟨a, hValue, hText⟩ := writtenInt_of_whole? hm hWhole
      exact ⟨_, a, hText, denotes_toDigits a, hValue ▸ roundsTo_self m q⟩
    · exact ⟨_, _, hFull, hWritten, hShortest⟩
  · exact ⟨_, _, hFull, hWritten, hShortest⟩

theorem Parts.writtenBrief_zero (negative : Bool) (q : Int) :
    (Parts.finite negative 0 q).writtenBrief = ['0'] := by
  have hWhole : (Parts.finite negative 0 q).whole? = some 0 := by
    simp [Parts.whole?]
  simp only [Parts.writtenBrief, hWhole]
  rfl

/-- A finite double is written as a number of the pattern, perhaps with a minus in front, and it is
read again from that. -/
theorem writtenBrief_finite {x : Float} (h : parts x = .finite negative m q) :
    ∃ sign cs y, (parts x).writtenBrief = signed sign cs ∧ Numeral cs ∧
      readChars? (signed sign cs) = some y ∧ (y == x) = true := by
  have hCanonical := canonical_of_parts h
  have hNumber : parts x ≠ .undefined := by
    rw [h]
    exact Parts.noConfusion
  rcases Nat.eq_zero_or_pos m with rfl | hm
  · -- The sign of a zero is not shown, so both zeros are read as the positive one.
    obtain rfl : q = leastExponent := hCanonical.leading.resolve_left (by decide)
    have hNumeral : Numeral ['0'] := .mk .zero .absent .absent
    have hRead : readChars? (signed false ['0']) = some (ofMagnitude false 0) := by
      rw [hNumeral.readChars?_signed, show decimal? ['0'] = some ⟨0, 0⟩ from rfl, Option.map_some,
        Decimal.toFloat, if_pos (.inl rfl)]
    have hZero := isZero_ofMagnitude false
    refine ⟨false, ['0'], _, ?_, hNumeral, hRead, ?_⟩
    · rw [h, Parts.writtenBrief_zero]
      rfl
    · exact beq_iff.mpr ⟨hZero.ne_undefined, .inr ⟨hZero, negative, h⟩⟩
  · obtain ⟨cs, r, hText, hDenotes, hRounds⟩ :=
      Parts.writtenBrief_eq negative q hm hCanonical.below
    have hRead := hDenotes.readChars? hm hCanonical hRounds negative
    rw [← eq_ofMagnitude h] at hRead
    exact ⟨negative, cs, x, h ▸ hText, hDenotes.1, hRead, beq_iff.mpr ⟨hNumber, .inl rfl⟩⟩

end Brief

/-- The written infinities are read back. -/
theorem readChars?_infinite (negative : Bool) :
    readChars? (Parts.infinite negative).writtenBrief = some (infinity negative) := by
  cases negative <;> rfl

/-- Every double but the undefined one is read again from its brief form. -/
theorem readChars?_writtenBrief {x : Float} (h : parts x ≠ .undefined) :
    ∃ y, readChars? (parts x).writtenBrief = some y ∧ (y == x) = true := by
  cases hParts : parts x with
  | undefined => exact absurd hParts h
  | infinite negative =>
    have hInfinity : infinity negative = x := eq_of_parts_eq (by rw [parts_infinity, hParts])
    refine ⟨_, readChars?_infinite negative, beq_iff.mpr ⟨?_, .inl hInfinity⟩⟩
    rwa [hInfinity]
  | finite negative m q =>
    obtain ⟨sign, cs, y, hText, -, hRead, hEq⟩ := writtenBrief_finite hParts
    rw [hParts] at hText
    exact ⟨y, hText ▸ hRead, hEq⟩

/-- Brief forms tell apart all doubles that differ by value, and no others. -/
theorem brief_eq_iff {x y : Float} (hx : parts x ≠ .undefined) (hy : parts y ≠ .undefined) :
    brief x = brief y ↔ (x == y) = true := by
  constructor
  · intro h
    obtain ⟨z, hRead, hzx⟩ := readChars?_writtenBrief hx
    obtain ⟨z', hRead', hzy⟩ := readChars?_writtenBrief hy
    rw [String.ofList_injective h, hRead'] at hRead
    obtain rfl := Option.some.inj hRead
    obtain ⟨-, hLeft⟩ := beq_iff.mp hzx
    obtain ⟨-, hRight⟩ := beq_iff.mp hzy
    apply beq_iff.mpr ⟨hx, _⟩
    rcases hLeft with rfl | ⟨hZero, hZeroX⟩
    · exact hRight
    · rcases hRight with rfl | ⟨-, hZeroY⟩
      · exact .inr ⟨hZeroX, hZero⟩
      · exact .inr ⟨hZeroX, hZeroY⟩
  · intro h
    rcases (beq_iff.mp h).2 with rfl | ⟨⟨negative, hZeroX⟩, ⟨negative', hZeroY⟩⟩
    · rfl
    · rw [brief, brief, hZeroX, hZeroY, Parts.writtenBrief_zero, Parts.writtenBrief_zero]

/-- No digits are read as the undefined double. -/
theorem Decimal.toFloat_ne_undefined (d : Decimal) (negative : Bool) :
    parts (d.toFloat negative) ≠ .undefined := by
  have hBits : ∀ num den, nearestBits num den ≤ infinityBits := by
    intro num den
    unfold nearestBits
    split
    · exact Nat.zero_le _
    · exact Nat.min_le_right _ _
  unfold toFloat
  split
  · exact ofMagnitude_ne_undefined negative (Nat.zero_le _)
  · split
    · exact ofMagnitude_ne_undefined negative (Nat.le_refl _)
    · exact ofMagnitude_ne_undefined negative (hBits _ _)

end StackCalc.Number
