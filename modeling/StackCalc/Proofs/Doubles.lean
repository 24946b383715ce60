import Mathlib
import StackCalc.Number.Binary64

/-! Doubles by their bit patterns. The sign bit of a pattern stands above its magnitude, and a
magnitude below infinity is made up of a mantissa and an exponent in exactly one way. So the parts
of a double determine it, and two doubles are equal by value when they are the same or both of them
are zeros. -/
namespace StackCalc.Number
open Float.Model Float.Model.UnpackedFloat

section Fields
variable (b : BitVec Format.binary64.numBits)

/-- The mantissa field is the lowest 52 bits of the pattern. -/
theorem toNat_unpackMantissa : (unpackMantissa b).toNat = b.toNat % Nat.pow 2 52 := by
  simp [unpackMantissa, BitVec.extractLsb]

/-- The exponent field is the 11 bits above the mantissa field. -/
theorem toNat_unpackExponent :
    (unpackExponent b).toNat = b.toNat / Nat.pow 2 52 % Nat.pow 2 11 := by
  simp [unpackExponent, BitVec.extractLsb, Nat.shiftRight_eq_div_pow]

theorem toNat_unpackSign : (unpackSign b).toNat = b.toNat / Nat.pow 2 63 := by
  have hLt : b.toNat < 2 ^ 64 := b.isLt
  simp only [unpackSign, BitVec.extractLsb, BitVec.toNat_cast, BitVec.extractLsb'_toNat,
    Nat.shiftRight_eq_div_pow, Nat.pow_eq]
  omega

/-- Writing the hidden bit before a mantissa field adds `2 ^ 52`. -/
theorem toNat_append_one (m : BitVec 52) : (1#1 ++ m).toNat = Nat.pow 2 52 + m.toNat := by
  rw [BitVec.toNat_append, ← Nat.shiftLeft_add_eq_or_of_lt m.isLt]
  rfl

/-- The powers at the widths of the fields, in the decimal form `omega` works with. -/
theorem two_pow_widths : Nat.pow 2 11 = 2048 ∧ Nat.pow 2 52 = 4503599627370496 ∧
    Nat.pow 2 53 = 9007199254740992 ∧ Nat.pow 2 63 = 9223372036854775808 := by
  decide

end Fields

/-- The mantissas and exponents of doubles. Only the least numbers have fewer than 53 bits. -/
structure Canonical (m : Nat) (q : Int) : Prop where
  below : m < Nat.pow 2 53
  least : leastExponent ≤ q
  most : q ≤ 971
  leading : Nat.pow 2 52 ≤ m ∨ q = leastExponent

def patternOf (m : Nat) (q : Int) : Nat :=
  (q - leastExponent).toNat * Nat.pow 2 52 + m

/-- Patterns of magnitudes stay below the pattern of infinity. -/
theorem Canonical.patternOf_lt {m : Nat} {q : Int} (h : Canonical m q) :
    patternOf m q < infinityBits := by
  obtain ⟨hBelow, hLeast, hMost, -⟩ := h
  simp only [patternOf, infinityBits, leastExponent, two_pow_widths] at hBelow hLeast ⊢
  omega

/-- What a pattern stands for. -/
inductive Reads (b : BitVec Format.binary64.numBits) : UnpackedFloat → Prop where
  | undefined (h : infinityBits < b.toNat % Nat.pow 2 63) : Reads b .notANumber
  | infinite (h : b.toNat % Nat.pow 2 63 = infinityBits) :
      Reads b (.infinity (.ofBitVec (unpackSign b)))
  | zero (h : b.toNat % Nat.pow 2 63 = 0) : Reads b (.zero (.ofBitVec (unpackSign b)))
  | finite {m : Nat} {q : Int} (hm : 0 < m) (hCanonical : Canonical m q)
      (h : b.toNat % Nat.pow 2 63 = patternOf m q) :
      Reads b (.finite (.ofBitVec (unpackSign b)) m q hm)

/-- Every pattern is read as exactly one of the cases of `Reads`, the one that unpacking it gives.
-/
theorem reads_unpack (b : BitVec Format.binary64.numBits) :
    Reads b (UnpackedFloat.unpack Format.binary64 b) := by
  have hLt : b.toNat < 2 ^ 64 := b.isLt
  have hMantissa := toNat_unpackMantissa b
  have hExponent := toNat_unpackExponent b
  have hInfinity : infinityBits = 2047 * 2 ^ 52 := rfl
  have hBias : ((Format.binary64.exponentBias : Nat) : Int) = 1023 := rfl
  have hAllOnes : unpackExponent b = -1#_ ↔ (unpackExponent b).toNat = 2047 :=
    BitVec.toNat_inj.symm
  have hNone : unpackExponent b = 0#_ ↔ (unpackExponent b).toNat = 0 := BitVec.toNat_inj.symm
  have hBlank : unpackMantissa b = 0#_ ↔ (unpackMantissa b).toNat = 0 := BitVec.toNat_inj.symm
  simp only [two_pow_widths] at hMantissa hExponent
  unfold UnpackedFloat.unpack
  dsimp only
  split
  · rename_i hOnes
    rw [hAllOnes] at hOnes
    split
    · rename_i hZero
      rw [hBlank] at hZero
      exact .infinite (by simp only [two_pow_widths]; omega)
    · rename_i hZero
      rw [hBlank] at hZero
      exact .undefined (by simp only [two_pow_widths]; omega)
  · rename_i hOnes
    rw [hAllOnes] at hOnes
    split
    · rename_i hField
      rw [hNone] at hField
      split
      · rename_i hZero
        rw [hBlank] at hZero
        exact .zero (by simp only [two_pow_widths]; omega)
      · refine .finite _ ⟨?_, ?_, ?_, .inr ?_⟩ ?_ <;>
          simp only [patternOf, leastExponent, hBias, two_pow_widths] <;> omega
    · rename_i hField
      rw [hNone] at hField
      refine .finite _ ⟨?_, ?_, ?_, .inl ?_⟩ ?_ <;>
        simp only [patternOf, leastExponent, hBias, toNat_append_one, two_pow_widths] <;> omega

theorem toNat_sign (b : BitVec Format.binary64.numBits) :
    (Sign.ofBitVec (unpackSign b)).toBitVec.toNat = b.toNat / Nat.pow 2 63 := by
  rw [Sign.toBitVec_ofBitVec, toNat_unpackSign]

/-- The exponent field is all ones from the pattern of infinity on. -/
theorem unpackExponent_eq_iff {b : BitVec Format.binary64.numBits} :
    unpackExponent b = -1#_ ↔ infinityBits ≤ b.toNat % Nat.pow 2 63 := by
  have hNat : unpackExponent b = -1#_ ↔ (unpackExponent b).toNat = 2047 := BitVec.toNat_inj.symm
  rw [hNat, toNat_unpackExponent]
  simp only [infinityBits, two_pow_widths]
  omega

theorem unpackMantissa_eq_iff {b : BitVec Format.binary64.numBits} :
    unpackMantissa b = 0#_ ↔ b.toNat % Nat.pow 2 52 = 0 := by
  rw [← toNat_unpackMantissa]
  exact BitVec.toNat_inj.symm

/-- A pattern up to infinity is the pattern of no NaN, so the format stores it as it is. -/
theorem valid_of_le {b : BitVec Format.binary64.numBits}
    (h : b.toNat % Nat.pow 2 63 ≤ infinityBits) : Format.binary64.Valid b where
  eq_packedNaN := by
    intro hExponent hMantissa
    rw [unpackExponent_eq_iff] at hExponent
    rw [ne_eq, unpackMantissa_eq_iff] at hMantissa
    simp only [infinityBits, two_pow_widths] at h hExponent hMantissa
    omega

/-- Up to infinity, a double keeps the pattern it is made of. -/
theorem toBits_ofBits {u : UInt64} (h : u.toNat % Nat.pow 2 63 ≤ infinityBits) :
    (Float.ofBits u).toBits = u :=
  congrArg UInt64.ofBitVec (pack_unpack_of_valid (valid_of_le h))

/-- The pattern of a signed magnitude: the sign bit, then the magnitude. -/
theorem toBits_ofMagnitude (negative : Bool) {bits : Nat} (h : bits ≤ infinityBits) :
    (ofMagnitude negative bits).toBits.toNat =
      if negative then Nat.pow 2 63 + bits else bits := by
  have hLt : (if negative then Nat.pow 2 63 + bits else bits) < 2 ^ 64 := by
    simp only [infinityBits, two_pow_widths] at h ⊢
    split <;> omega
  have hNat : (UInt64.ofNat (if negative then Nat.pow 2 63 + bits else bits)).toNat =
      if negative then Nat.pow 2 63 + bits else bits := by
    rw [UInt64.toNat_ofNat', Nat.mod_eq_of_lt hLt]
  rw [ofMagnitude, toBits_ofBits, hNat]
  rw [hNat]
  simp only [infinityBits, two_pow_widths] at h ⊢
  split <;> omega

def isNegative : Sign → Bool
  | .negative => true
  | .positive => false

theorem isNegative_sign (b : BitVec Format.binary64.numBits) :
    isNegative (.ofBitVec (unpackSign b)) = decide (Nat.pow 2 63 ≤ b.toNat) := by
  have hSign := toNat_sign b
  cases hs : Sign.ofBitVec (unpackSign b) with
  | negative =>
      rw [hs] at hSign
      change 1 = _ at hSign
      simp only [isNegative, two_pow_widths] at hSign ⊢
      exact (decide_eq_true (by omega)).symm
  | positive =>
      rw [hs] at hSign
      change 0 = _ at hSign
      simp only [isNegative, two_pow_widths] at hSign ⊢
      exact (decide_eq_false (by omega)).symm

/-- What a double of the model stands for. -/
def Parts.ofUnpacked : UnpackedFloat → Parts
  | .notANumber => .undefined
  | .infinity s => .infinite (isNegative s)
  | .zero s => .finite (isNegative s) 0 leastExponent
  | .finite s m q _ => .finite (isNegative s) m q

/-- Reading the parts of a double off its bits agrees with unpacking it, case by case. -/
theorem Reads.parts {x : Float} {u : UnpackedFloat} (h : Reads x.toBits.toBitVec u) :
    parts x = .ofUnpacked u := by
  unfold Number.parts
  dsimp only
  cases h with
  | undefined hBits =>
      rw [UInt64.toNat_toBitVec] at hBits
      rw [if_pos hBits, Parts.ofUnpacked]
  | infinite hBits =>
      rw [UInt64.toNat_toBitVec] at hBits
      rw [hBits, if_neg (Nat.lt_irrefl _), if_pos rfl, Parts.ofUnpacked, isNegative_sign,
        UInt64.toNat_toBitVec]
  | zero hBits =>
      rw [UInt64.toNat_toBitVec] at hBits
      rw [hBits, if_neg (by decide), if_neg (by decide), if_pos (by decide), Parts.ofUnpacked,
        isNegative_sign, UInt64.toNat_toBitVec]
  | finite hm hCanonical hBits =>
      have hLt := hCanonical.patternOf_lt
      obtain ⟨hBelow, hLeast, hMost, hLeading⟩ := hCanonical
      rw [UInt64.toNat_toBitVec] at hBits
      rw [hBits, if_neg (by omega), if_neg (by omega), Parts.ofUnpacked, isNegative_sign,
        UInt64.toNat_toBitVec]
      simp only [patternOf, leastExponent, two_pow_widths] at hBelow hLeast hLeading ⊢
      split <;> simp <;> omega

/-- The parts of a double are its unpacked form. Facts about the arithmetic, which works on unpacked
forms, carry over to parts through this equation. -/
theorem parts_eq (x : Float) : parts x = .ofUnpacked x.toModel.unpack :=
  (reads_unpack _).parts

theorem isNegative_eq_iff {s t : Sign} : isNegative s = isNegative t ↔ s = t := by
  cases s <;> cases t <;> simp [isNegative]

/-- Distinct unpacked forms have distinct parts. -/
theorem Parts.ofUnpacked_inj {u v : UnpackedFloat} (h : ofUnpacked u = ofUnpacked v) : u = v := by
  -- A finite number of the model is no zero, so the two shapes of finite parts stay apart.
  cases u <;> cases v <;> simp only [ofUnpacked, reduceCtorEq, Parts.infinite.injEq,
    Parts.finite.injEq, isNegative_eq_iff] at h <;> grind

/-- A double is determined by its unpacked form. -/
theorem eq_iff_unpacked {x y : Float} : x = y ↔ x.toModel.unpack = y.toModel.unpack := by
  rw [← Float.toBits_inj, ← UInt64.toBitVec_inj]
  exact (unpack_inj_of_valid x.toModel.valid y.toModel.valid).symm

/-- The parts of a double determine it. -/
theorem eq_of_parts_eq {x y : Float} (h : parts x = parts y) : x = y := by
  rw [parts_eq, parts_eq] at h
  exact eq_iff_unpacked.mpr (Parts.ofUnpacked_inj h)

theorem canonical_zero : Canonical 0 leastExponent :=
  ⟨by decide, by decide, by decide, .inr rfl⟩

/-- The sign bit does not reach into the magnitude. -/
theorem magnitude_ofMagnitude (negative : Bool) {bits : Nat} (h : bits ≤ infinityBits) :
    (ofMagnitude negative bits).toBits.toNat % Nat.pow 2 63 = bits := by
  rw [toBits_ofMagnitude negative h]
  simp only [infinityBits, two_pow_widths] at h ⊢
  split <;> omega

/-- No magnitude up to infinity makes the undefined double. -/
theorem ofMagnitude_ne_undefined (negative : Bool) {bits : Nat} (h : bits ≤ infinityBits) :
    parts (ofMagnitude negative bits) ≠ .undefined := by
  unfold parts
  dsimp only
  rw [magnitude_ofMagnitude negative h, if_neg (Nat.not_lt.mpr h)]
  split
  · exact Parts.noConfusion
  · split <;> exact Parts.noConfusion

/-- A canonical magnitude is read back from its pattern. -/
theorem parts_ofMagnitude (negative : Bool) {m : Nat} {q : Int} (h : Canonical m q) :
    parts (ofMagnitude negative (patternOf m q)) = .finite negative m q := by
  have hLt := h.patternOf_lt
  have hBits := toBits_ofMagnitude negative (Nat.le_of_lt hLt)
  have hSign : decide (Nat.pow 2 63 ≤ (ofMagnitude negative (patternOf m q)).toBits.toNat) =
      negative := by
    rw [hBits]
    simp only [infinityBits, two_pow_widths] at hLt ⊢
    cases negative with
    | false => exact decide_eq_false (by simp only [Bool.false_eq_true, if_false]; omega)
    | true => exact decide_eq_true (by simp only [if_true]; omega)
  have hMagnitude := magnitude_ofMagnitude negative (Nat.le_of_lt hLt)
  obtain ⟨hBelow, hLeast, hMost, hLeading⟩ := h
  unfold parts
  dsimp only
  rw [hSign, hMagnitude, if_neg (by omega), if_neg (by omega)]
  simp only [patternOf, leastExponent, two_pow_widths] at hBelow hLeast hLeading ⊢
  split <;> simp <;> omega

theorem parts_infinity (negative : Bool) : parts (infinity negative) = .infinite negative := by
  have hBits := toBits_ofMagnitude negative (Nat.le_refl infinityBits)
  unfold parts
  dsimp only
  rw [infinity, hBits]
  cases negative <;> rfl

/-- The parts of a finite double are canonical. -/
theorem canonical_of_parts {x : Float} {negative : Bool} {m : Nat} {q : Int}
    (h : parts x = .finite negative m q) : Canonical m q := by
  have hReads := reads_unpack x.toModel.toBits.toBitVec
  rw [parts_eq, Float.Model.unpack] at h
  generalize UnpackedFloat.unpack Format.binary64 x.toModel.toBits.toBitVec = u at h hReads
  cases hReads with
  | undefined => cases h
  | infinite => cases h
  | zero =>
      cases h
      exact canonical_zero
  | finite _ hCanonical =>
      cases h
      exact hCanonical

/-- The finite doubles are those with finite parts. -/
theorem isFinite_iff {x : Float} :
    x.isFinite = true ↔ ∃ negative m q, parts x = .finite negative m q := by
  rw [parts_eq]
  show x.toModel.unpack.isFinite = true ↔ _
  cases x.toModel.unpack <;> simp [UnpackedFloat.isFinite, Parts.ofUnpacked]

/-- A finite double is rebuilt from its parts. -/
theorem eq_ofMagnitude {x : Float} {negative : Bool} {m : Nat} {q : Int}
    (h : parts x = .finite negative m q) : x = ofMagnitude negative (patternOf m q) :=
  eq_of_parts_eq (h.trans (parts_ofMagnitude negative (canonical_of_parts h)).symm)

/-- A zero of either sign. -/
def IsZero (x : Float) : Prop := ∃ negative, parts x = .finite negative 0 leastExponent

theorem isZero_ofMagnitude (negative : Bool) : IsZero (ofMagnitude negative 0) := by
  have hParts := parts_ofMagnitude negative canonical_zero
  rw [show patternOf 0 leastExponent = 0 from rfl] at hParts
  exact ⟨negative, hParts⟩

theorem IsZero.ne_undefined {x : Float} (h : IsZero x) : parts x ≠ .undefined := by
  obtain ⟨negative, hParts⟩ := h
  rw [hParts]
  exact Parts.noConfusion

/-- The zeros in terms of unpacked forms. -/
theorem isZero_iff {x : Float} : IsZero x ↔ ∃ s, x.toModel.unpack = .zero s := by
  constructor
  · rintro ⟨negative, h⟩
    rw [parts_eq] at h
    refine ⟨if negative then .negative else .positive, Parts.ofUnpacked_inj (h.trans ?_)⟩
    cases negative <;> rfl
  · rintro ⟨s, h⟩
    exact ⟨isNegative s, by rw [parts_eq, h, Parts.ofUnpacked]⟩

/-- IEEE equality of unpacked forms: both are the same and not NaN, or both are zeros. -/
theorem beq_unpacked {u v : UnpackedFloat} :
    u.beq v = true ↔ u ≠ .notANumber ∧ (u = v ∨ (∃ s, u = .zero s) ∧ ∃ s, v = .zero s) := by
  rw [beq_iff_ne_notANumber_and_eq]
  constructor
  · rintro ⟨hu, -, rfl | ⟨rfl, rfl⟩ | ⟨rfl, rfl⟩⟩
    · exact ⟨hu, .inl rfl⟩
    · exact ⟨hu, .inr ⟨⟨_, rfl⟩, ⟨_, rfl⟩⟩⟩
    · exact ⟨hu, .inr ⟨⟨_, rfl⟩, ⟨_, rfl⟩⟩⟩
  · rintro ⟨hu, rfl | ⟨⟨s, rfl⟩, ⟨t, rfl⟩⟩⟩
    · exact ⟨hu, hu, .inl rfl⟩
    · cases s <;> cases t <;> simp

theorem isUndefined_iff {x : Float} : parts x = .undefined ↔ x.toModel.unpack = .notANumber := by
  rw [parts_eq, show Parts.undefined = .ofUnpacked .notANumber from rfl]
  exact ⟨Parts.ofUnpacked_inj, congrArg Parts.ofUnpacked⟩

/-- IEEE equality of doubles: NaN equals nothing, the two zeros equal one another, and any other
double equals itself only. -/
theorem beq_iff {x y : Float} :
    (x == y) = true ↔ parts x ≠ .undefined ∧ (x = y ∨ IsZero x ∧ IsZero y) := by
  rw [eq_iff_unpacked, isZero_iff, isZero_iff, ne_eq, isUndefined_iff]
  exact beq_unpacked

end StackCalc.Number
