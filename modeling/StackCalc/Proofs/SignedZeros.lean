import StackCalc.Number.Arithmetic
import StackCalc.Proofs.Doubles

/-! The two zeros in calculations. Doubles that are equal by value are the same, unless both are
zeros, whose signs may differ. Sums, differences and products of doubles that are equal by value are
equal by value again. A quotient by a zero is not: its sign is that of the zero. -/
namespace StackCalc
open Float.Model Float.Model.UnpackedFloat

namespace Number

/-- Equal as numbers, or both undefined. -/
def SameValue (x y : Float) : Prop :=
  (x == y) = true ∨ parts x = .undefined ∧ parts y = .undefined

/-- Two doubles have one value when they are the same or are both zeros. -/
theorem sameValue_iff {x y : Float} : SameValue x y ↔ x = y ∨ IsZero x ∧ IsZero y := by
  unfold SameValue
  rw [beq_iff]
  constructor
  · rintro (⟨-, h⟩ | ⟨hx, hy⟩)
    · exact h
    · exact .inl (eq_of_parts_eq (hx.trans hy.symm))
  · intro h
    by_cases hx : parts x = .undefined
    · rcases h with rfl | ⟨hZero, -⟩
      · exact .inr ⟨hx, hx⟩
      · exact absurd hx hZero.ne_undefined
    · exact .inl ⟨hx, h⟩

/-- Comparing with zero accepts both zeros. -/
theorem beq_zero_iff {x : Float} : (x == 0) = true ↔ IsZero x := by
  have hZero : IsZero 0 := ⟨false, by decide +kernel⟩
  rw [beq_iff]
  constructor
  · rintro ⟨-, rfl | ⟨hx, -⟩⟩
    · exact hZero
    · exact hx
  · intro hx
    exact ⟨hx.ne_undefined, .inr ⟨hx, hZero⟩⟩

theorem SameValue.refl (x : Float) : SameValue x x :=
  sameValue_iff.mpr (.inl rfl)

/-- Away from zero, doubles of one value are the same. -/
theorem SameValue.eq_of_not_isZero {x y : Float} (h : SameValue x y) (hx : ¬ IsZero x) : x = y :=
  (sameValue_iff.mp h).resolve_right fun hZero => hx hZero.1

/-- The same number of the model, or two zeros. -/
def SameUnpacked (u v : UnpackedFloat) : Prop :=
  u = v ∨ (∃ s, u = .zero s) ∧ ∃ s, v = .zero s

/-- `SameValue` in terms of unpacked forms, where the arithmetic is defined. -/
theorem sameValue_iff_unpacked {x y : Float} :
    SameValue x y ↔ SameUnpacked x.toModel.unpack y.toModel.unpack := by
  rw [sameValue_iff, isZero_iff, isZero_iff, eq_iff_unpacked, SameUnpacked]

/-- Packing keeps the sign of a zero. -/
theorem unpack_pack_zero (s : Sign) : (Float.Model.pack (.zero s)).unpack = .zero s :=
  unpack_packedZero

theorem isZero_pack (s : Sign) : IsZero (.ofModel (Float.Model.pack (.zero s))) :=
  isZero_iff.mpr ⟨s, unpack_pack_zero s⟩

/-- Rounding does not tell forms of one value apart. -/
theorem SameUnpacked.pack {u v : UnpackedFloat} (h : SameUnpacked u v) :
    SameValue (.ofModel (Float.Model.pack u)) (.ofModel (Float.Model.pack v)) := by
  rcases h with rfl | ⟨⟨s, rfl⟩, ⟨t, rfl⟩⟩
  · exact .refl _
  · exact sameValue_iff.mpr (.inr ⟨isZero_pack s, isZero_pack t⟩)

/-- Negating does not tell the zeros apart. -/
theorem SameUnpacked.neg {u v : UnpackedFloat} (h : SameUnpacked u v) :
    SameUnpacked u.neg v.neg := by
  rcases h with rfl | ⟨⟨s, rfl⟩, ⟨t, rfl⟩⟩
  · exact .inl rfl
  · exact .inr ⟨⟨-s, rfl⟩, ⟨-t, rfl⟩⟩

theorem sameUnpacked_zero (s t : Sign) : SameUnpacked (.zero s) (.zero t) :=
  .inr ⟨⟨s, rfl⟩, ⟨t, rfl⟩⟩

section
variable {f : Format} {u u' v v' : UnpackedFloat}

/-- Adding does not tell the zeros apart. A sum of two zeros is a zero, whatever the signs, and a
sum of a zero and another number is that number. -/
theorem SameUnpacked.add (hLeft : SameUnpacked u u') (hRight : SameUnpacked v v') :
    SameUnpacked (.add f u v) (.add f u' v') := by
  have hZeros : ∀ s t : Sign, ∃ r, UnpackedFloat.add f (.zero s) (.zero t) = .zero r := by
    intro s t
    simp only [UnpackedFloat.add]
    split <;> exact ⟨_, rfl⟩
  rcases hLeft with rfl | ⟨⟨s, rfl⟩, ⟨s', rfl⟩⟩
  · rcases hRight with rfl | ⟨⟨t, rfl⟩, ⟨t', rfl⟩⟩
    · exact .inl rfl
    · -- Only the sum of two zeros has a sign that depends on theirs.
      cases u with
      | zero s => exact .inr ⟨hZeros s t, hZeros s t'⟩
      | _ => exact .inl rfl
  · rcases hRight with rfl | ⟨⟨t, rfl⟩, ⟨t', rfl⟩⟩
    · cases v with
      | zero t => exact .inr ⟨hZeros s t, hZeros s' t⟩
      | _ => exact .inl rfl
    · exact .inr ⟨hZeros s t, hZeros s' t'⟩

/-- Multiplying does not tell the zeros apart: the sign of a zero factor only reaches the sign of a
zero product. -/
theorem SameUnpacked.mul (hLeft : SameUnpacked u u') (hRight : SameUnpacked v v') :
    SameUnpacked (.mul f u v) (.mul f u' v') := by
  rcases hLeft with rfl | ⟨⟨s, rfl⟩, ⟨s', rfl⟩⟩
  · rcases hRight with rfl | ⟨⟨t, rfl⟩, ⟨t', rfl⟩⟩
    · exact .inl rfl
    · cases u with
      | infinity => exact .inl rfl
      | notANumber => exact .inl rfl
      | zero => exact sameUnpacked_zero _ _
      | finite => exact sameUnpacked_zero _ _
  · rcases hRight with rfl | ⟨⟨t, rfl⟩, ⟨t', rfl⟩⟩
    · cases v with
      | infinity => exact .inl rfl
      | notANumber => exact .inl rfl
      | zero => exact sameUnpacked_zero _ _
      | finite => exact sameUnpacked_zero _ _
    · exact sameUnpacked_zero _ _

/-- A zero that is divided keeps to the zeros, whatever its sign. -/
theorem SameUnpacked.div (h : SameUnpacked u u') (v : UnpackedFloat) :
    SameUnpacked (.div f u v) (.div f u' v) := by
  rcases h with rfl | ⟨⟨s, rfl⟩, ⟨s', rfl⟩⟩
  · exact .inl rfl
  · cases v with
    | infinity => exact sameUnpacked_zero _ _
    | notANumber => exact .inl rfl
    | zero => exact .inl rfl
    | finite => exact sameUnpacked_zero _ _

end

section
variable {x x' y y' : Float}

/-- Negation respects `SameValue`. -/
theorem SameValue.neg (h : SameValue x x') : SameValue (-x) (-x') :=
  (sameValue_iff_unpacked.mp h).neg.pack

/-- Addition respects `SameValue`. -/
theorem SameValue.add (hLeft : SameValue x x') (hRight : SameValue y y') :
    SameValue (x + y) (x' + y') :=
  ((sameValue_iff_unpacked.mp hLeft).add (sameValue_iff_unpacked.mp hRight)).pack

/-- Multiplication respects `SameValue`. -/
theorem SameValue.mul (hLeft : SameValue x x') (hRight : SameValue y y') :
    SameValue (x * y) (x' * y') :=
  ((sameValue_iff_unpacked.mp hLeft).mul (sameValue_iff_unpacked.mp hRight)).pack

/-- Division respects `SameValue` in the dividend. It does not in the divisor, where the sign of a
zero decides between the infinities. -/
theorem SameValue.div (h : SameValue x x') (y : Float) : SameValue (x / y) (x' / y) :=
  ((sameValue_iff_unpacked.mp h).div _).pack

end

theorem pack_infinity (s : Sign) :
    Float.ofModel (Float.Model.pack (.infinity s)) = infinity (isNegative s) := by
  cases s <;> decide +kernel

/-- The two infinities have distinct values. -/
theorem not_sameValue_infinity {negative negative' : Bool} (h : negative ≠ negative') :
    ¬ SameValue (infinity negative) (infinity negative') := by
  rw [sameValue_iff]
  rintro (hEq | ⟨⟨sign, hZero⟩, -⟩)
  · have hParts := congrArg parts hEq
    rw [parts_infinity, parts_infinity] at hParts
    exact h (Parts.infinite.inj hParts)
  · rw [parts_infinity] at hZero
    cases hZero

/-- Zero and the undefined number have no quotient by a zero. -/
theorem div_zero_undefined {x y : Float} (hx : IsZero x ∨ parts x = .undefined) (hy : IsZero y) :
    x / y = .ofModel (Float.Model.pack .notANumber) := by
  obtain ⟨t, ht⟩ := isZero_iff.mp hy
  show Float.ofModel (Float.Model.pack (.div _ x.toModel.unpack y.toModel.unpack)) = _
  rw [ht]
  rcases hx with hZero | hUndefined
  · obtain ⟨s, hs⟩ := isZero_iff.mp hZero
    rw [hs]
    rfl
  · rw [isUndefined_iff.mp hUndefined]
    rfl

/-- All other doubles have an infinite one, with a sign that depends on the sign of the zero. -/
theorem div_zero_infinite {x : Float} (hx : ¬ IsZero x) (hDefined : parts x ≠ .undefined) :
    ∃ s : Sign, ∀ y t, y.toModel.unpack = .zero t → x / y = infinity (isNegative (s / t)) := by
  have hDiv : ∀ y, x / y =
      .ofModel (Float.Model.pack (.div .binary64 x.toModel.unpack y.toModel.unpack)) := fun y => rfl
  simp only [hDiv, ← pack_infinity]
  rw [isZero_iff] at hx
  rw [ne_eq, isUndefined_iff] at hDefined
  generalize x.toModel.unpack = u at hx hDefined
  cases u with
  | notANumber => exact absurd rfl hDefined
  | zero s => exact absurd ⟨s, rfl⟩ hx
  | infinity s =>
    refine ⟨s, fun y t ht => ?_⟩
    rw [ht]
    rfl
  | finite s m q hm =>
    refine ⟨s, fun y t ht => ?_⟩
    rw [ht]
    rfl

end Number

open Number

/-- The result depends on the sign of a zero among the operands, by more than the sign of a zero. -/
def Arithmetic.TellsZerosApart (op : Arithmetic) (x y : Float) : Prop :=
  ∃ x' y', SameValue x x' ∧ SameValue y y' ∧ ¬ SameValue (op.apply x y) (op.apply x' y')

namespace Arithmetic

variable {x y : Float}

/-- A division tells the zeros apart exactly when its divisor is a zero and its dividend is neither
a zero nor NaN. -/
theorem tellsZerosApart_divide_iff :
    divide.TellsZerosApart x y ↔ IsZero y ∧ ¬ IsZero x ∧ parts x ≠ .undefined := by
  constructor
  · rintro ⟨x', y', hx, hy, hNot⟩
    have hZero : IsZero y := by
      by_contra hNonzero
      obtain rfl := hy.eq_of_not_isZero hNonzero
      exact hNot (hx.div y)
    have hZero' : IsZero y' := by
      rcases sameValue_iff.mp hy with rfl | ⟨-, h⟩
      · exact hZero
      · exact h
    refine ⟨hZero, not_or.mp fun hVanishes => hNot ?_⟩
    have hVanishes' : IsZero x' ∨ parts x' = .undefined := by
      rcases sameValue_iff.mp hx with rfl | ⟨-, h⟩
      · exact hVanishes
      · exact .inl h
    show SameValue (x / y) (x' / y')
    rw [div_zero_undefined hVanishes hZero, div_zero_undefined hVanishes' hZero']
    exact .refl _
  · rintro ⟨hZero, hNonzero, hDefined⟩
    obtain ⟨s, hQuotient⟩ := div_zero_infinite hNonzero hDefined
    obtain ⟨t, ht⟩ := isZero_iff.mp hZero
    -- Dividing by the zero of the other sign gives the other infinity.
    let other : Float := .ofModel (Float.Model.pack (.zero (-t)))
    have hOther : IsZero other := isZero_pack (-t)
    refine ⟨x, other, .refl x, sameValue_iff.mpr (.inr ⟨hZero, hOther⟩), ?_⟩
    show ¬ SameValue (x / y) (x / other)
    rw [hQuotient y t ht, hQuotient other (-t) (unpack_pack_zero (-t))]
    apply not_sameValue_infinity
    cases s <;> cases t <;> decide

/-- Apart from division only a power with a zero operand can tell the zeros apart. -/
theorem TellsZerosApart.cases {op : Arithmetic} (h : op.TellsZerosApart x y) :
    op = .divide ∨ op = .power ∧ (IsZero x ∨ IsZero y) := by
  obtain ⟨x', y', hx, hy, hNot⟩ := h
  cases op with
  | add => exact absurd (hy.add hx) hNot
  | subtract => exact absurd (hy.neg.add hx) hNot
  | multiply => exact absurd (hy.mul hx) hNot
  | divide => exact .inl rfl
  | power =>
    refine .inr ⟨rfl, ?_⟩
    by_contra hNonzero
    obtain ⟨hNonzeroX, hNonzeroY⟩ := not_or.mp hNonzero
    obtain rfl := hx.eq_of_not_isZero hNonzeroX
    obtain rfl := hy.eq_of_not_isZero hNonzeroY
    exact hNot (.refl _)

end Arithmetic

end StackCalc
