import StackCalc.Number.Arithmetic
import StackCalc.Proofs.Doubles

/-! What the arithmetic operators compute. The machine takes the right operand first, so it adds and
multiplies in reverse order and subtracts by adding the opposite number. None of this shows: sums
and products do not depend on the order of the operands, and the opposite of a double has the same
digits and is never rounded. -/
namespace StackCalc
open Float.Model Float.Model.UnpackedFloat

/-- What an operator makes of two numbers, in the order in which they are written. A power is
undefined whenever its exponent is, and so is an infinite power of one or of minus one. -/
def Arithmetic.value (op : Arithmetic) (left right : Float) : Float :=
  match op with
  | .add => left + right
  | .subtract => left - right
  | .multiply => left * right
  | .divide => left / right
  | .power =>
    match Number.parts right with
    | .undefined => Number.undefined
    | .infinite _ => if left = 1 ∨ left = -1 then Number.undefined else Float.pow left right
    | .finite .. => Float.pow left right

namespace Number

section
variable (f : Format) (u v : UnpackedFloat)

theorem sign_mul_comm (s t : Sign) : s * t = t * s := by
  cases s <;> cases t <;> rfl

/-- Addition commutes before rounding, so it commutes after it. -/
theorem add_comm_unpacked : UnpackedFloat.add f u v = UnpackedFloat.add f v u := by
  cases u with
  | notANumber => cases v <;> rfl
  | infinity s =>
      cases v with
      | infinity t => cases s <;> cases t <;> rfl
      | _ => rfl
  | zero s =>
      cases v with
      | zero t => cases s <;> cases t <;> rfl
      | _ => rfl
  | finite s m e =>
      cases v with
      | finite t n e' =>
          simp only [UnpackedFloat.add]
          rw [Int.min_comm, Int.add_comm]
      | _ => rfl

/-- Multiplication commutes before rounding. -/
theorem mul_comm_unpacked : UnpackedFloat.mul f u v = UnpackedFloat.mul f v u := by
  cases u <;> cases v <;>
    simp only [UnpackedFloat.mul, sign_mul_comm, Nat.mul_comm, Int.add_comm]

/-- To subtract is to add the opposite. -/
theorem sub_eq_add_neg_unpacked : UnpackedFloat.sub f u v = UnpackedFloat.add f u v.neg := by
  cases u with
  | notANumber => cases v <;> rfl
  | infinity s => cases v <;> rfl
  | zero s => cases v <;> rfl
  | finite s m e =>
      cases v with
      | finite t n e' =>
          have hSign : ∀ k : Int, (-t).apply k = -t.apply k := by
            intro k
            cases t
            · exact (Int.neg_neg k).symm
            · rfl
          simp only [UnpackedFloat.sub, UnpackedFloat.add, UnpackedFloat.neg, hSign,
            Int.sub_eq_add_neg]
      | _ => rfl

end

/-- Packing what was unpacked loses nothing. -/
theorem unpack_pack_unpack (b : BitVec Format.binary64.numBits) :
    UnpackedFloat.unpack .binary64
        (UnpackedFloat.pack .binary64 (UnpackedFloat.unpack .binary64 b)) =
      UnpackedFloat.unpack .binary64 b := by
  rw [pack_unpack b]
  split
  · rename_i hNaN
    rw [isNaNBits, decide_eq_true_eq] at hNaN
    rw [unpack_packedNaN, UnpackedFloat.unpack, if_pos hNaN.1, if_neg hNaN.2]
  · rfl

/-- Gives a number of the model another sign. -/
def mapSign (g : Sign → Sign) : UnpackedFloat → UnpackedFloat
  | .notANumber => .notANumber
  | .infinity s => .infinity (g s)
  | .zero s => .zero (g s)
  | .finite s m e hm => .finite (g s) m e hm

theorem neg_eq_mapSign (u : UnpackedFloat) : u.neg = mapSign (- ·) u := by
  cases u <;> rfl

theorem abs_eq_mapSign (u : UnpackedFloat) : u.abs = mapSign (fun _ => .positive) u := by
  cases u <;> rfl

/-- The sign is a bit of its own, so it can be changed without changing the rest. -/
theorem exists_unpack_mapSign (g : Sign → Sign) (b : BitVec Format.binary64.numBits) :
    ∃ b', UnpackedFloat.unpack .binary64 b' = mapSign g (UnpackedFloat.unpack .binary64 b) := by
  refine ⟨packComponents .binary64 (g (.ofBitVec (unpackSign b))) (unpackExponent b)
    (unpackMantissa b), ?_⟩
  simp only [UnpackedFloat.unpack, unpackMantissa_packComponents, unpackExponent_packComponents,
    unpackSign_packComponents, Sign.ofBitVec_toBitVec]
  split
  · split <;> rfl
  · split
    · split <;> rfl
    · rfl

/-- A change of sign needs no rounding. -/
theorem unpack_pack_mapSign (g : Sign → Sign) (x : Float) :
    (Float.Model.pack (mapSign g x.toModel.unpack)).unpack = mapSign g x.toModel.unpack := by
  obtain ⟨b, hb⟩ := exists_unpack_mapSign g x.toModel.toBits.toBitVec
  have hUnpacked : mapSign g x.toModel.unpack = UnpackedFloat.unpack .binary64 b := hb.symm
  rw [hUnpacked]
  exact unpack_pack_unpack b

/-- A negation is exact: only the sign changes. -/
theorem unpack_neg (x : Float) : (-x).toModel.unpack = x.toModel.unpack.neg := by
  rw [neg_eq_mapSign]
  exact unpack_pack_mapSign (- ·) x

/-- An absolute value is exact. -/
theorem unpack_abs (x : Float) : x.abs.toModel.unpack = x.toModel.unpack.abs := by
  rw [abs_eq_mapSign]
  exact unpack_pack_mapSign (fun _ => .positive) x

/-- Addition of doubles commutes, for NaN and the infinities too. -/
theorem float_add_comm (x y : Float) : x + y = y + x := by
  show Float.ofModel (.pack _) = Float.ofModel (.pack _)
  rw [add_comm_unpacked]

/-- Multiplication of doubles commutes. -/
theorem float_mul_comm (x y : Float) : x * y = y * x := by
  show Float.ofModel (.pack _) = Float.ofModel (.pack _)
  rw [mul_comm_unpacked]

/-- A difference is a sum with the negated subtrahend, at every pair of doubles. -/
theorem sub_eq_neg_add (x y : Float) : x - y = -y + x := by
  rw [float_add_comm]
  show Float.ofModel (.pack _) = Float.ofModel (.pack (UnpackedFloat.add _ _ (-y).toModel.unpack))
  rw [unpack_neg, sub_eq_add_neg_unpacked]

/-- The test for NaN, read off the parts. -/
theorem isNaN_iff_parts {x : Float} : x.isNaN = true ↔ parts x = .undefined := by
  rw [isUndefined_iff]
  exact isNaN_iff

/-- The test for infinities, read off the parts. -/
theorem isInf_iff_parts {x : Float} :
    x.isInf = true ↔ ∃ negative, parts x = .infinite negative := by
  have hModel : x.isInf = x.toModel.unpack.isInf := rfl
  rw [hModel, parts_eq]
  cases x.toModel.unpack <;> simp [UnpackedFloat.isInf, Parts.ofUnpacked]

/-- One and minus one are the doubles of absolute value one. -/
theorem abs_beq_one_iff {x : Float} : (x.abs == 1) = true ↔ x = 1 ∨ x = -1 := by
  obtain ⟨m, e, hm, hOne⟩ : ∃ m e hm, (1 : Float).toModel.unpack = .finite .positive m e hm :=
    ⟨_, _, _, rfl⟩
  have hUnpacked : (x.abs == 1) = true ↔ x.toModel.unpack.abs = .finite .positive m e hm := by
    have hBeq : (x.abs == 1) = x.abs.toModel.unpack.beq (1 : Float).toModel.unpack := rfl
    rw [hBeq, beq_unpacked, unpack_abs, hOne]
    constructor
    · rintro ⟨-, hSame | ⟨-, s, hZero⟩⟩
      · exact hSame
      · cases hZero
    · intro hSame
      rw [hSame]
      exact ⟨nofun, .inl rfl⟩
  have hSign : -Sign.positive = .negative := rfl
  rw [hUnpacked, eq_iff_unpacked, eq_iff_unpacked, unpack_neg, hOne]
  cases x.toModel.unpack with
  | finite s n k => cases s <;> simp [UnpackedFloat.abs, UnpackedFloat.neg, hSign]
  | _ => simp [UnpackedFloat.abs, UnpackedFloat.neg]

end Number

/-- The machine computes what the operators say. -/
theorem Arithmetic.apply_eq_value (op : Arithmetic) (left right : Float) :
    op.apply left right = op.value left right := by
  cases op with
  | add => exact Number.float_add_comm right left
  | subtract => exact (Number.sub_eq_neg_add left right).symm
  | multiply => exact Number.float_mul_comm right left
  | divide => rfl
  | power =>
      simp only [apply, value, Number.power, Bool.or_eq_true, Bool.and_eq_true,
        Number.isNaN_iff_parts, Number.isInf_iff_parts, Number.abs_beq_one_iff]
      cases Number.parts right <;> simp

end StackCalc
