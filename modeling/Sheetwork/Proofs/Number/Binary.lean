import Mathlib
import Sheetwork.Number.Binary
/-
  Numbers: floats as `m · 2^q`. `Binary.ofFloat` reads off the bits of a float what it stands for: no number, an
  infinity, or a mantissa and an exponent with a sign (`ofFloat_eq`). Any two that are numbers have an order
  (`isSome_compare`), and so has one of them with a whole number.
-/

namespace Sheetwork.Number

open Float.Model
open Format (binary64)

def isMinus : UnpackedFloat.Sign → Bool
  | .negative => true
  | .positive => false

/-- The sign, the mantissa and the exponent of an unpacked float. -/
def Binary.ofUnpacked : UnpackedFloat → Binary
  | .infinity s => .inf (isMinus s)
  | .notANumber => .nan
  | .zero s => .finite (isMinus s) 0 (-1074)
  | .finite s m q _ => .finite (isMinus s) m q

variable (b : BitVec 64) {x : Float}

theorem toNat_unpackMantissa : (@UnpackedFloat.unpackMantissa binary64 b).toNat = b.toNat % 2 ^ 52 := by
  simp [UnpackedFloat.unpackMantissa]

theorem toNat_unpackExponent : (@UnpackedFloat.unpackExponent binary64 b).toNat = b.toNat / 2 ^ 52 % 2048 := by
  simp [UnpackedFloat.unpackExponent, Nat.shiftRight_eq_div_pow]

theorem toNat_unpackSign : (@UnpackedFloat.unpackSign binary64 b).toNat = b.toNat / 2 ^ 63 := by
  have := b.isLt
  simp [UnpackedFloat.unpackSign, Nat.shiftRight_eq_div_pow]
  omega

theorem Binary.ofFloat_eq : ofFloat x = ofUnpacked x.toModel.unpack := by
  have hbits : x.toBits.toNat = x.toModel.toBits.toBitVec.toNat := rfl
  have hsign : decide (x.toBits.toNat / 2 ^ 63 = 1) = isMinus (UnpackedFloat.Sign.ofBitVec
      (@UnpackedFloat.unpackSign binary64 x.toModel.toBits.toBitVec)) := by
    rw [hbits, ← toNat_unpackSign, UnpackedFloat.Sign.ofBitVec]
    generalize @UnpackedFloat.unpackSign binary64 x.toModel.toBits.toBitVec = b
    revert b
    decide
  have hexponent : ∀ e, @UnpackedFloat.unpackExponent binary64 x.toModel.toBits.toBitVec = e ↔
      x.toBits.toNat / 2 ^ 52 % 2048 = e.toNat := by
    intro e
    rw [hbits, ← toNat_unpackExponent, ← BitVec.toNat_inj]
  have hlast : _ ↔ x.toBits.toNat / 2 ^ 52 % 2048 = 2047 := hexponent (-1#11)
  have hfirst : _ ↔ x.toBits.toNat / 2 ^ 52 % 2048 = 0 := hexponent 0#11
  have hzero : (@UnpackedFloat.unpackMantissa binary64 x.toModel.toBits.toBitVec = 0#52) ↔
      x.toBits.toNat % 2 ^ 52 = 0 := by
    rw [hbits, ← toNat_unpackMantissa, ← BitVec.toNat_inj]
    exact Iff.rfl
  simp only [ofFloat, Float.Model.unpack, UnpackedFloat.unpack, hlast, hfirst, hzero, hsign]
  split
  · split <;> rfl
  · split
    · next hsub =>
      split
      · next hz =>
        rw [hz]
        rfl
      · rw [ofUnpacked, toNat_unpackMantissa, toNat_unpackExponent, ← hbits, hsub]
        rfl
    · rw [ofUnpacked, BitVec.toNat_append, toNat_unpackMantissa, toNat_unpackExponent, ← hbits]
      have hlt : x.toBits.toNat % 2 ^ 52 < 2 ^ 52 := Nat.mod_lt _ (by decide)
      have hor : 1 <<< 52 ||| x.toBits.toNat % 2 ^ 52 = x.toBits.toNat % 2 ^ 52 + 2 ^ 52 := by
        rw [← Nat.shiftLeft_add_eq_or_of_lt hlt, Nat.add_comm]
        rfl
      rw [show (1#1).toNat = 1 from rfl, hor]
      rfl

theorem isSome_truncate? (hnan : x.isNaN = false) (hinf : x.isInf = false) : (truncate? x).isSome := by
  have hnan' : x.toModel.unpack.isNaN = false := hnan
  have hinf' : x.toModel.unpack.isInf = false := hinf
  rw [truncate?, Binary.ofFloat_eq]
  cases h : x.toModel.unpack with
  | infinity s =>
    rw [h] at hinf'
    cases hinf'
  | notANumber =>
    rw [h] at hnan'
    cases hnan'
  | zero s => rfl
  | finite s m q hm => rfl

theorem isSome_compareInt (hx : x.isNaN = false) (n : Int) : (compareInt n x).isSome := by
  have hx' : x.toModel.unpack.isNaN = false := hx
  rw [compareInt, Binary.ofFloat_eq]
  cases h : x.toModel.unpack with
  | notANumber =>
    rw [h] at hx'
    cases hx'
  | _ => rfl

theorem compare_swap (a b : UnpackedFloat) : b.compare a = (a.compare b).map Ordering.swap := by
  have finite : ∀ (m m' : Nat) (e e' : Int),
      ((compare e e').then (compare m m')).swap = (compare e' e).then (compare m' m) := by
    intro m m' e e'
    rw [Ordering.swap_then, ← Std.OrientedOrd.eq_swap, ← Std.OrientedOrd.eq_swap]
  rcases a with ⟨_ | _⟩ | _ | _ | ⟨_ | _, m, e, -⟩ <;> rcases b with ⟨_ | _⟩ | _ | _ | ⟨_ | _, m', e', -⟩ <;>
    simp [UnpackedFloat.compare, finite] <;> rfl

theorem isSome_compare {a b : UnpackedFloat} (ha : a.isNaN = false) (hb : b.isNaN = false) : (a.compare b).isSome := by
  rcases a with ⟨_ | _⟩ | _ | _ | ⟨_ | _, m, e, -⟩ <;> rcases b with ⟨_ | _⟩ | _ | _ | ⟨_ | _, m', e', -⟩ <;>
    simp_all [UnpackedFloat.compare, UnpackedFloat.isNaN]

theorem lt_iff_compare (x y : Float) : x < y ↔ x.toModel.unpack.compare y.toModel.unpack = some .lt := by
  show decide (x.toModel < y.toModel) = true ↔ _
  rw [decide_eq_true_iff]
  exact beq_iff_eq

end Sheetwork.Number
