import Sheetwork.Proofs.Number.Binary
/-
  Numbers: whole numbers as floats. Below `2 ^ 53` in magnitude a whole number has a float of its own
  (`unpack_ofInt`): its mantissa is the number itself, shifted until it has 53 binary digits. A float that stands for
  such a number is not changed by rounding (`round_whole`), so sums of whole numbers are exact (`ofInt_add`), and the
  nearest whole number is the number itself (`roundEven?_ofInt`).
-/

open BitVec (toNat_append ofNat toNat_ofNat)

namespace Sheetwork.Number

open Float.Model UnpackedFloat Format Float.Model
open ExtendedMantissa (ofMantissaAndAccuracy shiftRightOne)

/-! Whole numbers below `2 ^ 53` -/

variable {k m k m : Nat} {n : Int} {q : Int} {e : Int} {s : Sign}

def wholeMantissa (k : Nat) : Nat := k * 2 ^ (52 - k.log2)

theorem log2_le (hk : k ≠ 0) (hlt : k < 2 ^ 53) : k.log2 ≤ 52 := Nat.le_of_lt_succ ((Nat.log2_lt hk).2 hlt)

theorem wholeMantissa_pos (hk : k ≠ 0) : 0 < wholeMantissa k := Nat.mul_pos (Nat.pos_of_ne_zero hk) (Nat.two_pow_pos _)

theorem log2_mul_two_pow (hm : m ≠ 0) (k : Nat) : (m * 2 ^ k).log2 = m.log2 + k := by
  have hpos := Nat.two_pow_pos k
  refine (Nat.log2_eq_iff (Nat.mul_ne_zero hm (by omega))).2 ⟨?_, ?_⟩
  · rw [Nat.pow_add]
    exact Nat.mul_le_mul_right _ (Nat.log2_self_le hm)
  · rw [Nat.add_right_comm, Nat.pow_add]
    exact Nat.mul_lt_mul_of_pos_right Nat.lt_log2_self hpos

theorem log2_wholeMantissa (hk : k ≠ 0) (hlt : k < 2 ^ 53) : (wholeMantissa k).log2 = 52 := by
  rw [wholeMantissa, log2_mul_two_pow hk]
  exact Nat.add_sub_cancel' (log2_le hk hlt)

theorem wholeMantissa_bounds (hk : k ≠ 0) (hlt : k < 2 ^ 53) : 2 ^ 52 ≤ wholeMantissa k ∧ wholeMantissa k < 2 ^ 53 :=
  (Nat.log2_eq_iff (wholeMantissa_pos hk).ne').1 (log2_wholeMantissa hk hlt)

/-! Packing -/

theorem toNat_packComponents (e : BitVec 11) (m : BitVec 52) :
    (packComponents binary64 s e m).toNat = s.toBitVec.toNat * 2 ^ 63 + e.toNat * 2 ^ 52 + m.toNat := by
  show (s.toBitVec ++ e ++ m).toNat = _
  rw [toNat_append, toNat_append, ← Nat.shiftLeft_add_eq_or_of_lt e.isLt,
    ← Nat.shiftLeft_add_eq_or_of_lt m.isLt, Nat.shiftLeft_eq, Nat.shiftLeft_eq]
  ring

theorem unpackSign_packComponents (e : BitVec 11) (m : BitVec 52) :
    @unpackSign binary64 (packComponents binary64 s e m) = s.toBitVec := by
  apply BitVec.eq_of_toNat_eq
  rw [toNat_unpackSign, toNat_packComponents]
  omega

theorem toNat_implicit (m : BitVec 52) : (1#1 ++ m).toNat = 2 ^ 52 + m.toNat := by
  rw [toNat_append, ← Nat.shiftLeft_add_eq_or_of_lt m.isLt]
  rfl

theorem unpack_packComponents (hm : 2 ^ 52 ≤ m ∧ m < 2 ^ 53) (hq : -1074 ≤ q ∧ q ≤ 971) :
    UnpackedFloat.unpack binary64 (packComponents binary64 s
      (ofNat 11 (q + 1075).toNat) (ofNat 52 m)) = .finite s m q (by omega) := by
  have hexp : (ofNat 11 (q + 1075).toNat).toNat = (q + 1075).toNat := by
    rw [toNat_ofNat]
    omega
  have hne : ∀ e : BitVec 11, e.toNat ≠ (q + 1075).toNat → ofNat 11 (q + 1075).toNat ≠ e := by
    rintro _ he rfl
    exact he hexp
  have hlast := hne (-1#11) (by simp; omega)
  have hfirst := hne 0#11 (by simp; omega)
  have hmant : (1#1 ++ ofNat 52 m).toNat = m := by
    rw [toNat_implicit, toNat_ofNat]
    omega
  have hsign : Sign.ofBitVec s.toBitVec = s := by cases s <;> rfl
  simp only [UnpackedFloat.unpack, unpackMantissa_packComponents, unpackExponent_packComponents,
    unpackSign_packComponents, if_neg hlast, if_neg hfirst, hmant, hsign, hexp]
  congr 1
  show ((q + 1075).toNat : Int) - (1023 + 52) = q
  omega

theorem pack_normal (hm : 2 ^ 52 ≤ m ∧ m < 2 ^ 53) (hq : -1074 ≤ q ∧ q ≤ 971) (hpos : 0 < m) :
    UnpackedFloat.pack binary64 (.finite s m q hpos) =
      packComponents binary64 s (ofNat 11 (q + 1075).toNat) (ofNat 52 m) := by
  have hlog : m.log2 = 52 := (Nat.log2_eq_iff (by omega)).2 hm
  have hbias : (q + binary64.exponentBias + (52 : Nat)).toNat = (q + 1075).toNat := by
    show (q + 1023 + 52).toNat = _
    omega
  unfold UnpackedFloat.pack
  simp only [hlog]
  rw [hbias, if_neg (by show ¬2048 ≤ _; omega)]
  exact if_pos rfl

/-! Rounding -/

theorem shift_mul_two_pow (a k : Nat) : ofMantissaAndAccuracy (a * 2 ^ k) .exact >>> k =
      ofMantissaAndAccuracy a .exact := by
  induction k generalizing a with
  | zero => rw [Nat.pow_zero, Nat.mul_one]; rfl
  | succ k ih =>
    have hstep : ∀ em : ExtendedMantissa, em >>> (k + 1) = shiftRightOne (em >>> k) := fun _ => rfl
    have hassoc : a * 2 ^ (k + 1) = a * 2 * 2 ^ k := by ring
    rw [hstep, hassoc, ih]
    simp [shiftRightOne, ofMantissaAndAccuracy]

theorem targetExponent_eq (t : Int) : binary64.targetExponent t = max (t - 53) (-1074) := rfl

section

variable (hk : k ≠ 0) (hlt : k < 2 ^ 53)
include hk hlt

theorem shiftToTargetExponent_whole (i : Nat) :
    shiftToTargetExponent binary64 (wholeMantissa k * 2 ^ i) (k.log2 - 52 - i) .exact =
      (ofMantissaAndAccuracy (wholeMantissa k) .exact, (k.log2 : Int) - 52) := by
  have hlow := (wholeMantissa_bounds hk hlt).1
  have htotal : totalExponent (wholeMantissa k * 2 ^ i) (k.log2 - 52 - i) = k.log2 + 1 := by
    unfold totalExponent
    rw [log2_mul_two_pow (by omega), log2_wholeMantissa hk hlt]
    omega
  have hshift : (max ((k.log2 : Int) + 1 - 53) (-1074) - (k.log2 - 52 - i)).toNat = i := by omega
  unfold shiftToTargetExponent shiftToExponent
  dsimp only
  rw [htotal, targetExponent_eq, hshift, shift_mul_two_pow, Int.sub_add_cancel]

theorem roundWithAccuracy_whole (s : Sign) (i : Nat) :
    roundWithAccuracy binary64 s (wholeMantissa k * 2 ^ i) (k.log2 - 52 - i) .exact =
      .finite s (wholeMantissa k) (k.log2 - 52) (wholeMantissa_pos hk) := by
  have hagain := shiftToTargetExponent_whole hk hlt 0
  rw [Nat.pow_zero, Nat.mul_one, Int.natCast_zero, Int.sub_zero] at hagain
  have hrounded : (ofMantissaAndAccuracy (wholeMantissa k) .exact).roundedMantissa = wholeMantissa k := rfl
  unfold roundWithAccuracy
  rw [shiftToTargetExponent_whole hk hlt i]
  dsimp only
  rw [hrounded, hagain]
  exact dif_neg (Nat.ne_of_gt (wholeMantissa_pos hk))

theorem round_whole {M : Nat} (hvalue : M * 2 ^ e.toNat = k * 2 ^ (-e).toNat) (s : Sign) :
    UnpackedFloat.round binary64 s M e = .finite s (wholeMantissa k) (k.log2 - 52) (wholeMantissa_pos hk) := by
  have hlog := log2_le hk hlt
  have hM : M ≠ 0 := by
    rintro rfl
    rw [Nat.zero_mul] at hvalue
    exact absurd (Nat.mul_eq_zero.1 hvalue.symm) (by simp [hk])
  -- The highest digit of the float is that of the whole number.
  have htarget : binary64.targetExponent (totalExponent M e) = k.log2 - 52 := by
    have h := congrArg Nat.log2 hvalue
    rw [log2_mul_two_pow hM, log2_mul_two_pow hk] at h
    rw [targetExponent_eq]
    unfold totalExponent
    omega
  obtain ⟨j, hj⟩ : ∃ j, j = (e - (k.log2 - 52)).toNat := ⟨_, rfl⟩
  obtain ⟨i, hi⟩ : ∃ i, i = (k.log2 - 52 - (e - j)).toNat := ⟨_, rfl⟩
  have hscaled : M <<< j = wholeMantissa k * 2 ^ i := by
    have hpow : (-e).toNat + j = 52 - k.log2 + i + e.toNat := by omega
    apply Nat.eq_of_mul_eq_mul_right (Nat.two_pow_pos e.toNat)
    calc M <<< j * 2 ^ e.toNat = M * 2 ^ e.toNat * 2 ^ j := by rw [Nat.shiftLeft_eq]; ring
      _ = k * 2 ^ ((-e).toNat + j) := by rw [hvalue]; ring
      _ = wholeMantissa k * 2 ^ i * 2 ^ e.toNat := by rw [hpow]; unfold wholeMantissa; ring
  have hend : e - j = k.log2 - 52 - i := by omega
  unfold UnpackedFloat.round decreaseExponent
  dsimp only
  rw [htarget, ← hj, hscaled, hend]
  exact roundWithAccuracy_whole hk hlt s i

end

/-! Arithmetic -/

def signOf (n : Int) : Sign := if n < 0 then .negative else .positive

def whole (n : Int) : UnpackedFloat :=
  if h : n = 0 then .zero .positive
  else .finite (signOf n) (wholeMantissa n.natAbs) (n.natAbs.log2 - 52) (wholeMantissa_pos (Int.natAbs_ne_zero.2 h))

theorem normalize_whole {M : Int} (hn : n.natAbs < 2 ^ 53) (hvalue : M * 2 ^ e.toNat = n * 2 ^ (-e).toNat) :
    normalize binary64 M e .positive = whole n := by
  have hpow : ∀ k : Nat, Int.sign (2 ^ k) = 1 := fun k => Int.sign_eq_one_of_pos (Int.pow_pos (by decide))
  have hsign : M.sign = n.sign := by simpa only [Int.sign_mul, hpow, mul_one] using congrArg Int.sign hvalue
  have habs : M.natAbs * 2 ^ e.toNat = n.natAbs * 2 ^ (-e).toNat := by
    have h := congrArg Int.natAbs hvalue
    rwa [Int.natAbs_mul, Int.natAbs_mul, Int.natAbs_pow, Int.natAbs_pow] at h
  unfold UnpackedFloat.normalize whole signOf
  rcases Int.lt_trichotomy n 0 with hneg | rfl | hpos
  · have hM : M < 0 := Int.sign_eq_neg_one_iff_neg.1 (hsign.trans (Int.sign_eq_neg_one_of_neg hneg))
    have htoNat : (-M).toNat = M.natAbs := by omega
    rw [Int.compare_eq_lt.2 hM, dif_neg (by omega), if_pos hneg]
    exact round_whole (by omega) hn (htoNat ▸ habs) .negative
  · rw [Int.sign_eq_zero_iff_zero.1 hsign, dif_pos rfl]
    rfl
  · have hM : 0 < M := Int.sign_eq_one_iff_pos.1 (hsign.trans (Int.sign_eq_one_of_pos hpos))
    have htoNat : M.toNat = M.natAbs := by omega
    rw [Int.compare_eq_gt.2 hM, dif_neg (by omega), if_neg (by omega)]
    exact round_whole (by omega) hn (htoNat ▸ habs) .positive

section

variable {a b : Int} (ha : a.natAbs < 2 ^ 53) (hb : b.natAbs < 2 ^ 53)

include ha in
theorem apply_shiftLeft (hne : a ≠ 0) (he : e ≤ a.natAbs.log2 - 52) :
    (signOf a).apply (wholeMantissa a.natAbs <<< ((a.natAbs.log2 : Int) - 52 - e).toNat : Nat) =
      a * 2 ^ (-e).toNat := by
  have hlog := log2_le (by omega) ha
  have hpow : 52 - a.natAbs.log2 + ((a.natAbs.log2 : Int) - 52 - e).toNat = (-e).toNat := by omega
  unfold wholeMantissa
  rw [Nat.shiftLeft_eq, Nat.mul_assoc, ← Nat.pow_add, hpow]
  push_cast
  unfold signOf
  split
  · next hneg =>
    show -(_ : Int) = _
    rw [abs_of_neg hneg]
    ring
  · next hneg =>
    rw [abs_of_nonneg (by omega)]
    rfl

theorem whole_of_ne (hne : a ≠ 0) : whole a = .finite (signOf a) (wholeMantissa a.natAbs) (a.natAbs.log2 - 52)
    (wholeMantissa_pos (Int.natAbs_ne_zero.2 hne)) := dif_neg hne

include ha hb in
theorem add_whole (hab : (a + b).natAbs < 2 ^ 53) : UnpackedFloat.add binary64 (whole a) (whole b) = whole (a + b) := by
  by_cases hza : a = 0
  · subst hza
    rw [Int.zero_add]
    by_cases hzb : b = 0
    · subst hzb
      rfl
    · rw [whole_of_ne hzb]
      rfl
  · by_cases hzb : b = 0
    · subst hzb
      rw [Int.add_zero, whole_of_ne hza]
      rfl
    · have hla := log2_le (by omega) ha
      rw [whole_of_ne hza, whole_of_ne hzb]
      show normalize _ _ _ _ = _
      rw [apply_shiftLeft ha hza (Int.min_le_left _ _), apply_shiftLeft hb hzb (Int.min_le_right _ _)]
      refine normalize_whole hab ?_
      have hle : min ((a.natAbs.log2 : Int) - 52) (b.natAbs.log2 - 52) ≤ 0 :=
        Int.le_trans (Int.min_le_left _ _) (by omega)
      rw [Int.toNat_of_nonpos hle]
      ring

theorem sub_whole_self : UnpackedFloat.sub binary64 (whole a) (whole a) = .zero .positive := by
  by_cases hza : a = 0
  · subst hza
    rfl
  · rw [whole_of_ne hza]
    show normalize _ _ _ _ = _
    rw [Int.sub_self]
    rfl

end

/-! Floats of whole numbers -/

theorem nearest_one (hk : k ≠ 0) (hlt : k < 2 ^ 53) (neg : Bool) :
    nearest neg k 1 = compose neg (wholeMantissa k) (k.log2 - 52) := by
  have hlog := log2_le hk hlt
  have hlen : bitLength k = k.log2 + 1 := if_neg hk
  have hone : bitLength 1 = 1 := rfl
  have hdiv : ∀ m, roundDiv m 1 = m := by
    intro m
    unfold roundDiv
    rw [Nat.div_one, Nat.mod_one]
    rfl
  have hover : ¬k * 2 ^ (53 - k.log2) < 1 * 2 ^ 53 := by
    have hle := Nat.mul_le_mul_right (2 ^ (53 - k.log2)) (Nat.log2_self_le hk)
    rw [← Nat.pow_add, Nat.add_sub_cancel' (by omega)] at hle
    omega
  have hq : (((k.log2 + 1 : Nat) : Int) - ((1 : Nat) : Int) - 53) = k.log2 - 53 := by omega
  have hneg : ¬(0 : Int) ≤ k.log2 - 53 := by omega
  have hshift : (-((k.log2 : Int) - 53)).toNat = 53 - k.log2 := by omega
  have hscaled : scaledDiv k 1 (k.log2 - 52) = wholeMantissa k := by
    unfold scaledDiv wholeMantissa
    split
    · next h =>
      have hz : ((k.log2 : Int) - 52).toNat = 0 := by omega
      have hz' : 52 - k.log2 = 0 := by omega
      rw [hz, hz', Nat.pow_zero, Nat.mul_one, hdiv, Nat.mul_one]
    · have hz : (-((k.log2 : Int) - 52)).toNat = 52 - k.log2 := by omega
      rw [hz, hdiv]
  have hmax : max ((k.log2 : Int) - 53 + 1) (-1074) = k.log2 - 52 := by omega
  unfold nearest
  rw [if_neg hk, hlen, hone]
  dsimp only
  rw [hq, if_neg hneg, hshift, decide_eq_false hover]
  simp only [Bool.false_eq_true, if_false]
  rw [hmax, hscaled]

theorem toModel_compose {neg : Bool} (hm : 2 ^ 52 ≤ m ∧ m < 2 ^ 53) (hq : -1074 ≤ q ∧ q ≤ 971) (hpos : 0 < m) :
    (compose neg m q).toModel = pack (.finite (if neg then .negative else .positive) m q hpos) := by
  have hbits : ((signBit neg + (q + 1075).toNat * 2 ^ 52 + (m - 2 ^ 52)).toUInt64).toBitVec =
      packComponents binary64 (if neg then .negative else .positive) (ofNat 11 (q + 1075).toNat) (ofNat 52 m) := by
    apply BitVec.eq_of_toNat_eq
    rw [toNat_packComponents, toNat_ofNat, toNat_ofNat]
    have hsign : signBit neg = (if neg then Sign.negative else .positive).toBitVec.toNat * 2 ^ 63 ∧
        (if neg then Sign.negative else .positive).toBitVec.toNat ≤ 1 := by
      cases neg with
      | true => exact ⟨rfl, Nat.le_refl 1⟩
      | false => exact ⟨rfl, Nat.zero_le 1⟩
    rw [Nat.toUInt64_eq, UInt64.toNat_toBitVec, UInt64.toNat_ofNat', hsign.1]
    omega
  unfold compose
  rw [if_neg (by omega)]
  dsimp only
  rw [if_neg (by omega), if_neg (by omega)]
  show pack (UnpackedFloat.unpack _ _) = _
  rw [hbits, unpack_packComponents hm hq]

theorem ratio_of_mul_eq (h : m * 2 ^ q.toNat = k * 2 ^ (-q).toNat) :
    (ratio m q).1 = k * (ratio m q).2 ∧ 0 < (ratio m q).2 := by
  unfold ratio
  split
  · rw [h, Int.toNat_of_nonpos (by omega), Nat.pow_zero]
    exact ⟨rfl, Nat.one_pos⟩
  · rw [Int.toNat_of_nonpos (by omega), Nat.pow_zero, Nat.mul_one] at h
    exact ⟨h, Nat.two_pow_pos _⟩

variable (hn : n.natAbs < 2 ^ 53)

include hn

theorem toModel_ofInt : (ofInt n).toModel = pack (whole n) := by
  by_cases hz : n = 0
  · subst hz
    rfl
  · have hk : n.natAbs ≠ 0 := by omega
    have hlog := log2_le hk hn
    unfold ofInt
    rw [nearest_one hk hn, toModel_compose (wholeMantissa_bounds hk hn) (by omega) (wholeMantissa_pos hk),
      whole_of_ne hz]
    unfold signOf
    by_cases hneg : n < 0 <;> simp [hneg]

theorem unpack_ofInt : (ofInt n).toModel.unpack = whole n := by
  rw [toModel_ofInt hn]
  by_cases hz : n = 0
  · subst hz
    rfl
  · have hk : n.natAbs ≠ 0 := by omega
    have hlog := log2_le hk hn
    have hq : -1074 ≤ (n.natAbs.log2 : Int) - 52 ∧ (n.natAbs.log2 : Int) - 52 ≤ 971 := by omega
    show UnpackedFloat.unpack _ (UnpackedFloat.pack _ (whole n)) = _
    rw [whole_of_ne hz, pack_normal (wholeMantissa_bounds hk hn) hq, unpack_packComponents
      (wholeMantissa_bounds hk hn) hq]

theorem isNaN_ofInt : (ofInt n).isNaN = false := by
  show (ofInt n).toModel.unpack.isNaN = false
  rw [unpack_ofInt hn]
  unfold whole
  split <;> rfl

theorem isInf_ofInt : (ofInt n).isInf = false := by
  show (ofInt n).toModel.unpack.isInf = false
  rw [unpack_ofInt hn]
  unfold whole
  split <;> rfl

theorem ofFloat_ofInt : ∃ neg m q, Binary.ofFloat (ofInt n) = .finite neg m q ∧
    m * 2 ^ q.toNat = n.natAbs * 2 ^ (-q).toNat ∧ signed neg n.natAbs = n := by
  rw [Binary.ofFloat_eq, unpack_ofInt hn]
  by_cases hz : n = 0
  · subst hz
    exact ⟨false, 0, -1074, rfl, by rw [Int.natAbs_zero, Nat.zero_mul, Nat.zero_mul], rfl⟩
  · have hlog := log2_le (Int.natAbs_ne_zero.2 hz) hn
    have hvalue : wholeMantissa n.natAbs * 2 ^ ((n.natAbs.log2 : Int) - 52).toNat =
        n.natAbs * 2 ^ (-((n.natAbs.log2 : Int) - 52)).toNat := by
      have hshift : (-((n.natAbs.log2 : Int) - 52)).toNat = 52 - n.natAbs.log2 := by omega
      rw [Int.toNat_of_nonpos (by omega), hshift, Nat.pow_zero, Nat.mul_one, wholeMantissa]
    have hsign : signed (isMinus (signOf n)) n.natAbs = n := by
      unfold signed signOf
      by_cases hneg : n < 0
      · rw [if_pos hneg]
        show -(n.natAbs : Int) = n
        omega
      · rw [if_neg hneg]
        show (n.natAbs : Int) = n
        omega
    rw [whole_of_ne hz]
    exact ⟨_, _, _, rfl, hvalue, hsign⟩

theorem roundEven?_ofInt : roundEven? (ofInt n) = some n := by
  obtain ⟨neg, m, q, hparts, hvalue, hsign⟩ := ofFloat_ofInt hn
  obtain ⟨hratio, hpos⟩ := ratio_of_mul_eq hvalue
  unfold roundEven?
  rw [hparts]
  show some (signed neg (roundDiv (ratio m q).1 (ratio m q).2)) = _
  rw [hratio, roundDiv, Nat.mul_div_cancel _ hpos, Nat.mul_mod_left, Nat.mul_zero, if_pos hpos, hsign]

theorem truncate?_ofInt : truncate? (ofInt n) = some n := by
  obtain ⟨neg, m, q, hparts, hvalue, hsign⟩ := ofFloat_ofInt hn
  obtain ⟨hratio, hpos⟩ := ratio_of_mul_eq hvalue
  unfold truncate?
  rw [hparts]
  show some (signed neg ((ratio m q).1 / (ratio m q).2)) = _
  rw [hratio, Nat.mul_div_cancel _ hpos, hsign]

omit hn

theorem ofInt_add {a b : Int} (ha : a.natAbs < 2 ^ 53) (hb : b.natAbs < 2 ^ 53) (hab : (a + b).natAbs < 2 ^ 53) :
    ofInt a + ofInt b = ofInt (a + b) := by
  refine congrArg Float.ofModel (?_ : (ofInt a).toModel + (ofInt b).toModel = (ofInt (a + b)).toModel)
  rw [toModel_ofInt hab, ← add_whole ha hb hab, ← unpack_ofInt ha, ← unpack_ofInt hb]
  rfl

theorem ofInt_sub_self {a : Int} (ha : a.natAbs < 2 ^ 53) : ofInt a - ofInt a = ofInt 0 := by
  refine congrArg Float.ofModel (?_ : (ofInt a).toModel - (ofInt a).toModel = (ofInt 0).toModel)
  show pack (UnpackedFloat.sub _ _ _) = _
  rw [unpack_ofInt ha, sub_whole_self]
  rfl

end Sheetwork.Number
