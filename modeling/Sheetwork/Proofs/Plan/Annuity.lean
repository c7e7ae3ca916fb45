import Sheetwork.Plan.Functions.Finance
import Sheetwork.Proofs.Outcome
/-
  Plans: annuities in exact fractions. A payment has the present and the future value that it was computed from
  (`payment_values`). The principal parts of all payments repay a loan that is paid at the ends of the periods; at
  their beginnings they do so only if there is no interest or no loan (`totalOf_principal_iff`).
-/

open List Finset

namespace Sheetwork.Plan.Functions

/-- Fractions are reckoned with exactly; only a whole power of one is a fraction. -/
instance : Reckoning ℚ where
  ofInt := (↑)
  read := .ok
  whole x := .ok (x.num.tdiv x.den)
  isZero x := x == 0
  add x y := .ok (x + y)
  sub x y := .ok (x - y)
  mul x y := .ok (x * y)
  div x y := if y = 0 then .error .zeroDivisor else .ok (x / y)
  pow x y :=
    if y.den ≠ 1 then .error .badValue
    else if x = 0 ∧ y < 0 then .error .zeroDivisor
    else .ok (x ^ y.num)
  neg x := .ok (-x)

section

variable (x y : ℚ) (n : ℕ)

theorem ok_zero : (0 : Outcome ℚ) = .ok 0 := congrArg Except.ok Int.cast_zero

theorem ok_one : (1 : Outcome ℚ) = .ok 1 := congrArg Except.ok Int.cast_one

theorem ok_add : (.ok x + .ok y : Outcome ℚ) = .ok (x + y) := rfl

theorem ok_sub : (.ok x - .ok y : Outcome ℚ) = .ok (x - y) := rfl

theorem ok_mul : (.ok x * .ok y : Outcome ℚ) = .ok (x * y) := rfl

theorem ok_neg : (-.ok x : Outcome ℚ) = .ok (-x) := rfl

theorem ok_div {y : ℚ} (h : y ≠ 0) : (.ok x / .ok y : Outcome ℚ) = .ok (x / y) := if_neg h

theorem ok_pow : (.ok x ^ (.ok n : Outcome ℚ) : Outcome ℚ) = .ok (x ^ n) := by
  show Reckoning.pow x (n : ℚ) = _
  simp [Reckoning.pow]

theorem ok_whole : Reckoning.whole (n : ℚ) = .ok (n : ℤ) := by simp [Reckoning.whole]

theorem bind_isZero (a b : Outcome ℚ) :
    ((.ok x : Outcome ℚ) >>= fun z => if Reckoning.isZero z then a else b) = if x = 0 then a else b :=
  if_congr beq_iff_eq rfl rfl

theorem ofFive_ok {F : Outcome ℚ → Outcome ℚ → Outcome ℚ → Outcome ℚ → Outcome ℚ → Outcome ℚ} (a b c d e : ℚ) :
    ofFive F a b c d e = F (.ok a) (.ok b) (.ok c) (.ok d) (.ok e) := rfl

theorem ofSix_ok {F : Outcome ℚ → Outcome ℚ → Outcome ℚ → Outcome ℚ → Outcome ℚ → Outcome ℚ → Outcome ℚ}
    (a b c d e g : ℚ) : ofSix F a b c d e g = F (.ok a) (.ok b) (.ok c) (.ok d) (.ok e) (.ok g) := rfl

end

/-- What is paid in each period, also where there is no interest. -/
def paid (r : ℚ) (n : ℕ) (p f t : ℚ) : ℚ :=
  if r = 0 then -(p + f) / n else -r * (p * (1 + r) ^ n + f) / (((1 + r) ^ n - 1) * (1 + r * t))

section Annuity

variable {r t : ℚ} {n : ℕ} (hr : -1 < r) (hn : 1 ≤ n) (ht : t = 0 ∨ t = 1)
include hr hn ht

/-- Interest changes what an amount is worth, and it leaves something of every payment. -/
theorem growth_ne (hr₀ : r ≠ 0) : (1 + r) ^ n ≠ 0 ∧ (1 + r) ^ n - 1 ≠ 0 ∧ 1 + r * t ≠ 0 := by
  refine ⟨(pow_pos (by linarith) n).ne', fun h => hr₀ ?_, ?_⟩
  · have hone := (pow_eq_one_iff_of_nonneg (by linarith) (by omega : n ≠ 0)).1 (sub_eq_zero.1 h)
    linarith
  · rcases ht with rfl | rfl <;> linarith

theorem payment_eq (p f : ℚ) : payment (.ok r) (.ok n) (.ok p) (.ok f) (.ok t) = .ok (paid r n p f t) := by
  rw [payment, bind_isZero, bind_isZero, paid]
  split
  · rw [if_neg (by positivity), ok_add, ok_neg, ok_div _ (by positivity)]
  · next hr₀ =>
    obtain ⟨-, hgrowth, htype⟩ := growth_ne hr hn ht hr₀
    simp only [ok_one, ok_add, ok_sub, ok_mul, ok_neg, ok_pow]
    exact ok_div _ (mul_ne_zero hgrowth htype)

/-- The payment for a present and a future value has these two values. -/
theorem payment_values (p f : ℚ) : ∃ m, ofFive payment r n p f t = .ok m ∧
    ofFive presentValue r n m f t = .ok p ∧ ofFive futureValue r n m p t = .ok f := by
  have hn₀ : (n : ℚ) ≠ 0 := by positivity
  refine ⟨paid r n p f t, ?_⟩
  rw [ofFive_ok, ofFive_ok, ofFive_ok, presentValue, futureValue, bind_isZero, bind_isZero]
  refine ⟨payment_eq hr hn ht p f, ?_⟩
  by_cases hr₀ : r = 0
  · simp only [paid, hr₀, if_true, ok_add, ok_mul, ok_neg, Except.ok.injEq]
    constructor <;> (field_simp; ring)
  · obtain ⟨hpow, hgrowth, htype⟩ := growth_ne hr hn ht hr₀
    simp only [paid, hr₀, if_false, ok_one, ok_add, ok_sub, ok_mul, ok_pow]
    rw [ok_div _ (mul_ne_zero hr₀ hpow), ok_div _ hpow, ok_div _ hr₀]
    simp only [ok_add, ok_neg, Except.ok.injEq]
    constructor <;> (field_simp; ring)

theorem interest_eq (i : ℕ) (p f : ℚ) : interest (.ok r) (.ok (1 + i)) (.ok n) (.ok p) (.ok f) (.ok t) =
      .ok (-(p * (1 + r) ^ i * r + paid r n p f t * ((1 + r) ^ i - 1))) := by
  rw [interest, payment_eq hr hn ht]
  change ((.ok r : Outcome ℚ) >>= fun z => if Reckoning.isZero z then 0 else _) = _
  rw [bind_isZero]
  split
  · next hr₀ => rw [ok_zero, hr₀, add_zero, one_pow, mul_zero, sub_self, mul_zero, add_zero, neg_zero]
  · next hr₀ =>
    rw [ok_one, ok_sub, add_sub_cancel_left]
    simp only [ok_add, ok_sub, ok_mul, ok_pow]
    rw [ok_div _ hr₀]
    simp only [ok_add, ok_mul, ok_neg, Except.ok.injEq]
    field_simp

/-- The principal part of a payment grows with the rate from period to period. -/
theorem principal_eq (i : ℕ) (p f : ℚ) :
    ofSix principal r (1 + i) n p f t = .ok ((p * r + paid r n p f t) * (1 + r) ^ i) := by
  rw [ofSix_ok, principal, payment_eq hr hn ht, interest_eq hr hn ht, ok_sub]
  congr 1
  ring

theorem foldlM_principal (p : ℚ) (k : ℕ) : (List.range k).foldlM (fun sum (i : ℕ) => do
        Reckoning.add sum (← ofSix principal r (Reckoning.ofInt (1 + i)) n p (Reckoning.ofInt 0) t)) 0 =
      .ok ((p * r + paid r n p 0 t) * ∑ i ∈ Finset.range k, (1 + r) ^ i) := by
  induction k with
  | zero => rw [Finset.sum_range_zero, mul_zero]; rfl
  | succ k ih =>
    have hpart : ofSix principal r (Reckoning.ofInt (1 + k)) n p (Reckoning.ofInt 0) t =
        .ok ((p * r + paid r n p 0 t) * (1 + r) ^ k) := by
      rw [← principal_eq hr hn ht]
      simp [Reckoning.ofInt]
    rw [List.range_succ, foldlM_append, ih, Finset.sum_range_succ, mul_add]
    simp only [bind, Except.bind, foldlM_cons, foldlM_nil, hpart]
    rfl

theorem totalOf_principal (p : ℚ) : totalOf (ofSix principal) r n p 1 n t =
    .ok (p * ((1 + r) ^ n - 1) - p * (1 + r) ^ n / (1 + r * t)) := by
  have hstart : Reckoning.whole (1 : ℚ) = .ok 1 := by simpa using ok_whole 1
  have hfirst : Reckoning.read (Reckoning.ofInt 0 : ℚ) = .ok 0 := congrArg Except.ok Int.cast_zero
  rw [totalOf, hstart, ok_whole]
  simp only [bind, Except.bind, hfirst]
  rw [Int.add_sub_cancel, Int.toNat_natCast]
  refine (foldlM_principal hr hn ht p n).trans ?_
  congr 1
  by_cases hr₀ : r = 0
  · have hn₀ : (n : ℚ) ≠ 0 := by positivity
    rw [paid, if_pos hr₀, hr₀]
    simp only [add_zero, one_pow, Finset.sum_const, Finset.card_range, nsmul_eq_mul, zero_mul]
    field_simp
    ring
  · obtain ⟨-, hgrowth, htype⟩ := growth_ne hr hn ht hr₀
    have hsum : (∑ i ∈ Finset.range n, (1 + r) ^ i) * r = (1 + r) ^ n - 1 := by simpa using geom_sum_mul (1 + r) n
    rw [paid, if_neg hr₀, eq_div_of_mul_eq hr₀ hsum]
    field_simp
    ring

/-- The principal parts of all payments repay a loan exactly if it is paid at the ends of the periods, or there is no
interest or no loan: the interest is taken as if it were paid at the ends. -/
theorem totalOf_principal_iff (p : ℚ) : ∃ v, totalOf (ofSix principal) r n p 1 n t = .ok v ∧
    (v = -p ↔ t = 0 ∨ r = 0 ∨ p = 0) := by
  refine ⟨_, totalOf_principal hr hn ht p, ?_⟩
  rcases ht with rfl | rfl
  · simp
    ring
  · have hrate : 1 + r ≠ 0 := by linarith
    obtain ⟨k, rfl⟩ := Nat.exists_eq_add_of_le' hn
    have hvalue : p * ((1 + r) ^ (k + 1) - 1) - p * (1 + r) ^ (k + 1) / (1 + r * 1) = -p + p * r * (1 + r) ^ k := by
      field_simp
      ring
    rw [hvalue, add_eq_left, mul_eq_zero, mul_eq_zero, or_iff_left (pow_ne_zero k hrate)]
    simp [or_comm]

end Annuity

/-- Payments at the beginnings of twelve periods, with a tenth as interest. -/
theorem totalOf_principal_twelve : ∃ v,
    totalOf (ofSix principal) (1 / 10) ((12 : ℕ) : ℚ) 1000 1 ((12 : ℕ) : ℚ) 1 = .ok v ∧
      (v = -1000 ↔ (1 : ℚ) = 0 ∨ (1 / 10 : ℚ) = 0 ∨ (1000 : ℚ) = 0) :=
  totalOf_principal_iff (by norm_num) (by decide) (.inr rfl) 1000

theorem payment_values_twelve : ∃ m, ofFive payment (1 / 10 : ℚ) ((12 : ℕ) : ℚ) 1000 (-50) 1 = .ok m ∧
    ofFive presentValue (1 / 10 : ℚ) ((12 : ℕ) : ℚ) m (-50) 1 = .ok 1000 ∧
      ofFive futureValue (1 / 10 : ℚ) ((12 : ℕ) : ℚ) m 1000 1 = .ok (-50) :=
  payment_values (by norm_num) (by decide) (.inr rfl) 1000 (-50)

end Sheetwork.Plan.Functions
