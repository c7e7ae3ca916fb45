import Mathlib
import Sheetwork.Text.Basic
import Sheetwork.Text.Pattern
/-
  Text: what matching by backtracking guarantees. A match only moves forwards and ends in what was to follow
  (`run_continues`). A repetition of a class of characters takes the longest stretch if what follows then succeeds
  (`run_rep_one`), and a part that may be missing is taken if it can be (`run_opt`). Written numbers are digits of
  ASCII that read back as the number (`natOfDigits_natL`).
-/

open List

namespace Sheetwork.Text

/-- From position `i` on the text is `w`. -/
def Stands (s : Array Char) (i : Nat) (w : List Char) : Prop := s.toList.drop i = w

namespace Stands

variable {s : Array Char} {i : Nat} {c : Char} {u v w : List Char}

theorem start (w : List Char) : Stands w.toArray 0 w := by rw [Stands, drop_zero]

theorem getElem? (h : Stands s i w) : s[i]? = w.head? := by rw [← h, head?_drop, Array.getElem?_toList]

theorem getElem?_add (h : Stands s i w) (n : Nat) : s[i + n]? = w[n]? := by
  rw [← h, getElem?_drop, Array.getElem?_toList]

theorem tail (h : Stands s i (c :: v)) : Stands s (i + 1) v := by
  rw [Stands, ← drop_drop, h]
  rfl

theorem append (h : Stands s i (u ++ v)) : Stands s (i + u.length) v := by rw [Stands, ← drop_drop, h, drop_left]

theorem size (h : Stands s i w) (hi : i ≤ s.size) : i + w.length = s.size := by
  rw [← h, length_drop, Array.length_toList]
  omega

theorem extract (h : Stands s i (u ++ v)) : (s.extract i (i + u.length)).toList = u := by
  rw [Array.toList_extract, extract_eq_take_drop, Nat.add_sub_cancel_left, h, take_left]

end Stands

namespace Pattern

variable {s : Array Char} {i : Nat} {cs : Captures} {k : Follow} {r : Nat × Captures} {t : Char → Bool} {g : Bool}
  {m : Option Nat}

attribute [local simp] run rounds

theorem run_one {c : Char} {v : List Char} (h : Stands s i (c :: v)) (hc : t c = true) :
    run s (one t) i cs k = k (i + 1) cs := by
  rw [run, h.getElem?]
  simp [hc]

theorem run_one_none {w : List Char} (h : Stands s i w) (hw : ∀ c, w.head? = some c → t c = false) :
    run s (one t) i cs k = none := by
  rw [run, h.getElem?]
  cases hc : w.head? with
  | none => rfl
  | some c => simp [hw c hc]

/-! Forwards -/

theorem orElse_cases {α : Type} {o : Option α} {f : Unit → Option α} {a : α}
    (h : o.orElse f = some a) : o = some a ∨ f () = some a := by
  cases o with
  | none => exact .inr h
  | some b => exact .inl h

variable {step : Nat → Captures → Follow → Option (Nat × Captures)} {fuel least l : Nat} {most : Option Nat}

theorem rounds_cases (h : rounds step g k (fuel + 1) least most i cs = some r) : least = 0 ∧ k i cs = some r ∨
      ∃ f, step i cs f = some r ∧
        ∀ j ds, f j ds = some r → rounds step g k fuel (least - 1) (most.map (· - 1)) j ds = some r := by
  rw [rounds] at h
  split at h
  · exact .inr ⟨_, h, fun _ _ => id⟩
  · next hl =>
    obtain rfl : least = 0 := by omega
    have more : (step i cs fun j ds => if j = i then none
        else rounds step g k fuel 0 (most.map (· - 1)) j ds) = some r → ∃ f, step i cs f = some r ∧
          ∀ j ds, f j ds = some r → rounds step g k fuel 0 (most.map (· - 1)) j ds = some r := by
      refine fun h => ⟨_, h, fun j ds hj => ?_⟩
      split at hj
      · cases hj
      · exact hj
    split at h
    · exact .inl ⟨rfl, h⟩
    · split at h
      · exact (orElse_cases h).symm.imp (⟨rfl, ·⟩) more
      · exact (orElse_cases h).imp (⟨rfl, ·⟩) more

theorem rounds_continues (hstep : ∀ i cs k r, step i cs k = some r → ∃ j ds, i ≤ j ∧ k j ds = some r) (greedy : Bool)
    (fuel least : Nat) (most : Option Nat) (h : rounds step greedy k fuel least most i cs = some r) :
    ∃ j ds, i ≤ j ∧ k j ds = some r := by
  induction fuel generalizing least most i cs with
  | zero => exact ⟨i, cs, Nat.le_refl i, h⟩
  | succ fuel ih =>
    rcases rounds_cases h with ⟨-, h⟩ | ⟨f, h, hmore⟩
    · exact ⟨i, cs, Nat.le_refl i, h⟩
    · obtain ⟨j, ds, hij, h⟩ := hstep _ _ _ _ h
      obtain ⟨l, es, hjl, h⟩ := ih _ _ (hmore j ds h)
      exact ⟨l, es, Nat.le_trans hij hjl, h⟩

theorem run_continues (p : Pattern) (h : run s p i cs k = some r) : ∃ j ds, i ≤ j ∧ k j ds = some r := by
  induction p generalizing i cs k r with
  | nothing => exact ⟨i, cs, Nat.le_refl i, h⟩
  | one t =>
    rw [run] at h
    split at h
    · split at h
      · exact ⟨i + 1, cs, Nat.le_succ i, h⟩
      · cases h
    · cases h
  | seq a b iha ihb =>
    obtain ⟨j, ds, hij, h⟩ := iha h
    obtain ⟨l, es, hjl, h⟩ := ihb h
    exact ⟨l, es, Nat.le_trans hij hjl, h⟩
  | alt a b iha ihb =>
    rcases orElse_cases h with h | h
    · exact iha h
    · exact ihb h
  | rep g l m p ih => exact rounds_continues (fun _ _ _ _ h => ih h) _ _ _ _ h
  | cap n p ih =>
    obtain ⟨j, ds, hij, h⟩ := ih h
    exact ⟨j, (n, i, j) :: ds, hij, h⟩
  | ahead holds p ih =>
    rw [run] at h
    split at h <;> split at h
    · exact ⟨i, _, Nat.le_refl i, h⟩
    · cases h
    · cases h
    · exact ⟨i, _, Nat.le_refl i, h⟩
  | behind | start | finish | boundary =>
    rw [run] at h
    split at h
    · exact ⟨i, cs, Nat.le_refl i, h⟩
    · cases h

theorem getElem?_of_run_one (h : run s (one t) i cs k = some r) :
    ∃ c, s[i]? = some c ∧ t c = true ∧ k (i + 1) cs = some r := by
  rw [run] at h
  split at h
  · next c hc =>
    split at h
    · next ht => exact ⟨c, hc, ht, h⟩
    · cases h
  · cases h

theorem run_plus_continues (h : run s (rep g (l + 1) m (one t)) i cs k = some r) :
    (∃ c, s[i]? = some c ∧ t c = true) ∧ ∃ j ds, i + 1 ≤ j ∧ k j ds = some r := by
  obtain ⟨c, hc, ht, h⟩ := getElem?_of_run_one h
  exact ⟨⟨c, hc, ht⟩, rounds_continues (fun _ _ _ _ h => run_continues (one t) h) _ _ _ _ h⟩

theorem rounds_one_cases (h : rounds (fun j ds f => run s (one t) j ds f) g k fuel least most i cs = some r)
    (hf : least ≤ fuel) :
    ∃ j, i + least ≤ j ∧ (∀ n, i ≤ n → n < j → ∃ c, s[n]? = some c ∧ t c = true) ∧ k j cs = some r := by
  induction fuel generalizing least most i with
  | zero =>
    obtain rfl := Nat.le_zero.1 hf
    exact ⟨i, Nat.le_refl i, fun n hn hlt => by omega, h⟩
  | succ fuel ih =>
    rcases rounds_cases h with ⟨hl, h⟩ | ⟨f, h, hmore⟩
    · exact ⟨i, by omega, fun n hn hlt => by omega, h⟩
    · obtain ⟨c, hc, ht, h⟩ := getElem?_of_run_one h
      obtain ⟨j, hj, hall, hk⟩ := ih (hmore _ _ h) (by omega)
      refine ⟨j, by omega, fun n hn hlt => ?_, hk⟩
      by_cases hni : n = i
      · exact ⟨c, hni ▸ hc, ht⟩
      · exact hall n (by omega) hlt

theorem run_rep_one_cases (h : run s (rep g l m (one t)) i cs k = some r) :
    ∃ j, i + l ≤ j ∧ (∀ n, i ≤ n → n < j → ∃ c, s[n]? = some c ∧ t c = true) ∧ k j cs = some r :=
  rounds_one_cases h (by omega)

variable {u v w : List Char} {fuel least : Nat} {most : Option Nat} {p : Pattern} {m : Match}

/-! The longest stretch -/

section

variable (h : Stands s i (u ++ v)) (hi : i ≤ s.size) (hu : ∀ c ∈ u, t c = true) (hl : least ≤ u.length)
  (hm : ∀ n, most = some n → u.length ≤ n) (hv : (∀ c, v.head? = some c → t c = false) ∨ most = some u.length)
  (hk : k (i + u.length) cs = some r)
include h hu hl hm hv hk

theorem rounds_one (hf : u.length < fuel) :
    rounds (fun j ds f => run s (one t) j ds f) true k fuel least most i cs = some r := by
  induction u generalizing i least most fuel with
  | nil =>
    obtain ⟨fuel, rfl⟩ : ∃ n, fuel = n + 1 := ⟨fuel - 1, by simp at hf; omega⟩
    obtain rfl : least = 0 := Nat.le_zero.1 hl
    rw [rounds, if_neg (Nat.lt_irrefl 0)]
    split
    · exact hk
    · next hne =>
      have hstop := hv.resolve_right hne
      rw [run_one_none h hstop]
      exact hk
  | cons c u ih =>
    obtain ⟨fuel, rfl⟩ : ∃ n, fuel = n + 1 := ⟨fuel - 1, by simp at hf; omega⟩
    have hc := hu c mem_cons_self
    have hpos : ∀ n, most = some n → 1 ≤ n := fun n hn => by
      have := hm n hn
      simp only [length_cons] at this
      omega
    have next : ∀ least', least' ≤ u.length → rounds (fun j ds f => run s (one t) j ds f) true k
        fuel least' (most.map (· - 1)) (i + 1) cs = some r := by
      intro least' hl'
      refine ih h.tail (fun d hd => hu d (mem_cons_of_mem _ hd)) hl' ?_ ?_ ?_ ?_
      · intro n hn
        obtain ⟨m, hm', rfl⟩ := Option.map_eq_some_iff.1 hn
        have := hm m hm'
        simp only [length_cons] at this
        omega
      · refine hv.imp_right fun e => ?_
        rw [e]
        rfl
      · rw [← hk, length_cons]
        congr 1
        omega
      · simp only [length_cons] at hf
        omega
    rw [rounds]
    split
    · rw [run_one h hc]
      refine next _ ?_
      simp only [length_cons] at hl
      omega
    · split
      · next e => exact absurd (hpos 0 e) (by decide)
      · rw [if_pos rfl]
        rw [run_one h hc, if_neg (by omega), next 0 (Nat.zero_le _)]
        rfl

include hi

/-- A repetition of a class takes the whole stretch if what follows succeeds behind it. -/
theorem run_rep_one : run s (rep true least most (one t)) i cs k = some r := by
  have hsize := h.size hi
  rw [length_append] at hsize
  exact rounds_one h hu hl hm hv hk (by omega)

end

/-- A part that may be missing is taken if what follows succeeds behind it. -/
theorem run_opt : run s (opt p) i cs k =
    (run s p i cs fun j ds => if j = i then none else k j ds).orElse fun _ => k i cs := by
  have hstop : ∀ (step : Nat → Captures → Follow → Option (Nat × Captures)) (n : Nat) (j : Nat)
      (ds : Captures), rounds step true k n 0 (some 0) j ds = k j ds := by
    intro step n j ds
    cases n with
    | zero => rfl
    | succ n => rw [rounds, if_neg (Nat.lt_irrefl 0), if_pos rfl]
  rw [opt, run, rounds, if_neg (Nat.lt_irrefl 0), if_neg (by decide), if_pos rfl]
  simp only [Option.map_some, Nat.sub_self, hstop]

/-! Searching -/

theorem matchAt?_of_run {j : Nat} (h : run s p i [] (fun j cs => some (j, cs)) = some (j, cs)) :
    p.matchAt? s i = some ⟨s, i, j, cs⟩ := by
  rw [matchAt?, h]
  rfl

theorem searchFrom?_none (h : ∀ j, i ≤ j → p.matchAt? s j = none) (fuel : Nat) : p.searchFrom? s fuel i = none := by
  induction fuel generalizing i with
  | zero => rfl
  | succ fuel ih =>
    rw [searchFrom?, h i (Nat.le_refl i)]
    exact ih fun j hj => h j (by omega)

theorem allFrom_nil (h : ∀ j, i ≤ j → p.matchAt? s j = none) (fuel : Nat) : p.allFrom s fuel i false = [] := by
  cases fuel with
  | zero => rfl
  | succ fuel =>
    rw [allFrom, if_neg Bool.false_ne_true, h i (Nat.le_refl i)]
    dsimp only [Option.orElse_none]
    rw [searchFrom?_none fun j hj => h j (by omega)]

end Pattern

variable {c : Char} {n : Nat}

/-! Classes of characters -/

section

variable {t : Char → Bool} {u r : List Char}

theorem span_append (hu : ∀ c ∈ u, t c = true) (hr : ∀ c, r.head? = some c → t c = false) :
    (u ++ r).takeWhile t = u ∧ (u ++ r).dropWhile t = r := by
  have hstop : r.takeWhile t = [] ∧ r.dropWhile t = r := by
    cases r with
    | nil => exact ⟨rfl, rfl⟩
    | cons c r => simp [hr c rfl]
  rw [takeWhile_append_of_pos hu, dropWhile_append_of_pos hu, hstop.1, hstop.2, append_nil]
  exact ⟨rfl, rfl⟩

theorem takeWhile_take_append (hu : ∀ c ∈ u, t c = true) (hlen : u.length ≤ n)
    (hr : ∀ c, r.head? = some c → t c = false) : ((u ++ r).take n).takeWhile t = u := by
  rw [take_append, take_of_length_le hlen]
  refine (span_append hu fun c hc => ?_).1
  rw [head?_take] at hc
  split at hc
  · cases hc
  · exact hr c hc

end

/-! Digits, capitals and dollar signs -/

theorem isAsciiUpper_iff : isAsciiUpper c = true ↔ 65 ≤ c.toNat ∧ c.toNat ≤ 90 := by
  simp only [isAsciiUpper, Bool.and_eq_true, decide_eq_true_eq, Char.le_def, UInt32.le_iff_toNat_le]
  exact Iff.rfl

theorem isAsciiLower_iff : isAsciiLower c = true ↔ 97 ≤ c.toNat ∧ c.toNat ≤ 122 := by
  simp only [isAsciiLower, Bool.and_eq_true, decide_eq_true_eq, Char.le_def, UInt32.le_iff_toNat_le]
  exact Iff.rfl

theorem isAsciiDigit_iff : isAsciiDigit c = true ↔ 48 ≤ c.toNat ∧ c.toNat ≤ 57 := by
  simp only [isAsciiDigit, Bool.and_eq_true, decide_eq_true_eq, Char.le_def, UInt32.le_iff_toNat_le]
  exact Iff.rfl

theorem isDecimal_of_isAsciiDigit (h : isAsciiDigit c = true) : decimalValue? c = some (c.toNat - 48) := by
  have hlt : c.toNat < 128 := by
    have := isAsciiDigit_iff.1 h
    omega
  rw [decimalValue?, if_pos hlt, if_pos h]

theorem isDecimal_eq_false (h : c.toNat < 48 ∨ 57 < c.toNat) (hlt : c.toNat < 128) : isDecimal c = false := by
  have hd : ¬ isAsciiDigit c = true := fun hd => by
    have := isAsciiDigit_iff.1 hd
    omega
  rw [isDecimal, decimalValue?, if_pos hlt, if_neg hd]
  rfl

theorem isAsciiDigit_of_mem_natL (h : c ∈ natL n) : isAsciiDigit c = true := by
  have hd := Nat.isDigit_of_mem_toDigits (by decide) (by decide) h
  rw [Char.isDigit_iff_toNat] at hd
  exact isAsciiDigit_iff.2 hd

theorem isDecimal_of_digit (h : isAsciiDigit c = true) : isDecimal c = true := by
  rw [isDecimal, isDecimal_of_isAsciiDigit h]
  rfl

theorem isDecimal_of_mem_natL (h : c ∈ natL n) : isDecimal c = true := isDecimal_of_digit (isAsciiDigit_of_mem_natL h)

theorem natOfDigits_natL (n : Nat) : natOfDigits (natL n) = n := by
  have fold : ∀ (ds : List Char) (m : Nat), (∀ c ∈ ds, isAsciiDigit c = true) →
      ds.foldl (fun n c => 10 * n + (decimalValue? c).getD 0) m = Nat.ofDigitChars 10 ds m := by
    intro ds
    induction ds with
    | nil => exact fun _ _ => rfl
    | cons c ds ih =>
      intro m h
      rw [foldl_cons, isDecimal_of_isAsciiDigit (h c mem_cons_self), ih _ fun d hd => h d (mem_cons_of_mem _ hd)]
      rfl
  rw [natOfDigits, fold _ _ fun c => isAsciiDigit_of_mem_natL]
  exact Nat.ofDigitChars_ten_toDigits

theorem exists_natL_eq_cons (n : Nat) : ∃ c cs, natL n = c :: cs ∧ isAsciiDigit c = true := by
  have hne : natL n ≠ [] := Nat.toDigits_ne_nil
  obtain ⟨c, cs, h⟩ := exists_cons_of_ne_nil hne
  have hc : c ∈ natL n := by rw [h]; exact mem_cons_self
  exact ⟨c, cs, h, isAsciiDigit_of_mem_natL hc⟩

theorem exists_toList_ofInt (k : Int) : ∃ u n, (ofInt k).toList = u ++ natL n ∧ ∀ c ∈ u, c = '-' := by
  cases k with
  | ofNat n => exact ⟨[], n, String.toList_ofList, nofun⟩
  | negSucc n =>
    refine ⟨['-'], n + 1, ?_, fun c => mem_singleton.1⟩
    rw [ofInt, ofNat, String.toList_append, String.toList_ofList, String.toList_ofList]

theorem isAsciiDigit_head?_natL {v : List Char} (h : (natL n ++ v).head? = some c) : isAsciiDigit c = true := by
  obtain ⟨d, ds, hd, hdigit⟩ := exists_natL_eq_cons n
  rw [hd, cons_append, head?_cons, Option.some.injEq] at h
  exact h ▸ hdigit

theorem isAsciiLetter_eq_false_of_decimal (h : isDecimal c = true) : isAsciiLetter c = false := by
  rw [← Bool.not_eq_true, isAsciiLetter, Bool.or_eq_true, isAsciiUpper_iff, isAsciiLower_iff]
  intro hc
  rw [isDecimal_eq_false (.inr (by omega)) (by omega)] at h
  cases h

theorem isAsciiUpper_eq_false_of_decimal (h : isDecimal c = true) : isAsciiUpper c = false :=
  (Bool.or_eq_false_iff.1 (isAsciiLetter_eq_false_of_decimal h)).1

theorem isAsciiUpper_eq_false_of_digit (h : isAsciiDigit c = true) : isAsciiUpper c = false :=
  isAsciiUpper_eq_false_of_decimal (isDecimal_of_digit h)

theorem isDigit_capital (h : isAsciiUpper c = true) : isDigit c = false := by
  have hcode := isAsciiUpper_iff.1 h
  rw [isDigit, if_pos (by omega), Bool.eq_false_iff]
  exact fun hdigit => absurd h (by rw [isAsciiUpper_eq_false_of_digit hdigit]; decide)

/-- A dollar sign, or nothing. -/
def dollars (b : Bool) : List Char := if b then ['$'] else []

theorem mem_dollars {b : Bool} (h : c ∈ dollars b) : c = '$' := by cases b <;> simp_all [dollars]

namespace Pattern

variable {s : Array Char} {i : Nat} {cs : Captures} {k : Follow} {r : Nat × Captures}

theorem run_digits {v : List Char} (h : Stands s i (natL n ++ v)) (hi : i ≤ s.size)
    (hv : ∀ c, v.head? = some c → isDecimal c = false)
    (hk : k (i + (natL n).length) cs = some r) : run s (plus digit) i cs k = some r := by
  obtain ⟨d, ds, hd, -⟩ := exists_natL_eq_cons n
  exact run_rep_one h hi (fun c => isDecimal_of_mem_natL) (by rw [hd]; simp) nofun (.inl hv) hk

end Pattern

end Sheetwork.Text
