import Sheetwork.Script.Library
/-
  Scripts: laws of the library. The parts of a text make it up again, unless the last is empty (`append_parts`).
  Months are counted from the year zero (`monthIndex`), and the day that is picked in another month is one of the
  calendar (`monthsLater_eq`); so months are added (`addMonths_lands`) and counted between dates
  (`dateDifference_counts`).
-/

namespace Sheetwork.Script

open Calendar Value

/-! Parts of texts -/

section

variable {s : String} {a b : Nat}

theorem bound_natCast (ha : a ≤ s.length) : bound s.toList.length a = a := by
  rw [String.length_toList, bound, if_neg (by omega)]
  omega

/-- A text cut at two places is its left, its middle and its right part; but a right part of no
characters is the whole text. -/
theorem append_parts (hab : a ≤ b) (hb : b ≤ s.length) :
    ∃ l m r, left (.text s) (.int a) = .ok (.text l) ∧ mid (.text s) (.int (a + 1)) (.int (b - a)) = .ok (.text m) ∧
      right (.text s) (.int (s.length - b)) = .ok (.text r) ∧ l ++ m ++ r = if b < s.length then s else s ++ s := by
  have hstart : (a : Int) + 1 - 1 = a := by omega
  have hstop : (a : Int) + (b - a) = b := by omega
  have hlast : bound s.toList.length (-(s.length - b)) = if b < s.length then b else 0 := by
    rw [String.length_toList, bound]
    split <;> split <;> omega
  have hfront : s.toList.take a ++ (s.toList.take b).drop a = s.toList.take b := by
    rw [← Nat.min_eq_left hab, ← List.take_take, Nat.min_eq_left hab, List.take_append_drop]
  refine ⟨_, _, _, rfl, rfl, rfl, String.toList_inj.1 ?_⟩
  simp only [sliceText, slice, toText, hstart, hstop, Option.map_some, Option.map_none, Option.getD_some,
    Option.getD_none, bound_natCast (Nat.le_trans hab hb), bound_natCast hb, hlast, List.drop_zero, List.take_length,
    String.toList_append, String.toList_ofList, hfront]
  split
  · exact List.take_append_drop b s.toList
  · rw [List.drop_zero, String.toList_append, List.take_of_length_le (by rw [String.length_toList]; omega)]

theorem append_parts_whole : ∃ l m r, left (.text "sheet") (.int 2) = .ok (.text l) ∧
    mid (.text "sheet") (.int 3) (.int 3) = .ok (.text m) ∧ right (.text "sheet") (.int 0) = .ok (.text r) ∧
      l ++ m ++ r = "sheetsheet" :=
  append_parts (a := 2) (b := 5) (by decide) (by decide)

end

/-! Months -/

variable {v : Value} {d e : Date} {i n : Int} {day : Nat → Nat}

def monthIndex (d : Date) : Int := 12 * d.year + d.month - 1

/-- The day that a rule picks in the month with an index, given the length of that month. -/
def ofMonth (i : Int) (day : Nat → Nat) : Date :=
  ⟨(i / 12).toNat, (i % 12).toNat + 1, day (daysInMonth (i / 12).toNat ((i % 12).toNat + 1))⟩

/-- The month lies in a year that dates can have. -/
def InYears (i : Int) : Prop := 1 ≤ i / 12 ∧ i / 12 ≤ maxYear

def IsDate (d : Date) : Prop := isValid d.year d.month d.day

theorem isDate_iff : IsDate d ↔
    1 ≤ d.year ∧ d.year ≤ maxYear ∧ 1 ≤ d.month ∧ d.month ≤ 12 ∧ 1 ≤ d.day ∧ d.day ≤ daysInMonth d.year d.month := by
  simp [IsDate, isValid, and_assoc]

theorem le_daysInMonth (y m : Nat) : 28 ≤ daysInMonth y m ∧ daysInMonth y m ≤ 31 := by
  unfold daysInMonth
  split
  · split <;> omega
  · split <;> omega

theorem dateFrom_eq (hd : IsDate d) : dateFrom d.year d.month d.day = .ok (.date d) := by
  have hword : ∀ n : Nat, n ≤ maxYear → word n = .ok n := by
    unfold word maxYear
    intro n hn
    rw [if_pos (by simp; omega)]
  have hdays := (le_daysInMonth d.year d.month).2
  obtain ⟨-, hy, -, hm, -, hday⟩ := isDate_iff.1 hd
  unfold maxYear at *
  rw [dateFrom, hword _ hy, hword _ (by omega), hword _ (by omega)]
  simp only [bind, Except.bind, Int.toNat_natCast, Date.ofParts?]
  rw [if_neg (by simp), if_pos (show isValid _ _ _ = true from hd)]
  rfl

theorem isDate_ofMonth (hi : InYears i) (hday : ∀ k, 28 ≤ k → 1 ≤ day k ∧ day k ≤ k) : IsDate (ofMonth i day) := by
  unfold InYears at hi
  rw [isDate_iff]
  refine ⟨?_, ?_, ?_, ?_, hday _ (le_daysInMonth _ _).1⟩ <;> dsimp only [ofMonth] <;> omega

theorem monthIndex_ofMonth (hi : InYears i) (day : Nat → Nat) : monthIndex (ofMonth i day) = i := by
  unfold InYears at hi
  unfold monthIndex ofMonth
  dsimp only
  omega

theorem monthLength_eq {y : Int} (hy : 0 ≤ y) (m : Nat) : monthLength y m = daysInMonth y.toNat m := by
  have hleap : ∀ y, isLeap (y % 400) = isLeap y := by
    unfold isLeap
    grind
  have hmod : (y % 400).toNat = y.toNat % 400 := by omega
  unfold monthLength daysInMonth
  rw [Int.fmod_eq_emod_of_nonneg _ (by decide), hmod, hleap]

theorem monthAfter_eq : monthAfter d n = ((monthIndex d + n) / 12, ((monthIndex d + n) % 12).toNat + 1) := by
  unfold monthAfter monthIndex
  dsimp only
  rw [Int.fdiv_eq_ediv_of_nonneg _ (by decide), Int.fmod_eq_emod_of_nonneg _ (by decide)]
  refine Prod.ext ?_ ?_ <;> dsimp only <;> omega

theorem monthsLater_eq {day : Date → Nat → Nat} (hv : dateOf? v = some d) (hn : InYears (monthIndex d + n))
    (hday : ∀ k, 28 ≤ k → 1 ≤ day d k ∧ day d k ≤ k) :
    monthsLater day v (.int n) = .ok (.date (ofMonth (monthIndex d + n) (day d))) := by
  have hdate := dateFrom_eq (isDate_ofMonth hn hday)
  have hyear : (((monthIndex d + n) / 12).toNat : Int) = (monthIndex d + n) / 12 := by
    unfold InYears at hn
    omega
  have hnumber : toInt (.int n) = pure n := rfl
  unfold monthsLater
  rw [hv]
  simp only [hnumber, pure_bind, monthAfter_eq, monthLength_eq (y := (monthIndex d + n) / 12) (by omega)]
  rw [← hyear]
  exact hdate

theorem min_day (hd : IsDate d) (k : Nat) (hk : 28 ≤ k) : 1 ≤ min d.day k ∧ min d.day k ≤ k := by
  have := isDate_iff.1 hd
  omega

theorem addMonths_eq (hv : dateOf? v = some d) (hd : IsDate d) (hn : InYears (monthIndex d + n)) :
    addMonths v (.int n) = .ok (.date (ofMonth (monthIndex d + n) (min d.day))) :=
  monthsLater_eq hv hn (min_day hd)

/-- Some months before or after, a date has the day it had, or the last one, of the month that so many months
lead to; the end of that month is its last day; and if every month has the day, months add up. -/
theorem addMonths_lands (hv : dateOf? v = some d) (hd : IsDate d) :
    (∀ n, InYears (monthIndex d + n) → ∃ e, addMonths v (.int n) = .ok (.date e) ∧ IsDate e ∧
        monthIndex e = monthIndex d + n ∧ e.day = min d.day (daysInMonth e.year e.month) ∧
        endOfMonth v (.int n) = .ok (.date { e with day := daysInMonth e.year e.month })) ∧
      ∀ m n, d.day ≤ 28 → InYears (monthIndex d + m) → InYears (monthIndex d + (m + n)) →
        (do addMonths (← addMonths v (.int m)) (.int n)) = addMonths v (.int (m + n)) := by
  constructor
  · intro n hn
    refine ⟨_, addMonths_eq hv hd hn, isDate_ofMonth hn (min_day hd), monthIndex_ofMonth hn _, rfl, ?_⟩
    exact monthsLater_eq hv hn fun k hk => ⟨by omega, Nat.le_refl k⟩
  · intro m n hday hm hn
    have hkeep : (ofMonth (monthIndex d + m) (min d.day)).day = d.day :=
      Nat.min_eq_left (Nat.le_trans hday (le_daysInMonth _ _).1)
    have hagain := addMonths_eq (v := .date _) (n := n) rfl (isDate_ofMonth hm (min_day hd))
    rw [monthIndex_ofMonth hm, Int.add_assoc, hkeep] at hagain
    rw [addMonths_eq hv hd hm, addMonths_eq hv hd hn]
    exact (pure_bind _ _).trans (hagain hn)

theorem addMonths_lands_leap : ∃ e, addMonths (.date ⟨2024, 2, 28⟩) (.int (-12)) = .ok (.date e) ∧
    monthIndex e = monthIndex ⟨2024, 2, 28⟩ + -12 ∧
      (do addMonths (← addMonths (.date ⟨2024, 2, 28⟩) (.int (-12))) (.int 13)) =
        addMonths (.date ⟨2024, 2, 28⟩) (.int (-12 + 13)) := by
  obtain ⟨hlands, hadds⟩ := addMonths_lands (v := .date ⟨2024, 2, 28⟩) rfl rfl
  obtain ⟨e, he, -, hindex, -⟩ := hlands (-12) ⟨by decide, by decide⟩
  exact ⟨e, he, hindex, hadds (-12) 13 (by decide) ⟨by decide, by decide⟩ ⟨by decide, by decide⟩⟩

theorem isLE_natsOrder_cons (a b : Nat) (as bs : List Nat) :
    (natsOrder (a :: as) (b :: bs)).isLE ↔ a < b ∨ a = b ∧ (natsOrder as bs).isLE := by
  rw [natsOrder]
  split
  · next h => simp [h]
  · next h => rw [Nat.isLE_compare]; omega

theorem le_date_iff (hd : IsDate d) (he : IsDate e) : le (.date d) (.date e) = .ok true ↔
    monthIndex d < monthIndex e ∨ monthIndex d = monthIndex e ∧ d.day ≤ e.day := by
  have hle : le (.date d) (.date e) = .ok (natsOrder d.key e.key).isLE := by
    show Except.ok (_ : Bool) = _
    cases natsOrder d.key e.key <;> rfl
  have hnil : (natsOrder [] []).isLE := rfl
  rw [isDate_iff] at hd he
  rw [hle, Except.ok.injEq]
  unfold Date.key monthIndex
  simp only [isLE_natsOrder_cons, hnil, and_true]
  omega

/-- The day of a date, or the last of the month, comes no later than the day of another. -/
abbrev DayFits (d e : Date) : Prop := min d.day (daysInMonth e.year e.month) ≤ e.day

theorem le_addMonths_iff (hd : IsDate d) (he : IsDate e) (hn : InYears (monthIndex d + n)) :
    ∃ t, addMonths (.date d) (.int n) = .ok t ∧ (le t (.date e) = .ok true ↔
      monthIndex d + n < monthIndex e ∨ monthIndex d + n = monthIndex e ∧ DayFits d e) := by
  refine ⟨_, addMonths_eq rfl hd hn, ?_⟩
  rw [le_date_iff (isDate_ofMonth hn (min_day hd)) he, monthIndex_ofMonth hn]
  refine or_congr_right (and_congr_right fun heq => ?_)
  rw [heq]
  have he := isDate_iff.1 he
  have hyear : (monthIndex e / 12).toNat = e.year := by
    unfold monthIndex
    omega
  have hmonth : (monthIndex e % 12).toNat + 1 = e.month := by
    unfold monthIndex
    omega
  unfold ofMonth DayFits
  rw [hyear, hmonth]

/-- The months between two dates lead from the first into the month of the second, the years into its year; the last
one of them is complete only if the day, or the month and the day, has come again. -/
theorem dateDifference_counts (hd : IsDate d) (he : IsDate e) (hle : le (.date d) (.date e) = .ok true) :
    (∃ k : Nat, dateDifference (.date d) (.date e) (.text "M") = .ok (.int k) ∧
      ∀ n : Nat, InYears (monthIndex d + n) → ∃ t, addMonths (.date d) (.int n) = .ok t ∧
        (le t (.date e) = .ok true ↔ n < k ∨ n = k ∧ DayFits d e)) ∧
    ∃ k : Nat, dateDifference (.date d) (.date e) (.text "Y") = .ok (.int k) ∧
      ∀ n : Nat, InYears (monthIndex d + 12 * n) → ∃ t, addMonths (.date d) (.int (12 * n)) = .ok t ∧
        (le t (.date e) = .ok true ↔ n < k ∨ n = k ∧ (d.month < e.month ∨ d.month = e.month ∧ DayFits d e)) := by
  rw [le_date_iff hd he] at hle
  have hlow := isDate_iff.1 hd
  have hhigh := isDate_iff.1 he
  unfold monthIndex at hle
  constructor
  · refine ⟨(monthIndex e - monthIndex d).toNat, ?_, fun n hn => ?_⟩
    · show Except.ok (Value.int (((e.year : Int) - d.year) * 12 + e.month - d.month)) = _
      unfold monthIndex
      congr 2
      omega
    · obtain ⟨t, ht, hiff⟩ := le_addMonths_iff hd he hn
      refine ⟨t, ht, hiff.trans ?_⟩
      unfold monthIndex
      omega
  · refine ⟨e.year - d.year, ?_, fun n hn => ?_⟩
    · show Except.ok (Value.int ((e.year : Int) - d.year)) = _
      congr 2
      omega
    · obtain ⟨t, ht, hiff⟩ := le_addMonths_iff hd he hn
      refine ⟨t, ht, hiff.trans ?_⟩
      unfold monthIndex
      omega

theorem dateDifference_counts_last_day :
    dateDifference (.date ⟨2024, 1, 31⟩) (.date ⟨2024, 2, 1⟩) (.text "M") = .ok (.int 1) ∧
      ∃ t, addMonths (.date ⟨2024, 1, 31⟩) (.int 1) = .ok t ∧ le t (.date ⟨2024, 2, 1⟩) ≠ .ok true := by
  obtain ⟨⟨k, hk, hmonths⟩, -⟩ := dateDifference_counts (d := ⟨2024, 1, 31⟩) (e := ⟨2024, 2, 1⟩) rfl rfl rfl
  obtain rfl : 1 = k := Int.ofNat.inj (Value.int.inj (Except.ok.inj hk))
  obtain ⟨t, ht, hle⟩ := hmonths 1 ⟨by decide, by decide⟩
  exact ⟨hk, t, ht, fun h => absurd (hle.1 h) (by decide)⟩

end Sheetwork.Script
