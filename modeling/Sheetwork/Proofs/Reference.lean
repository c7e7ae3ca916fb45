import Mathlib
import Sheetwork.Number.Binary
import Sheetwork.Reference.Basic
/-
  References: columns and ascending lists. Every letter of a column weighs 1 to 26, so the letters are read off from
  the last one by division: `letters_spelled` gives capitals back from their number, and `spelled_letters` a number
  from its letters.

  `Ordered.ofList` keeps the elements of a list (`mem_ofList`), in ascending order and each once (`ascending_ofList`);
  `Ordered.insert` adds one element (`mem_insert`). A sorted list has the least and the greatest at its ends
  (`exists_ends`). References are compared field by field, so only equal ones compare as equal.
-/

open List

namespace Sheetwork

/-- A mark that does not stand before itself divides a text in one way. -/
theorem eq_of_append_cons_eq {c : Char} {a b x y : List Char} (ha : c ∉ a) (hb : c ∉ b)
    (h : a ++ c :: x = b ++ c :: y) : a = b ∧ x = y := by
  rcases append_eq_append_iff.1 h with ⟨m, rfl, hm⟩ | ⟨m, rfl, hm⟩
  · cases m with
    | nil => simpa using hm
    | cons d m => simp [(cons.inj hm).1] at hb
  · cases m with
    | nil => simpa [eq_comm] using hm
    | cons d m => simp [(cons.inj hm).1] at ha

theorem append_cons_inj {c : Char} {x y u v : List Char} (hu : c ∉ u) (hv : c ∉ v) :
    x ++ c :: u = y ++ c :: v ↔ x = y ∧ u = v := by
  refine ⟨fun h => ?_, fun ⟨hx, hu⟩ => by rw [hx, hu]⟩
  replace h := congrArg reverse h
  simp only [reverse_append, reverse_cons, append_assoc, singleton_append] at h
  obtain ⟨hu, hx⟩ := eq_of_append_cons_eq (mem_reverse.not.2 hu) (mem_reverse.not.2 hv) h
  exact ⟨reverse_inj.1 hx, reverse_inj.1 hu⟩

end Sheetwork

namespace Sheetwork.Column

open Sheetwork.Text (isAsciiUpper)

def Capitals (cs : List Char) : Prop := ∀ c ∈ cs, isAsciiUpper c

theorem weight_mem {c : Char} (h : isAsciiUpper c) : 1 ≤ weight c ∧ weight c ≤ 26 := by
  simp only [isAsciiUpper, Bool.and_eq_true, decide_eq_true_eq, Char.le_def, UInt32.le_iff_toNat_le] at h
  have h₁ : ('A' : Char).val.toNat = 65 := rfl
  have h₂ : ('Z' : Char).val.toNat = 90 := rfl
  have h₃ : c.toNat = c.val.toNat := rfl
  unfold weight
  omega

variable {cs ds : List Char}

theorem spelled_concat (c : Char) : spelled (cs ++ [c]) = spelled cs * 26 + weight c := by
  simp [spelled]

theorem spelled_bounds (h : Capitals cs) :
    26 ^ cs.length ≤ 25 * spelled cs + 1 ∧ 25 * spelled cs + 26 ≤ 26 * 26 ^ cs.length := by
  induction cs using reverseRecOn with
  | nil => simp [spelled]
  | append_singleton cs c ih =>
    have hcs := ih fun d hd => h d (by simp [hd])
    have hc := weight_mem (h c (by simp))
    rw [spelled_concat, length_append, length_singleton, pow_succ]
    omega

theorem spelled_nonneg (h : Capitals cs) : 0 ≤ spelled cs := by
  have hle := (spelled_bounds h).1
  have hpos : (0 : Int) < 26 ^ cs.length := pow_pos (by decide) _
  omega

/-- Division takes the last letter off, as long as there is fuel for every letter. -/
theorem letters_go_spelled (h : Capitals cs) (fuel : Nat) (acc : List Char) (hf : (spelled cs).toNat ≤ fuel) :
    letters.go fuel (spelled cs).toNat acc = cs ++ acc := by
  induction cs using reverseRecOn generalizing fuel acc with
  | nil => cases fuel <;> rfl
  | append_singleton cs c ih =>
    have hcs : Capitals cs := fun d hd => h d (by simp [hd])
    have hn := spelled_nonneg hcs
    obtain ⟨hlo, hhi⟩ := weight_mem (h c (by simp))
    obtain ⟨n, hs⟩ : ∃ n, (spelled (cs ++ [c])).toNat = n + 1 :=
      ⟨(spelled (cs ++ [c])).toNat - 1, by rw [spelled_concat]; omega⟩
    have hdiv : n / 26 = (spelled cs).toNat := by rw [spelled_concat] at hs; omega
    have hmod : 65 + n % 26 = c.toNat := by
      rw [spelled_concat] at hs
      unfold weight at hs hlo hhi
      omega
    obtain ⟨fuel, rfl⟩ : ∃ k, fuel = k + 1 := ⟨fuel - 1, by omega⟩
    rw [hs, letters.go, hdiv, hmod, Char.ofNat_toNat, ih hcs fuel (c :: acc) (by omega)]
    simp

theorem letters_spelled (h : Capitals cs) : letters (spelled cs).toNat = cs := by
  rw [letters, letters_go_spelled h _ _ (Nat.le_refl _), append_nil]

theorem eq_of_spelled_eq (hc : Capitals cs) (hd : Capitals ds) (h : spelled cs = spelled ds) :
    cs = ds := by
  rw [← letters_spelled hc, ← letters_spelled hd, h]

theorem name_spelled (h : Capitals cs) : name (spelled cs) = String.ofList cs := by rw [name, letters_spelled h]

theorem spelled_cons (c : Char) : spelled (c :: cs) = weight c * 26 ^ cs.length + spelled cs := by
  induction cs using reverseRecOn with
  | nil => simp [spelled]
  | append_singleton cs d ih =>
    rw [← cons_append, spelled_concat, ih, spelled_concat, length_append, length_singleton]
    ring

theorem spelled_letters_go (fuel n : Nat) (acc : List Char) (hf : n ≤ fuel) :
    spelled (letters.go fuel n acc) = n * 26 ^ acc.length + spelled acc := by
  induction fuel generalizing n acc with
  | zero =>
    obtain rfl : n = 0 := by omega
    simp [letters.go]
  | succ fuel ih =>
    cases n with
    | zero => simp [letters.go]
    | succ n =>
      have hw : weight (Char.ofNat (65 + n % 26)) = 1 + (n % 26 : Nat) := by
        have hletter : ∀ k < 26, weight (Char.ofNat (65 + k)) = 1 + (k : Int) := by decide
        exact hletter _ (Nat.mod_lt n (by decide))
      have hn : ((n + 1 : Nat) : Int) = (n / 26 : Nat) * 26 + (1 + (n % 26 : Nat)) := by omega
      rw [letters.go, ih _ _ (by omega), spelled_cons, hw, hn, length_cons, pow_succ]
      ring

theorem spelled_letters (n : Nat) : spelled (letters n) = n := by
  rw [letters, spelled_letters_go n n [] (Nat.le_refl n)]
  simp [spelled]

theorem capitals_letters_go (fuel n : Nat) {acc : List Char} (h : Capitals acc) : Capitals (letters.go fuel n acc) := by
  induction fuel generalizing n acc with
  | zero => exact h
  | succ fuel ih =>
    cases n with
    | zero => exact h
    | succ n =>
      have hletter : ∀ k < 26, isAsciiUpper (Char.ofNat (65 + k)) := by decide
      exact ih _ (forall_mem_cons.2 ⟨hletter _ (Nat.mod_lt n (by decide)), h⟩)

theorem capitals_letters (n : Nat) : Capitals (letters n) := capitals_letters_go n n nofun

theorem length_letters {n : Nat} (h : 1 ≤ n) (hlast : n ≤ last) : 1 ≤ (letters n).length ∧ (letters n).length ≤ 3 := by
  have hs := spelled_letters n
  constructor
  · by_contra hlen
    rw [length_eq_zero_iff.1 (by omega : (letters n).length = 0)] at hs
    simp only [spelled, foldl_nil] at hs
    omega
  · by_contra hlen
    have hp := (spelled_bounds (capitals_letters n)).1
    have h4 : (26 : Int) ^ 4 ≤ 26 ^ (letters n).length := by
      exact_mod_cast Nat.pow_le_pow_right (by decide : 0 < 26) (by omega : 4 ≤ (letters n).length)
    unfold last at hlast
    omega

theorem upperChars_capital {c : Char} (h : isAsciiUpper c) : Text.upperChars c = [c] := by
  have hc := weight_mem h
  unfold weight at hc
  have hlt : c.toNat < 128 := by omega
  have hlow : Text.isAsciiLower c = false := by
    simp only [Text.isAsciiLower, Bool.and_eq_false_iff, decide_eq_false_iff_not, Char.le_def, UInt32.le_iff_toNat_le]
    have h₁ : ('a' : Char).val.toNat = 97 := rfl
    have h₂ : c.toNat = c.val.toNat := rfl
    omega
  simp [Text.upperChars, Text.upperChar, hlt, hlow]

theorem number_capitals (h : Capitals cs) : number (String.ofList cs) = spelled cs := by
  have hup : cs.flatMap Text.upperChars = cs := by
    induction cs with
    | nil => rfl
    | cons c cs ih =>
      rw [flatMap_cons, upperChars_capital (h c (by simp)), ih fun d hd => h d (by simp [hd])]
      rfl
  rw [number, Text.upper, String.toList_ofList, String.toList_ofList, hup]

theorem spelled_lt_of_length_lt (hc : Capitals cs) (hd : Capitals ds) (h : cs.length < ds.length) :
    spelled cs < spelled ds := by
  have hle := (spelled_bounds hc).2
  have hge := (spelled_bounds hd).1
  have hpow : (26 : Int) ^ (cs.length + 1) ≤ 26 ^ ds.length := pow_le_pow_right₀ (by decide) h
  rw [pow_succ] at hpow
  omega

/-- The first letter in which names of one length differ decides. -/
theorem spelled_lt_of_lt (hc : Capitals cs) (hd : Capitals ds) (hlen : cs.length = ds.length) (h : cs < ds) :
    spelled cs < spelled ds := by
  induction h with
  | nil => cases hlen
  | @rel c cs d ds h =>
    have hcs := (spelled_bounds fun x hx => hc x (mem_cons_of_mem c hx)).2
    have hds := (spelled_bounds fun x hx => hd x (mem_cons_of_mem d hx)).1
    have hn : cs.length = ds.length := Nat.succ.inj hlen
    have hw : weight c + 1 ≤ weight d := by
      have : c.toNat < d.toNat := h
      unfold weight
      omega
    have hpos : (0 : Int) < 26 ^ ds.length := pow_pos (by decide) _
    have hmul : (weight c + 1) * 26 ^ ds.length ≤ weight d * 26 ^ ds.length := by gcongr
    rw [hn] at hcs
    rw [spelled_cons, spelled_cons, hn]
    linarith
  | @cons c cs ds h ih =>
    have hn : cs.length = ds.length := Nat.succ.inj hlen
    have := ih (fun x hx => hc x (mem_cons_of_mem c hx)) (fun x hx => hd x (mem_cons_of_mem c hx)) hn
    rw [spelled_cons, spelled_cons, hn]
    omega

/-- Numbers from one on and names of capitals are translated into each other. A shorter name has the smaller number,
and of two names of one length the one that is first in the alphabet. -/
theorem number_name_inverse : (∀ n : Int, 1 ≤ n → number (name n) = n) ∧
    (∀ s : String, s ≠ "" → Capitals s.toList → 1 ≤ number s ∧ name (number s) = s) ∧
    ∀ s t : String, Capitals s.toList → Capitals t.toList → (s.length < t.length → number s < number t) ∧
      (s.length = t.length → (s < t ↔ number s < number t)) := by
  have hnumber : ∀ {s : String}, Capitals s.toList → number s = spelled s.toList := by
    intro s hs
    rw [← number_capitals hs, String.ofList_toList]
  refine ⟨fun n hn => ?_, fun s hne hs => ?_, fun s t hs ht => ?_⟩
  · rw [name, number_capitals (capitals_letters _), spelled_letters]
    omega
  · have hpos : 0 < s.toList.length := length_pos_iff.2 (by simpa using hne)
    have hnil : Capitals [] := by simp [Capitals]
    have := spelled_lt_of_length_lt hnil hs hpos
    rw [hnumber hs, name_spelled hs, String.ofList_toList]
    exact ⟨this, rfl⟩
  · rw [hnumber hs, hnumber ht, ← String.length_toList, ← String.length_toList]
    refine ⟨spelled_lt_of_length_lt hs ht, fun hlen => ⟨spelled_lt_of_lt hs ht hlen, fun h => ?_⟩⟩
    by_contra hst
    rcases (String.not_lt.1 hst).lt_or_eq with hts | rfl
    · have := spelled_lt_of_lt ht hs hlen.symm hts
      omega
    · omega

end Sheetwork.Column

namespace Sheetwork.Ordered

/-- The ends of a sorted list are the least and the greatest of its elements. -/
theorem exists_ends {α : Type} {r : α → α → Bool} (trans : ∀ a b c, r a b = true → r b c = true → r a c = true)
    (total : ∀ a b, (r a b || r b a) = true) {l : List α} (hne : l ≠ []) : ∃ first last,
      (l.mergeSort r).head? = some first ∧ (l.mergeSort r).getLast? = some last ∧ first ∈ l ∧ last ∈ l ∧
        ∀ x ∈ l, r first x = true ∧ r x last = true := by
  have hrefl : ∀ x, r x x = true := fun x => by simpa using total x x
  have hsorted := pairwise_mergeSort trans total l
  have hmem : ∀ {x}, x ∈ l.mergeSort r ↔ x ∈ l := mem_mergeSort
  have hlen : l.mergeSort r ≠ [] := fun h => hne ((mergeSort_perm l r).symm.trans (h ▸ .refl _)).eq_nil
  generalize l.mergeSort r = sorted at *
  refine ⟨sorted.head hlen, sorted.getLast hlen, head?_eq_some_head hlen, getLast?_eq_some_getLast hlen,
    hmem.1 (head_mem hlen), hmem.1 (getLast_mem hlen), fun x hx => ⟨?_, ?_⟩⟩
  · obtain ⟨a, t, rfl⟩ := exists_cons_of_ne_nil hlen
    rcases mem_cons.1 (hmem.2 hx) with rfl | hx
    · exact hrefl x
    · exact rel_of_pairwise_cons hsorted hx
  · rw [← dropLast_append_getLast hlen] at hmem hsorted
    rcases mem_append.1 (hmem.2 hx) with hx | hx
    · exact (pairwise_append.1 hsorted).2.2 x hx _ (mem_singleton_self _)
    · rw [mem_singleton.1 hx]
      exact hrefl _

variable {α : Type} [Ord α] [Std.LawfulEqOrd α] {xs : List α} {x y : α}

omit [Std.LawfulEqOrd α] in
theorem isLE_total [Std.OrientedOrd α] (x y : α) : ((compare x y).isLE || (compare y x).isLE) = true := by
  rw [Std.OrientedOrd.eq_swap (a := y)]
  cases compare x y <;> rfl

theorem mem_dedup : x ∈ ofList.dedup xs ↔ x ∈ xs := by
  fun_induction ofList.dedup xs with
  | case1 => rfl
  | case2 y => rfl
  | case3 y z r h ih =>
    have e : y = z := Std.LawfulEqOrd.eq_of_compare (Ordering.isEq_iff_eq_eq.mp h)
    rw [ih, e]
    simp
  | case4 y z r h ih => rw [mem_cons, ih, mem_cons (b := y)]

theorem mem_ofList : x ∈ ofList xs ↔ x ∈ xs := by rw [ofList, mem_dedup, mem_mergeSort]

theorem mem_insert (xs : List α) : y ∈ insert x xs ↔ y = x ∨ y ∈ xs := by
  induction xs with
  | nil => simp [insert]
  | cons z zs ih =>
    rw [insert]
    split
    · simp
    · next h =>
      have e : x = z := Std.LawfulEqOrd.eq_of_compare h
      simp [e]
    · rw [mem_cons, ih, mem_cons]
      exact or_left_comm

variable [Std.TransOrd α]

theorem ascending_dedup (h : xs.Pairwise fun x y => (compare x y).isLE) :
    (ofList.dedup xs).Pairwise fun x y => compare x y = .lt := by
  fun_induction ofList.dedup xs with
  | case1 => exact Pairwise.nil
  | case2 y => exact pairwise_singleton _ y
  | case3 y z r _ ih => exact ih (pairwise_cons.mp h).2
  | case4 y z r hne ih =>
    obtain ⟨hy, h⟩ := pairwise_cons.mp h
    refine pairwise_cons.mpr ⟨fun w hw => ?_, ih h⟩
    have hyz : compare y z = .lt := by cases e : compare y z <;> simp_all
    rw [mem_dedup] at hw
    rcases mem_cons.mp hw with rfl | hw
    · exact hyz
    · exact Std.TransCmp.lt_of_lt_of_isLE hyz ((pairwise_cons.mp h).1 w hw)

theorem ascending_ofList (xs : List α) : (ofList xs).Pairwise fun x y => compare x y = .lt := by
  exact ascending_dedup (pairwise_mergeSort (fun x y z => Std.TransCmp.isLE_trans) isLE_total xs)

theorem nodup_ofList (xs : List α) : (ofList xs).Nodup := by
  refine (ascending_ofList xs).imp ?_
  rintro x y h rfl
  have e : compare x x = .eq := Std.ReflCmp.compare_self
  rw [e] at h
  cases h

end Sheetwork.Ordered

namespace Sheetwork

theorem CellRef.compare_eq : compare =
    compareLex (compareOn CellRef.sheet) (compareLex (compareOn CellRef.col) (compareOn CellRef.row)) := by
  funext c d
  exact congrArg (fun o => Ordering.then _ (Ordering.then _ o)) Ordering.then_eq

instance : Std.TransOrd CellRef := by
  rw [Std.TransOrd, CellRef.compare_eq]
  infer_instance

instance : Std.LawfulEqOrd CellRef where
  eq_of_compare := by
    rintro ⟨s, c, r⟩ ⟨s', c', r'⟩ h
    simpa [CellRef.compare_eq, compareOn] using h

theorem RangeRef.compare_eq : compare = compareLex (compareOn RangeRef.sheet) (compareLex (compareOn RangeRef.col)
    (compareLex (compareOn RangeRef.row) (compareLex (compareOn RangeRef.endCol) (compareOn RangeRef.endRow)))) := by
  funext r s
  exact congrArg (fun o => Ordering.then _ (Ordering.then _ (Ordering.then _ (Ordering.then _ o)))) Ordering.then_eq

instance : Std.LawfulEqOrd RangeRef where
  compare_self := by simp [RangeRef.compare_eq, Std.ReflCmp.compare_self]
  eq_of_compare := by
    rintro ⟨s, c, r, d, e⟩ ⟨s', c', r', d', e'⟩ h
    simpa [RangeRef.compare_eq, compareOn] using h

theorem TableRef.compare_eq : compare = compareLex (compareOn TableRef.table) (compareOn TableRef.column) := by
  funext t u
  exact congrArg (Ordering.then _) Ordering.then_eq

instance : Std.LawfulEqOrd TableRef where
  compare_self := by simp [TableRef.compare_eq, Std.ReflCmp.compare_self]
  eq_of_compare := by
    rintro ⟨t, c⟩ ⟨t', c'⟩ h
    simpa [TableRef.compare_eq, compareOn] using h

end Sheetwork
