import Sheetwork.Model.Structured
import Sheetwork.Proofs.Text.Replacement
import Sheetwork.Proofs.Workbook.Address
/-
  Models: names of sheets. The number behind a name can be read off, however the name is cut, so names with different
  numbers are different (`numbered_injective`) and one of them is free. What is written with every quote doubled is
  read back by taking pairs of quotes for one (`replaceL_doubled`).
-/

open List
open String (toList_ofList toList_append ofList_toList)

namespace Sheetwork

open Text

theorem Text.replaceL_doubled (q : Char) (s : List Char) : replaceL [q, q] [q] (replaceL [q] [q, q] s) = s := by
  have hqq : [q, q] ≠ [] := cons_ne_nil q [q]
  rw [replaceL_singleton]
  induction s with
  | nil => rfl
  | cons c s ih =>
    rw [flatMap_cons]
    split
    · next hc =>
      refine (replaceL_of_some hqq (cutL?_cons not_mem_nil [q] _)).trans ?_
      rw [ih, hc]
      rfl
    · next hc =>
      refine (replaceL_append hqq (by simpa using hc) [] (flatMap _ s)).trans ?_
      rw [ih]
      rfl

theorem Text.cutLast?_append {c : Char} {a b : String} (hb : c ∉ b.toList) :
    cutLast? c (a ++ String.singleton c ++ b) = some (a, b) := by
  have hrev : (a ++ String.singleton c ++ b).toList.reverse = b.toList.reverse ++ c :: a.toList.reverse := by simp
  have hspan := span_append (t := fun d => decide (d ≠ c)) (u := b.toList.reverse) (r := c :: a.toList.reverse)
    (fun d hd => decide_eq_true fun h => hb (h ▸ mem_reverse.1 hd)) (by rintro d ⟨⟩; simp)
  rw [cutLast?, hrev, if_pos (by simp), hspan.1, hspan.2]
  simp [ofList_toList]

namespace Model

theorem unquoted_quotedSheet (s : String) : unquoted (quotedSheet s) = s := by
  have hlist : (quotedSheet s).toList = '\'' :: (replaceL ['\''] ['\'', '\''] s.toList ++ ['\'']) := by
    simp [quotedSheet, Text.replace]
  have hends : (startsWith "'" (quotedSheet s) && endsWith "'" (quotedSheet s)) = true := by
    rw [startsWith, endsWith, hlist, Bool.and_eq_true, isSuffixOf_iff_suffix, ← cons_append]
    exact ⟨rfl, suffix_append _ _⟩
  rw [unquoted, if_pos hends, slice, ← String.length_toList, hlist, Text.replace, toList_ofList]
  simp [replaceL_doubled, ofList_toList]

theorem strip_quotedSheet (s : String) : strip (quotedSheet s) = quotedSheet s := by
  have hquote : isBlank '\'' = false := by decide
  have hstrip := stripWhileL_append (t := isBlank) (a := []) (b := []) (s := (quotedSheet s).toList) (by simp)
    (by simp) (by simpa [quotedSheet] using hquote) (by simpa [quotedSheet, getLast?_cons] using hquote)
  rw [append_nil, nil_append] at hstrip
  rw [strip, hstrip, ofList_toList]

/-- A sheet name in quotes before a reference is read back with it, whatever quotes, marks and blanks it has. -/
theorem splitSheet_quotedSheet (s r : String) (hs : ']' ∉ s.toList) (hr : '!' ∉ r.toList) :
    splitSheet (quotedSheet s ++ "!" ++ r) = (some s, r) := by
  have hcut : cut? "]" s = none := by
    rw [cut?, cutL?_eq_none (x := ']') (by decide) hs]
    rfl
  rw [splitSheet, show "!" = String.singleton '!' from rfl, cutLast?_append hr]
  dsimp only
  rw [strip_quotedSheet, unquoted_quotedSheet, hcut]
  rfl

theorem splitSheet_quotedSheet_marks : splitSheet (quotedSheet "it's ''5!'" ++ "!" ++ "A1") = (some "it's ''5!'", "A1") :=
  splitSheet_quotedSheet "it's ''5!'" "A1" (by decide) (by decide)

/-! Free names -/

theorem toList_numbered (name : String) (n : Nat) : (numbered name n).toList =
    name.toList.take (sheetNameLength - (natL n).length - 1) ++ '_' :: natL n := by
  have hmark : ("_" ++ ofNat n).toList = '_' :: natL n := by simp [ofNat]
  rw [numbered, toList_append, hmark, Text.take, toList_ofList, ← String.length_toList, hmark, length_cons, Nat.sub_sub]

theorem numbered_injective (name : String) : Function.Injective (numbered name) := by
  intro m n h
  have hline : ∀ k, '_' ∉ natL k := fun k hk => absurd (isAsciiDigit_of_mem_natL hk) (by decide)
  have h := congrArg String.toList h
  rw [toList_numbered, toList_numbered, append_cons_inj (hline m) (hline n)] at h
  rw [← natOfDigits_natL m, h.2, natOfDigits_natL]

theorem freshSheetName_cases (existing : List String) (base : String) :
    (sheetName base ∉ existing ∧ freshSheetName existing base = sheetName base) ∨ ∃ n ≤ existing.length,
      freshSheetName existing base = numbered (sheetName base) (n + 1) ∧ numbered (sheetName base) (n + 1) ∉ existing := by
  unfold freshSheetName
  dsimp only
  split
  · next h => exact .inl ⟨by simpa using h, rfl⟩
  · refine .inr ?_
    cases hfind : ((range (existing.length + 1)).map fun i => numbered (sheetName base) (i + 1)).find?
        fun s => !existing.contains s with
    | none =>
      -- the candidates are different and one more than the names
      have hd := (nodup_range (n := existing.length + 1)).map
        ((numbered_injective (sheetName base)).comp Nat.succ_injective)
      have hle := (hd.subperm fun s hs => by simpa using find?_eq_none.1 hfind s hs).length_le
      rw [length_map, length_range] at hle
      omega
    | some s =>
      obtain ⟨n, hn, rfl⟩ := mem_map.1 (mem_of_find?_eq_some hfind)
      exact ⟨n, Nat.le_of_lt_succ (mem_range.1 hn), rfl, by simpa using find?_some hfind⟩

theorem fit_of_mem_sheetName {s : String} {c : Char} (hc : c ∈ (sheetName s).toList) : c ∉ unfitForSheets := by
  rw [sheetName, Text.take, toList_ofList, toList_ofList] at hc
  obtain ⟨d, -, rfl⟩ := mem_map.1 (mem_of_mem_take hc)
  split
  · decide
  · next hd => simpa using hd

theorem length_numbered_le {n : Nat} (name : String) (hn : n ≤ 10 ^ 29) : (numbered name n).length ≤ sheetNameLength := by
  have hdigits : (natL n).length ≤ 30 := (Nat.length_toDigits_le_iff (by decide) (by decide)).2 (by omega)
  rw [← String.length_toList, toList_numbered, length_append, length_take, length_cons]
  unfold sheetNameLength
  omega

/-- Among fewer than 10²⁹ names there is a free one: the name itself or a number behind it gives a name that is not
there, of at most 31 characters and none of those that sheets refuse. -/
theorem freshSheetName_free (existing : List String) (base : String) (h : existing.length < 10 ^ 29) :
    freshSheetName existing base ∉ existing ∧ (freshSheetName existing base).length ≤ 31 ∧
    ∀ c ∈ (freshSheetName existing base).toList, c ∉ "\\/*?:[]".toList := by
  obtain ⟨hfree, e⟩ | ⟨n, hn, e, hfree⟩ := freshSheetName_cases existing base
  · rw [e]
    refine ⟨hfree, ?_, fun c hc => fit_of_mem_sheetName hc⟩
    rw [sheetName, Text.take, String.length_ofList, length_take]
    exact Nat.min_le_left _ _
  · rw [e]
    refine ⟨hfree, length_numbered_le _ (by omega), fun c hc => ?_⟩
    rw [toList_numbered, mem_append, mem_cons] at hc
    rcases hc with hc | rfl | hc
    · exact fit_of_mem_sheetName (mem_of_mem_take hc)
    · decide
    · have hdigits : unfitForSheets.any isAsciiDigit = false := by decide
      exact fun hunfit => any_eq_false.1 hdigits c hunfit (isAsciiDigit_of_mem_natL hc)

theorem freshSheetName_free_taken : freshSheetName ["a_b", "a_b_1"] "a/b" ∉ ["a_b", "a_b_1"] :=
  (freshSheetName_free ["a_b", "a_b_1"] "a/b" (by decide)).1

end Model
end Sheetwork
