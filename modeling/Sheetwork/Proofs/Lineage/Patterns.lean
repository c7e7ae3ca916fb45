import Sheetwork.Lineage.Patterns
import Sheetwork.Proofs.Text.Replacement
import Sheetwork.Proofs.Vector.Partition
/-
  Lineage: what the patterns of a sheet keep. A formula without a mark is what its row pattern gives with the row in
  the place of the marks (`replaceL_rowPatternL`), and every formula is counted in the entry of its column and pattern
  (`exists_listed`), so nothing is lost by counting together (`sheetPatterns_lossless`).
-/

open List

namespace Sheetwork.Formula

open Text

variable {row s t : List Char} {c : Char} {after : Bool}

theorem rowMark_ne_nil : rowMark ≠ [] := cons_ne_nil _ _

theorem replaceL_rowMark_cons (h : afterL? rowMark (c :: s) = none) :
    replaceL rowMark row (c :: s) = c :: replaceL rowMark row s := by
  cases hs : cutL? rowMark s with
  | none => rw [replaceL_of_none rowMark_ne_nil hs, replaceL_of_none rowMark_ne_nil (by rw [cutL?, h, hs]; rfl)]
  | some x =>
    rw [replaceL_of_some rowMark_ne_nil hs, replaceL_of_some rowMark_ne_nil (by rw [cutL?, h, hs]; rfl), cons_append]

/-- Digits stay, and a mark becomes the row. -/
theorem replaceL_digits (hs : ∀ c ∈ s, isDecimal c) :
    replaceL rowMark row ((if s = row then rowMark else s) ++ t) = s ++ replaceL rowMark row t := by
  split
  · next h =>
    subst h
    exact replaceL_of_some rowMark_ne_nil (cutL?_cons not_mem_nil _ t)
  · clear * - hs
    induction s with
    | nil => rfl
    | cons c s ih =>
      obtain ⟨hc, hs⟩ := forall_mem_cons.1 hs
      have hne : '\x7b' ≠ c := by rintro rfl; exact absurd hc (by decide)
      rw [cons_append, replaceL_rowMark_cons (if_neg hne), ih hs, cons_append]

/-- A character that is neither a digit nor in the mark comes from the text. -/
theorem head_rowPatternL (hd : isDecimal c = false) (hc : c ≠ '\x7b') (h : rowPatternL row after s = c :: t) :
    ∃ r, s = c :: r ∧ t = rowPatternL row (isAsciiUpper c) r := by
  cases s with
  | nil => rw [rowPatternL] at h; cases h
  | cons d r =>
    rw [rowPatternL] at h
    split at h
    · next hdigit =>
      rw [takeWhile_cons_of_pos (Bool.and_eq_true_iff.1 hdigit).2] at h
      dsimp only at h
      split at h <;> grind [rowMark]
    · cases h
      exact ⟨r, rfl, rfl⟩

theorem replaceL_rowPatternL (h : ¬ rowMark <:+: s) : replaceL rowMark row (rowPatternL row after s) = s := by
  fun_induction rowPatternL row after s with
  | case1 => rfl
  | case2 after c r hdigit ds ih =>
    have hpos := (Bool.and_eq_true_iff.1 hdigit).2
    have hsuffix : r.dropWhile isDecimal <:+: c :: r := ((dropWhile_suffix _).trans (suffix_cons c r)).isInfix
    rw [replaceL_digits fun d hd => mem_takeWhile_imp hd, ih fun hmark => h (hmark.trans hsuffix),
      ← dropWhile_cons_of_pos hpos, takeWhile_append_dropWhile]
  | case3 after c r hnot ih =>
    rw [replaceL_rowMark_cons, ih fun hmark => h (hmark.trans (suffix_cons c r).isInfix)]
    rw [Option.eq_none_iff_forall_ne_some]
    intro u hu
    obtain ⟨rfl, hr⟩ := cons.inj (eq_of_afterL? hu)
    obtain ⟨q, rfl, hq⟩ := head_rowPatternL (by decide) (by decide) hr
    obtain ⟨v, rfl, -⟩ := head_rowPatternL (by decide) (by decide) hq.symm
    exact h (prefix_append rowMark v).isInfix

end Sheetwork.Formula

namespace Sheetwork.Lineage

theorem Extent.mem_ofRows {r : Nat} {rows : List Nat} (h : r ∈ rows) :
    (ofRows rows).firstRow ≤ r ∧ r ≤ (ofRows rows).lastRow := by
  rw [ofRows, foldl_min, foldl_max]
  exact ⟨min_le_of_right_le (min?_getD_le_of_mem h), le_max_of_le_right (le_max?_getD_of_mem h)⟩

/-- The entries of a sheet, each with its column. -/
def SheetPatterns.listed (p : SheetPatterns) : List (String × ColumnPattern) :=
  p.columns.flatMap fun c => c.patterns.map fun q => (c.column, q)

/-- An entry of the formula's column that gives the formula back with its row in the place of the marks, and the row
among its rows. -/
structure Restores (f : Placed) (e : String × ColumnPattern) : Prop where
  column : e.1 = f.at_.colName
  formula : Text.replace (String.ofList Formula.rowMark) (Text.ofNat f.at_.row) e.2.pattern = f.formula
  rows : e.2.extent.firstRow ≤ f.at_.row ∧ f.at_.row ≤ e.2.extent.lastRow

variable {s : Sheet} {f : Placed} {e : String × ColumnPattern}

theorem mem_listed : e ∈ (sheetPatterns s).listed ↔ ∃ b ∈ bucketBy (fun f => f.at_.colName) (formulas s),
    ∃ q ∈ bucketBy Placed.pattern b.2, e = (b.1, patternOf q.2 q.1) := by
  simp only [SheetPatterns.listed, sheetPatterns, columnPatterns, mem_flatMap, mem_map, mem_mergeSort,
    exists_exists_and_eq_and, eq_comm (b := e)]

theorem exists_listed (hf : f ∈ formulas s) : ∃ e ∈ (sheetPatterns s).listed, e.1 = f.at_.colName ∧
    e.2.pattern = f.pattern ∧ e.2.extent.firstRow ≤ f.at_.row ∧ f.at_.row ≤ e.2.extent.lastRow := by
  obtain ⟨b, hb, hcol, hfb⟩ := exists_bucket (fun f : Placed => f.at_.colName) hf
  obtain ⟨q, hq, hpattern, hfq⟩ := exists_bucket Placed.pattern hfb
  exact ⟨_, mem_listed.2 ⟨b, hb, q, hq, rfl⟩, hcol, hpattern, Extent.mem_ofRows (mem_map_of_mem hfq)⟩

theorem nodup_keys_listed (s : Sheet) : ((sheetPatterns s).listed.map fun e => (e.1, e.2.pattern)).Nodup := by
  have hcolumn : ∀ fs, ((columnPatterns fs).map ColumnPattern.pattern).Nodup := by
    intro fs
    rw [columnPatterns, ((mergeSort_perm _ _).map _).nodup_iff, map_map]
    exact nodup_keys_bucketBy Placed.pattern fs
  have hcolumns : ((sheetPatterns s).columns.map ColumnPatterns.column).Nodup := by
    rw [sheetPatterns, map_map, ((mergeSort_perm _ _).map _).nodup_iff]
    exact nodup_keys_bucketBy (fun f : Placed => f.at_.colName) (formulas s)
  rw [SheetPatterns.listed, map_flatMap, nodup_flatMap]
  refine ⟨fun c hc => ?_, (pairwise_map.1 hcolumns).imp fun hne => ?_⟩
  · obtain ⟨b, -, rfl⟩ := mem_map.1 hc
    exact .of_map Prod.snd (by rw [map_map, map_map]; exact hcolumn b.2)
  · rw [Function.onFun, map_map, map_map]
    grind [List.Disjoint]

theorem sum_lengths {κ α : Type} [DecidableEq κ] (key : α → κ) (xs : List α) :
    ((bucketBy key xs).map fun b => b.2.length).sum = xs.length := by
  rw [← length_flatMap, (flatMap_bucketBy_perm key xs).length_eq]

theorem sum_counts (s : Sheet) : ((sheetPatterns s).listed.map fun e => e.2.extent.count).sum = (formulas s).length := by
  have hcolumn : ∀ fs, ((columnPatterns fs).map fun q => q.extent.count).sum = fs.length := by
    intro fs
    rw [columnPatterns, ((mergeSort_perm _ _).map _).sum_eq, map_map, ← sum_lengths Placed.pattern fs]
    simp only [Function.comp_def, patternOf, Extent.ofRows, length_map]
  rw [SheetPatterns.listed, map_flatMap, flatMap_def, sum_flatten, map_map, sheetPatterns]
  simp only [map_map, Function.comp_def, hcolumn]
  rw [((mergeSort_perm _ _).map _).sum_eq, sum_lengths]

/-- Every formula of a sheet without marks is restored by one entry with its pattern, and the counts are the number of
formulas. -/
theorem sheetPatterns_lossless (h : ∀ f ∈ formulas s, ¬ Formula.rowMark <:+: f.formula.toList) :
    (∀ f ∈ formulas s, ∃! e, e ∈ (sheetPatterns s).listed ∧ Restores f e ∧ e.2.pattern = f.pattern) ∧
      ((sheetPatterns s).listed.map fun e => e.2.extent.count).sum = (sheetPatterns s).total ∧
        (sheetPatterns s).listed.Nodup := by
  refine ⟨fun f hf => ?_, sum_counts s, (nodup_keys_listed s).of_map⟩
  obtain ⟨e, he, hcol, hpattern, hrows⟩ := exists_listed hf
  have hformula : Text.replace (String.ofList Formula.rowMark) (Text.ofNat f.at_.row) e.2.pattern = f.formula := by
    rw [hpattern, Placed.pattern, Formula.rowPattern, Formula.rowTextPattern, Text.replace, String.toList_ofList,
      String.toList_ofList, Formula.replaceL_rowPatternL (h f hf), String.ofList_toList]
  refine ⟨e, ⟨he, ⟨hcol, hformula, hrows⟩, hpattern⟩, ?_⟩
  rintro e' ⟨he', hrestores, hpattern'⟩
  exact inj_on_of_nodup_map (nodup_keys_listed s) he' he
    (Prod.ext (hrestores.column.trans hcol.symm) (hpattern'.trans hpattern.symm))

/-- A reference to row five that does not move along from row four to row six. -/
def passedSheet : Sheet := [4, 5, 6].foldl (fun s r => s.insert ⟨r, 4⟩ { value := .text "=A5" }) { name := "S" }

theorem formulas_passedSheet : formulas passedSheet = [4, 5, 6].map fun r => ⟨⟨r, 4⟩, "=A5"⟩ := by decide +kernel

theorem sheetPatterns_lossless_passed : ∃! e, e ∈ (sheetPatterns passedSheet).listed ∧
    Restores ⟨⟨5, 4⟩, "=A5"⟩ e ∧ e.2.pattern = Placed.pattern ⟨⟨5, 4⟩, "=A5"⟩ := by
  have hmark : ∀ f ∈ formulas passedSheet, ¬ Formula.rowMark <:+: f.formula.toList := by
    rw [formulas_passedSheet]
    decide
  exact (sheetPatterns_lossless hmark).1 ⟨⟨5, 4⟩, "=A5"⟩ (by rw [formulas_passedSheet]; decide)

/-- In the fifth row the text is restored by its own pattern and by the one of the rows around it. -/
theorem passed_restored_twice : ¬ ∃! e, e ∈ (sheetPatterns passedSheet).listed ∧ Restores ⟨⟨5, 4⟩, "=A5"⟩ e := by
  have hbuckets : bucketBy (fun f : Placed => f.at_.colName) (formulas passedSheet) = [("D", formulas passedSheet)] ∧
      bucketBy Placed.pattern (formulas passedSheet) =
        [("=A5", [⟨⟨4, 4⟩, "=A5"⟩, ⟨⟨6, 4⟩, "=A5"⟩]), ("=A\x7bR\x7d", [⟨⟨5, 4⟩, "=A5"⟩])] := by decide +kernel
  have hlisted : ∀ q ∈ bucketBy Placed.pattern (formulas passedSheet),
      ("D", patternOf q.2 q.1) ∈ (sheetPatterns passedSheet).listed := by
    intro q hq
    exact mem_listed.2 ⟨_, hbuckets.1 ▸ mem_singleton_self _, q, hq, rfl⟩
  rw [hbuckets.2] at hlisted
  intro honly
  have hsame := honly.unique ⟨hlisted _ mem_cons_self, by decide, by decide, by decide⟩
    ⟨hlisted _ (mem_cons_of_mem _ mem_cons_self), by decide, by decide, by decide⟩
  exact absurd hsame (by decide)

end Sheetwork.Lineage
