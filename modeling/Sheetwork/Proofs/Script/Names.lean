import Sheetwork.Proofs.Mapping.Rows
import Sheetwork.Script.Cellwise
/-
  Scripts: which variables of a script have one name. A name keeps the corners of a cell or a range, but of its sheet
  only a plain word. Main statement: `nodup_variables_iff`.
-/

open List
open String (toList_inj)

namespace Sheetwork.Script

open Text Column Mapping Survey

variable {cs : List Char} {a b : CellRef} {r t : RangeRef}

theorem underscore_not_mem_corner (h : Capitals cs) (n : Nat) : '_' ∉ cs ++ natL n := by
  rw [mem_append]
  rintro (hmem | hmem)
  · exact absurd (h _ hmem) (by decide)
  · exact absurd (isAsciiDigit_of_mem_natL hmem) (by decide)

theorem cellName_eq_iff (ha : Capitals a.col.toList) (hb : Capitals b.col.toList) :
    cellName a = cellName b ↔ plainWord a.sheet = plainWord b.sheet ∧ a.col = b.col ∧ a.row = b.row := by
  have hname : ∀ c : CellRef, (cellName c).toList =
      ['s', '_'] ++ ((plainWord c.sheet).toList ++ '_' :: (c.col.toList ++ natL c.row)) := by
    intro c
    simp only [cellName, ScriptName.cell, ofNat, String.toList_append, String.toList_ofList, append_assoc]
    rfl
  rw [← toList_inj, hname, hname, append_right_inj, append_cons_inj
    (underscore_not_mem_corner ha _) (underscore_not_mem_corner hb _), append_natL_inj ha hb,
    toList_inj, toList_inj]

theorem rangeName_eq_iff (hr : Capitals r.col.toList ∧ Capitals r.endCol.toList)
    (ht : Capitals t.col.toList ∧ Capitals t.endCol.toList) :
    rangeName r = rangeName t ↔ plainWord r.sheet = plainWord t.sheet ∧ r.col = t.col ∧ r.row = t.row ∧
      r.endCol = t.endCol ∧ r.endRow = t.endRow := by
  have hname : ∀ r : RangeRef, (rangeName r).toList =
      ['r', 'n', 'g', '_'] ++ (((plainWord r.sheet).toList ++ '_' :: (r.col.toList ++ natL r.row)) ++
        '_' :: (r.endCol.toList ++ natL r.endRow)) := by
    intro r
    simp only [rangeName, ScriptName.range, ofNat, String.toList_append, String.toList_ofList, append_assoc,
      cons_append]
    rfl
  rw [← toList_inj, hname, hname, append_right_inj, append_cons_inj
    (underscore_not_mem_corner hr.2 _) (underscore_not_mem_corner ht.2 _), append_cons_inj
    (underscore_not_mem_corner hr.1 _) (underscore_not_mem_corner ht.1 _), append_natL_inj hr.1 ht.1,
    append_natL_inj hr.2 ht.2, toList_inj, toList_inj, toList_inj, and_assoc, and_assoc]

/-! The variables of a workbook -/

def variableAt (s : Sheet) (p : Position) : String := cellName ⟨s.name, p.colName, p.row⟩

theorem variableAt_eq_iff {s t : Sheet} {p q : Position} :
    variableAt s p = variableAt t q ↔ plainWord s.name = plainWord t.name ∧ p = q := by
  have hcapitals : ∀ p : Position, Capitals p.colName.toList := by
    intro p
    rw [Position.toList_colName]
    exact capitals_letters _
  refine (cellName_eq_iff (a := ⟨s.name, p.colName, p.row⟩) (b := ⟨t.name, q.colName, q.row⟩)
    (hcapitals p) (hcapitals q)).trans ?_
  refine and_congr_right fun _ => ⟨fun ⟨hcol, hrow⟩ => Position.address_inj.1 ?_, fun h => h ▸ ⟨rfl, rfl⟩⟩
  have hcol : p.colName = q.colName := hcol
  have hrow : p.row = q.row := hrow
  rw [Position.address, Position.address, hcol, hrow]

theorem variables_pageOf (s : Sheet) : (pageOf s).entries.map variableOf =
    ((pageOf s).entries.map Survey.Entry.position).map (variableAt s) := by
  rw [map_map]
  refine map_congr_left fun e he => ?_
  obtain ⟨p, -, rfl⟩ := mem_entries_pageOf.1 he
  rw [Function.comp_apply, position_entryAt]
  rfl

theorem disjoint_variables_iff (s t : Sheet) :
    Disjoint ((pageOf s).entries.map variableOf) ((pageOf t).entries.map variableOf) ↔
      (plainWord s.name = plainWord t.name → ∀ p, (s.value p).isNull = true ∨ (t.value p).isNull = true) := by
  rw [variables_pageOf, variables_pageOf]
  constructor
  · intro hdisjoint hword p
    by_contra hp
    rw [not_or, Bool.not_eq_true, Bool.not_eq_true] at hp
    exact hdisjoint (mem_map.2 ⟨p, mem_positions_pageOf.2 hp.1, rfl⟩)
      (mem_map.2 ⟨p, mem_positions_pageOf.2 hp.2, variableAt_eq_iff.2 ⟨hword.symm, rfl⟩⟩)
  · intro hapart v hs ht
    obtain ⟨p, hp, rfl⟩ := mem_map.1 hs
    obtain ⟨q, hq, heq⟩ := mem_map.1 ht
    obtain ⟨hword, rfl⟩ := variableAt_eq_iff.1 heq
    rw [mem_positions_pageOf] at hp hq
    rcases hapart hword.symm q with hnull | hnull
    · rw [hp] at hnull
      cases hnull
    · rw [hq] at hnull
      cases hnull

/-- Every cell of a workbook has a variable of its own exactly if no position is filled on two sheets of
one word. Cells and ranges have one name exactly if they have the same corners on sheets of one word. -/
theorem nodup_variables_iff (w : Workbook) : (((ofWorkbook w).inputs.map variableOf ++
        (ofWorkbook w).formulas.map fun c => cellName c.ref).Nodup ↔
      w.sheets.Pairwise fun s t => plainWord s.name = plainWord t.name →
        ∀ p, (s.value p).isNull = true ∨ (t.value p).isNull = true) ∧
    (∀ a b : CellRef, Column.Capitals a.col.toList → Column.Capitals b.col.toList →
      (cellName a = cellName b ↔ plainWord a.sheet = plainWord b.sheet ∧ a.col = b.col ∧ a.row = b.row)) ∧
    ∀ r t : RangeRef, Column.Capitals r.col.toList ∧ Column.Capitals r.endCol.toList →
      Column.Capitals t.col.toList ∧ Column.Capitals t.endCol.toList →
        (rangeName r = rangeName t ↔ plainWord r.sheet = plainWord t.sheet ∧ r.col = t.col ∧ r.row = t.row ∧
          r.endCol = t.endCol ∧ r.endRow = t.endRow) := by
  have hown : ∀ s : Sheet, ((pageOf s).entries.map variableOf).Nodup := by
    intro s
    rw [variables_pageOf]
    exact (nodup_pageOf s).map fun p q h => (variableAt_eq_iff.1 h).2
  refine ⟨(perm_entries cellName _).nodup_iff.trans ?_, fun a b => cellName_eq_iff, fun r t => rangeName_eq_iff⟩
  rw [entries_eq_flatMap, map_flatMap, nodup_flatMap]
  exact (and_iff_right fun s _ => hown s).trans (Pairwise.iff disjoint_variables_iff)

/-- Profits and losses, and a sheet with the same word. -/
def ledgers : Workbook :=
  { sheets := ["P&L", "P-L"].map fun name => ({ name } : Sheet).insert ⟨1, 1⟩ { value := .int 1 } }

theorem not_nodup_variables_ledgers : ¬((ofWorkbook ledgers).inputs.map variableOf ++
        (ofWorkbook ledgers).formulas.map fun c => cellName c.ref).Nodup ∧
      rangeName ⟨"P&L", "A", 1, "B", 2⟩ = rangeName ⟨"P-L", "A", 1, "B", 2⟩ := by
  obtain ⟨hcells, -, hranges⟩ := nodup_variables_iff ledgers
  have hcapitals : Column.Capitals "A".toList ∧ Column.Capitals "B".toList :=
    ⟨Column.capitals_letters 1, Column.capitals_letters 2⟩
  refine ⟨fun h => ?_, (hranges _ _ hcapitals hcapitals).2 (by decide)⟩
  have hfilled := (pairwise_pair.1 (hcells.1 h)) (by decide) ⟨1, 1⟩
  exact absurd hfilled (by decide)

end Sheetwork.Script
