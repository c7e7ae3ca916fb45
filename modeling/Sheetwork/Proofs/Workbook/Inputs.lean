import Sheetwork.Proofs.Mapping.Rows
import Sheetwork.Proofs.Vector.Schedule
/-
  Workbooks: the inputs that formulas read. One reference more makes one more way to read a cell (`isRead_add`), so a
  cell is read if a reference of a formula reaches it. Main statement: `mem_keptInputs_iff`.
-/

open List

namespace Sheetwork

open References
open Column (index)

theorem Table.mem_columnCells {t : Table} {column : String} {c : CellRef} : c ∈ t.columnCells column ↔
    c.sheet = t.sheet ∧ t.columnLetters? column = some c.col ∧ c.row ∈ Set.Icc t.firstRow t.lastRow := by
  obtain ⟨sheet, col, row⟩ := c
  unfold columnCells
  cases t.columnLetters? column with
  | none => simp
  | some letters =>
    simp only [mem_map, mem_range, CellRef.mk.injEq, Option.some.injEq, Set.mem_Icc]
    constructor
    · rintro ⟨i, hi, rfl, rfl, rfl⟩
      exact ⟨rfl, rfl, by omega⟩
    · rintro ⟨rfl, rfl, hrow⟩
      exact ⟨row - t.firstRow, by omega, rfl, rfl, by omega⟩

namespace Survey

open Formula (Reference)

/-- A reference to a cell, to corners that span it in whichever order, or to a table column with it. -/
def Reaches (tables : List Table) (c : CellRef) : Reference → Prop
  | .cell sheet a => c = ⟨sheet, a.column, a.rowNumber⟩
  | .range sheet a b => c.sheet = sheet ∧ c.row ∈ Set.uIcc a.rowNumber b.rowNumber ∧
      index c.col ∈ Set.uIcc (index a.column) (index b.column)
  | .table name column => ∃ t, tableNamed? tables name = some t ∧
      c.sheet = t.sheet ∧ t.columnLetters? column = some c.col ∧ c.row ∈ Set.Icc t.firstRow t.lastRow

/-- The corners of a range stand in the order in which they are gone through. -/
def InOrder : Reference → Prop
  | .range _ a b => a.rowNumber ≤ b.rowNumber ∧ index a.column ≤ index b.column
  | _ => True

instance {tables : List Table} {c : CellRef} : DecidablePred (Reaches tables c)
  | .cell _ _ => inferInstanceAs (Decidable (_ = _))
  | .range _ _ _ => inferInstanceAs (Decidable (_ ∧ (_ ≤ _ ∧ _ ≤ _) ∧ _ ≤ _ ∧ _ ≤ _))
  | .table _ _ => inferInstanceAs (Decidable (∃ t ∈ tableNamed? tables _, _ ∧ _ ∧ _ ∈ Set.Icc t.firstRow _))

instance : DecidablePred InOrder
  | .range _ _ _ => inferInstanceAs (Decidable (_ ∧ _))
  | .cell _ _ | .table _ _ => inferInstanceAs (Decidable True)

variable {s : Survey} {refs : References} {c : CellRef}

theorem covers_iff {sheet : String} {a b : Formula.Corner} (hc : Column.name (index c.col) = c.col) :
    isRead.covers ⟨sheet, a.column, a.rowNumber, b.column, b.rowNumber⟩ c = true ↔
      Reaches s.tables c (.range sheet a b) ∧ InOrder (.range sheet a b) := by
  simp only [isRead.covers, Reaches, InOrder, Bool.and_eq_true, decide_eq_true_eq, hc]
  constructor
  · rintro ⟨⟨⟨⟨⟨hsheet, -⟩, hcol⟩, hend⟩, hrow⟩, hlast⟩
    exact ⟨⟨hsheet.symm, Set.mem_uIcc_of_le hrow hlast, Set.mem_uIcc_of_le hcol hend⟩,
      hrow.trans hlast, hcol.trans hend⟩
  · rintro ⟨⟨hsheet, hrow, hcol⟩, hrows, hcols⟩
    rw [Set.uIcc_of_le hrows] at hrow
    rw [Set.uIcc_of_le hcols] at hcol
    exact ⟨⟨⟨⟨⟨hsheet.symm, trivial⟩, hcol.1⟩, hcol.2⟩, hrow.1⟩, hrow.2⟩

theorem isRead_iff : s.isRead refs c = true ↔ c ∈ refs.cells ∨ (∃ r ∈ refs.ranges, isRead.covers r c = true) ∨
    ∃ t ∈ refs.tables, ∃ tbl, tableNamed? s.tables t.table = some tbl ∧ c ∈ tbl.columnCells t.column := by
  simp only [isRead, Bool.or_eq_true, contains_iff_mem, any_eq_true, or_assoc]
  refine or_congr_right (or_congr_right (exists_congr fun t => and_congr_right fun _ => ?_))
  cases tableNamed? s.tables t.table <;> simp

section

variable (hc : Column.name (index c.col) = c.col)

include hc

theorem isRead_add {r : Reference} :
    s.isRead (refs.add r) c = true ↔ Reaches s.tables c r ∧ InOrder r ∨ s.isRead refs c = true := by
  rw [isRead_iff, isRead_iff]
  cases r with
  | cell sheet a => simp only [add, Ordered.mem_insert, Reaches, InOrder, and_true, or_assoc]
  | range sheet a b =>
    rw [← covers_iff hc]
    simp only [add, Ordered.mem_insert, exists_eq_or_imp]
    rw [or_assoc, or_left_comm]
  | table name column =>
    simp only [add, Ordered.mem_insert, exists_eq_or_imp, Reaches, InOrder, and_true, ← Table.mem_columnCells]
    rw [← or_assoc, or_left_comm, or_assoc]

theorem isRead_addAll {rs : List Reference} :
    s.isRead (refs.addAll rs) c = true ↔ (∃ r ∈ rs, Reaches s.tables c r ∧ InOrder r) ∨ s.isRead refs c = true :=
  foldl_iff (P := (s.isRead · c = true)) fun _ _ => isRead_add hc

theorem isRead_foldl {names : List String} {cells : List FormulaCell} :
    s.isRead (cells.foldl (fun acc f => acc.addAll (f.conversion names).references) refs) c = true ↔
    (∃ f ∈ cells, ∃ r ∈ (f.conversion names).references, Reaches s.tables c r ∧ InOrder r) ∨
    s.isRead refs c = true :=
  foldl_iff (P := (s.isRead · c = true)) fun _ _ => isRead_addAll hc

end

theorem name_index_entry {w : Workbook} {e : Entry} (he : e ∈ (ofWorkbook w).entries) :
    Column.name (index e.col) = e.col := by
  rw [Mapping.entries_eq_flatMap, mem_flatMap] at he
  obtain ⟨sheet, -, he⟩ := he
  obtain ⟨p, -, rfl⟩ := Mapping.mem_entries_pageOf.1 he
  rw [Mapping.entryAt, Position.colName, Column.index_name]

/-- An input is kept exactly if a formula names its cell, names corners in order that span it, or
names a table column with it. -/
theorem mem_keptInputs_iff (w : Workbook) :
    let s := ofWorkbook w
    (∀ f ∈ s.formulas, f.Complete s.tableNames) → ∃ refs, ofCells s.tableNames s.formulas = .ok refs ∧
      ∀ e, e ∈ s.keptInputs refs true ↔ e ∈ s.inputs ∧
        ∃ f ∈ s.formulas, ∃ r ∈ (f.conversion s.tableNames).references, Reaches s.tables e.ref r ∧ InOrder r := by
  intro s complete
  refine ⟨_, ofCells_eq complete, fun e => ?_⟩
  rw [keptInputs, if_pos rfl, mem_filter]
  refine and_congr_right fun he => ?_
  rw [isRead_foldl (c := e.ref) (name_index_entry (mem_of_mem_filter he)), or_iff_left]
  simp [isRead, empty]

/-- A range with the later corner first and one in order, each over one input. -/
def crossed : Workbook where
  sheets := [{
    name := "S"
    cells := .ofList [((⟨1, 1⟩ : Position), ({ value := .int 1 } : Cell)), (⟨1, 2⟩, { value := .text "=SUM(B2:A1)" }),
      (⟨2, 1⟩, { value := .int 2 }), (⟨2, 2⟩, { value := .text "=SUM(A2:A3)" })] compare }]

theorem mem_keptInputs_crossed :
    let s := ofWorkbook crossed
    (∀ f ∈ s.formulas, f.Complete s.tableNames) ∧ s.inputs.map Entry.ref = [⟨"S", "A", 1⟩, ⟨"S", "A", 2⟩] ∧
      ∃ refs, ofCells s.tableNames s.formulas = .ok refs ∧
        ∀ e ∈ s.inputs, e ∈ s.keptInputs refs true ↔ e.ref = ⟨"S", "A", 2⟩ := by
  intro s
  have complete : ∀ f ∈ s.formulas, f.Complete s.tableNames := by decide +kernel
  have reached : ∀ c ∈ s.inputs.map Entry.ref, (∃ f ∈ s.formulas, ∃ r ∈ (f.conversion s.tableNames).references,
      Reaches s.tables c r ∧ InOrder r) ↔ c = ⟨"S", "A", 2⟩ := by decide +kernel
  obtain ⟨refs, found, kept⟩ := mem_keptInputs_iff crossed complete
  refine ⟨complete, by decide +kernel, refs, found, fun e he => ?_⟩
  rw [kept, and_iff_right he]
  exact reached _ (mem_map_of_mem he)

end Survey

end Sheetwork
