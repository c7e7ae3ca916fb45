import Sheetwork.Proofs.Mapping.Regeneration
/-
  Mapping: which cells the rows of a report cover, and of which type the rows are. A row covers the cells that its
  range opens up to, and these are the cells that it stands for (`Row.Means.cover_eq`). Main statements:
  `cover_sheetRows`, `type_of_covers`.
-/

open List

namespace Sheetwork.Mapping

open Survey Survey.Entry

/-! The cells of a row -/

def Row.record (r : Row) : Record := ⟨r.fields.map fun x => .text x.1, r.fields.map Prod.snd⟩

/-- The addresses of the cells that a row covers: the range of a group is opened up, any other row stands
for its own cell. -/
def Row.cover (r : Row) : Outcome (List String) :=
  if r.type = .input ∨ r.group = none then .ok [r.cell]
  else (·.map Prod.fst) <$> expandGroup r.record

theorem Row.need_record (r : Row) {n : String} {v : Value} (h : (n, v) ∈ r.fields) : r.record.need n = .ok v := by
  have hnames : r.fields.map Prod.fst = columns := rfl
  obtain ⟨i, hi⟩ := getElem?_of_mem h
  have hrecord : r.record = ⟨columns.map .text, r.fields.map Prod.snd⟩ := rfl
  rw [hrecord]
  refine ifNone_eq_ok_iff.2 (Record.get?_of_nodup (by decide) (i := i) ?_ ?_)
  · rw [← hnames, getElem?_map, hi]
    rfl
  · rw [getElem?_map, hi]
    rfl

theorem Row.Means.cover_eq {r : Row} {ps : List (Position × Value)} (h : r.Means ps) :
    r.cover = .ok (ps.map fun x => x.1.address) := by
  unfold Row.cover
  cases h with
  | input htype hcell _ =>
    rw [if_pos (.inl htype), hcell]
    rfl
  | single _ hgroup hcell =>
    rw [if_pos (.inr hgroup), hcell]
    rfl
  | @group p f t n htype hgroup _ hcell hp hlast hformula _ =>
    rw [if_neg (by simp [htype, hgroup]), expandGroup_eq (f := f) hp hlast
      (r.need_record (by simp [Row.fields, hcell])) (r.need_record (by simp [Row.fields, hformula]))
      (r.need_record (by simp [Row.fields, hgroup])) (r.need_record (v := .text r.sheet) (by simp [Row.fields]))]
    simp [Functor.map, Except.map]

/-! The rows of a sheet -/

section Sheet

variable {w : Workbook} {s : Sheet} {c : FormulaCell}

theorem exists_cover (hd : w.sheetNames.Nodup) (hs : s ∈ w.sheets) (hcells : ∀ p ∈ s.cells, p.OnSheet) :
    ∃ pss, Forall₂ (fun r ps => r.cover = .ok (ps.map Position.address) ∧
        r.TypedBy (ofWorkbook w) (pageOf s).entries ps)
      (sheetRows (ofWorkbook w) s.name) pss ∧
      pss.flatten.Perm ((pageOf s).entries.map position) := by
  have hplaced := placed_pageOf hcells
  obtain ⟨pss, hmeans, hperm⟩ := exists_means hplaced (nodup_pageOf s) (entries_ofWorkbook hd hs)
  refine ⟨pss.map (·.map Prod.fst), ?_, ?_⟩
  · rw [forall₂_map_right_iff]
    refine hmeans.imp fun r ps h => ⟨?_, h.2⟩
    rw [h.1.cover_eq, map_map]
    rfl
  · rw [← map_flatten]
    exact (hperm.flatten.map _).trans (perm_meanings hplaced (nodup_pageOf s))

/-- Two cells of a row, before and behind the last column of one letter. -/
def acrossZ : Sheet := (({ name := "S" } : Sheet).insert ⟨1, 26⟩ (sumCell "=Z2")).insert ⟨1, 27⟩ (sumCell "=AA2")

def Row.Covers (r : Row) (a : String) : Prop := ∃ as, r.cover = .ok as ∧ a ∈ as

/-- A formula mentions the place of a cell, in a workbook: its own one (`none`) or another. -/
def Mentions (file : Option String) (e c : FormulaCell) : Prop :=
  ∃ m ∈ Formula.mentions e.formula e.sheet, m.file = file ∧ Vector.covers m c.ref = true

theorem typeOf_eq_calculation_iff {v : Survey} (hc : c ∈ v.formulas) :
    typeOf v c = .calculation ↔ ∃ e ∈ v.formulas, ∃ file, Mentions file e c := by
  have hread : c.ref ∈ (Vector.classify v.formulas).1.map FormulaCell.ref ↔
      ∃ e ∈ v.formulas, ∃ file, Mentions file e c := by
    simp only [Vector.classify, partition_eq_filter_filter, mem_map, mem_filter, any_eq_true, mem_flatMap]
    constructor
    · rintro ⟨x, ⟨-, m, ⟨e, he, hm⟩, hcover⟩, href⟩
      exact ⟨e, he, m.file, m, hm, rfl, href ▸ hcover⟩
    · rintro ⟨e, he, file, m, hm, -, hcover⟩
      exact ⟨c, ⟨hc, m, ⟨e, he, hm⟩, hcover⟩, rfl⟩
  rw [← hread, typeOf, ← contains_iff_mem]
  split <;> simp_all

theorem mem_formulas_ofWorkbook (hd : w.sheetNames.Nodup) (hs : s ∈ w.sheets) :
    c ∈ (pageOf s).entries.filterMap formula? ↔ c ∈ (ofWorkbook w).formulas ∧ c.sheet = s.name := by
  simp only [← entries_ofWorkbook hd hs, formulas, mem_filterMap, mem_filter, decide_eq_true_eq]
  constructor
  · rintro ⟨e, ⟨he, hsheet⟩, hc⟩
    obtain ⟨f, -, -, rfl⟩ := exists_of_formula? hc
    exact ⟨⟨e, he, hc⟩, hsheet⟩
  · rintro ⟨⟨e, he, hc⟩, hsheet⟩
    obtain ⟨f, -, -, rfl⟩ := exists_of_formula? hc
    exact ⟨e, ⟨he, hsheet⟩, hc⟩

/-- The rows that cover a formula cell are of formula cells. Such a row is a calculation exactly if its
first cell is mentioned: by another formula, by its own one, or for a cell of another workbook. -/
theorem type_of_covers (hd : w.sheetNames.Nodup) (hs : s ∈ w.sheets) (hcells : ∀ p ∈ s.cells, p.OnSheet)
    {c : FormulaCell} (hc : c ∈ (ofWorkbook w).formulas) (hsheet : c.sheet = s.name) :
    (∃ r ∈ sheetRows (ofWorkbook w) s.name, r.Covers c.address) ∧
      ∀ r ∈ sheetRows (ofWorkbook w) s.name, r.Covers c.address →
        ∃ d ∈ (ofWorkbook w).formulas, ∃ as, d.sheet = s.name ∧ r.cover = .ok (d.address :: as) ∧
          (r.type = .calculation ∨ r.type = .output) ∧
          (r.type = .calculation ↔ (∃ e ∈ (ofWorkbook w).formulas, e ≠ d ∧ Mentions none e d) ∨
            Mentions none d d ∨ ∃ e ∈ (ofWorkbook w).formulas, ∃ file, Mentions (some file) e d) := by
  have hplaced := placed_pageOf hcells
  obtain ⟨pss, hrows, hperm⟩ := exists_cover hd hs hcells
  have hc := (mem_formulas_ofWorkbook hd hs).2 ⟨hc, hsheet⟩
  have haddress := (placed_formulas hplaced c hc).1.address
  constructor
  · have hmem : c.position ∈ pss.flatten := hperm.mem_iff.2 ((perm_position_entries _).mem_iff.1
      (mem_append_right _ (mem_map_of_mem hc)))
    obtain ⟨ps, hps, hmem⟩ := mem_flatten.1 hmem
    obtain ⟨r, hr, hcover, -⟩ := exists_of_mem_right hrows hps
    exact ⟨r, hr, _, hcover, haddress ▸ mem_map_of_mem hmem⟩
  · rintro r hr ⟨as, has, hmem⟩
    obtain ⟨ps, -, hcover, htyped⟩ := exists_of_mem_left hrows hr
    rw [hcover] at has
    cases has
    obtain ⟨p, hp, hpc⟩ := mem_map.1 hmem
    obtain rfl := Position.address_inj.1 (hpc.trans haddress)
    rcases htyped with ⟨e, he, rfl⟩ | ⟨d, hd', hhead, htype⟩
    · -- no input stands in the place of a formula cell
      have hdisjoint := (nodup_append.1 ((perm_position_entries _).nodup_iff.2 (nodup_pageOf s))).2.2
      exact absurd (mem_singleton.1 hp).symm (hdisjoint _ (mem_map_of_mem he) _ (mem_map_of_mem hc))
    · obtain ⟨ps, rfl⟩ := head?_eq_some_iff.1 hhead
      obtain ⟨hmem, hname⟩ := (mem_formulas_ofWorkbook hd hs).1 hd'
      refine ⟨d, hmem, ps.map Position.address, hname, ?_, ?_, ?_⟩
      · rw [hcover, map_cons, (placed_formulas hplaced d hd').1.address]
      · rw [htype, typeOf]
        split <;> simp
      · rw [htype, typeOf_eq_calculation_iff hmem]
        constructor
        · rintro ⟨e, he, file, hmention⟩
          cases file with
          | some file => exact .inr (.inr ⟨e, he, file, hmention⟩)
          | none =>
            by_cases hed : e = d
            · exact .inr (.inl (hed ▸ hmention))
            · exact .inl ⟨e, he, hed, hmention⟩
        · rintro (⟨e, he, -, hmention⟩ | hmention | ⟨e, he, file, hmention⟩)
          · exact ⟨e, he, none, hmention⟩
          · exact ⟨d, hmem, none, hmention⟩
          · exact ⟨e, he, some file, hmention⟩

/-- A formula that reads its own cell. -/
def circular : Sheet := ({ name := "S" } : Sheet).insert ⟨1, 1⟩ (sumCell "=A1+1")

/-- The only formula is a calculation. -/
theorem type_of_covers_circular : (ofWorkbook { sheets := [circular] }).formulas = [⟨"S", "A", 1, "=A1+1"⟩] ∧
    ∃ r ∈ sheetRows (ofWorkbook { sheets := [circular] }) "S", r.Covers "A1" ∧ r.type = .calculation := by
  have hformulas : (ofWorkbook { sheets := [circular] }).formulas = [⟨"S", "A", 1, "=A1+1"⟩] := rfl
  have hmentions : Formula.mentions "=A1+1" "S" =
      [⟨none, "S", ⟨false, ['A'], false, ['1']⟩, none, 0, 2, ['A', '1']⟩] := by cbv
  obtain ⟨⟨r, hr, hcovers⟩, hrows⟩ := type_of_covers (w := { sheets := [circular] })
    (c := ⟨"S", "A", 1, "=A1+1"⟩) (nodup_singleton _) (mem_singleton_self _)
    (Sheet.forall_mem_insert (by decide) (by simp))
    (by rw [hformulas]; exact mem_singleton_self _) rfl
  obtain ⟨d, hd, -, -, -, -, htype⟩ := hrows r hr hcovers
  rw [hformulas, mem_singleton] at hd
  refine ⟨hformulas, r, hr, hcovers, htype.2 (.inr (.inl ?_))⟩
  rw [hd, Mentions, hmentions]
  exact ⟨_, mem_singleton_self _, rfl, by decide⟩

end Sheet

end Sheetwork.Mapping
