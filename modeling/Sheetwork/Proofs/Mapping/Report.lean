import Sheetwork.Proofs.Mapping.Rows
import Sheetwork.Proofs.Workbook.Content
/-
  Mapping: what a report has. Its sheets have the names of the surveyed sheets, and their records have the fields of
  the rows (`Row.Recorded`); the records of the last sheet have the names and the merged areas (`sheets_report`).
-/

open List

namespace Sheetwork.Mapping

open Text Sheet Cell

/-! Sheets of rows -/

/-- What a report keeps of a field: formulas as they are, of other texts what a cell takes. -/
def kept (name : String) : Value → Value
  | .text f => if name = "Formula" && startsWith "=" f then .text f else taken (.text f)
  | v => v

def Row.Recorded (row : Row) (r : Record) : Prop := ∀ n v, (n, v) ∈ row.fields → r.get n = kept n v

variable {s t : Sheet} {name : String} {w : Workbook}

theorem map_fst_fields (row : Row) : row.fields.map Prod.fst = columns := rfl

def inked (name : String) : Value → Sheet.Ink
  | .text f => if name = "Formula" && startsWith "=" f then some (.text f, true) else written (.text f)
  | v => written v

theorem getD_inked (v : Value) (c : Value × Bool) : ((inked name v).getD c).1 = kept name v := by
  cases v with
  | text f =>
    simp only [inked, kept]
    split <;> rfl
  | _ => rfl

theorem puts_of_writeRow {s' : Sheet} {k : Nat} {row : Row} (h : writeRow s k row = .ok s') :
    Sheet.Puts (gridPuts k [row.fields.map fun x => inked x.1 x.2]) s s' := by
  refine Sheet.Puts.of_row (g := fun x : String × Value => inked x.1 x.2) (fun s s' x i hstep => ?_) h
  obtain ⟨n, v⟩ := x
  -- the value is assigned, or a formula stored as plain text, and then the cell is coloured
  cases v with
  | text f =>
    dsimp only [inked] at hstep ⊢
    split at hstep
    · next hformula =>
      cases hstep
      rw [if_pos hformula]
      refine Sheet.Puts.restyle ?_ (mem_singleton_self _) _
      refine ⟨rfl, rfl, fun q => ?_, fun q => ?_⟩
      · rw [mem_modify, map_singleton, mem_singleton, eq_comm]
      · show _ = if Position.mk k (i + 1) = q then (Value.text f, true) else s.content q
        rw [content, cell_modify]
        split <;> rfl
    · next hformula =>
      obtain ⟨t, ht, hstep⟩ := of_bind hstep
      cases hstep
      rw [if_neg hformula]
      exact (puts_of_put ht).restyle (mem_singleton_self _) _
  | _ =>
    obtain ⟨t, ht, hstep⟩ := of_bind hstep
    cases hstep
    exact (puts_of_put ht).restyle (mem_singleton_self _) _

theorem records_congr (h : s.cells = t.cells) : s.records = t.records := by
  obtain ⟨n, c, m, w, hs, tb, fr, tab⟩ := s
  cases h
  rfl

theorem listing_of_headings {names : List String} {f : Style → Style} (hshort : ∀ n ∈ names, n.length ≤ maxText)
    (h : ({ name } : Sheet).writeRow 1 (names.map .text) = .ok s) : (s.restyleRow 1 names.length f).Listing names ∧
    (∀ p ∈ (s.restyleRow 1 names.length f).cells, p.row ≤ 1) ∧ (s.restyleRow 1 names.length f).name = name := by
  have hputs := (Sheet.Puts.of_writeRow h).restyleRow (n := names.length) (by simp) f
  obtain ⟨hlisting, hrows⟩ := Sheet.Listing.of_puts hshort hputs
  exact ⟨hlisting, hrows, hputs.name⟩

theorem recorded_of_rowsSheet {rows : List Row} (h : rowsSheet name rows = .ok t) :
    t.name = name ∧ Forall₂ Row.Recorded rows t.records := by
  obtain ⟨s, u, hs, hu, h⟩ := of_bind₂ h
  cases h
  obtain ⟨hlisting, hrows, hname⟩ := listing_of_headings (f := heading)
    (by decide : ∀ n ∈ columns, n.length ≤ maxText) hs
  have hputs := Sheet.Puts.of_rows (k := 2) (g := fun row : Row => row.fields.map fun x => inked x.1 x.2)
    (fun s s' row i h => puts_of_writeRow (by rwa [Nat.add_comm])) hu
  obtain ⟨-, hrecords⟩ := Sheet.Listing.forall₂_records (by decide) (by decide)
    (forall_mem_map.2 fun row _ => (length_map _ : _ = row.fields.length)) hlisting hrows hputs
  rw [forall₂_map_left_iff] at hrecords
  rw [(of_withWidths u _).1, records_congr (of_withWidths u _).2.1]
  refine ⟨hputs.name.trans hname, hrecords.imp fun row r hget n v hmem => ?_⟩
  obtain ⟨i, hi⟩ := getElem?_of_mem hmem
  rw [hget i n (inked n v) (by rw [← map_fst_fields row, getElem?_map, hi]; rfl) (by rw [getElem?_map, hi]; rfl),
    getD_inked]

/-! The sheet of layouts -/

def layoutColumns : List String := ["SheetName", "MergedCells", "ColWidths", "RowHeights"]

theorem exists_of_layoutRow {p : Survey.Page} {vs : List Value} (h : layoutRow p = .ok vs) :
    ∃ a b, vs = [.text p.name, .text (Text.join ";" p.merged), .text a, .text b] := by
  obtain ⟨a, b, -, -, h⟩ := of_bind₂ h
  exact ⟨a, b, (Except.ok.inj h).symm⟩

theorem records_of_layoutSheet {pages : List Survey.Page} (h : layoutSheet pages = .ok t) :
    t.name = metadataName ∧ t.Listing layoutColumns ∧ ∀ r ∈ t.records, ∃ p ∈ pages,
      r.get "SheetName" = taken (.text p.name) ∧ r.get "MergedCells" = taken (.text (Text.join ";" p.merged)) := by
  obtain ⟨s, rows, hs, hrows, h⟩ := of_bind₂ h
  obtain ⟨hlisting, hfirst, hname⟩ := listing_of_headings (f := heading)
    (by decide : ∀ n ∈ layoutColumns, n.length ≤ maxText) hs
  have hrow : ∀ vs ∈ rows, ∃ p ∈ pages, ∃ a b,
      vs = [.text p.name, .text (Text.join ";" p.merged), .text a, .text b] := by
    intro vs hvs
    obtain ⟨p, hp, hlayout⟩ := exists_of_mem_right (mapM_eq_ok_iff.1 hrows) hvs
    exact ⟨p, hp, exists_of_layoutRow hlayout⟩
  obtain ⟨hname', hlisting, hrecords⟩ := Sheet.Listing.of_writeRows (by decide) (by decide) (fun vs hvs => by
    obtain ⟨p, -, a, b, rfl⟩ := hrow vs hvs
    rfl) hlisting hfirst h
  refine ⟨hname'.trans hname, hlisting, fun r hr => ?_⟩
  obtain ⟨vs, hvs, hget⟩ := exists_of_mem_right hrecords hr
  obtain ⟨p, hp, a, b, rfl⟩ := hrow vs hvs
  exact ⟨p, hp, hget 0 "SheetName" _ rfl rfl, hget 1 "MergedCells" _ rfl rfl⟩

/-! The report -/

/-- Names that are free in a new workbook and in a report. -/
structure FreeNames (w : Workbook) : Prop where
  distinct : (w.sheets.map fun s => lower s.name).Nodup
  unreserved : ∀ s ∈ w.sheets, lower s.name ≠ lower "Sheet" ∧ lower s.name ≠ lower metadataName

theorem FreeNames.nodup (h : FreeNames w) : w.sheetNames.Nodup := by
  have hmap : (w.sheets.map fun s => lower s.name) = w.sheetNames.map lower := by
    rw [Workbook.sheetNames, map_map]
    rfl
  have hd := h.distinct
  rw [hmap] at hd
  exact Nodup.of_map _ hd

/-- Sheets behind the first one of a new workbook are all that is left when it is taken away. -/
theorem sheets_dropFirst {ss : List Sheet} (h : w.sheets = fresh.sheets ++ ss) (hne : ss ≠ [])
    (hss : ∀ s ∈ ss, s.name ≠ "Sheet") : (dropFirst w).sheets = ss := by
  have hlen : 1 < w.sheets.length := by
    have := length_pos_iff.2 hne
    rw [h, length_append]
    show 1 < 1 + ss.length
    omega
  rw [dropFirst, if_pos hlen]
  rw [h, filter_append, filter_eq_self.2 fun s hs => decide_eq_true (hss s hs)]
  rfl

theorem pages_ofWorkbook : (Survey.ofWorkbook w).pages = w.sheets.map Survey.pageOf := by
  rw [Survey.ofWorkbook, map_map]
  rfl

/-- A report has a sheet of rows for every sheet, and a last sheet with the layouts. -/
theorem sheets_report {rep : Workbook} (hw : FreeNames w) (h : report w none = .ok rep) :
    ∃ ts l, rep.sheets = ts ++ [l] ∧ Forall₂ (fun s t => Forall₂ Row.Recorded (sheetRows (Survey.ofWorkbook w) s.name)
        t.records ∧ t.name = s.name) w.sheets ts ∧
      l.name = metadataName ∧ ∀ r ∈ l.records, ∃ s ∈ w.sheets, r.get "SheetName" = taken (.text s.name) ∧
          r.get "MergedCells" = taken (.text (Text.join ";" (s.merged.map Area.name))) := by
  obtain ⟨out, l, hout, hl, h⟩ := of_bind₂ h
  cases h
  rw [pages_ofWorkbook] at hout hl
  obtain ⟨hlname, -, hlrecords⟩ := records_of_layoutSheet hl
  obtain ⟨ts, hts, hrel⟩ := Workbook.sheets_of_foldlM Survey.Page.name (fun out out' p _ hstep => by
      obtain ⟨u, t, -, ht, hstep⟩ := of_bind₂ hstep
      obtain ⟨hname, hrecorded⟩ := recorded_of_rowsSheet ht
      exact ⟨t, hrecorded, hname, (Except.ok.inj hstep).symm⟩)
    (by rw [map_map]; exact hw.distinct)
    (by
      intro s hs p hp
      obtain ⟨t, ht, rfl⟩ := mem_map.1 hp
      rw [mem_singleton.1 hs]
      exact (hw.unreserved t ht).1.symm) hout
  rw [forall₂_map_left_iff] at hrel
  have hnames : ∀ t ∈ ts, ∃ s ∈ w.sheets, t.name = s.name := fun t ht => by
    obtain ⟨s, hs, -, hname⟩ := exists_of_mem_right hrel ht
    exact ⟨s, hs, hname⟩
  have happend : (out.append l).sheets = fresh.sheets ++ (ts ++ [l]) := by
    rw [Workbook.append_eq, hts, append_assoc]
    intro t ht
    rw [hlname]
    rw [hts, mem_append] at ht
    rcases ht with ht | ht
    · rw [mem_singleton.1 ht]
      decide +kernel
    · obtain ⟨s, hs, hname⟩ := hnames t ht
      rw [hname]
      exact (hw.unreserved s hs).2
  refine ⟨ts, l, sheets_dropFirst happend (by simp) ?_, hrel, hlname, ?_⟩
  · intro t ht
    rcases mem_append.1 ht with ht | ht
    · obtain ⟨s, hs, hname⟩ := hnames t ht
      rw [hname]
      exact fun heq => (hw.unreserved s hs).1 (congrArg lower heq)
    · rw [mem_singleton.1 ht, hlname]
      decide
  · intro r hr
    obtain ⟨p, hp, hsheet, hmerged⟩ := hlrecords r hr
    obtain ⟨s, hs, rfl⟩ := mem_map.1 hp
    exact ⟨s, hs, hsheet, hmerged⟩

end Sheetwork.Mapping
