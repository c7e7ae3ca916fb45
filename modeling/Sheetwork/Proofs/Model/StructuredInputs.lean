import Sheetwork.Model.Structured
import Sheetwork.Proofs.Workbook.Page
import Sheetwork.Proofs.Workbook.Patches
/-
  Models: structured inputs are read back as what was recorded. Every step of the draft adds pages at their ends and
  rows to the index; a row of the index names the page and the place where the value of its input stands (`Placed`),
  whatever is added later. A setting, a table in either orientation and a sheet add one row for every input and no
  other (`adds_addSetting`, `adds_addTable`, `adds_addSheet`), so the index of a blueprint lists exactly the used
  inputs (`adds_ofBlueprint`).

  The index is found again in the file (`indexed_reread`), and what it says is looked up there (`foldlM_lookUp`). Main
  statement: `ofStructured_gives_inputs`.
-/

open List

namespace Sheetwork.Model.Structured

open Sheet Overrides Ordered IndexRow Value
open Cell (maxText lasts)
open Text (Firm)

structure Source where
  sheet : String
  slot : Slot
  value : Value

/-! What the draft holds -/

namespace Draft

def Holds (d : Draft) (name : String) (i j : Nat) (v : Value) : Prop :=
  ∃ rows, (name, rows) ∈ d.holders ∧ entryAt? rows i j = some v

theorem map_fst_pages (d : Draft) : d.pages.map Prod.fst = d.sheetNames := rfl

end Draft

variable {d d' d'' : Draft} {lookup : Lookup} {sheet : String} {xs ys : List Source}

theorem firm_configSheet : Firm configSheet := ⟨'C', by decide, by decide⟩

/-- The index row of an input, with the place where its value stands. -/
structure Placed (d : Draft) (x : Source) (r : IndexRow) : Prop where
  sheet : r.sheet = x.sheet
  cell : x.slot.address = .ok r.cell
  firm : Firm r.inputSheet
  place : ∃ i j, r.inputCell = (Position.mk (i + 1) (j + 1)).address ∧ j + 1 ≤ Column.last ∧
    d.Holds r.inputSheet i j x.value

variable {name s : String} {i j : Nat} {v : Value} {x : Source} {r : IndexRow} {α : Type} {p : Patch}
  {cells : List Slot} {e e' : Entry}

/-- Pages and the index grow at their ends, the index by a row for each of the inputs and no other. -/
structure Adds (xs : List Source) (d d' : Draft) : Prop where
  config : d.config <+: d'.config
  tables : d.tables <+: d'.tables
  index : ∃ rows, d'.index = d.index ++ rows ∧ (∀ r ∈ rows, ∃ x ∈ xs, Placed d' x r) ∧
    ∀ x ∈ xs, ∃ r ∈ rows, Placed d' x r

theorem Adds.holds (h : Adds xs d d') (hv : d.Holds name i j v) : d'.Holds name i j v := by
  obtain ⟨rows, hmem, hat⟩ := hv
  rcases mem_cons.1 hmem with heq | hmem
  · obtain ⟨rfl, rfl⟩ := Prod.mk.inj heq
    obtain ⟨more, hmore⟩ := h.config
    refine ⟨_, mem_cons_self, ?_⟩
    rw [← hmore, ← cons_append]
    rw [entryAt?, Option.bind_eq_some_iff] at hat ⊢
    obtain ⟨row, hrow, hv⟩ := hat
    exact ⟨row, getElem?_append_left (lt_of_getElem? hrow) ▸ hrow, hv⟩
  · exact ⟨rows, mem_cons_of_mem _ (h.tables.subset hmem), hat⟩

theorem Adds.placed (h : Adds xs d d') (hr : Placed d x r) : Placed d' x r := by
  obtain ⟨i, j, hcell, hj, hv⟩ := hr.place
  exact ⟨hr.sheet, hr.cell, hr.firm, i, j, hcell, hj, h.holds hv⟩

theorem Adds.nil (d : Draft) : Adds [] d d := ⟨prefix_rfl, prefix_rfl, [], (append_nil _).symm, nofun, nofun⟩

theorem Adds.trans (h : Adds xs d d') (h' : Adds ys d' d'') : Adds (xs ++ ys) d d'' := by
  obtain ⟨rows, hindex, hsound, hcomplete⟩ := h.index
  obtain ⟨rows', hindex', hsound', hcomplete'⟩ := h'.index
  refine ⟨h.config.trans h'.config, h.tables.trans h'.tables, rows ++ rows',
    by rw [hindex', hindex, append_assoc], fun r hr => ?_, fun x hx => ?_⟩
  · rcases mem_append.1 hr with hr | hr
    · obtain ⟨x, hx, hplaced⟩ := hsound r hr
      exact ⟨x, mem_append_left _ hx, h'.placed hplaced⟩
    · obtain ⟨x, hx, hplaced⟩ := hsound' r hr
      exact ⟨x, mem_append_right _ hx, hplaced⟩
  · rcases mem_append.1 hx with hx | hx
    · obtain ⟨r, hr, hplaced⟩ := hcomplete x hx
      exact ⟨r, mem_append_left _ hr, h'.placed hplaced⟩
    · obtain ⟨r, hr, hplaced⟩ := hcomplete' x hx
      exact ⟨r, mem_append_right _ hr, hplaced⟩

theorem Adds.congr (h : Adds xs d d') (hmem : ∀ x, x ∈ xs ↔ x ∈ ys) : Adds ys d d' := by
  obtain ⟨rows, hindex, hsound, hcomplete⟩ := h.index
  refine ⟨h.config, h.tables, rows, hindex, fun r hr => ?_, fun x hx => hcomplete x ((hmem x).2 hx)⟩
  obtain ⟨x, hx, hplaced⟩ := hsound r hr
  exact ⟨x, (hmem x).1 hx, hplaced⟩

theorem adds_foldlM {σ : Type} {π : σ → Draft} {f : σ → α → Outcome σ} {g : α → List Source} {l : List α}
    (hstep : ∀ s s', ∀ a ∈ l, f s a = .ok s' → Adds (g a) (π s) (π s')) {s s' : σ} (h : l.foldlM f s = .ok s') :
    Adds (l.flatMap g) (π s) (π s') := by
  induction h using foldlM_induction with
  | nil => exact Adds.nil _
  | cons ht _ ih => exact (hstep _ _ _ mem_cons_self ht).trans (ih fun s s' b hb => hstep s s' b (mem_cons_of_mem _ hb))

/-! Settings -/

def sourceOf (lookup : Lookup) (sheet : String) (s : Slot) : Source := ⟨sheet, s, lookup s.row s.col⟩

theorem adds_addSetting {s : Slot} (h : d.addSetting lookup sheet p s = .ok d') :
    Adds [sourceOf lookup sheet s] d d' := by
  obtain ⟨cell, bounds, hcell, -, h⟩ := of_bind₂ h
  cases h
  refine ⟨prefix_append _ _, prefix_rfl, _, rfl, ?_, ?_⟩
  all_goals
    simp only [mem_singleton, forall_eq, exists_eq_left]
    refine ⟨rfl, hcell, firm_configSheet, d.config.length + 1, 1, rfl, by decide, _, mem_cons_self, ?_⟩
    rw [entryAt?, getElem?_cons_succ, getElem?_append_right (Nat.le_refl _), Nat.sub_self]
    rfl

/-! Tables -/

theorem firm_sheetName (h : Firm s) : Firm (sheetName s) := by
  refine (h.map fun c hc => ?_).take (by decide)
  split
  · decide
  · exact hc

theorem firm_numbered (h : Firm s) (n : Nat) : Firm (numbered s n) := by
  unfold numbered
  by_cases hlen : sheetNameLength - ("_" ++ Text.ofNat n).length = 0
  · dsimp only
    rw [hlen]
    refine ⟨'_', ?_, by decide⟩
    rw [Text.take, take_zero, String.toList_append, String.toList_append]
    rfl
  · exact (h.take hlen).append _

theorem firm_freshSheetName (h : Firm s) (existing : List String) : Firm (freshSheetName existing s) := by
  have hname := firm_sheetName h
  unfold freshSheetName
  by_cases hfree : (!existing.contains (sheetName s)) = true
  · rw [if_pos hfree]
    exact hname
  · rw [if_neg hfree]
    cases hfind : find? (fun s => !existing.contains s)
        ((range (existing.length + 1)).map fun i => numbered (sheetName s) (i + 1)) with
    | none => exact hname
    | some t =>
      obtain ⟨i, -, rfl⟩ := mem_map.1 (mem_of_find?_eq_some hfind)
      exact firm_numbered hname (i + 1)

theorem map_fst_labelled (kind : String) (value : Int → Value) (ns : List Int) :
    (Draft.labelled kind value ns).map Prod.fst = ns := by
  rw [Draft.labelled, map_map]
  exact zipIdx_map_fst 0 ns

theorem placed_of_table {rows : List (List Value)} (hrows : (r.inputSheet, rows) ∈ d.tables) (hfirm : Firm r.inputSheet)
    (hsheet : r.sheet = x.sheet) (hcell : x.slot.address = .ok r.cell)
    (hplace : (Slot.mk (2 + i) (2 + j)).address = .ok r.inputCell) (hv : entryAt? rows (i + 1) (j + 1) = some x.value) :
    Placed d x r := by
  have hslot : Slot.mk (2 + i) (2 + j) = (Position.mk (i + 2) (j + 2)).slot := by
    show _ = Slot.mk ((i + 2 : Nat) : Int) ((j + 2 : Nat) : Int)
    rw [Slot.mk.injEq]
    omega
  rw [hslot, Slot.address_eq_ok_iff] at hplace
  exact ⟨hsheet, hcell, hfirm, i + 1, j + 1, hplace.2, hplace.1.2, rows, mem_cons_of_mem _ hrows, hv⟩

/-- A table of lines adds its cells: the cell of a line and a place on the line stands there, behind a
row of headings and a column of labels. -/
theorem adds_addLines {bounds : String} {t : Bool} {outer inner : List (Int × String)} (hfirm : Firm name)
    (hcover : ∀ s ∈ cells, ∃ a ∈ outer.map Prod.fst, ∃ b ∈ inner.map Prod.fst, s = Draft.turned t a b)
    (h : d.addLines lookup sheet name bounds t cells outer inner = .ok d') :
    Adds (cells.map (sourceOf lookup sheet)) d d' := by
  obtain ⟨index, hindex, h⟩ := of_bind h
  cases h
  have hrows := mapM_eq_ok_iff.1 hindex
  refine ⟨prefix_rfl, prefix_append _ _, _, rfl, ?_⟩
  generalize hd' : Draft.mk _ _ _ _ = d'
  -- a row of the index is placed where the table has the cell's value
  have hplaced : ∀ x ∈ outer.zipIdx, ∀ y ∈ inner.zipIdx, cells.contains (Draft.turned t x.1.1 y.1.1) = true →
      ∀ r, Draft.tableRow sheet name bounds t x y = .ok r →
      Placed d' (sourceOf lookup sheet (Draft.turned t x.1.1 y.1.1)) r := by
    subst hd'
    intro x hx y hy hs r hr
    obtain ⟨inputCell, cell, hinput, hcell, hr⟩ := of_bind₂ hr
    cases hr
    refine placed_of_table (mem_append_right _ mem_cons_self) hfirm rfl hcell hinput ?_
    rw [entryAt?, getElem?_cons_succ, getElem?_map, mem_zipIdx_iff_getElem?.1 hx, Option.map_some, Option.bind_some,
      getElem?_cons_succ, getElem?_map, mem_zipIdx_iff_getElem?.1 hy, Option.map_some, if_pos hs]
    rfl
  constructor
  · intro r hr
    obtain ⟨⟨x, y⟩, hxy, hr⟩ := exists_of_mem_right hrows hr
    obtain ⟨x, hx, hxy⟩ := mem_flatMap.1 hxy
    obtain ⟨y, hy, heq⟩ := mem_map.1 hxy
    cases heq
    obtain ⟨hy, hs⟩ := mem_filter.1 hy
    exact ⟨_, mem_map_of_mem (contains_iff_mem.1 hs), hplaced x hx y hy hs r hr⟩
  · refine forall_mem_map.2 fun s hs => ?_
    obtain ⟨a, ha, b, hb, rfl⟩ := hcover s hs
    rw [← zipIdx_map_fst 0 outer, map_map] at ha
    rw [← zipIdx_map_fst 0 inner, map_map] at hb
    obtain ⟨x, hx, rfl⟩ := mem_map.1 ha
    obtain ⟨y, hy, rfl⟩ := mem_map.1 hb
    have hs := contains_iff_mem.2 hs
    obtain ⟨r, hr, heq⟩ := exists_of_mem_left hrows (mem_flatMap.2 ⟨x, hx, mem_map.2 ⟨y, mem_filter.2 ⟨hy, hs⟩, rfl⟩⟩)
    exact ⟨r, hr, hplaced x hx y hy hs r heq⟩

theorem adds_addTable {n : Nat} (hsheet : Firm sheet) (hrows : ∀ s ∈ p.cells, s.row ∈ p.area.rows)
    (hcols : ∀ s ∈ p.cells, s.col ∈ p.area.cols) (h : d.addTable lookup sheet n p = .ok d') :
    Adds (p.cells.map (sourceOf lookup sheet)) d d' := by
  have hfirm : Firm (freshSheetName d.sheetNames (sheet ++ "_Table" ++ Text.ofNat n)) :=
    firm_freshSheetName ((hsheet.append _).append _) _
  obtain ⟨bounds, -, h⟩ := of_bind h
  split at h
  all_goals
    refine adds_addLines hfirm (fun s hs => ?_) h
    rw [map_fst_labelled, map_fst_labelled]
  · exact ⟨s.col, hcols s hs, s.row, hrows s hs, rfl⟩
  · exact ⟨s.row, hrows s hs, s.col, hcols s hs, rfl⟩

/-! Sheets and blueprints -/

theorem mem_patches {s : Slot} : (∃ p ∈ patches cells, s ∈ p.cells) ↔ s ∈ cells := by
  have hd := nodup_ofList cells
  constructor
  · rintro ⟨p, hp, hs⟩
    obtain ⟨q, hq, rfl⟩ := mem_map.1 hp
    exact mem_ofList.1 (Patches.mem_of_mem_ofCells hd hq (mem_ofList.1 hs))
  · intro hs
    obtain ⟨q, hq, hs⟩ := Patches.exists_mem_ofCells hd (mem_ofList.2 hs)
    exact ⟨_, mem_map_of_mem hq, mem_ofList.2 hs⟩

theorem mem_area_of_mem_patches (hp : p ∈ patches cells) {s : Slot} (hs : s ∈ p.cells) :
    s.row ∈ p.area.rows ∧ s.col ∈ p.area.cols := by
  obtain ⟨q, -, rfl⟩ := mem_map.1 hp
  have hs : s ∈ q := mem_ofList.1 hs
  obtain ⟨hrow, hrow'⟩ := SlotBox.around_row hs
  obtain ⟨hcol, hcol'⟩ := SlotBox.around_col hs
  exact ⟨mem_of_getElem? (SlotBox.getElem?_rows _ hrow hrow'), mem_of_getElem? (SlotBox.getElem?_cols _ hcol hcol')⟩

theorem adds_addSheet (hsheet : Firm sheet) (h : d.addSheet lookup sheet cells = .ok d') :
    Adds (cells.map (sourceOf lookup sheet)) d d' := by
  obtain ⟨⟨n, e⟩, hfold, h⟩ := of_bind h
  cases h
  have hadds := adds_foldlM (π := Prod.snd) (g := fun p => p.cells.map (sourceOf lookup sheet))
    (fun s s' p hp hstep => ?_) hfold
  · refine hadds.congr fun x => ?_
    simp only [mem_flatMap, mem_map, sortOn, mem_mergeSort, ← @mem_patches cells]
    grind
  · have hp : p ∈ patches cells := mem_mergeSort.1 hp
    dsimp only at hstep
    split at hstep
    · obtain ⟨c', hc', hstep⟩ := of_bind hstep
      cases hstep
      have hsettings := adds_foldlM (π := id) (fun _ _ _ _ h => adds_addSetting h) hc'
      rwa [← map_eq_flatMap] at hsettings
    · obtain ⟨c', hc', hstep⟩ := of_bind hstep
      cases hstep
      exact adds_addTable hsheet (fun s hs => (mem_area_of_mem_patches hp hs).1)
        (fun s hs => (mem_area_of_mem_patches hp hs).2) hc'

def used (b : Blueprint) : List Source :=
  b.order.flatMap fun sheet => ((b.entriesOf sheet).filter isUsed).map fun e => ⟨sheet, e.slot, e.value⟩

/-- Blueprints whose used inputs can stand in structured inputs: sheets have names that are no formulas,
slots are not taken twice, and used inputs lie on a sheet, with values that last. -/
structure Regular (b : Blueprint) : Prop where
  name : ∀ s ∈ b.order, Firm s ∧ s.length ≤ maxText
  slots : ∀ s ∈ b.order, ((b.entriesOf s).map Entry.slot).Nodup
  cell : ∀ s ∈ b.order, ∀ e ∈ b.entriesOf s, isUsed e = true →
    ∃ p : Position, p.OnSheet ∧ e.slot = p.slot ∧ e.cell = .text p.address
  value : ∀ s ∈ b.order, ∀ e ∈ b.entriesOf s, isUsed e = true → lasts e.value = true

variable {b : Blueprint} {w : Workbook}

theorem Regular.eq_of_slot (h : Regular b) (hs : sheet ∈ b.order) (he : e ∈ b.entriesOf sheet)
    (he' : e' ∈ b.entriesOf sheet) (heq : e.slot = e'.slot) : e = e' :=
  inj_on_of_nodup_map (h.slots sheet hs) he he' heq

theorem Regular.eq_of_cell (h : Regular b) (hs : sheet ∈ b.order) (he : e ∈ b.entriesOf sheet)
    (he' : e' ∈ b.entriesOf sheet) (hused : isUsed e = true) (hused' : isUsed e' = true) (heq : e.cell = e'.cell) :
    e = e' := by
  obtain ⟨p, -, hp, hcell⟩ := h.cell sheet hs e he hused
  obtain ⟨p', -, hp', hcell'⟩ := h.cell sheet hs e' he' hused'
  rw [hcell, hcell', text.injEq, Position.address_inj] at heq
  exact h.eq_of_slot hs he he' (by rw [hp, hp', heq])

theorem mem_used : x ∈ used b ↔ x.sheet ∈ b.order ∧
    ∃ e ∈ b.entriesOf x.sheet, isUsed e = true ∧ e.slot = x.slot ∧ e.value = x.value := by
  obtain ⟨sheet, slot, value⟩ := x
  simp only [used, mem_flatMap, mem_map, mem_filter, Source.mk.injEq]
  grind

theorem adds_ofBlueprint (hb : Regular b) (h : ofBlueprint b = .ok d) : Adds (used b) {} d := by
  refine adds_foldlM (π := id) (fun e e' sheet hsheet hstep => ?_) h
  have hadds := adds_addSheet (hb.name sheet hsheet).1 hstep
  refine hadds.congr fun x => ?_
  -- the values of a sheet by slot, each slot once
  have hlookup : ∀ y ∈ b.entriesOf sheet, (((b.entriesOf sheet).foldl (fun m e => m.insert e.slot e.value)
      (∅ : Std.HashMap Slot Value))[Slot.mk y.slot.row y.slot.col]?).getD .null = y.value := by
    intro y hy
    rw [getElem?_entered (f := Entry.slot) (g := Entry.value) (fun z hz z' hz' heq => by
      rw [hb.eq_of_slot hsheet hz hz' heq]) |>.2 ⟨y, hy, rfl, rfl⟩]
    rfl
  simp only [mem_map, mem_filter, sourceOf]
  constructor
  · rintro ⟨s, ⟨y, ⟨hy, hused⟩, rfl⟩, rfl⟩
    exact ⟨y, ⟨hy, hused⟩, by rw [hlookup y hy]⟩
  · rintro ⟨y, ⟨hy, hused⟩, rfl⟩
    exact ⟨y.slot, ⟨y, ⟨hy, hused⟩, rfl⟩, by rw [hlookup y hy]⟩

/-! Reading back -/

/-- What an index row says of its input: where it is from and where it stands. -/
def IndexRow.entry (r : IndexRow) : List Value := [.text r.sheet, .text r.cell, .text r.inputSheet, .text r.inputCell]

/-- The index is found again: its columns, and of every row what it says. -/
theorem indexed_reread {t : Sheet} (h : t.Shows (texts indexColumns :: d.index.map values))
    (hfirm : ∀ r ∈ d.index, ∀ v ∈ r.entry, ∃ s, v = .text s ∧ Firm s ∧ s.length ≤ maxText) :
    columnsOf? t.headings = some [0, 1, 2, 3] ∧ indexed [0, 1, 2, 3] t = d.index.map entry := by
  have hlisting : Listing indexColumns t := h.listing (by decide) (forall_mem_map.2 fun _ _ => Nat.le_refl _)
  have hcols : t.maxCol = 10 := hlisting.maxCol_eq (by decide)
  have hmaxRow : t.maxRow = d.index.length + 1 := by
    refine h.maxRow_rows ⟨"SourceSheet", by decide, by decide⟩ fun r hr => ?_
    obtain ⟨s, hs, hsheet, hlen⟩ := hfirm r hr (.text r.sheet) mem_cons_self
    cases hs
    exact ⟨_, mem_cons_self, nofun, hsheet.lasts hlen⟩
  have hvalue : ∀ i r, d.index[i]? = some r → ∀ j v, r.entry[j]? = some v → t.value ⟨i + 2, j + 1⟩ = v := by
    intro i r hr j v hv
    obtain ⟨s, rfl, hs, hlen⟩ := hfirm r (mem_of_getElem? hr) v (mem_of_getElem? hv)
    refine h.value_row hr ?_ (hs.lasts hlen)
    have hj : j < r.entry.length := lt_of_getElem? hv
    rw [show r.values = r.entry ++ r.values.drop 4 from rfl, getElem?_append_left hj, hv]
  constructor
  · rw [hlisting.headings_eq (by decide)]
    rfl
  · have htruthy : ∀ r ∈ d.index, ∀ v ∈ r.entry, v.truthy = true := by
      intro r hr v hv
      obtain ⟨s, rfl, hs, -⟩ := hfirm r hr v hv
      exact hs.truthy
    have hrows : Forall₂ (fun (x : Record) r => x.values.any truthy = true ∧
        ([0, 1, 2, 3].map fun k => (x.values[k]?).getD .null) = r.entry) t.records d.index := by
      rw [records, hmaxRow, hcols, forall₂_map_left_iff]
      refine forall₂_range fun i r hr => ?_
      have hv := hvalue i r hr
      refine ⟨any_eq_true.2 ⟨_, mem_map.2 ⟨0, mem_range.2 (by decide), hv 0 _ rfl⟩,
        htruthy r (mem_of_getElem? hr) _ mem_cons_self⟩, ?_⟩
      show [t.value ⟨i + 2, 0 + 1⟩, t.value ⟨i + 2, 1 + 1⟩, t.value ⟨i + 2, 2 + 1⟩, t.value ⟨i + 2, 3 + 1⟩] = _
      rw [hv 0 _ rfl, hv 1 _ rfl, hv 2 _ rfl, hv 3 _ rfl]
      rfl
    have hkept : (t.records.map Record.values).filter (fun r => r.any truthy) = t.records.map Record.values := by
      refine filter_eq_self.2 (forall_mem_map.2 fun x hx => ?_)
      obtain ⟨r, -, hany, -⟩ := exists_of_mem_left hrows hx
      exact hany
    have hentries : ((t.records.map Record.values).map fun r => [0, 1, 2, 3].map fun k => (r[k]?).getD .null) =
        d.index.map entry := by
      rw [map_map, ← forall₂_eq_eq_eq, forall₂_map_left_iff, forall₂_map_right_iff]
      exact hrows.imp fun _ _ => And.right
    unfold indexed
    dsimp only
    rw [hkept, hentries]
    refine filter_eq_self.2 fun row hrow => ?_
    obtain ⟨r, hr, rfl⟩ := mem_map.1 hrow
    exact all_eq_true.2 (htruthy r hr)

/-- The names of pages can stand in cells, and their rows on sheets. -/
def Fits (d : Draft) : Prop := ∀ x ∈ d.pages, x.1.length ≤ maxText ∧ x.2.length ≤ Address.maxRow

def lookUp (w : Workbook) (r : IndexRow) : Value :=
  ((w.sheet? r.inputSheet).bind fun s => (positionOf (.text r.inputCell)).toOption.map s.value).getD .null

theorem wrote_workbook (h : d.workbook = .ok w) (hd : (d.sheetNames.map Text.lower).Nodup) :
    Forall₂ (fun x s => Wrote 1 x.2 { name := x.1 } s) d.pages w.sheets := by
  rw [← d.map_fst_pages, map_map] at hd
  exact Workbook.wrote_ofPages (fun _ _ _ => Puts.of_writeRows) hd h

theorem Placed.exists_onSheet (hr : Placed d x r) (hfits : Fits d) :
    ∃ rows i j, (r.inputSheet, rows) ∈ d.pages ∧ r.inputCell = (Position.mk (i + 1) (j + 1)).address ∧
      (Position.mk (i + 1) (j + 1)).OnSheet ∧ entryAt? rows i j = some x.value := by
  obtain ⟨i, j, hcell, hj, rows, hrows, hat⟩ := hr.place
  have hpage : (r.inputSheet, rows) ∈ d.pages := mem_cons_of_mem _ hrows
  have hi := (lt_of_entryAt? (Option.isSome_iff_exists.2 ⟨_, hat⟩)).1
  have hon : (Position.mk (i + 1) (j + 1)).OnSheet :=
    ⟨by show 1 ≤ i + 1; omega, Nat.lt_of_lt_of_le hi (hfits _ hpage).2, by show 1 ≤ j + 1; omega, hj⟩
  exact ⟨rows, i, j, hpage, hcell, hon, hat⟩

theorem lookUp_of_placed (hw : Forall₂ (fun x s => Wrote 1 x.2 { name := x.1 } s) d.pages w.sheets)
    (hd : d.sheetNames.Nodup) (hfits : Fits d) (hr : Placed d x r) (hv : lasts x.value = true) :
    ∃ t p, w.stored.dataOnly.sheet? r.inputSheet = some t ∧
      positionOf (.text r.inputCell) = .ok p ∧ t.value p = x.value := by
  obtain ⟨rows, i, j, hpage, hcell, hon, hat⟩ := hr.exists_onSheet hfits
  obtain ⟨t, ht, hshows⟩ := Workbook.exists_shown hw (by rwa [d.map_fst_pages]) hpage
  refine ⟨t, ⟨i + 1, j + 1⟩, ht, ?_, hshows.value i j _ hat hv⟩
  rw [positionOf, hcell]
  exact bind_ok rfl (bind_ok (Address.target_address hon) rfl)

theorem Placed.firm_entry (hr : Placed d x r) (hfits : Fits d) (hsheet : Firm r.sheet ∧ r.sheet.length ≤ maxText)
    (hslot : ∃ p : Position, p.OnSheet ∧ x.slot = p.slot) :
    ∀ v ∈ r.entry, ∃ s, v = .text s ∧ Firm s ∧ s.length ≤ maxText := by
  have haddress : ∀ p : Position, p.OnSheet → Firm p.address ∧ p.address.length ≤ maxText := fun p hp =>
    ⟨Text.firm_address hp, Nat.le_trans (Position.length_address_le hp) (by decide)⟩
  obtain ⟨rows, i, j, hpage, hcell, hon, -⟩ := hr.exists_onSheet hfits
  obtain ⟨p, hp, heq⟩ := hslot
  have hsource := hr.cell
  rw [heq, Slot.address_eq_ok_iff] at hsource
  simp only [entry, forall_mem_cons, text.injEq, exists_eq_left']
  refine ⟨hsheet, hsource.2 ▸ haddress p hp, ⟨hr.firm, (hfits _ hpage).1⟩, hcell ▸ haddress _ hon, nofun⟩

/-- Unedited structured inputs are looked up row by row of the index. -/
theorem ofStructured_eq (hw : Forall₂ (fun x s => Wrote 1 x.2 { name := x.1 } s) d.pages w.sheets)
    (hd : d.sheetNames.Nodup)
    (hfirm : ∀ r ∈ d.index, ∀ v ∈ r.entry, ∃ s, v = .text s ∧ Firm s ∧ s.length ≤ maxText)
    (hplace : ∀ r ∈ d.index, ∃ t p, w.stored.dataOnly.sheet? r.inputSheet = some t ∧
      positionOf (.text r.inputCell) = .ok p) : ofStructured w.stored.dataOnly = .ok
      (d.index.foldl (fun o r => o.insert ⟨r.sheet, r.cell⟩ (lookUp w.stored.dataOnly r)) ∅) := by
  obtain ⟨t, ht, hshows⟩ := Workbook.exists_shown hw (by rwa [d.map_fst_pages]) mem_cons_self
  obtain ⟨hcols, hindexed⟩ := indexed_reread hshows hfirm
  have hfind : ∀ name, (w.stored.dataOnly.sheets.find? fun s => .text s.name == text name) =
      w.stored.dataOnly.sheet? name := by
    intro name
    rw [Workbook.sheet?]
    simp only [text_beq]
  unfold ofStructured
  rw [ht]
  refine bind_ok rfl ?_
  dsimp only
  rw [hcols]
  refine bind_ok rfl ?_
  rw [hindexed, foldlM_map]
  refine foldlM_ok (fun o r hr => ?_) ∅
  obtain ⟨s, p, hs, hp⟩ := hplace r hr
  simp only [entry, hfind, hs, hp, lookUp]
  rfl

/-- The values that unedited structured inputs give are those of the used inputs, and no others. -/
theorem ofStructured_gives_inputs (hb : Regular b) (hd : ofBlueprint b = .ok d) (hw : d.workbook = .ok w)
    (hnames : (d.sheetNames.map Text.lower).Nodup) (hfits : Fits d) :
    ∃ o, ofStructured w.stored.dataOnly = .ok o ∧ ∀ (k : CellName) v, o[k]? = some v ↔
      k.sheet ∈ b.order ∧ ∃ e ∈ b.entriesOf k.sheet, isUsed e = true ∧ e.cell = .text k.cell ∧ e.value = v := by
  have hwrote := wrote_workbook hw hnames
  have hnodup : d.sheetNames.Nodup := hnames.of_map _
  obtain ⟨rows, hindex, hsound, hcomplete⟩ := (adds_ofBlueprint hb hd).index
  rw [nil_append] at hindex
  subst hindex
  -- a row of the index is placed for a used input with its cell
  have hrow : ∀ r ∈ d.index, ∃ e ∈ b.entriesOf r.sheet, r.sheet ∈ b.order ∧ isUsed e = true ∧
      e.cell = .text r.cell ∧ Placed d ⟨r.sheet, e.slot, e.value⟩ r := by
    intro r hr
    obtain ⟨⟨sheet, slot, value⟩, hx, hplaced⟩ := hsound r hr
    obtain ⟨hsheet, e, he, hused, hslot, hvalue⟩ := mem_used.1 hx
    obtain ⟨p, -, hp, hcell⟩ := hb.cell _ hsheet e he hused
    obtain rfl : r.sheet = sheet := hplaced.sheet
    subst hslot hvalue
    have haddress := hplaced.cell
    rw [hp, Slot.address_eq_ok_iff] at haddress
    exact ⟨e, he, hsheet, hused, by rw [hcell, haddress.2], hplaced⟩
  have hlook : ∀ r ∈ d.index, ∀ e ∈ b.entriesOf r.sheet, r.sheet ∈ b.order → isUsed e = true →
      e.cell = .text r.cell → lookUp w.stored.dataOnly r = e.value := by
    intro r hr e he hsheet hused hcell
    obtain ⟨e', he', -, hused', hcell', hplaced⟩ := hrow r hr
    obtain ⟨t, p, ht, hp, hv⟩ := lookUp_of_placed hwrote hnodup hfits hplaced (hb.value _ hsheet e' he' hused')
    obtain rfl : e = e' := hb.eq_of_cell hsheet he he' hused hused' (hcell.trans hcell'.symm)
    rw [lookUp, ht, hp]
    exact hv
  refine ⟨_, ofStructured_eq hwrote hnodup (fun r hr => ?_) (fun r hr => ?_), fun k v => ?_⟩
  · obtain ⟨e, he, hsheet, hused, -, hplaced⟩ := hrow r hr
    obtain ⟨p, hp, hslot, -⟩ := hb.cell _ hsheet e he hused
    exact hplaced.firm_entry hfits (hb.name _ hsheet) ⟨p, hp, hslot⟩
  · obtain ⟨e, he, hsheet, hused, -, hplaced⟩ := hrow r hr
    obtain ⟨t, p, ht, hp, -⟩ := lookUp_of_placed hwrote hnodup hfits hplaced (hb.value _ hsheet e he hused)
    exact ⟨t, p, ht, hp⟩
  · rw [getElem?_entered (f := fun r : IndexRow => CellName.mk r.sheet r.cell) (g := lookUp w.stored.dataOnly)]
    · constructor
      · rintro ⟨r, hr, rfl, rfl⟩
        obtain ⟨e, he, hsheet, hused, hcell, -⟩ := hrow r hr
        exact ⟨hsheet, e, he, hused, hcell, (hlook r hr e he hsheet hused hcell).symm⟩
      · rintro ⟨hsheet, e, he, hused, hcell, rfl⟩
        obtain ⟨r, hr, hplaced⟩ := hcomplete ⟨k.sheet, e.slot, e.value⟩ (mem_used.2 ⟨hsheet, e, he, hused, rfl, rfl⟩)
        obtain ⟨p, -, hp, hcell'⟩ := hb.cell _ hsheet e he hused
        have haddress := hplaced.cell
        rw [hp, Slot.address_eq_ok_iff] at haddress
        have hrsheet : r.sheet = k.sheet := hplaced.sheet
        have hrcell : r.cell = k.cell := by
          rw [hcell', text.injEq] at hcell
          rw [haddress.2, hcell]
        exact ⟨r, hr, by rw [hrsheet, hrcell], hlook r hr e (by rwa [hrsheet]) (by rwa [hrsheet]) hused
          (by rw [hcell, hrcell])⟩
    · intro r hr r' hr' heq
      obtain ⟨hsheet, hcell⟩ := CellName.mk.inj heq
      obtain ⟨e, he, horder, hused, hecell, -⟩ := hrow r hr
      rw [hlook r hr e he horder hused hecell, hlook r' hr' e (hsheet ▸ he) (hsheet ▸ horder) hused (hcell ▸ hecell)]

/-! A table under years with a gap, and a setting -/

def yearCells : List (Position × Value × Value) :=
  [(⟨1, 2⟩, .int 2020, Entry.outputKind), (⟨1, 3⟩, .int 2021, Entry.outputKind),
    (⟨2, 2⟩, .int 1, Entry.inputKind), (⟨2, 3⟩, .int 2, Entry.inputKind),
    (⟨3, 2⟩, .int 3, Entry.inputKind), (⟨5, 5⟩, .text "x", Entry.inputKind)]

def yearEntries : List Entry := yearCells.map fun (p, value, kind) =>
  { sheet := .text "S", cell := .text p.address, row := p.row, col := p.col, kind, formula := .null, value,
    included := true }

def years : Blueprint :=
  { source := "", template := "", order := ["S"], layouts := [], metadata := []
    entries := [("S", yearEntries)] }

theorem regular_years : Regular years := by
  have hentry : ∀ e ∈ yearEntries, (∃ p : Position, p.OnSheet ∧ e.slot = p.slot ∧ e.cell = .text p.address) ∧
      lasts e.value = true := by
    intro e he
    obtain ⟨x, hx, rfl⟩ := mem_map.1 he
    have hall : ∀ x ∈ yearCells, x.1.OnSheet ∧ lasts x.2.1 = true := by decide
    exact ⟨⟨x.1, (hall x hx).1, rfl, rfl⟩, (hall x hx).2⟩
  have hsheet : ∀ s ∈ years.order, s = "S" := by decide
  refine ⟨fun s hs => ?_, fun s hs => ?_, fun s hs e he _ => ?_, fun s hs e he _ => ?_⟩
  · rw [hsheet s hs]
    exact ⟨⟨'S', by decide, by decide⟩, by decide⟩
  · rw [hsheet s hs]
    decide
  · rw [hsheet s hs] at he
    exact (hentry e he).1
  · rw [hsheet s hs] at he
    exact (hentry e he).2

theorem patches_years : sortOn (fun p => p.area.corner) (patches [⟨2, 2⟩, ⟨2, 3⟩, ⟨3, 2⟩, ⟨5, 5⟩]) =
    [⟨[⟨2, 2⟩, ⟨2, 3⟩, ⟨3, 2⟩], ⟨2, 2, 3, 3⟩⟩, ⟨[⟨5, 5⟩], ⟨5, 5, 5, 5⟩⟩] := by
  cbv

/-- The values of the example, looked up in the list of entries. -/
def yearValue : Lookup := fun r c => ((yearEntries.reverse.find? fun e => e.slot == ⟨r, c⟩).map Entry.value).getD .null

theorem ofBlueprint_years : ofBlueprint years =
    Draft.addTable yearValue "S" 1 {} ⟨[⟨2, 2⟩, ⟨2, 3⟩, ⟨3, 2⟩], ⟨2, 2, 3, 3⟩⟩ >>= fun d =>
      d.addSetting yearValue "S" ⟨[⟨5, 5⟩], ⟨5, 5, 5, 5⟩⟩ ⟨5, 5⟩ := by
  have hlookup : (fun r c => ((yearEntries.foldl (fun m e => m.insert e.slot e.value)
      (∅ : Std.HashMap Slot Value))[Slot.mk r c]?).getD .null) = yearValue := by
    funext r c
    rw [getElem?_foldl_enter, Std.HashMap.getElem?_empty, Option.or_none]
    rfl
  show (Draft.addSheet _ "S" [⟨2, 2⟩, ⟨2, 3⟩, ⟨3, 2⟩, ⟨5, 5⟩] {} >>= pure) = _
  rw [show years.entriesOf "S" = yearEntries from rfl, hlookup]
  unfold Draft.addSheet
  rw [patches_years]
  rfl

theorem exists_workbook_years : ∃ d w, ofBlueprint years = .ok d ∧ d.workbook = .ok w ∧
    (d.sheetNames.map Text.lower).Nodup ∧ Fits d := by
  have hok : ((ofBlueprint years).toOption.any fun d => d.workbook.toOption.any fun _ =>
      decide ((d.sheetNames.map Text.lower).Nodup ∧ ∀ x ∈ d.pages, x.1.length ≤ maxText ∧
        x.2.length ≤ Address.maxRow)) = true := by
    rw [ofBlueprint_years]
    decide +kernel
  obtain ⟨d, hd, hok⟩ := exists_ok_of_any hok
  obtain ⟨w, hw, hok⟩ := exists_ok_of_any hok
  have hok := of_decide_eq_true hok
  exact ⟨d, w, hd, hw, hok⟩

/-- The last value of the turned table comes back to its cell, and the gap beside it stays empty. -/
theorem ofStructured_years : ∃ d w o, ofBlueprint years = .ok d ∧ d.workbook = .ok w ∧
    ofStructured w.stored.dataOnly = .ok o ∧ o[CellName.mk "S" "B3"]? = some (.int 3) ∧
      o[CellName.mk "S" "C3"]? = none := by
  obtain ⟨d, w, hd, hw, hnames, hfits⟩ := exists_workbook_years
  obtain ⟨o, ho, hget⟩ := ofStructured_gives_inputs regular_years hd hw hnames hfits
  have haddress : (Position.mk 3 2).address = "B3" := by decide
  refine ⟨d, w, o, hd, hw, ho, (hget _ _).2 ⟨by decide, yearEntries[4], ?_, by decide,
    congrArg text haddress, rfl⟩, ?_⟩
  · exact getElem_mem (l := yearEntries) (by decide)
  · refine Option.eq_none_iff_forall_ne_some.2 fun v hv => ?_
    obtain ⟨-, e, he, -, hcell, -⟩ := (hget _ _).1 hv
    have hall : ∀ e ∈ yearEntries, e.cell.text? ≠ some "C3" := by decide
    exact hall e he (by rw [hcell]; rfl)

end Sheetwork.Model.Structured
