import Sheetwork.Mapping.Regeneration
import Sheetwork.Proofs.Mapping.Report
import Sheetwork.Proofs.Workbook.Page
/-
  Mapping: from a report back to a workbook. A record writes the cells that its row stands for and no others
  (`wrote_of_placeRecord`), so the records of a sheet write every cell once (`wrote_of_foldlM`), and the areas that
  are merged at the end hide none that holds something (`content_of_layOut`).
-/

open List

namespace Sheetwork.Mapping

open Text Position Survey.Entry Value
open Address (area?)
open Text (join)
open Survey (ofWorkbook pageOf)
open Cell (maxText taken_text taken)

/-! Writing cells -/

/-- Values are assigned to cells, and the others stay as they are. -/
abbrev Wrote (ps : List (Position × Value)) (s s' : Sheet) : Prop :=
  Sheet.Puts (ps.map fun x => (x.1, Sheet.written x.2)) s s'

variable {v : Value} {n : String} {p : Position} {r : Record}

theorem wrote_of_place {s s' : Sheet} (hp : p.OnSheet) (h : place s r p.address v = .ok s') : Wrote [(p, v)] s s' := by
  obtain ⟨target, htarget, h⟩ := of_bind h
  rw [Address.target_address hp] at htarget
  cases htarget
  obtain ⟨t, style, ht, -, h⟩ := of_bind₂ h
  cases h
  exact (Sheet.puts_of_put ht).restyle (mem_singleton_self _) _

theorem wrote_of_places {ps : List (Position × Value)} (hps : ∀ x ∈ ps, x.1.OnSheet) {s s' : Sheet}
    (h : (ps.map fun x => (x.1.address, x.2)).foldlM (fun s (a, f) => place s r a f) s = .ok s') : Wrote ps s s' := by
  rw [foldlM_map] at h
  have hputs := Sheet.Puts.of_foldlM (fun x hx s s' hstep => wrote_of_place (hps x hx) hstep) h
  simp only [map_singleton, ← map_eq_flatMap] at hputs
  exact hputs

/-! Fields of a record -/

namespace Row.Recorded

variable {row : Row} {r : Record} (h : row.Recorded r)

include h

theorem text {t : String} (hmem : (n, text t) ∈ row.fields)
    (hn : n ≠ "Formula") (ht : t.length ≤ maxText) : r.get n = .text t := by
  rw [h n _ hmem, kept, if_neg (by simp [hn]), taken_text ht]

theorem cell (hlen : row.cell.length ≤ maxText) : r.get "Cell" = .text row.cell :=
  h.text (by simp [Row.fields]) (by decide) hlen

theorem type : r.get "Type" = .text row.type.name :=
  h.text (by simp [Row.fields]) (by decide) (by cases row.type <;> decide)

theorem formula {f : String} (hformula : row.formula = some f)
    (hf : startsWith "=" f = true) : r.get "Formula" = .text f := by
  rw [h "Formula" (.text f) (by simp [Row.fields, hformula]), kept, hf]
  rfl

theorem value : r.get "Value" = taken row.value := by
  rw [h "Value" row.value (by simp [Row.fields])]
  cases row.value <;> rfl

theorem included : r.get "IncludeFlag" = .bool true := h "IncludeFlag" (.bool true) (by simp [Row.fields])

end Row.Recorded

variable {r : Record} {d : Vector.Direction} {p : Position} {f t : String} {rows : List Row} {records : List Record}
  {pss : List (List (Position × Value))} {s s' u : Sheet} {l : Layout} {w : Workbook} {layouts : List Layout}

/-! Groups -/

theorem get_of_need (h : r.need n = .ok v) : r.get n = v := by
  rw [Record.get, ifNone_eq_ok_iff.1 h]
  rfl

theorem get?_of_get (h : r.get n = v) (hv : v ≠ .null) : r.get? n = some v := by
  rw [Record.get] at h
  cases hget : r.get? n with
  | none => exact absurd (by rw [← h, hget]; rfl) hv
  | some u => rw [← h, hget]; rfl

theorem need_of_get (h : r.get n = v) (hv : v ≠ .null) : r.need n = .ok v := ifNone_eq_ok_iff.2 (get?_of_get h hv)

theorem shiftValue_text (rows cols : Int) :
    shiftValue (.text f) rows cols = .ok (.text (Formula.shift f "" rows cols)) := by
  rw [shiftValue]
  split
  · next h => rw [Formula.shift, if_pos h]
  · rfl

theorem expandGroup_eq {n : Nat} (hp : p.OnSheet) (hlast : (d.walk p n).OnSheet)
    (hcell : r.need "Cell" = .ok (.text (p.address ++ ":" ++ (d.walk p n).address)))
    (hformula : r.need "Formula" = .ok (.text f)) (hdirection : r.need "GroupDirection" = .ok (.text d.name))
    (hsheet : r.need "Sheet" = .ok v) :
    expandGroup r = .ok ((range (n + 1)).map fun i => ((d.walk p i).address, .text (d.drag f i))) := by
  refine bind_ok hcell (bind_ok hformula (bind_ok hdirection (bind_ok hsheet ?_)))
  obtain ⟨m, hm, hcol, hrow, hcol', hrow'⟩ := exists_begin?_range hp hlast
  have hnumber : ∀ q : Position, q.OnSheet → ((Number.int? (ofNat q.row)).getD 0).toNat = q.row := by
    intro q hq
    rw [Number.int?_ofNat (hq.length_row_le.trans (by decide))]
    rfl
  rw [toText, hm]
  dsimp only
  rw [hrow, hrow', hnumber p hp, hnumber _ hlast, text_beq]
  cases d with
  | vertical =>
    have hcount : (Vector.Direction.vertical.walk p n).row + 1 - p.row = n + 1 := by
      show p.row + n + 1 - p.row = n + 1
      omega
    rw [if_pos (by decide), hcount, hcol]
    refine mapM_ok fun i _ => ?_
    rw [shiftValue_text]
    rfl
  | horizontal =>
    have hindex : ∀ q : Position, Column.index q.colName = q.col := fun q => Column.index_name q.col
    have hcount : (Vector.Direction.horizontal.walk p n).col + 1 - p.col = n + 1 := by
      show p.col + n + 1 - p.col = n + 1
      omega
    rw [if_neg (by decide), hcol, hcol', hindex, hindex, hcount]
    refine mapM_ok fun i _ => ?_
    rw [shiftValue_text]
    rfl

theorem onSheet_walk {i n : Nat} (hp : p.OnSheet) (hlast : (d.walk p n).OnSheet) (hi : i ≤ n) :
    (d.walk p i).OnSheet := by
  obtain ⟨h₁, h₂, h₃, h₄⟩ := hp
  obtain ⟨k₁, k₂, k₃, k₄⟩ := hlast
  cases d with
  | vertical => exact ⟨Nat.le_add_right_of_le h₁, (Nat.add_le_add_left hi _).trans k₂, h₃, h₄⟩
  | horizontal => exact ⟨h₁, h₂, Nat.le_add_right_of_le h₃, (Nat.add_le_add_left hi _).trans k₄⟩

/-! Records -/

theorem truthy_text (h : t ≠ "") : (text t).truthy = true := decide_eq_true h

theorem taken_taken : taken (taken v) = taken v := by
  cases v with
  | text t =>
    refine taken_text ?_
    rw [Text.take, String.length_ofList]
    exact length_take_le _ _
  | _ => rfl

theorem taken_ne_empty (h : t ≠ "") : (taken (.text t)).truthy = true := by
  refine decide_eq_true fun hempty => h ?_
  have htake : (t.toList.take maxText) = [] := by
    have := congrArg String.toList hempty
    rwa [Text.take, String.toList_ofList] at this
  rcases take_eq_nil_iff.1 htake with hzero | hnil
  · cases hzero
  · exact String.toList_eq_nil_iff.1 hnil

variable {row : Row} {name : String} {ps : List (Position × Value)} {t : Sheet} {a : Area}

theorem addressOf (hp : p.OnSheet) (hrec : row.Recorded r) (hcell : row.cell = p.address) :
    (if (r.get "Cell").truthy then (r.get "Cell").toText else "") = p.address := by
  have hlen : row.cell.length ≤ maxText := by
    rw [hcell]
    exact (length_address_le hp).trans (by decide)
  rw [hrec.cell hlen, hcell, if_pos (firm_address hp).truthy]
  rfl

theorem name_beq_input {t : CellType} (h : t ≠ .input) : ¬ (text t.name == text CellType.input.name) = true := by
  revert h
  cases t <;> decide

theorem wrote_of_placeRecord (hmeans : row.Means ps) (hrec : row.Recorded r)
    (h : placeRecord [] name s r = .ok s') : Wrote ps s s' := by
  rw [placeRecord] at h
  cases hmeans with
  | input htype hcell hp =>
    rw [hrec.type, htype, if_pos (by rw [text_beq]; decide), addressOf hp hrec hcell] at h
    have hwrote : Wrote [(_, r.get "Value")] s s' := wrote_of_place hp h
    have hsame : Sheet.written (r.get "Value") = Sheet.written row.value := by
      rw [Sheet.written, Sheet.written, hrec.value, taken_taken]
    rwa [Wrote, map_singleton, hsame] at hwrote
  | single htype hgroup hcell hp hformula hf =>
    have hname := name_beq_input htype
    have hid : (r.get "GroupID").truthy = false := by
      rw [hrec "GroupID" .null (by simp [Row.fields, hgroup])]
      rfl
    rw [hrec.type, if_neg hname, hid, if_neg (by decide), hrec.formula hformula hf, addressOf hp hrec hcell] at h
    exact wrote_of_place hp h
  | @group p f t n htype hgroup hid hcell hp hlast hformula hf =>
    have hname := name_beq_input htype
    have hid : (r.get "GroupID").truthy = true := by
      rw [hrec "GroupID" (.text t.id) (by simp [Row.fields, hgroup]), kept, if_neg (by simp)]
      exact taken_ne_empty hid
    have hlen : row.cell.length ≤ maxText := by
      have h₁ := length_address_le hp
      have h₂ := length_address_le hlast
      rw [hcell, String.length_append, String.length_append, show ":".length = 1 from rfl, maxText]
      omega
    have hdirection : r.get "GroupDirection" = .text t.direction.name :=
      hrec.text (by simp [Row.fields, hgroup]) (by decide) (by cases t.direction <;> decide)
    rw [hrec.type, if_neg hname, hid, if_pos rfl] at h
    have hsheet : r.need "Sheet" = .ok (taken (.text row.sheet)) :=
      need_of_get (hrec "Sheet" (.text row.sheet) (by simp [Row.fields])) (by simp [taken])
    rw [expandGroup_eq hp hlast (need_of_get (by rw [hrec.cell hlen, hcell]) (by simp))
      (need_of_get (hrec.formula hformula hf) (by simp)) (need_of_get hdirection (by simp)) hsheet] at h
    refine wrote_of_places (r := r) (fun x hx => ?_) ?_
    · obtain ⟨i, hi, rfl⟩ := mem_map.1 hx
      exact onSheet_walk hp hlast (Nat.lt_succ_iff.1 (mem_range.1 hi))
    · rw [map_map]
      exact h

theorem wrote_of_foldlM (hrec : Forall₂ Row.Recorded rows records) (hmeans : Forall₂ Row.Means rows pss)
    (h : records.foldlM (placeRecord [] name) s = .ok s') : Wrote pss.flatten s s' := by
  induction hrec generalizing pss s with
  | nil =>
    cases hmeans
    cases h
    exact Sheet.Puts.nil _
  | @cons row r rows records hrow hrest ih =>
    obtain ⟨ps, pss, hps, hpss, rfl⟩ := forall₂_cons_left_iff.1 hmeans
    obtain ⟨t, ht, h⟩ := of_bind h
    rw [Wrote, flatten_cons, map_append]
    exact (wrote_of_placeRecord hps hrow ht).append (ih hpss h)

/-! Layouts -/

/-- What a sheet in a file is like: cells and merged areas lie on it, hidden cells are empty, and its
texts and the texts about it fit into cells. -/
structure Regular (s : Sheet) : Prop where
  cells : ∀ p ∈ s.cells, p.OnSheet
  texts : ∀ p f, s.value p = .text f → f.length ≤ maxText
  areas : ∀ a ∈ s.merged, a.OnSheet
  hidden : ∀ p, s.isHidden p = true → s.value p = .null
  name : s.name.length ≤ maxText
  merged : (join ";" (s.merged.map Area.name)).length ≤ maxText

theorem plain_of_mem_name {c : Char} (h : c ∈ a.name.toList) : c ≠ ';' ∧ isBlank c = false := by
  rw [Area.name] at h
  split at h
  · exact plain_of_mem_address h
  · rw [String.toList_append, String.toList_append, mem_append, mem_append] at h
    rcases h with (h | h) | h
    · exact plain_of_mem_address h
    · rw [mem_singleton.1 h]
      decide
    · exact plain_of_mem_address h

theorem name_ne_empty (h : a.OnSheet) : a.name ≠ "" := by
  intro hempty
  have hbounds := Area.bounds_name h
  rw [hempty] at hbounds
  cases hbounds

theorem areas_of_text {areas : List Area} (h : ∀ a ∈ areas, a.OnSheet) :
    (((Text.split ";" (join ";" (areas.map Area.name))).map Text.strip).filter
      fun s => !s.isEmpty).filterMap area? = areas := by
  by_cases hne : areas = []
  · rw [hne]
    rfl
  · have hsplit : Text.split ";" (join ";" (areas.map Area.name)) = areas.map Area.name := by
      have hsep : ∀ x ∈ areas.map Area.name, ';' ∉ x.toList := by
        intro x hx hmem
        obtain ⟨a, -, rfl⟩ := mem_map.1 hx
        exact (plain_of_mem_name hmem).1 rfl
      exact split_join (String.toList_ofList) (mt map_eq_nil_iff.1 hne) hsep
    have hstrip : (areas.map Area.name).map Text.strip = areas.map Area.name := by
      rw [map_map]
      refine map_congr_left fun a _ => ?_
      show String.ofList (stripWhileL isBlank a.name.toList) = a.name
      rw [stripWhileL_eq_self fun c hc => (plain_of_mem_name hc).2, String.ofList_toList]
    have hkeep : (areas.map Area.name).filter (fun s => !s.isEmpty) = areas.map Area.name := by
      refine filter_eq_self.2 fun x hx => ?_
      obtain ⟨a, ha, rfl⟩ := mem_map.1 hx
      rw [Bool.not_eq_true', Bool.eq_false_iff, ne_eq, String.isEmpty_iff]
      exact name_ne_empty (h a ha)
    have hread : ∀ a ∈ areas, (area? ∘ Area.name) a = some a := by
      intro a ha
      rw [Function.comp_apply, Area.area?_name (h a ha)]
    rw [hsplit, hstrip, hkeep, filterMap_map, filterMap_congr hread, filterMap_some]

theorem areas_of_layoutOf (hs : Regular s)
    (hmerged : r.get "MergedCells" = taken (.text (join ";" (s.merged.map Area.name))))
    (h : layoutOf r = .ok l) : l.merged.filterMap area? = s.merged ∧ l.sheet = r.get "SheetName" := by
  rw [taken_text hs.merged] at hmerged
  obtain ⟨sheet, hsheet, h⟩ := of_bind h
  dsimp only at h
  rw [get?_of_get hmerged nofun] at h
  have hnonempty : nonempty (.text (join ";" (s.merged.map Area.name))) "" =
      .text (join ";" (s.merged.map Area.name)) := by
    rw [nonempty]
    split
    · rfl
    · next hfalse =>
      have hempty : join ";" (s.merged.map Area.name) = "" :=
        Decidable.byContradiction fun hne => hfalse (truthy_text hne)
      rw [hempty]
  obtain ⟨merged, hmerged', h⟩ := of_bind h
  cases hmerged'
  rw [hnonempty] at h
  obtain ⟨merged, hmerged', h⟩ := of_bind h
  cases hmerged'
  obtain ⟨v₁, widths, -, -, h⟩ := of_bind₂ h
  obtain ⟨v₂, heights, -, -, h⟩ := of_bind₂ h
  cases h
  exact ⟨areas_of_text hs.areas, (get_of_need hsheet).symm⟩

theorem cells_of_layOut (h : layOut s l = .ok s') :
    s'.cells = ((l.merged.filterMap area?).foldl Sheet.merge s).cells ∧ s'.name = s.name := by
  obtain ⟨widths, heights, -, -, h⟩ := of_bind₂ h
  cases h
  rw [← Sheet.name_foldl_merge (l.merged.filterMap area?) s]
  generalize (l.merged.filterMap area?).foldl Sheet.merge s = t
  refine foldlRecOn (motive := fun u : Sheet => u.cells = t.cells ∧ u.name = t.name) _ _
    (foldlRecOn (motive := fun u : Sheet => u.cells = t.cells ∧ u.name = t.name) _ _ ⟨rfl, rfl⟩
      fun u hu x _ => ?_) fun u hu x _ => ?_
  all_goals
    dsimp only
    split
    · exact hu
    · exact hu

/-! The workbook of a report -/

def Lays (w : Workbook) (layouts : List Layout) : Prop :=
  ∀ l ∈ layouts, ∃ s ∈ w.sheets, l.sheet = .text s.name ∧ l.merged.filterMap area? = s.merged

/-- A sheet that is made from its rows has its name and what the rows say of cells that hold
something. -/
theorem content_of_regenerateSheet (hnames : w.sheetNames.Nodup) (hlays : Lays w layouts)
    (hs : s ∈ w.sheets) (hname : t.name = s.name) (hrec : Forall₂ Row.Recorded rows t.records)
    (hmeans : Forall₂ Row.Means rows pss) (hd : (pss.flatten.map Prod.fst).Nodup)
    (h : regenerateSheet [] layouts t t.name = .ok u) :
    u.name = t.name ∧ ∀ x ∈ pss.flatten, s.isHidden x.1 = false → u.content x.1 = (taken x.2, false) := by
  obtain ⟨out, hout, h⟩ := of_bind h
  have hall : (t.records.filter fun r => (r.get "IncludeFlag").truthy) = t.records := by
    refine filter_eq_self.2 fun r hr => ?_
    obtain ⟨row, -, hrow⟩ := exists_of_mem_right hrec hr
    rw [hrow.included]
    rfl
  rw [hall] at hout
  have hwrote := wrote_of_foldlM hrec hmeans hout
  have hcontent : ∀ x ∈ pss.flatten, out.content x.1 = (taken x.2, false) := by
    intro x hx
    refine hwrote.content_of_mem (mem_map.2 ⟨x, hx, rfl⟩) fun o ho => ?_
    obtain ⟨y, hy, heq⟩ := mem_map.1 ho
    obtain ⟨hat, rfl⟩ := Prod.mk.inj heq
    rw [inj_on_of_nodup_map hd hy hx hat]
  split at h
  · next l hl =>
    have hl' := find?_some hl
    obtain ⟨s', hs', hsheet, hareas⟩ := hlays l (mem_reverse.1 (mem_of_find?_eq_some hl))
    rw [hsheet, text_beq, decide_eq_true_eq, hname] at hl'
    obtain rfl : s' = s := inj_on_of_nodup_map hnames hs' hs hl'
    obtain ⟨hcells, hname'⟩ := cells_of_layOut h
    refine ⟨hname'.trans hwrote.name, fun x hx hshown => ?_⟩
    rw [Sheet.content_congr hcells, hareas,
      Sheet.content_foldl_merge (Sheet.isHidden_eq_false_iff.1 hshown), hcontent x hx]
  · cases h
    exact ⟨hwrote.name, fun x hx _ => hcontent x hx⟩

theorem startsWith_of_isFormulaText (h : Cell.isFormulaText f = true) : startsWith "=" f = true := by
  obtain ⟨c, r, hf⟩ := Cell.isFormulaText_iff.1 h
  rw [startsWith, hf]
  rfl

theorem lays_of_mapM (hsheets : ∀ s ∈ w.sheets, Regular s) (hrecords : ∀ r ∈ records, ∃ s ∈ w.sheets,
      r.get "SheetName" = taken (.text s.name) ∧
        r.get "MergedCells" = taken (.text (join ";" (s.merged.map Area.name))))
    (h : records.mapM layoutOf = .ok layouts) : Lays w layouts := by
  intro l hl
  obtain ⟨r, hr, hlayout⟩ := exists_of_mem_right (mapM_eq_ok_iff.1 h) hl
  obtain ⟨s, hs, hname, hmerged⟩ := hrecords r hr
  obtain ⟨hareas, hsheet⟩ := areas_of_layoutOf (hsheets s hs) hmerged hlayout
  exact ⟨s, hs, by rw [hsheet, hname, taken_text (hsheets s hs).name], hareas⟩

theorem restores_of_regenerateSheet (hw : FreeNames w) (hsheets : ∀ s ∈ w.sheets, Regular s) (hlays : Lays w layouts)
    (hs : s ∈ w.sheets) (hname : t.name = s.name) (hrec : Forall₂ Row.Recorded (sheetRows (ofWorkbook w) s.name) t.records)
    (h : regenerateSheet [] layouts t t.name = .ok u) : u.name = t.name ∧ ∀ p g, (s.cell p).formula? = some g →
      (∀ run ∈ (Vector.group ((pageOf s).entries.filterMap formula?)).1,
        ⟨s.name, p.colName, p.row, g⟩ ∈ run.cells → run.Restorable) →
      ∃ f, (u.cell p).formula? = some f ∧ Formula.Rewrites s.name g f := by
  have hplaced := placed_pageOf (hsheets s hs).cells
  have hd := nodup_pageOf s
  obtain ⟨pss, hmeans, hperm⟩ := exists_means hplaced hd (entries_ofWorkbook hw.nodup hs)
  have hcells : ∀ x, x ∈ pss.flatten ↔ x ∈ (meanings (pageOf s).entries).flatten := fun x => hperm.flatten.mem_iff
  have hnodup : (pss.flatten.map Prod.fst).Nodup :=
    ((hperm.flatten.map Prod.fst).trans (perm_meanings hplaced hd)).nodup_iff.2 hd
  obtain ⟨hname', hcontent⟩ := content_of_regenerateSheet hw.nodup hlays hs hname hrec
    (hmeans.imp fun _ _ => And.left) hnodup h
  refine ⟨hname', fun p g hg hgroup => ?_⟩
  obtain ⟨hvalue, -, htext⟩ := Cell.formula?_eq_some_iff.1 hg
  have hvalue : s.value p = .text g := hvalue
  have hshown : s.isHidden p = false := by
    refine Bool.eq_false_of_not_eq_true fun hidden => ?_
    rw [(hsheets s hs).hidden p hidden] at hvalue
    cases hvalue
  obtain ⟨f, hf, hfits, hrewrites⟩ := exists_mem_meanings hplaced hd
    (mem_formulas_pageOf hvalue (startsWith_of_isFormulaText htext))
    ((hsheets s hs).texts p g hvalue) hgroup
  have hposition : FormulaCell.position ⟨s.name, p.colName, p.row, g⟩ = p := by
    rw [FormulaCell.position, colName, Column.index_name]
  rw [hposition] at hf
  have hu := hcontent _ ((hcells _).2 hf) hshown
  rw [taken_text hfits] at hu
  exact ⟨f, Sheet.formula?_of_content hu (Cell.isFormulaText_iff.2
    (hrewrites.exists_toList (Cell.isFormulaText_iff.1 htext))), hrewrites⟩

/-- A workbook is reported on and made again from the report. Then every formula cell has its formula
again, but for how the references are written: a single one always, one of a group if the formulas of
the group are such that the first gives back the others. -/
theorem regenerate_report_restores_formulas {w rep out : Workbook} (hw : FreeNames w)
    (hsheets : ∀ s ∈ w.sheets, Regular s) (hrep : report w none = .ok rep)
    (hout : regenerate rep none = .ok out) {s : Sheet} (hs : s ∈ w.sheets) {p : Position} {g : String}
    (hg : (s.cell p).formula? = some g)
    (hgroup : ∀ run ∈ (Vector.group ((Survey.pageOf s).entries.filterMap formula?)).1,
      ⟨s.name, p.colName, p.row, g⟩ ∈ run.cells → run.Restorable) :
    ∃ s' ∈ out.sheets, s'.name = s.name ∧ ∃ f, (s'.cell p).formula? = some f ∧ Formula.Rewrites s.name g f := by
  obtain ⟨ts, l, hrepSheets, hrel, hlname, hlrecords⟩ := sheets_report hw hrep
  have hnames : (w.sheets.map fun s => lower s.name) = ts.map fun t => lower t.name := by
    rw [← forall₂_eq_eq_eq, forall₂_map_left_iff, forall₂_map_right_iff]
    exact hrel.imp fun s t h => by rw [h.2]
  have hreserved : ∀ t ∈ ts, lower t.name ≠ lower "Sheet" ∧ lower t.name ≠ lower metadataName := by
    intro t ht
    obtain ⟨s, hs, -, hname⟩ := exists_of_mem_right hrel ht
    rw [hname]
    exact hw.unreserved s hs
  have hmeta : ∀ t ∈ ts, t.name ≠ metadataName := fun t ht heq => (hreserved t ht).2 (by rw [heq])
  -- the layouts come from the last sheet of the report, the rows from all others
  have hlayoutSheet : rep.sheet? metadataName = some l := by
    rw [Workbook.sheet?, hrepSheets, find?_append,
      find?_eq_none.2 fun t ht => by simpa using hmeta t ht, Option.none_or,
      find?_cons_of_pos (by simpa using hlname)]
  have hrowSheets : rowSheets rep = ts := by
    rw [rowSheets, hrepSheets, filter_append, filter_eq_self.2 fun t ht => by simpa using hmeta t ht,
      filter_cons_of_neg (by simpa using hlname), filter_nil, append_nil]
  rw [regenerate, hlayoutSheet] at hout
  obtain ⟨layouts, hlayouts, hout⟩ := bind_eq_ok_iff.1 hout
  obtain ⟨out', hout', hout⟩ := bind_eq_ok_iff.1 hout
  cases hout
  rw [hrowSheets] at hout'
  have hlays := lays_of_mapM hsheets hlrecords hlayouts
  obtain ⟨us, hus, hmade⟩ := Workbook.sheets_of_foldlM Sheet.name
    (R := fun t u => regenerateSheet [] layouts t t.name = .ok u)
    (fun out out' t ht hstep => by
      obtain ⟨u, hu, hstep⟩ := bind_eq_ok_iff.1 hstep
      obtain ⟨s, hs, hrec, hname⟩ := exists_of_mem_right hrel ht
      exact ⟨u, hu, (restores_of_regenerateSheet hw hsheets hlays hs hname hrec hu).1, (Except.ok.inj hstep).symm⟩)
    (by rw [← hnames]; exact hw.distinct)
    (by
      intro t ht t' ht'
      rw [mem_singleton.1 ht]
      exact (hreserved t' ht').1.symm) hout'
  obtain ⟨t, ht, hrec, hname⟩ := exists_of_mem_left hrel hs
  obtain ⟨u, hu, hmadeu, hnameu⟩ := exists_of_mem_left hmade ht
  have hsheetsOut : (dropFirst out').sheets = us := by
    refine sheets_dropFirst hus (ne_nil_of_mem hu) fun u hu heq => ?_
    obtain ⟨t, ht, -, hname⟩ := exists_of_mem_right hmade hu
    exact (hreserved t ht).1 (by rw [← hname, heq])
  refine ⟨u, by rw [hsheetsOut]; exact hu, hnameu.trans hname, ?_⟩
  exact (restores_of_regenerateSheet hw hsheets hlays hs hname hrec hmadeu).2 p g hg hgroup

/-- A run of sums over cells of another sheet. -/
def sumCell (f : String) : Cell := { value := .text f, style := { Style.plain with font := { size := none } } }

def sumSheet : Sheet :=
  (({ name := "S" } : Sheet).insert ⟨1, 1⟩ (sumCell "=SUM(T!A1:A2)")).insert ⟨2, 1⟩ (sumCell "=SUM(T!A2:A3)")

def sums : Workbook := { sheets := [sumSheet, { name := "T" }] }

def sumRun : Vector.Group := ⟨.vertical, [⟨"S", "A", 1, "=SUM(T!A1:A2)"⟩, ⟨"S", "A", 2, "=SUM(T!A2:A3)"⟩]⟩

theorem isRun_sumRun : sumRun.IsRun where
  two_le := by decide
  patternKey := by decide +kernel
  col := by decide
  row := nofun
  chain := by decide +kernel

theorem formulas_sumSheet : (pageOf sumSheet).entries.filterMap formula? = sumRun.cells := rfl

theorem group_sumSheet : Vector.group ((pageOf sumSheet).entries.filterMap formula?) = ([sumRun], []) := by
  rw [formulas_sumSheet]
  exact Vector.group_eq_singleton isRun_sumRun

def sumRow : Row :=
  { sheet := "S", cell := "A1:A2"
    type := if ((Vector.classify (ofWorkbook sums).formulas).1.map FormulaCell.ref).contains
      ⟨"S", "A", 1⟩ then .calculation else .output
    formula := some "=SUM(T!A1:A2)"
    group := some ⟨"S_G1", .vertical, 2⟩, look := { size := none } }

theorem sheetRows_sums : sheetRows (ofWorkbook sums) "S" = [sumRow] := by
  have hentries : ((ofWorkbook sums).entries.filter fun e => e.sheet = "S") = (pageOf sumSheet).entries := rfl
  rw [sheetRows]
  rw [hentries, group_sumSheet]
  exact mergeSort_singleton sumRow

theorem isOk_sums : (report sums none >>= fun rep => regenerate rep none).toOption.any (fun _ => true) = true := by
  have hpages : (ofWorkbook sums).pages = [pageOf sumSheet, pageOf { name := "T" }] := rfl
  have hname : (pageOf sumSheet).name = "S" := rfl
  rw [report, hpages, foldlM_cons, hname, sheetRows_sums]
  decide +kernel

theorem restorable_sumRun : sumRun.Restorable where
  shiftable := by decide +kernel
  unmarked := by decide +kernel
  fits := by decide +kernel

theorem regular_sums : ∀ s ∈ sums.sheets, Regular s := by
  intro s hs
  rcases mem_cons.1 hs with rfl | hs
  · have hcell : ∀ p, sumSheet.cell p = if (⟨2, 1⟩ : Position) = p then sumCell "=SUM(T!A2:A3)" else
        if (⟨1, 1⟩ : Position) = p then sumCell "=SUM(T!A1:A2)" else {} := by
      intro p
      rw [sumSheet, Sheet.cell_insert, Sheet.cell_insert]
      rfl
    refine ⟨Sheet.forall_mem_insert (by decide) (Sheet.forall_mem_insert (by decide) (by simp)), fun p f hf => ?_,
      fun _ h => (by cases h), fun _ h => (by cases h), by decide, by decide⟩
    · rw [Sheet.value, hcell] at hf
      split at hf
      · cases hf
        decide
      · split at hf
        · cases hf
          decide
        · cases hf
  · rw [mem_singleton.1 hs]
    refine ⟨fun p hp => absurd hp (by simp), fun p f hf => ?_,
      fun _ h => (by cases h), fun _ h => (by cases h), by decide, by decide⟩
    cases hf

/-- The second sum comes back with its sheet. -/
theorem regenerate_report_sums : ∃ rep out, report sums none = .ok rep ∧
    regenerate rep none = .ok out ∧ ∃ s' ∈ out.sheets, s'.name = "S" ∧
      ∃ f, (s'.cell ⟨2, 1⟩).formula? = some f ∧ Formula.Rewrites "S" "=SUM(T!A2:A3)" f := by
  obtain ⟨out, hout, -⟩ := exists_ok_of_any isOk_sums
  obtain ⟨rep, hrep, hout⟩ := bind_eq_ok_iff.1 hout
  refine ⟨rep, out, hrep, hout, regenerate_report_restores_formulas ⟨by decide +kernel, by decide +kernel⟩
    regular_sums hrep hout mem_cons_self rfl fun run hrun _ => ?_⟩
  rw [group_sumSheet] at hrun
  rw [mem_singleton.1 hrun]
  exact restorable_sumRun

end Sheetwork.Mapping
