import Sheetwork.Mapping.Row
import Sheetwork.Proofs.Formula.Shift
import Sheetwork.Proofs.Vector.Partition
import Sheetwork.Proofs.Workbook.Address
import Sheetwork.Proofs.Workbook.Sheet
/-
  Mapping: what the rows of a report stand for. An input and a single formula stand for one cell, a group for the
  cells of its range, each with the first formula dragged to it (`Row.Means`).

  Main statement. The rows of a sheet stand for the cells that hold something, each once, and a formula cell gets its
  own formula but for how the references are written (`exists_means`). Of a group this needs that its references are
  found again and that its texts have no mark (`Group.Restorable`).
-/

open List

namespace Sheetwork

open Column Formula Sheet
open Vector (group group_perm isRun_of_mem_group)
open Text
open Survey (pageOf ofWorkbook)

theorem Column.index_name (n : Nat) : index (name n) = n := by
  rw [index, name, String.toList_ofList, Int.toNat_natCast, spelled_letters, Int.toNat_natCast]

theorem Column.number_name (n : Nat) : number (name n) = n := by
  rw [name, Int.toNat_natCast, number_capitals (capitals_letters n), spelled_letters]

/-! Places -/

def FormulaCell.position (c : FormulaCell) : Position := ⟨c.row, index c.col⟩

def Survey.Entry.position (e : Survey.Entry) : Position := ⟨e.row, index e.col⟩

/-- The cell stands on a sheet, and its column is written as columns are. -/
structure FormulaCell.Placed (name : String) (c : FormulaCell) : Prop where
  sheet : c.sheet = name
  col : c.col = c.position.colName
  onSheet : c.position.OnSheet

structure Survey.Entry.Placed (name : String) (e : Survey.Entry) : Prop where
  sheet : e.sheet = name
  col : e.col = e.position.colName
  onSheet : e.position.OnSheet

variable {name : String} {c first : FormulaCell} {g : Vector.Group}

theorem FormulaCell.Placed.address (h : c.Placed name) : c.address = c.position.address := by
  rw [FormulaCell.address, h.col]
  rfl

theorem FormulaCell.Placed.colNumber (h : c.Placed name) : c.colNumber = c.position.col := by
  rw [FormulaCell.colNumber, h.col, Position.colName, number_name]

namespace Survey.Entry

variable {e : Survey.Entry}

theorem Placed.address (h : e.Placed name) : e.address = e.position.address := by
  rw [Entry.address, h.col]
  rfl

theorem exists_of_formula? (h : e.formula? = some c) :
    ∃ f, e.value = .text f ∧ startsWith "=" f = true ∧ c = ⟨e.sheet, e.col, e.row, f⟩ := by
  rw [formula?] at h
  split at h
  · next f hf =>
    split at h
    · next hstart =>
      cases h
      exact ⟨f, hf, hstart, rfl⟩
    · cases h
  · cases h

theorem Placed.formula? (h : e.Placed name) (hc : e.formula? = some c) : c.Placed name ∧ c.position = e.position := by
  obtain ⟨f, -, -, rfl⟩ := exists_of_formula? hc
  exact ⟨⟨h.sheet, h.col, h.onSheet⟩, rfl⟩

end Survey.Entry

/-! The cells of a group -/

namespace Vector

def Direction.walk : Direction → Position → Nat → Position
  | vertical, p, n => ⟨p.row + n, p.col⟩
  | horizontal, p, n => ⟨p.row, p.col + n⟩

def Direction.drag : Direction → String → Nat → String
  | vertical, f, n => shift f "" n 0
  | horizontal, f, n => shift f "" 0 n

theorem Direction.drag_zero (d : Direction) (f : String) : d.drag f 0 = f := by cases d <;> rfl

/-- What the formulas of a group have to be like so that the first gives back the others: its
references are found again, no text between them has the mark for references, and all fit into a
cell. -/
structure Group.Restorable (g : Group) : Prop where
  shiftable : ∀ c ∈ g.cells, ∀ m ∈ mentions c.formula c.sheet, m.Shiftable
  unmarked : ∀ c ∈ g.cells, ∀ u ∈ gaps c.formula c.sheet, '@' ∉ u
  fits : ∀ first, g.cells.head? = some first → ∀ i, i < g.cells.length →
    (g.direction.drag first.formula i).length ≤ Cell.maxText

namespace Group.IsRun

variable {i : Nat} (h : g.IsRun) (hplaced : ∀ c ∈ g.cells, c.Placed name) (hfirst : g.cells.head? = some first)
include h hfirst

theorem place_of_getElem? (hc : g.cells[i]? = some c) :
    g.direction.place c = g.direction.place first + i := by
  induction i generalizing c with
  | zero =>
    rw [← head?_eq_getElem?, hfirst] at hc
    cases hc
    simp
  | succ i ih =>
    obtain ⟨hi, rfl⟩ := List.getElem?_eq_some_iff.1 hc
    have hstep := isChain_iff_getElem.1 h.chain i hi
    rw [← hstep, ih (getElem?_eq_getElem (by omega))]
    omega

include hplaced

theorem position_of_getElem? (hc : g.cells[i]? = some c) : c.position = g.direction.walk first.position i := by
  have hplace := h.place_of_getElem? hfirst hc
  have hmem := mem_of_getElem? hc
  have hmem' := mem_of_head? hfirst
  cases hd : g.direction with
  | vertical =>
    rw [hd] at hplace
    have hcol := h.col hd c hmem first hmem'
    have hrow : c.row = first.row + i := by
      simp only [Direction.place] at hplace
      omega
    rw [FormulaCell.position, hcol, hrow]
    rfl
  | horizontal =>
    rw [hd] at hplace
    have hrow := h.row hd c hmem first hmem'
    simp only [Direction.place] at hplace
    rw [(hplaced c hmem).colNumber, (hplaced first hmem').colNumber] at hplace
    have hcol : c.position.col = first.position.col + i := by omega
    show Position.mk c.row c.position.col = _
    rw [hrow, hcol]
    rfl

theorem map_position :
    g.cells.map FormulaCell.position = (range g.cells.length).map (g.direction.walk first.position) := by
  refine ext_getElem (by simp) fun i hi hi' => ?_
  rw [length_map] at hi
  rw [getElem_map, getElem_map, getElem_range]
  exact h.position_of_getElem? hplaced hfirst (getElem?_eq_getElem hi)

theorem rewrites_drag (hr : g.Restorable) (hstart : startsWith "=" first.formula = true) (hc : g.cells[i]? = some c) :
    Formula.Rewrites name c.formula (g.direction.drag first.formula i) := by
  have hmem := mem_of_getElem? hc
  have hmem' := mem_of_head? hfirst
  cases i with
  | zero =>
    rw [← head?_eq_getElem?, hfirst] at hc
    cases hc
    rw [Direction.drag_zero]
    exact rewrites_refl hstart name
  | succ i =>
    have hposition := h.position_of_getElem? hplaced hfirst hc
    have hkey := congrArg Prod.snd (h.patternKey first hmem' c hmem)
    simp only [FormulaCell.patternKey, (hplaced c hmem).sheet, (hplaced first hmem').sheet,
      (hplaced c hmem).colNumber, (hplaced first hmem').colNumber] at hkey
    have hrow : c.row = c.position.row := rfl
    rw [hrow, hposition] at hkey
    have hgaps := hr.unmarked first hmem'
    have hgaps' := hr.unmarked c hmem
    have hms := hr.shiftable first hmem'
    have hns := hr.shiftable c hmem
    rw [(hplaced first hmem').sheet] at hgaps hms
    rw [(hplaced c hmem).sheet] at hgaps' hns
    have hmoved : ∀ cols rows : Int, dragPattern first.formula name first.position.col first.position.row =
        dragPattern c.formula name (first.position.col + cols) (first.position.row + rows) →
          ¬ (rows = 0 ∧ cols = 0) → Formula.Rewrites name c.formula (shift first.formula "" rows cols) :=
      fun _ _ hpattern hne => rewrites_shift hpattern hstart hne hgaps hgaps' hms hns
    cases hd : g.direction <;> rw [hd] at hkey
    · exact hmoved 0 (i + 1 : Nat) hkey (by omega)
    · exact hmoved (i + 1 : Nat) 0 hkey (by omega)

theorem groupRange_eq :
    Mapping.groupRange g = first.position.address ++ ":" ++ (g.direction.walk first.position (g.cells.length - 1)).address := by
  have hlast : g.cells.getLast? = some (g.cells.getLast h.ne_nil) := getLast?_eq_some_getLast _
  have hposition := h.position_of_getElem? hplaced hfirst (i := g.cells.length - 1)
    (by rw [← getLast?_eq_getElem?]; exact hlast)
  have hmem := hplaced _ (getLast_mem h.ne_nil)
  have hmem' := hplaced first (mem_of_head? hfirst)
  generalize g.cells.getLast h.ne_nil = last at hlast hposition hmem
  obtain ⟨cs, hcells⟩ := head?_eq_some_iff.1 hfirst
  rw [← hposition]
  rw [Mapping.groupRange, hlast, hcells]
  dsimp only
  cases hd : g.direction with
  | vertical =>
    rw [hd] at hposition
    have hcol : first.position.col = last.position.col := (congrArg Position.col hposition).symm
    rw [hmem'.address, String.append_assoc, hmem'.col, Position.colName, hcol]
    rfl
  | horizontal =>
    rw [hd] at hposition
    have hrow : first.row = last.row := (congrArg Position.row hposition).symm
    dsimp only
    rw [hmem'.address, String.append_assoc, hmem.col, hrow]
    rfl

end Group.IsRun

end Vector

namespace Mapping

/-- The cells that a row stands for, with what they get. -/
inductive Row.Means : Row → List (Position × Value) → Prop
  | input {r : Row} {p : Position} (htype : r.type = .input) (hcell : r.cell = p.address)
      (hp : p.OnSheet) : Means r [(p, r.value)]
  | single {r : Row} {p : Position} {f : String} (htype : r.type ≠ .input) (hgroup : r.group = none)
      (hcell : r.cell = p.address) (hp : p.OnSheet) (hformula : r.formula = some f)
      (hf : startsWith "=" f = true) : Means r [(p, .text f)]
  | group {r : Row} {p : Position} {f : String} {t : GroupTag} {n : Nat} (htype : r.type ≠ .input)
      (hgroup : r.group = some t) (hid : t.id ≠ "")
      (hcell : r.cell = p.address ++ ":" ++ (t.direction.walk p n).address) (hp : p.OnSheet)
      (hlast : (t.direction.walk p n).OnSheet) (hformula : r.formula = some f)
      (hf : startsWith "=" f = true) : Means r ((List.range (n + 1)).map fun i =>
        (t.direction.walk p i, .text (t.direction.drag f i)))

/-! The rows of a sheet -/

def spread (g : Vector.Group) : List (Position × Value) :=
  match g.cells.head? with
  | some first => (range g.cells.length).map fun i =>
    (g.direction.walk first.position i, .text (g.direction.drag first.formula i))
  | none => []

open Survey (Entry)

section Entries

variable {es : List Entry}

theorem perm_entries {α : Type} (f : CellRef → α) (es : List Entry) : ((es.filter Entry.isInput).map (fun e => f e.ref) ++
      (es.filterMap Entry.formula?).map fun c => f c.ref).Perm (es.map fun e => f e.ref) := by
  induction es with
  | nil => exact Perm.refl _
  | cons e es ih =>
    rw [filter_cons, filterMap_cons, map_cons, Entry.isInput]
    cases hf : e.formula? with
    | none => exact ih.cons _
    | some c =>
      obtain ⟨f, -, -, rfl⟩ := Entry.exists_of_formula? hf
      exact perm_middle.trans (ih.cons _)

theorem perm_position_entries (es : List Entry) : ((es.filter Entry.isInput).map Entry.position ++
      (es.filterMap Entry.formula?).map FormulaCell.position).Perm (es.map Entry.position) :=
  perm_entries (fun r => (⟨r.row, index r.col⟩ : Position)) es

theorem placed_formulas (h : ∀ e ∈ es, e.Placed name) :
    ∀ c ∈ es.filterMap Entry.formula?, c.Placed name ∧ startsWith "=" c.formula = true := by
  intro c hc
  obtain ⟨e, he, hf⟩ := mem_filterMap.1 hc
  obtain ⟨f, -, hstart, hcell⟩ := Entry.exists_of_formula? hf
  exact ⟨((h e he).formula? hf).1, by rw [hcell]; exact hstart⟩

theorem distinct_formulas (hd : (es.map Entry.position).Nodup) : Vector.Distinct (es.filterMap Entry.formula?) := by
  have hnodup := (nodup_append.1 ((perm_position_entries es).nodup_iff.2 hd)).2.1
  have hmap : ∀ cs : List FormulaCell, cs.map FormulaCell.position =
      (cs.map FormulaCell.ref).map fun r => ⟨r.row, index r.col⟩ := by
    intro cs
    rw [map_map]
    rfl
  rw [hmap] at hnodup
  exact Nodup.of_map _ hnodup

theorem mem_of_mem_group {cells : List FormulaCell} (hd : Vector.Distinct cells) (hg : g ∈ (group cells).1)
    (hc : c ∈ g.cells) : c ∈ cells :=
  (group_perm hd).mem_iff.1 (mem_append_left _ (mem_flatMap.2 ⟨g, hg, hc⟩))

theorem map_spread (h : g.IsRun) (hplaced : ∀ c ∈ g.cells, c.Placed name) :
    (spread g).map Prod.fst = g.cells.map FormulaCell.position := by
  rw [spread]
  split
  · next first hfirst =>
    rw [h.map_position hplaced hfirst, map_map]
    rfl
  · next hnone => exact absurd (head?_eq_none_iff.1 hnone) h.ne_nil

theorem forall₂_filterMap_zipIdx {α β γ : Type} {R : β → γ → Prop} {f : α × Nat → Option β}
    {g : α → γ} {xs : List α} (h : ∀ x ∈ xs, ∀ i, ∃ y, f (x, i) = some y ∧ R y (g x)) (k : Nat) :
    Forall₂ R ((xs.zipIdx k).filterMap f) (xs.map g) := by
  induction xs generalizing k with
  | nil => exact .nil
  | cons x xs ih =>
    obtain ⟨y, hy, hr⟩ := h x mem_cons_self k
    rw [zipIdx_cons, filterMap_cons, hy, map_cons]
    exact .cons hr (ih (fun z hz => h z (mem_cons_of_mem _ hz)) (k + 1))

/-- What the rows for entries stand for. -/
def meanings (es : List Entry) : List (List (Position × Value)) :=
  let (groups, singles) := group (es.filterMap Entry.formula?)
  (es.filter Entry.isInput).map (fun e => [(e.position, e.value)]) ++ groups.map spread ++
    singles.map fun c => [(c.position, .text c.formula)]

theorem means_spread (hrun : g.IsRun) (hplaced : ∀ c ∈ g.cells, c.Placed name ∧ startsWith "=" c.formula = true)
    (hfirst : g.cells.head? = some first) {r : Row} {t : GroupTag} (htype : r.type ≠ .input)
    (hgroup : r.group = some t) (hid : t.id ≠ "") (hdirection : t.direction = g.direction)
    (hcell : r.cell = groupRange g) (hformula : r.formula = some first.formula) : r.Means (spread g) := by
  have hlen := hrun.two_le
  have hplaced' : ∀ c ∈ g.cells, c.Placed name := fun c hc => (hplaced c hc).1
  have hfirst' := hplaced first (mem_of_head? hfirst)
  have hlast : g.cells[g.cells.length - 1]? = some (g.cells.getLast hrun.ne_nil) := by
    rw [← getLast?_eq_getElem?, getLast?_eq_some_getLast]
  have hposition := hrun.position_of_getElem? hplaced' hfirst hlast
  have hmeans := Row.Means.group (p := first.position) (n := g.cells.length - 1) htype hgroup hid
    (by rw [hcell, hrun.groupRange_eq hplaced' hfirst, hdirection]) hfirst'.1.onSheet
    (by rw [hdirection, ← hposition]; exact (hplaced' _ (getLast_mem hrun.ne_nil)).onSheet)
    hformula hfirst'.2
  have hcount : g.cells.length - 1 + 1 = g.cells.length := by omega
  rw [hcount, hdirection] at hmeans
  rw [spread, hfirst]
  exact hmeans

def typeOf (s : Survey) (c : FormulaCell) : CellType :=
  if ((Vector.classify s.formulas).1.map FormulaCell.ref).contains c.ref then .calculation else .output

theorem typeOf_ne_input (s : Survey) (c : FormulaCell) : typeOf s c ≠ .input := by
  unfold typeOf
  split <;> nofun

/-- A row stands for an input, or for formula cells with the type of the first. -/
def Row.TypedBy (s : Survey) (es : List Entry) (r : Row) (ps : List Position) : Prop :=
  (∃ e ∈ es.filter Entry.isInput, ps = [e.position]) ∨
    ∃ c ∈ es.filterMap Entry.formula?, ps.head? = some c.position ∧ r.type = typeOf s c

variable (hplaced : ∀ e ∈ es, e.Placed name) (hd : (es.map Entry.position).Nodup)
include hplaced hd

theorem perm_meanings : ((meanings es).flatten.map Prod.fst).Perm (es.map Entry.position) := by
  have hdistinct := distinct_formulas hd
  have hgroups : ((group (es.filterMap Entry.formula?)).1.map spread).flatten.map
      Prod.fst = ((group (es.filterMap Entry.formula?)).1.flatMap Vector.Group.cells).map FormulaCell.position := by
    rw [← flatMap_def, map_flatMap, map_flatMap]
    exact flatMap_congr fun g hg => map_spread (isRun_of_mem_group hg) fun c hc =>
      (placed_formulas hplaced c (mem_of_mem_group hdistinct hg hc)).1
  have hone : ∀ {α : Type} (f : α → Position) (v : α → Value) (xs : List α),
      (xs.map fun x => [(f x, v x)]).flatten.map Prod.fst = xs.map f := by
    intro α f v xs
    induction xs with
    | nil => rfl
    | cons x xs ih => exact congrArg (f x :: ·) ih
  have hpositions : (meanings es).flatten.map Prod.fst = (es.filter Entry.isInput).map Entry.position ++
        ((group (es.filterMap Entry.formula?)).1.flatMap Vector.Group.cells ++
          (group (es.filterMap Entry.formula?)).2).map FormulaCell.position := by
    rw [meanings]
    rw [flatten_append, flatten_append, map_append, map_append, map_append, hgroups, hone, hone, append_assoc]
  rw [hpositions]
  exact (((group_perm hdistinct).map _).append_left _).trans (perm_position_entries es)

theorem exists_mem_meanings (hc : c ∈ es.filterMap Entry.formula?) (hfits : c.formula.length ≤ Cell.maxText)
    (hgroup : ∀ g ∈ (group (es.filterMap Entry.formula?)).1, c ∈ g.cells → g.Restorable) :
    ∃ f, (c.position, Value.text f) ∈ (meanings es).flatten ∧
        f.length ≤ Cell.maxText ∧ Formula.Rewrites name c.formula f := by
  have hdistinct := distinct_formulas hd
  rcases mem_append.1 ((group_perm hdistinct).mem_iff.2 hc) with hmem | hmem
  · obtain ⟨g, hg, hcg⟩ := mem_flatMap.1 hmem
    have hrun := isRun_of_mem_group hg
    have hplaced' : ∀ c ∈ g.cells, c.Placed name ∧ startsWith "=" c.formula = true :=
      fun c hc => placed_formulas hplaced c (mem_of_mem_group hdistinct hg hc)
    obtain ⟨first, rest, hcells⟩ := exists_cons_of_ne_nil hrun.ne_nil
    have hfirst : g.cells.head? = some first := by rw [hcells]; rfl
    obtain ⟨i, hi⟩ := getElem?_of_mem hcg
    have hlt : i < g.cells.length := lt_of_getElem? hi
    have hr := hgroup g hg hcg
    refine ⟨g.direction.drag first.formula i, ?_, hr.fits first hfirst i hlt,
      hrun.rewrites_drag (fun c hc => (hplaced' c hc).1) hfirst hr (hplaced' first (mem_of_head? hfirst)).2 hi⟩
    refine mem_flatten.2 ⟨spread g, mem_append_left _ (mem_append_right _ (mem_map_of_mem hg)), ?_⟩
    rw [hrun.position_of_getElem? (fun c hc => (hplaced' c hc).1) hfirst hi, spread, hfirst]
    exact mem_map.2 ⟨i, mem_range.2 hlt, rfl⟩
  · refine ⟨c.formula, mem_flatten.2 ⟨_, mem_append_right _ (mem_map_of_mem hmem), mem_singleton_self _⟩, hfits, ?_⟩
    exact rewrites_refl (placed_formulas hplaced c hc).2 name

theorem exists_means {s : Survey} (hes : (s.entries.filter fun e => e.sheet = name) = es) :
    ∃ pss, Forall₂ (fun r ps => r.Means ps ∧ r.TypedBy s es (ps.map Prod.fst)) (sheetRows s name) pss ∧
      pss.Perm (meanings es) := by
  have hdistinct := distinct_formulas hd
  refine perm_comp_forall₂ (mergeSort_perm _ _) ?_
  rw [hes]
  refine rel_append (rel_append ?_ ?_) ?_
  · rw [forall₂_map_left_iff, forall₂_map_right_iff, forall₂_same]
    intro e he
    have he' := hplaced e (mem_filter.1 he).1
    exact ⟨.input rfl he'.address he'.onSheet, .inl ⟨e, he, rfl⟩⟩
  · refine forall₂_filterMap_zipIdx (fun g hg i => ?_) 0
    have hrun := isRun_of_mem_group hg
    have hmem := fun c => mem_of_mem_group (c := c) hdistinct hg
    have hcs := fun c hc => placed_formulas hplaced c (hmem c hc)
    obtain ⟨first, rest, hcells⟩ := exists_cons_of_ne_nil hrun.ne_nil
    have hfirst : g.cells.head? = some first := by rw [hcells]; rfl
    refine ⟨_, by dsimp only; rw [hfirst, Option.map_some], means_spread hrun hcs hfirst
      (typeOf_ne_input s first) rfl (by simp) rfl rfl rfl, .inr ⟨first, hmem first (by simp [hcells]), ?_, rfl⟩⟩
    rw [map_spread hrun fun c hc => (hcs c hc).1, hcells]
    rfl
  · rw [forall₂_map_left_iff, forall₂_map_right_iff, forall₂_same]
    intro c hc
    have hmem := (group_perm hdistinct).mem_iff.1 (mem_append_right _ hc)
    obtain ⟨hc', hstart⟩ := placed_formulas hplaced c hmem
    exact ⟨.single (typeOf_ne_input s c) rfl hc'.address hc'.onSheet rfl hstart, .inr ⟨c, hmem, rfl, rfl⟩⟩

end Entries

/-! The entries of a sheet -/

section

variable {s : Sheet} {p : Position}

def entryAt (s : Sheet) (p : Position) : Entry :=
  ⟨s.name, p.colName, p.row, s.value p, (s.cell p).kind, Look.ofStyle (s.cell p).style⟩

@[simp]
theorem position_entryAt : (entryAt s p).position = p := by
  rw [Entry.position, entryAt, Position.colName, index_name]

theorem mem_entries_pageOf {e : Entry} :
    e ∈ (pageOf s).entries ↔ ∃ p, (s.value p).isNull = false ∧ entryAt s p = e := by
  constructor
  · intro h
    obtain ⟨⟨p, c⟩, hmem, he⟩ := mem_filterMap.1 h
    obtain rfl := cell_of_mem_entries hmem
    dsimp only at he
    split at he
    · cases he
    · next hnull => exact ⟨p, Bool.eq_false_iff.2 hnull, Option.some.inj he⟩
  · rintro ⟨p, hp, rfl⟩
    have hcell : p ∈ s.cells := mem_of_value_ne fun hnull => by rw [hnull] at hp; cases hp
    obtain ⟨c, hc⟩ := Option.isSome_iff_exists.1 (mem_cells_iff.1 hcell)
    have hmem : (p, c) ∈ s.entries := mem_entries.2 hc
    obtain rfl := cell_of_mem_entries hmem
    exact mem_filterMap.2 ⟨_, hmem, if_neg (by rw [← value, hp]; decide)⟩

theorem mem_positions_pageOf : p ∈ (pageOf s).entries.map Entry.position ↔ (s.value p).isNull = false := by
  simp only [mem_map, mem_entries_pageOf, exists_exists_and_eq_and, position_entryAt, exists_eq_right]

theorem placed_pageOf (h : ∀ p ∈ s.cells, p.OnSheet) : ∀ e ∈ (pageOf s).entries, e.Placed s.name := by
  intro e he
  obtain ⟨p, hp, rfl⟩ := mem_entries_pageOf.1 he
  refine ⟨rfl, by rw [position_entryAt]; rfl, ?_⟩
  rw [position_entryAt]
  exact h p (mem_of_value_ne fun hnull => by rw [hnull] at hp; cases hp)

theorem nodup_pageOf (s : Sheet) : ((pageOf s).entries.map Entry.position).Nodup := by
  have hd := s.nodup_entries
  rw [Nodup, pairwise_map] at hd ⊢
  refine hd.filterMap _ fun x y hne e he e' he' => ?_
  dsimp only at he he'
  split at he
  · cases he
  · split at he'
    · cases he'
    · cases he
      cases he'
      simpa only [Entry.position, Position.colName, index_name] using hne

theorem mem_formulas_pageOf {f : String} (hvalue : s.value p = .text f) (hf : startsWith "=" f = true) :
    (⟨s.name, p.colName, p.row, f⟩ : FormulaCell) ∈ (pageOf s).entries.filterMap Entry.formula? := by
  refine mem_filterMap.2 ⟨entryAt s p, mem_entries_pageOf.2 ⟨p, by rw [hvalue]; rfl, rfl⟩, ?_⟩
  rw [Entry.formula?, entryAt]
  rw [hvalue]
  dsimp only
  rw [if_pos hf]

theorem entries_eq_flatMap (w : Workbook) : (ofWorkbook w).entries = w.sheets.flatMap fun s => (pageOf s).entries := by
  rw [Survey.entries, ofWorkbook, map_map, flatMap_map]
  rfl

theorem entries_ofWorkbook {w : Workbook} (hd : w.sheetNames.Nodup) (hs : s ∈ w.sheets) :
    ((ofWorkbook w).entries.filter fun e => e.sheet = s.name) = (pageOf s).entries := by
  have hsheet : ∀ t : Sheet, ∀ e ∈ (pageOf t).entries, e.sheet = t.name := by
    intro t e he
    obtain ⟨p, -, rfl⟩ := mem_entries_pageOf.1 he
    rfl
  rw [entries_eq_flatMap]
  rw [Workbook.sheetNames] at hd
  generalize w.sheets = ts at hd hs
  induction ts with
  | nil => cases hs
  | cons t ts ih =>
    obtain ⟨hnew, hd⟩ := nodup_cons.1 hd
    rw [flatMap_cons, filter_append]
    rcases mem_cons.1 hs with rfl | hs
    · have hrest : ((ts.flatMap fun s => (pageOf s).entries).filter fun e => e.sheet = s.name) = [] := by
        refine filter_eq_nil_iff.2 fun e he heq => ?_
        obtain ⟨t, ht, he⟩ := mem_flatMap.1 he
        refine hnew (mem_map.2 ⟨t, ht, ?_⟩)
        rw [← hsheet t e he]
        exact of_decide_eq_true heq
      rw [hrest, append_nil, filter_eq_self]
      exact fun e he => decide_eq_true (hsheet s e he)
    · have hfirst : ((pageOf t).entries.filter fun e => e.sheet = s.name) = [] := by
        refine filter_eq_nil_iff.2 fun e he heq => hnew (mem_map.2 ⟨s, hs, ?_⟩)
        rw [← hsheet t e he]
        exact (of_decide_eq_true heq).symm
      rw [hfirst, nil_append]
      exact ih hd hs

end

end Mapping

end Sheetwork
