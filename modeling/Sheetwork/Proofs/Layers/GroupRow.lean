import Sheetwork.Layers.Code.Entry
import Sheetwork.Proofs.Layers.Dragged
import Sheetwork.Proofs.Number.Binary
import Sheetwork.Proofs.Workbook.Content
/-
  Layers: the row of a group in a report, and what it is opened up into. The row names the range from the least to the
  greatest cell (`exists_ends`), and from a file it is read as an entry with this range and the pattern
  (`exists_entry`), which is opened up into the cells of the range (`expand_eq_ok`). Main statements:
  `groupRow_opens_to_formulas_iff`, `groupRow_opens_to_cells_iff`.
-/

open List hiding contains replace

namespace Sheetwork.Layers

open Text Text.Pattern Direction Report Code.Entry Report Position CellRecord
open Cell (filed maxText)

/-! Ranges -/

/-- How many lines there are from one position to another. -/
def Direction.extent : Direction → Position → Position → Nat
  | .horizontal, p, q => q.col + 1 - p.col
  | .vertical, p, q => q.row + 1 - p.row

namespace Code.Entry

variable {e : Entry} {d : Direction} {p q : Position} {pattern : String}

def opened (e : Entry) (d : Direction) (pattern : String) (r : Position) : Entry :=
  { e with cell := .text r.address, formula := .text (refill d r pattern) }

theorem at_eq_ok (hpattern : e.pattern = .text pattern) (hformula : e.formula = .text pattern) (hne : pattern ≠ "")
    (r : Position) : e.at_ d.mark (d.label r) r.address = .ok (e.opened d pattern r) := by
  have htruthy : (Value.text pattern : Value).truthy = true := decide_eq_true hne
  obtain ⟨sheet, cell, type, formula, value, groupId, direction, groupSize, pattern', isLarge⟩ := e
  cases hpattern
  cases hformula
  rw [at_, htruthy, if_pos rfl, opened, refill]
  show (if contains _ pattern = true then _ else _) = _
  split
  · rfl
  · rfl

/-- A range is opened up into its cells, each with the pattern filled for its line. -/
theorem expand_eq_ok (hp : p.OnSheet) (hq : q.OnSheet) (hcell : e.cell = .text (p.address ++ ":" ++ q.address))
    (hdirection : e.direction = .text d.name) (hpattern : e.pattern = .text pattern)
    (hformula : e.formula = .text pattern) (hne : pattern ≠ "") :
    e.expand = .ok ((d.stretch p (d.extent p q)).map (e.opened d pattern)) := by
  obtain ⟨m, hm, hcol, hrow, hcol', hrow'⟩ := exists_begin?_range hp hq
  have hcolon : contains ":" (p.address ++ ":" ++ q.address) = true := by
    refine Bool.eq_true_of_not_eq_false fun h => ?_
    rw [contains_eq_false_iff, cutL?_eq_none_iff (by simp)] at h
    exact h ⟨p.address.toList, q.address.toList, by simp⟩
  have hnumber : ∀ n, natOfDigits (ofNat n).toList = n := fun n => by rw [ofNat, String.toList_ofList, natOfDigits_natL]
  have harea : Address.areaOf m = .ok ⟨p.row, p.col, q.row, q.col⟩ := by
    unfold Address.areaOf
    rw [hcol, hrow, hcol', hrow', hnumber, hnumber, colName, colName,
      Address.columnNumber_name hp.col_pos hp.col_le, Address.columnNumber_name hq.col_pos hq.col_le]
    rfl
  rw [expand, cellText, hcell]
  show (if (!contains ":" (p.address ++ ":" ++ q.address)) = true then _ else _) = _
  rw [hcolon, if_neg (by decide), hm]
  dsimp only
  rw [harea, hcol, hdirection]
  cases d with
  | horizontal =>
    rw [stretch, map_map]
    exact mapM_ok fun i _ => at_eq_ok (d := .horizontal) hpattern hformula hne ⟨p.row, p.col + i⟩
  | vertical =>
    rw [stretch, map_map]
    exact mapM_ok fun i _ => at_eq_ok (d := .vertical) hpattern hformula hne ⟨p.row + i, p.col⟩

def formulaAt (es : List Entry) (q : Position) : Option Value :=
  (es.find? fun e => e.cell == .text q.address).map Entry.formula

theorem formulaAt_opened (l : List Position) :
    formulaAt (l.map (e.opened d pattern)) q = if q ∈ l then some (.text (d.refill q pattern)) else none := by
  have hfind : ∀ r : Position, ((e.opened d pattern r).cell == .text q.address) = decide (r = q) := by
    intro r
    exact decide_eq_decide.2 address_inj
  rw [formulaAt, find?_map, Option.map_map]
  simp only [Function.comp_def, hfind]
  split
  · next hq =>
    rw [find?_eq_some_of_unique hq (decide_eq_true rfl) fun r _ hr => of_decide_eq_true hr]
    rfl
  · next hq =>
    rw [find?_eq_none.2 (by rintro r hr heq; obtain rfl := of_decide_eq_true heq; exact hq hr)]
    rfl

end Code.Entry

/-! The first and the last cell -/

/-- By row, then by column letters as texts. -/
def before (a b : Position) : Bool := a.row < b.row || (a.row = b.row && a.colName ≤ b.colName)

section

variable {a b c : Position}

theorem before_iff : before a b = true ↔ toLex (a.row, a.colName) ≤ toLex (b.row, b.colName) := by
  simp [before, Prod.Lex.le_iff]

theorem before_trans (hab : before a b = true) (hbc : before b c = true) : before a c = true :=
  before_iff.2 ((before_iff.1 hab).trans (before_iff.1 hbc))

theorem before_total (a b : Position) : (before a b || before b a) = true := by
  rw [Bool.or_eq_true, before_iff, before_iff]
  exact le_total _ _

theorem before_antisymm (hab : before a b = true) (hba : before b a = true) : a = b := by
  obtain ⟨hrow, hname⟩ := Prod.mk.inj (toLex.injective (le_antisymm (before_iff.1 hab) (before_iff.1 hba)))
  rw [← address_inj, address, address, hrow, hname]

end

variable {rs : List CellRecord} {row n : Nat} {g : Group} {s' s : Sheet}

theorem exists_ends (hne : rs ≠ []) : ∃ first last, (sortedCells rs).head? = some first ∧
    (sortedCells rs).getLast? = some last ∧ first ∈ rs ∧ last ∈ rs ∧ ∀ r ∈ rs, before first.position r.position = true ∧
    before r.position last.position = true :=
  Ordered.exists_ends (r := fun a b : CellRecord => before a.position b.position) (fun _ _ _ => before_trans)
    (fun _ _ => before_total _ _) hne

/-- The column letters of the first and the last cell are the least and the greatest as texts. -/
def Group.InOrder (g : Group) : Prop :=
  ∀ first, g.cells.head? = some first → ∀ last, g.cells.getLast? = some last →
    ∀ q ∈ g.cells, first.colName ≤ q.colName ∧ q.colName ≤ last.colName

section

variable {d : Direction} {p : Position} {n i j : Nat}

theorem Direction.walk_walk : d.walk (d.walk p i) j = d.walk p (i + j) := by cases d <;> simp [walk, Nat.add_assoc]

theorem Direction.walk_inj : d.walk p i = d.walk p j ↔ i = j :=
  ⟨fun h => label_walk_inj (congrArg (label d) h), congrArg _⟩

theorem Direction.ends_stretch (hn : 0 < n) : (d.stretch p n).head? = some (d.walk p 0) ∧
    (d.stretch p n).getLast? = some (d.walk p (n - 1)) := by
  rw [stretch, head?_map, head?_range, getLast?_map, getLast?_range, if_neg (by omega), if_neg (by omega)]
  exact ⟨rfl, rfl⟩

theorem Direction.extent_walk : d.extent (d.walk p i) (d.walk p j) = j + 1 - i := by
  cases d <;> simp only [extent, walk] <;> omega

theorem before_walk_iff (h : i ≤ j) : before (d.walk p i) (d.walk p j) = true ↔
    (d.walk p i).colName ≤ (d.walk p j).colName := by
  rw [before_iff, Prod.Lex.le_iff]
  cases d with
  | horizontal => simp [walk]
  | vertical =>
    simp only [walk, colName, ofLex_toLex, le_refl, and_true, iff_true]
    omega

end

theorem Direction.walk_mem_stretch_iff {d : Direction} {p : Position} {i j k : Nat} :
    d.walk p k ∈ d.stretch (d.walk p i) (j + 1 - i) ↔ i ≤ k ∧ k ≤ j := by
  rw [mem_stretch]
  simp only [walk_walk, walk_inj]
  constructor
  · rintro ⟨m, hm, rfl⟩
    omega
  · rintro ⟨hik, hkj⟩
    exact ⟨k - i, by omega, by omega⟩

/-- The range from the least to the greatest cell of a run has all its cells exactly if these are
its first and its last. -/
theorem stretch_subset_iff {p a b : Position} (hn : 0 < n)
    (hcells : g.cells = g.direction.stretch p n) (ha : a ∈ g.cells) (hb : b ∈ g.cells)
    (hends : ∀ q ∈ g.cells, before a q = true ∧ before q b = true) :
    (∀ q ∈ g.cells, q ∈ g.direction.stretch a (g.direction.extent a b)) ↔ g.InOrder := by
  have hwalk : ∀ P : Position → Prop, (∀ q ∈ g.cells, P q) ↔ ∀ k, k < n → P (g.direction.walk p k) := by
    intro P
    rw [hcells]
    simp only [mem_stretch]
    exact ⟨fun h k hk => h _ ⟨k, hk, rfl⟩, fun h q ⟨k, hk, hq⟩ => hq ▸ h k hk⟩
  obtain ⟨hfirst, hlast⟩ := hcells ▸ ends_stretch (d := g.direction) (p := p) hn
  obtain ⟨i, hi, rfl⟩ := mem_stretch.1 (hcells ▸ ha)
  obtain ⟨j, hj, rfl⟩ := mem_stretch.1 (hcells ▸ hb)
  rw [hwalk] at hends
  rw [extent_walk, hwalk, Group.InOrder, hfirst, hlast]
  simp only [walk_mem_stretch_iff, Option.some.injEq, forall_eq', hwalk]
  constructor
  · intro h k hk
    obtain rfl : i = 0 := by have := h 0 hn; omega
    obtain rfl : j = n - 1 := by have := h (n - 1) (by omega); omega
    exact ⟨(before_walk_iff (Nat.zero_le k)).1 (hends k hk).1, (before_walk_iff (by omega)).1 (hends k hk).2⟩
  · intro h k hk
    have hi' := before_antisymm ((before_walk_iff (Nat.zero_le i)).2 (h i hi).1) (hends 0 hn).1
    have hj' := before_antisymm ((before_walk_iff (by omega)).2 (h j hj).2) (hends (n - 1) (by omega)).2
    rw [walk_inj] at hi' hj'
    omega

/-! The row of a group -/

/-- What is written for a value: nothing if it is empty. -/
def Report.inked (v : Value) : Sheet.Ink := if v.isNull then none else Sheet.written v

theorem Report.puts_of_fillRow {vs : List Value}
    (h : fillRow s row vs = .ok s') : Sheet.Puts (Sheet.gridPuts row [vs.map inked]) s s' := by
  refine Sheet.Puts.of_row (fun s s' v i hstep => ?_) h
  dsimp only at hstep
  rw [inked]
  split at hstep
  · next hnull =>
    cases hstep
    rw [if_pos hnull]
    refine ⟨Sheet.name_touch s _, Sheet.merged_touch s _, fun q => ?_, fun q => ?_⟩
    · rw [Sheet.mem_touch, map_singleton, mem_singleton, eq_comm]
    · show _ = if _ = q then s.content q else s.content q
      rw [Sheet.content_touch, ite_self]
  · next hnull =>
    rw [if_neg hnull]
    exact Sheet.puts_of_put hstep

theorem Report.listing_headings {name : String}
    (h : fillRow { name } 1 (Value.texts headings) = .ok s) : s.Listing headings := by
  have hputs := puts_of_fillRow h
  have hheadings : (Value.texts headings).map inked = (headings.map .text).map Sheet.written := by rfl
  rw [hheadings] at hputs
  exact (Sheet.Listing.of_puts (by decide) hputs).1

/-- Numbers that are none do not come from a file, so all others are cut to whole ones. -/
theorem toInt_filed (v : Value) : (∃ n, (filed v).toInt = .ok n) ∨
    ∃ e, (filed v).toInt = .error e ∧ (e.cause = .badValue ∨ e.cause = .wrongKind) := by
  cases v with
  | float x =>
    rw [filed]
    split
    · exact .inr ⟨_, rfl, .inr rfl⟩
    · next hfinite =>
      rw [Bool.or_eq_true, not_or, Bool.not_eq_true, Bool.not_eq_true] at hfinite
      obtain ⟨n, hn⟩ := Option.isSome_iff_exists.1 (Number.isSome_truncate? hfinite.1 hfinite.2)
      exact .inl ⟨n, by rw [Value.toInt, Value.intOfFloat, hn]⟩
  | text s =>
    have hint : (filed (.text s)).toInt = (Number.int? s).elim (.error .badValue) .ok := rfl
    rw [hint]
    cases Number.int? s with
    | none => exact .inr ⟨_, rfl, .inl rfl⟩
    | some n => exact .inl ⟨n, rfl⟩
  | int n => exact .inl ⟨n, rfl⟩
  | bool b => exact .inl ⟨_, rfl⟩
  | _ => exact .inr ⟨_, rfl, .inr rfl⟩

namespace Code.Entry

variable {r : Record} {name : String}

theorem exists_int?_eq_ok {v : Value} (h : r.get name = filed v) : ∃ n, int? r name = .ok n := by
  have hfield : field r name = .null ∨ field r name = filed v := by
    rw [field, h]
    exact (ite_eq_or_eq _ _ _)
  rw [int?]
  rcases hfield with hnull | hv
  · rw [hnull]
    exact ⟨none, rfl⟩
  · split
    · exact ⟨none, rfl⟩
    · rw [hv]
      rcases toInt_filed v with ⟨n, hn⟩ | ⟨e, he, hcause⟩
      · rw [hn]
        exact ⟨some n, rfl⟩
      · rw [he]
        rcases hcause with hcause | hcause <;> simp [hcause]

theorem field_text {t : String} (h : r.get name = .text t) (ht : t ≠ "") : field r name = .text t := by
  rw [field, h, Value.text_beq, decide_eq_false ht]
  rfl

theorem exists_ofRecord_eq_ok (sheet : String) {cell direction pattern formula : String} {v₁ v₂ v₃ : Value}
    (hcell : r.get "Cell" = .text cell) (hcell' : cell ≠ "") (hdirection : r.get "GroupDirection" = .text direction)
    (hdirection' : direction ≠ "") (hpattern : r.get "PatternFormula" = .text pattern) (hpattern' : pattern ≠ "")
    (hformula : r.get "Formula" = .text formula) (hformula' : formula ≠ "") (hid : r.get "GroupID" = filed v₁)
    (hsize : r.get "GroupSize" = filed v₂) (hfont : r.get "FontSize" = filed v₃) :
    ∃ e, ofRecord sheet r = .ok (some e) ∧
      e.cell = .text cell ∧ e.direction = .text direction ∧ e.pattern = .text pattern ∧ e.formula = .text formula := by
  obtain ⟨id, hid⟩ := exists_int?_eq_ok hid
  obtain ⟨size, hsize⟩ := exists_int?_eq_ok hsize
  obtain ⟨font, hfont⟩ := exists_int?_eq_ok hfont
  have htruthy : (Value.text cell : Value).truthy = true := decide_eq_true hcell'
  rw [ofRecord, field_text hcell hcell', htruthy, if_neg (by decide), hid, hsize, hfont]
  exact ⟨_, rfl, rfl, field_text hdirection hdirection', field_text hpattern hpattern', field_text hformula hformula'⟩

end Code.Entry

theorem Report.shown_ne_empty {u : String} (h : u ≠ "") : shown u ≠ "" := by
  rw [shown, if_neg h]
  simp

/-- The row of a group, read from the file, is an entry with the range of its cells, its direction
and its pattern. -/
theorem exists_entry {t t' : Sheet} {first last : CellRecord} {count : Nat} (ht : t.Listing headings) (hrow : 1 < row)
    (h : fillRow t row (groupRow g first last count) = .ok t') (hcount : count ≠ 1)
    (hfirst : first.position.OnSheet) (hlast : last.position.OnSheet) (hpattern : g.pattern ≠ "")
    (hfits : (shown g.pattern).length ≤ maxText) (f : Style → Style) :
    ∃ r e, (t'.restyleRow row headings.length f).stored.records[row - 2]? = some r ∧ ofRecord t.name r = .ok (some e) ∧
      e.cell = .text (first.position.address ++ ":" ++ last.position.address) ∧
      e.direction = .text g.direction.name ∧ e.pattern = .text (shown g.pattern) ∧
        e.formula = .text (shown g.pattern) := by
  have hlen : ((groupRow g first last count).map inked).length = headings.length := by
    simp [groupRow, lookValues, headings]
  have hputs := (puts_of_fillRow h).restyleRow (Nat.le_of_eq hlen.symm) f
  generalize t'.restyleRow row headings.length f = u at hputs ⊢
  have hlisting := ht.puts hrow (forall_mem_singleton.2 (Nat.le_of_eq hlen)) hputs
  have hvalue : ∀ i v, (groupRow g first last count)[i]? = some v →
      u.stored.value ⟨row, i + 1⟩ = filed ((inked v).getD (t.content ⟨row, i + 1⟩)).1 := by
    intro i v hv
    have hat : u.value ⟨row, i + 1⟩ = ((inked v).getD (t.content ⟨row, i + 1⟩)).1 :=
      congrArg Prod.fst (hputs.content_grid (i := 0) (by simp [Sheet.entryAt?, hv]))
    rw [Sheet.value_stored hlisting.unmerged, hat]
  have htext : ∀ i w, (groupRow g first last count)[i]? = some (.text w) →
      w.length ≤ maxText → u.stored.value ⟨row, i + 1⟩ = .text w := by
    intro i w hw hlen
    have hinked : ((inked (.text w)).getD (t.content ⟨row, i + 1⟩)).1 = Cell.taken (.text w) := rfl
    rw [hvalue i _ hw, hinked, Cell.taken_text hlen]
    rfl
  have hrange : rangeText first.position last.position count =
      first.position.address ++ ":" ++ last.position.address := if_neg hcount
  have hshort : (first.position.address ++ ":" ++ last.position.address).length ≤ maxText := by
    have := length_address_le hfirst
    have := length_address_le hlast
    simp only [String.length_append, maxText, show ":".length = 1 from rfl]
    omega
  have hshown := shown_ne_empty hpattern
  have hcell := htext 2 _ (by rw [← hrange]; rfl) hshort
  obtain ⟨r, hr, hget⟩ := hlisting.stored.exists_record (by decide) (by decide) hrow
    (Sheet.mem_of_value_ne (by rw [hcell]; simp)) (Nat.le_refl _)
  obtain ⟨e, he, hfields⟩ := exists_ofRecord_eq_ok t.name ((hget 2 _ rfl).trans hcell) (by simp)
    ((hget 15 _ rfl).trans (htext 15 _ rfl (by cases g.direction <;> decide)))
    (by cases g.direction <;> decide) ((hget 17 _ rfl).trans (htext 17 _ rfl hfits)) hshown
    ((hget 4 _ rfl).trans (htext 4 _ rfl hfits)) hshown ((hget 14 _ rfl).trans (hvalue 14 _ rfl))
    ((hget 16 _ rfl).trans (hvalue 16 _ rfl)) ((hget 9 _ rfl).trans (hvalue 9 _ rfl))
  exact ⟨r, e, hr, he, hfields⟩

/-! All cells of a group -/

theorem value_of_formula? {c : Cell} {f : String} (h : c.formula? = some f) :
    c.value = .text f ∧ ∃ r, f.toList = '=' :: r := by
  obtain ⟨hvalue, -, hf⟩ := Cell.formula?_eq_some_iff.1 h
  obtain ⟨d, r, hr⟩ := Cell.isFormulaText_iff.1 hf
  exact ⟨hvalue, d :: r, hr⟩

variable {s : Sheet} {g : Group} {p : Position} {f : String} {groups : List Group}

theorem Group.Dragged.exists_formula (h : g.Dragged s p f) {q : Position} (hq : q ∈ g.cells) :
    ∃ f', (s.cell q).formula? = some f' := by
  rw [h.cells] at hq
  obtain ⟨i, hi, rfl⟩ := mem_stretch.1 hq
  cases i with
  | zero => exact ⟨f, by rw [walk_zero, h.first]⟩
  | succ i =>
    obtain ⟨f', -, hf'⟩ := h.copies (i + 1) i.succ_pos hi
    exact ⟨f', hf'⟩

/-- The entries that a group is opened up into have the formulas of all its cells exactly if its
cells are in order and its first formula carries its line. -/
theorem Group.Dragged.forall_formulaAt_iff (h : g.Dragged s p f) {a b : Position} (ha : a ∈ g.cells) (hb : b ∈ g.cells)
    (hends : ∀ q ∈ g.cells, before a q = true ∧ before q b = true) (e : Code.Entry) :
    (∀ q ∈ g.cells, formulaAt ((g.direction.stretch a (g.direction.extent a b)).map
        (e.opened g.direction (shown g.pattern))) q = (s.cell q).formula?.map .text) ↔
      g.InOrder ∧ g.direction.Carries p f := by
  obtain ⟨-, r, hf⟩ := value_of_formula? h.first
  have hlong := h.long
  rw [← stretch_subset_iff (by omega) h.cells ha hb hends]
  have hcopies : ∀ i, 0 < i → i < g.cells.length → g.direction.shift f i =
      .ok (((s.cell (g.direction.walk p i)).formula?).getD "") := by
    intro i hpos hi
    obtain ⟨f', hshift, hf'⟩ := h.copies i hpos hi
    rw [hf', hshift]
    rfl
  rw [← forall_refill_iff hf h.long (by rw [walk_zero, h.first]; rfl) hcopies, ← h.pattern]
  have hcell : ∀ i, i < g.cells.length → g.direction.walk p i ∈ g.cells := fun i hi => by
    rw [h.cells]
    exact mem_stretch.2 ⟨i, hi, rfl⟩
  simp only [formulaAt_opened]
  constructor
  · intro hall
    refine ⟨fun q hq => ?_, fun i hi => ?_⟩
    · obtain ⟨f', hf'⟩ := h.exists_formula hq
      have := hall q hq
      rw [hf'] at this
      split at this
      · assumption
      · cases this
    · obtain ⟨f', hf'⟩ := h.exists_formula (hcell i hi)
      have := hall _ (hcell i hi)
      rw [hf'] at this ⊢
      split at this
      · cases this
        rfl
      · cases this
  · rintro ⟨hsubset, hrefill⟩ q hq
    rw [if_pos (hsubset q hq)]
    obtain ⟨f', hf'⟩ := h.exists_formula hq
    rw [h.cells] at hq
    obtain ⟨i, hi, rfl⟩ := mem_stretch.1 hq
    rw [hrefill i hi, hf']
    rfl

section

variable {a a' : Analysis} {s' : Sheet} {groups : List Group} {rs : List CellRecord} {t t' : Sheet} {row : Nat}
  (hsheet : ∀ q ∈ s.cells, q.OnSheet) (hfound : a.sheet s = .ok (a', s', groups)) (hg : g ∈ groups)
  (hrs : (rs.map position).Perm g.cells) (hgroup : ∀ r ∈ rs, r.group = some g)
  (ht : t.Listing headings) (hrow : 1 < row) (hwrite : writeGroup t row rs = .ok t')
  (hfits : (shown g.pattern).length ≤ maxText)

include hsheet hfound hg hrs hgroup ht hrow hwrite hfits

/-- The row of a group, written, kept in a file and read again, is opened up into the range from the
least to the greatest of its cells. -/
theorem exists_opened : ∃ p f first last r e, g.Dragged s p f ∧ first ∈ g.cells ∧ last ∈ g.cells ∧
    (∀ q ∈ g.cells, before first q = true ∧ before q last = true) ∧
    t'.stored.records[row - 2]? = some r ∧ ofRecord t.name r = .ok (some e) ∧
    e.expand = .ok ((g.direction.stretch first (g.direction.extent first last)).map
      (e.opened g.direction (shown g.pattern))) := by
  obtain ⟨p, f, hdragged⟩ := Analysis.dragged_of_sheet hfound hg
  have hmem : ∀ r ∈ rs, r.position ∈ g.cells := fun r hr => hrs.mem_iff.1 (mem_map_of_mem hr)
  have hcells : ∀ q ∈ g.cells, q.OnSheet := by
    intro q hq
    obtain ⟨f', hf'⟩ := hdragged.exists_formula hq
    refine hsheet q (Sheet.mem_of_value_ne ?_)
    simp [Sheet.value, (value_of_formula? hf').1]
  have hne : rs ≠ [] := by
    rintro rfl
    have := hdragged.long
    rw [← hrs.length_eq] at this
    cases this
  obtain ⟨first, last, hfirst, hlast, hfirst', hlast', hends⟩ := exists_ends hne
  have hends' : ∀ q ∈ g.cells, before first.position q = true ∧ before q last.position = true := by
    intro q hq
    obtain ⟨r, hr, rfl⟩ := mem_map.1 (hrs.mem_iff.2 hq)
    exact hends r hr
  have hcount : (sortedCells rs).length ≠ 1 := by
    have hlong := hdragged.long
    rw [sortedCells, length_mergeSort, ← length_map (f := position), hrs.length_eq]
    omega
  have hpattern : g.pattern ≠ "" := by
    obtain ⟨-, r, hf⟩ := value_of_formula? hdragged.first
    rw [hdragged.pattern]
    exact patternOf_ne_empty hf
  rw [writeGroup] at hwrite
  simp only [hfirst, hlast, hgroup first hfirst'] at hwrite
  obtain ⟨t₁, hfill, hwrite⟩ := of_bind hwrite
  cases hwrite
  obtain ⟨r, e, hr, he, hcell, hdirection, hepattern, heformula⟩ := exists_entry ht hrow hfill hcount
    (hcells _ (hmem _ hfirst')) (hcells _ (hmem _ hlast')) hpattern hfits
    fun st => { st with fill := groupFill g }
  exact ⟨p, f, first.position, last.position, r, e, hdragged, hmem _ hfirst', hmem _ hlast', hends', hr, he,
    expand_eq_ok (hcells _ (hmem _ hfirst')) (hcells _ (hmem _ hlast')) hcell hdirection
      hepattern heformula (shown_ne_empty hpattern)⟩

end

/-- A group is found on a sheet, and its row is written, kept in a file and read again. The cells that
the row is opened up into have the formulas of the group exactly if the column letters of its first
and its last cell are the least and the greatest as texts, and the first formula carries its line:
of the columns, or the rows, it mentions its own and no other, with no dollar sign. -/
theorem groupRow_opens_to_formulas_iff {a a' : Analysis} {s' : Sheet} {groups : List Group}
    (hsheet : ∀ q ∈ s.cells, q.OnSheet) (hfound : a.sheet s = .ok (a', s', groups))
    (hg : g ∈ groups) {rs : List CellRecord} (hrs : (rs.map position).Perm g.cells)
    (hgroup : ∀ r ∈ rs, r.group = some g) {t t' : Sheet} {row : Nat}
    (ht : t.Listing headings) (hrow : 1 < row) (hwrite : writeGroup t row rs = .ok t')
    (hfits : (shown g.pattern).length ≤ Cell.maxText) :
    ∃ p f r e es, g.Dragged s p f ∧ t'.stored.records[row - 2]? = some r ∧
      ofRecord t.name r = .ok (some e) ∧ e.expand = .ok es ∧
      ((∀ q ∈ g.cells, formulaAt es q = (s.cell q).formula?.map .text) ↔
        g.InOrder ∧ Direction.Carries g.direction p f) := by
  obtain ⟨p, f, first, last, r, e, hdragged, hfirst, hlast, hends, hr, he, hes⟩ :=
    exists_opened hsheet hfound hg hrs hgroup ht hrow hwrite hfits
  exact ⟨p, f, r, e, _, hdragged, hr, he, hes, hdragged.forall_formulaAt_iff hfirst hlast hends e⟩

/-- A run down a column in which every cell refers to one fixed row. -/
def fixedCell : Cell := { value := .text "=B$1" }

def fixedSheet : Sheet := (({ name := "S" } : Sheet).insert ⟨1, 1⟩ fixedCell).insert ⟨2, 1⟩ fixedCell

def fixedGroup : Group := ⟨1, .vertical, [⟨1, 1⟩, ⟨2, 1⟩], "=B$\x7brow\x7d", "S", false⟩

def fixedRecord (row : Nat) : CellRecord where
  sheet := "S"
  position := ⟨row, 1⟩
  kind := .calculation
  formula := "=B$1"
  value := .text "=B$1"
  numberFormat := "General"
  bold := false
  italic := false
  size := .int 11
  fontColor := ""
  fillColor := ""
  alignment := "general"
  wrap := false
  group := some fixedGroup

def emptyListing : Sheet := (fillRow { name := "S" } 1 (Value.texts headings)).toOption.getD default

/-- The fixed row is lost: the second cell gets the row of its own. -/
theorem groupRow_loses_fixed_row : ∃ a' s' t' r e es, ({} : Analysis).sheet fixedSheet = .ok (a', s', [fixedGroup]) ∧
      writeGroup emptyListing 2 [fixedRecord 1, fixedRecord 2] = .ok t' ∧
      t'.stored.records[0]? = some r ∧ ofRecord "S" r = .ok (some e) ∧
      e.expand = .ok es ∧ ¬ ∀ q ∈ fixedGroup.cells, formulaAt es q = (fixedSheet.cell q).formula?.map .text := by
  obtain ⟨a', s', hfound⟩ : ∃ a' s', ({} : Analysis).sheet fixedSheet = .ok (a', s', [fixedGroup]) := ⟨_, _, rfl⟩
  have hsorted : sortedCells [fixedRecord 1, fixedRecord 2] = [fixedRecord 1, fixedRecord 2] :=
    mergeSort_of_pairwise (by decide +kernel)
  obtain ⟨t', hwrite⟩ : ∃ t', writeGroup emptyListing 2 [fixedRecord 1, fixedRecord 2] = .ok t' := by
    rw [writeGroup, hsorted]
    exact ⟨_, rfl⟩
  have hsheet : ∀ q ∈ fixedSheet.cells, q.OnSheet :=
    Sheet.forall_mem_insert (by decide) (Sheet.forall_mem_insert (by decide) (by simp))
  obtain ⟨p, f, r, e, es, hdragged, hr, he, hes, hiff⟩ := groupRow_opens_to_formulas_iff hsheet hfound
    (mem_singleton_self _) (List.Perm.refl _) (by simp [fixedRecord])
    (listing_headings rfl) (by decide : 1 < 2) hwrite (by decide +kernel)
  refine ⟨a', s', t', r, e, es, hfound, hwrite, hr, he, hes, fun hall => ?_⟩
  obtain ⟨-, hcarries⟩ := hiff.1 hall
  obtain rfl : ⟨1, 1⟩ = p := by
    have hhead := congrArg head? hdragged.cells
    rw [(Direction.ends_stretch (by decide)).1] at hhead
    exact (Option.some.inj hhead).trans (Direction.walk_zero _ p)
  have hf : some "=B$1" = some f := hdragged.first
  cases hf
  obtain ⟨m, hm, hfixed⟩ : ∃ m ∈ rowMention.all "=B$1", m.group 1 ≠ "" := by decide +kernel
  exact hfixed (hcarries.own m hm).1

/-! The cells of a group -/

theorem Direction.nodup_stretch (d : Direction) (p : Position) (n : Nat) : (d.stretch p n).Nodup :=
  nodup_range.map fun _ _ h => walk_inj.1 h

/-- A range that begins and ends with cells of a run lists the run exactly if it has all its cells. -/
theorem stretch_perm_iff {p a b : Position} (hcells : g.cells = g.direction.stretch p n)
    (ha : a ∈ g.cells) (hb : b ∈ g.cells) : (g.direction.stretch a (g.direction.extent a b)).Perm g.cells ↔
      ∀ q ∈ g.cells, q ∈ g.direction.stretch a (g.direction.extent a b) := by
  refine ⟨fun h q hq => h.mem_iff.2 hq, fun h => (perm_ext_iff_of_nodup
    (nodup_stretch _ _ _) (hcells ▸ nodup_stretch _ _ _)).2 fun q => ⟨fun hq => ?_, h q⟩⟩
  rw [hcells] at ha hb ⊢
  obtain ⟨i, -, rfl⟩ := mem_stretch.1 ha
  obtain ⟨j, hj, rfl⟩ := mem_stretch.1 hb
  rw [extent_walk] at hq
  obtain ⟨k, hk, rfl⟩ := mem_stretch.1 hq
  rw [walk_walk]
  exact mem_stretch.2 ⟨i + k, by omega, rfl⟩

theorem colName_le : ∀ i : Fin 27, ∀ j : Fin 27, i ≤ j → Column.name i ≤ Column.name j := by decide +kernel

/-- Runs down a column are in order, and so are runs that do not go beyond the column Z. -/
theorem Group.Dragged.inOrder (h : g.Dragged s p f)
    (hnear : g.direction = .vertical ∨ ∀ q ∈ g.cells, q.col ≤ 26) : g.InOrder := by
  intro first hfirst last hlast q hq
  have hl := mem_of_getLast? hlast
  have hlong := h.long
  have hw := h.cells
  have hends := ends_stretch (d := g.direction) (p := p) (n := g.cells.length) (by omega)
  rw [← hw, hfirst, hlast] at hends
  obtain ⟨⟨⟩, ⟨⟩⟩ := hends
  obtain ⟨k, hk, rfl⟩ := mem_stretch.1 (hw ▸ hq)
  generalize g.direction = d at *
  cases d with
  | vertical => exact ⟨String.le_refl _, String.le_refl _⟩
  | horizontal =>
    have hsmall := hnear.resolve_left nofun
    have hk' := hsmall _ hq
    have hl' := hsmall _ hl
    simp only [walk] at hk' hl'
    exact ⟨colName_le ⟨p.col + 0, by omega⟩ ⟨p.col + k, by omega⟩ (by simp),
      colName_le ⟨p.col + k, by omega⟩ ⟨p.col + (g.cells.length - 1), by omega⟩ (by simp; omega)⟩

/-- The row of a group, written, kept in a file and read again, is opened up into the cells of the group,
each once, exactly if the column letters of its first and its last cell are the least and the greatest
as texts. So it is for all runs down a column and for those along a row up to the column Z. -/
theorem groupRow_opens_to_cells_iff {a a' : Analysis} {s' : Sheet} {groups : List Group}
    (hsheet : ∀ q ∈ s.cells, q.OnSheet) (hfound : a.sheet s = .ok (a', s', groups))
    (hg : g ∈ groups) {rs : List CellRecord} (hrs : (rs.map position).Perm g.cells)
    (hgroup : ∀ r ∈ rs, r.group = some g) {t t' : Sheet} {row : Nat}
    (ht : t.Listing headings) (hrow : 1 < row) (hwrite : writeGroup t row rs = .ok t')
    (hfits : (shown g.pattern).length ≤ Cell.maxText) :
    ∃ r e es, t'.stored.records[row - 2]? = some r ∧ ofRecord t.name r = .ok (some e) ∧ e.expand = .ok es ∧
      ((es.map cell).Perm (g.cells.map fun q => .text q.address) ↔ g.InOrder) ∧
      (g.direction = .vertical ∨ (∀ q ∈ g.cells, q.col ≤ 26) → g.InOrder) := by
  obtain ⟨p, f, first, last, r, e, hdragged, hfirst, hlast, hends, hr, he, hes⟩ :=
    exists_opened hsheet hfound hg hrs hgroup ht hrow hwrite hfits
  have hlong := hdragged.long
  refine ⟨r, e, _, hr, he, hes, ?_, hdragged.inOrder⟩
  rw [← stretch_subset_iff (by omega) hdragged.cells hfirst hlast hends,
    ← stretch_perm_iff hdragged.cells hfirst hlast, map_map]
  exact map_perm_map_iff fun q q' h => address_inj.1 (Value.text.inj h)

/-- Two neighbours on the two sides of the column Z. -/
def besideZSheet : Sheet :=
  (({ name := "S" } : Sheet).insert ⟨1, 26⟩ { value := .text "=Z2" }).insert ⟨1, 27⟩ { value := .text "=AA2" }

def besideZ : Group := ⟨1, .horizontal, [⟨1, 26⟩, ⟨1, 27⟩], "=\x7bcol\x7d2", "S", false⟩

def besideZRecord (col : Nat) : CellRecord := { fixedRecord 1 with position := ⟨1, col⟩, group := some besideZ }

/-- The range of the row goes from AA to Z, which has no cell. -/
theorem groupRow_besideZ : ∃ a' s' t' r e es, ({} : Analysis).sheet besideZSheet = .ok (a', s', [besideZ]) ∧
      writeGroup emptyListing 2 [besideZRecord 27, besideZRecord 26] = .ok t' ∧
      t'.stored.records[0]? = some r ∧ ofRecord "S" r = .ok (some e) ∧ e.expand = .ok es ∧
      ¬ (es.map cell).Perm (besideZ.cells.map fun q => .text q.address) := by
  obtain ⟨a', s', hfound⟩ : ∃ a' s', ({} : Analysis).sheet besideZSheet = .ok (a', s', [besideZ]) := ⟨_, _, rfl⟩
  have hsorted : sortedCells [besideZRecord 27, besideZRecord 26] =
      [besideZRecord 27, besideZRecord 26] := mergeSort_of_pairwise (by decide +kernel)
  obtain ⟨t', hwrite⟩ : ∃ t', writeGroup emptyListing 2 [besideZRecord 27, besideZRecord 26] = .ok t' := by
    rw [writeGroup, hsorted]
    exact ⟨_, rfl⟩
  have hsheet : ∀ q ∈ besideZSheet.cells, q.OnSheet :=
    Sheet.forall_mem_insert (by decide) (Sheet.forall_mem_insert (by decide) (by simp))
  have hrs : ([besideZRecord 27, besideZRecord 26].map position).Perm besideZ.cells := .swap _ _ _
  obtain ⟨r, e, es, hr, he, hes, hiff, -⟩ := groupRow_opens_to_cells_iff hsheet hfound (mem_singleton_self _)
    hrs (by simp [besideZRecord]) (listing_headings rfl) (by decide : 1 < 2) hwrite
    (by decide +kernel)
  refine ⟨a', s', t', r, e, es, hfound, hwrite, hr, he, hes, fun hperm => ?_⟩
  have hle : Column.name 26 ≤ Column.name 27 := (hiff.1 hperm ⟨1, 26⟩ rfl ⟨1, 27⟩ rfl ⟨1, 27⟩ (by decide)).1
  exact absurd hle (by decide +kernel)

end Sheetwork.Layers
