import Sheetwork.Layers.Report
import Sheetwork.Proofs.Text.Strewn
import Sheetwork.Proofs.Workbook.Address
import Sheetwork.Proofs.Workbook.Sheet
/-
  Layers: what the search for dragged formulas finds. Every group is a run of cells in its direction (`Dragged`): the
  first has some formula, and each of the others has that formula shifted by its distance. Cells are visited in
  ascending order (`Tidy`), so groups share cells only where a row crosses an earlier column
  (`groups_pairwise_cross`). The formulas of a group are one text whose words move with the cell
  (`formulas_of_group`).

  The pattern of a group has a mark for each column, or row, that the first formula mentions, and is filled with the
  column or row of a cell to give its formula (`refill`). Main statement: `forall_refill_iff`.
-/

open List hiding contains replace
open String (toList_ofList ofList toList_append)

namespace Sheetwork.Layers

open Direction Report Address Position

def Direction.walk : Direction → Position → Nat → Position
  | .horizontal, p, n => ⟨p.row, p.col + n⟩
  | .vertical, p, n => ⟨p.row + n, p.col⟩

theorem Direction.walk_zero (d : Direction) (p : Position) : d.walk p 0 = p := by cases d <;> rfl

theorem Direction.walk_next (d : Direction) (p : Position) (n : Nat) : d.walk (d.next p) n = d.walk p (n + 1) := by
  cases d <;> simp only [walk, next, Nat.add_assoc, Nat.add_comm 1]

def Direction.stretch (d : Direction) (p : Position) (n : Nat) : List Position := (range n).map (walk d p)

theorem Direction.stretch_succ (d : Direction) (p : Position) (n : Nat) :
    d.stretch p (n + 1) = p :: d.stretch (d.next p) n := by
  rw [stretch, range_succ_eq_map, map_cons, walk_zero, map_map, stretch]
  congr 1
  exact map_congr_left fun i _ => (walk_next d p i).symm

/-- A run of two or more cells that begins at `p` with the formula `f`: the others have it shifted. -/
structure Group.Dragged (s : Sheet) (g : Group) (p : Position) (f : String) : Prop where
  cells : g.cells = stretch g.direction p g.cells.length
  long : 2 ≤ g.cells.length
  first : (s.cell p).formula? = some f
  copies : ∀ i, 0 < i → i < g.cells.length → ∃ f', shift g.direction f i = .ok f' ∧
    (s.cell (walk g.direction p i)).formula? = some f'
  pattern : g.pattern = patternOf g.direction f

variable {s s' : Sheet} {d : Direction} {f u f' t : String} {p : Position} {run : List Position} {n : Nat}
  {g : Group} {groups : List Group} {a a' : Analysis} {r : List Char} {w : Word}

theorem Direction.mem_stretch {q : Position} : q ∈ d.stretch p n ↔ ∃ k, k < n ∧ d.walk p k = q := by simp [stretch]

/-- No cell is in both runs, unless the first is a column and the second a row. -/
def Group.Crosses (g g' : Group) : Prop := g.cells.Disjoint g'.cells ∨ g.direction = .vertical ∧ g'.direction = .horizontal

theorem Group.Dragged.crosses {g' : Group} {p' : Position} (h : g.Dragged s p f)
    (h' : g'.Dragged s p' f') (hlt : compare p p' = .lt) (hout : p' ∉ g.cells) : g.Crosses g' := by
  refine or_iff_not_imp_right.2 fun hd q hq hq' => ?_
  rw [h.cells, mem_stretch] at hq hout
  rw [h'.cells, mem_stretch] at hq'
  obtain ⟨i, hi, rfl⟩ := hq
  obtain ⟨j, hj, hij⟩ := hq'
  -- the second run begins behind the first, so in line with it it would begin inside
  have hstart := not_and.1 (not_exists.1 hout (p'.row - p.row + (p'.col - p.col)))
  obtain ⟨row, col⟩ := p
  obtain ⟨row', col'⟩ := p'
  cases hg : g.direction <;> cases hg' : g'.direction <;>
    simp [hg, hg', walk, compare_eq, compareLex, compareOn, Ordering.then_eq_lt, Nat.compare_eq_lt] at * <;> omega

/-- The search goes on as long as cells have the shifted formula. -/
theorem copiesFrom_eq_ok {fuel : Nat} (h : copiesFrom s d f fuel n p = .ok run) : run = d.stretch p run.length ∧
      ∀ i, i < run.length → ∃ f', d.shift f (n + i) = .ok f' ∧ (s.cell (d.walk p i)).formula? = some f' := by
  induction fuel generalizing n p run with
  | zero =>
    cases h
    exact ⟨rfl, nofun⟩
  | succ fuel ih =>
    rw [copiesFrom] at h
    split at h
    · cases h
      exact ⟨rfl, nofun⟩
    · next f' hf' =>
      obtain ⟨shifted, hshift, h⟩ := of_bind h
      split at h
      · next heq =>
        obtain ⟨rest, hrest, hrun⟩ := of_bind h
        cases hrun
        obtain ⟨hcells, hcopies⟩ := ih hrest
        refine ⟨?_, fun i hi => ?_⟩
        · rw [length_cons, stretch_succ, ← hcells]
        · cases i with
          | zero => exact ⟨f', heq ▸ hshift, by rw [walk_zero, hf']⟩
          | succ i =>
            obtain ⟨f'', hshift', hf''⟩ := hcopies i (Nat.lt_of_succ_lt_succ hi)
            rw [Nat.add_assoc, Nat.add_comm 1] at hshift'
            exact ⟨f'', hshift', by rw [← walk_next, hf'']⟩
      · cases h
        exact ⟨rfl, nofun⟩

theorem runFrom_eq_ok (h : runFrom s d p f = .ok run) : run = d.stretch p run.length ∧ ∀ i, 0 < i → i < run.length →
      ∃ f', d.shift f i = .ok f' ∧ (s.cell (d.walk p i)).formula? = some f' := by
  obtain ⟨rest, hrest, hrun⟩ := of_bind h
  cases hrun
  obtain ⟨hcells, hcopies⟩ := copiesFrom_eq_ok hrest
  refine ⟨?_, fun i hpos hi => ?_⟩
  · rw [length_cons, stretch_succ, ← hcells]
  · obtain ⟨i, rfl⟩ := Nat.exists_eq_add_one.2 hpos
    obtain ⟨f', hshift, hf'⟩ := hcopies i (Nat.lt_of_succ_lt_succ hi)
    rw [Nat.add_comm] at hshift
    exact ⟨f', hshift, by rw [← walk_next, hf']⟩

namespace Analysis

theorem dragged_of_makeGroup (hf : (s.cell p).formula? = some f)
    (hrun : runFrom s d p f = .ok run) (h : a.makeGroup s d f run = .ok (a', some g)) : g.Dragged s p f := by
  rw [makeGroup] at h
  split at h
  · cases h
  · next hlong =>
    obtain ⟨isLarge, -, h⟩ := of_bind h
    cases h
    obtain ⟨hcells, hcopies⟩ := runFrom_eq_ok hrun
    exact ⟨hcells, Nat.le_of_not_lt hlong, hf, hcopies, rfl⟩

theorem better_cases (h v : Option Group) : better h v = h ∨ better h v = v := by
  unfold better
  split
  · split <;> simp
  · exact .inl rfl
  · exact .inr rfl

/-- Runs that at most cross, and begin before all cells still to be visited. -/
def Tidy (s : Sheet) (rest : List (Position × String)) (gs : List Group) : Prop :=
  gs.Pairwise Group.Crosses ∧ ∀ g ∈ gs, ∃ p f, g.Dragged s p f ∧ ∀ x ∈ rest, compare p x.1 = .lt

/-- A visit adds a run that begins at the visited cell, if this is in no group, or nothing. -/
theorem Tidy.visit {found found' : Found} {rest : List (Position × String)} (hf : (s.cell p).formula? = some f)
    (hrest : ∀ x ∈ rest, compare p x.1 = .lt) (hfound : Tidy s ((p, f) :: rest) found.groups)
    (h : visit s found p f = .ok found') : Tidy s rest found'.groups := by
  obtain ⟨hcross, hruns⟩ := hfound
  have hold : ∀ g ∈ found.groups, ∃ p f, g.Dragged s p f ∧ ∀ x ∈ rest, compare p x.1 = .lt := fun g hg => by
    obtain ⟨p, f, hg, hlt⟩ := hruns g hg
    exact ⟨p, f, hg, (forall_mem_cons.1 hlt).2⟩
  rw [Analysis.visit] at h
  split at h
  · cases h
    exact ⟨hcross, hold⟩
  · next hout =>
    obtain ⟨hRun, ⟨a₁, hGroup⟩, hhRun, hh, h⟩ := of_bind₂ h
    obtain ⟨vRun, ⟨a₂, vGroup⟩, hvRun, hv, h⟩ := of_bind₂ h
    cases h
    have hnew : ∀ g ∈ (better hGroup vGroup).toList, g.Dragged s p f := fun g hg => by
      obtain hb | hb := better_cases hGroup vGroup <;> rw [hb, Option.mem_toList] at hg <;> cases hg
      · exact dragged_of_makeGroup hf hhRun hh
      · exact dragged_of_makeGroup hf hvRun hv
    refine ⟨pairwise_append.2 ⟨hcross, by cases better hGroup vGroup <;> simp, fun g hg g' hg' => ?_⟩,
      forall_mem_append.2 ⟨hold, fun g hg => ⟨p, f, hnew g hg, hrest⟩⟩⟩
    obtain ⟨q, e, hq, hlt⟩ := hruns g hg
    exact hq.crosses (hnew g' hg') (hlt _ mem_cons_self) fun hp => hout (by simpa using ⟨g, hg, hp⟩)

theorem Tidy.foldlM {l : List (Position × String)} {found found' : Found} (hl : l.Pairwise fun x y => compare x.1 y.1 = .lt)
    (hformulas : ∀ x ∈ l, (s.cell x.1).formula? = some x.2) (hfound : Tidy s l found.groups)
    (h : l.foldlM (fun b x => Analysis.visit s b x.1 x.2) found = .ok found') : Tidy s [] found'.groups := by
  induction h using foldlM_induction with
  | nil => exact hfound
  | cons hstep _ ih =>
    obtain ⟨hrest, hl⟩ := pairwise_cons.1 hl
    obtain ⟨hf, hformulas⟩ := forall_mem_cons.1 hformulas
    exact ih hl hformulas (hfound.visit hf hrest hstep)

theorem tidy_sheet (h : a.sheet s = .ok (a', s', groups)) : Tidy s [] groups := by
  obtain ⟨found, hfound, h⟩ := of_bind h
  cases h
  refine Tidy.foldlM (pairwise_filterMap.2 ?_) (fun x hx => ?_) ⟨.nil, by simp⟩ hfound
  · refine (Std.TreeMap.ordered_keys_toList (t := s.cells)).imp fun {x y} hxy u hu v hv => ?_
    obtain ⟨_, -, rfl⟩ := Option.map_eq_some_iff.1 hu
    obtain ⟨_, -, rfl⟩ := Option.map_eq_some_iff.1 hv
    exact hxy
  · obtain ⟨⟨p, c⟩, hpc, hx⟩ := mem_filterMap.1 hx
    obtain ⟨f, hf, rfl⟩ := Option.map_eq_some_iff.1 hx
    rw [Sheet.cell_of_mem_entries hpc, hf]

theorem dragged_of_sheet (h : a.sheet s = .ok (a', s', groups)) (hg : g ∈ groups) : ∃ p f, g.Dragged s p f := by
  obtain ⟨p, f, hdragged, -⟩ := (tidy_sheet h).2 g hg
  exact ⟨p, f, hdragged⟩

/-- Two groups of a sheet share cells only where a row crosses a column that was found before it. -/
theorem groups_pairwise_cross (h : a.sheet s = .ok (a', s', groups)) : groups.Pairwise Group.Crosses := (tidy_sheet h).1

end Analysis

/-- A column and a row below its first cell. -/
def crossing : Sheet := ((({ name := "S" } : Sheet).insert ⟨1, 3⟩ { value := .text "=1" }).insert ⟨2, 2⟩
  { value := .text "=2" }).insert ⟨2, 3⟩ { value := .text "=2" }

def crossed : List Group := [⟨1, .vertical, [⟨1, 3⟩, ⟨2, 3⟩], "=\x7brow\x7d", "S", false⟩,
  ⟨2, .horizontal, [⟨2, 2⟩, ⟨2, 3⟩], "=2", "S", false⟩]

theorem sheet_crossing : ∃ a' s', ({} : Analysis).sheet crossing = .ok (a', s', crossed) := ⟨_, _, rfl⟩

theorem groups_crossing : crossed.Pairwise Group.Crosses ∧ ∀ g ∈ crossed, ⟨2, 3⟩ ∈ g.cells := by
  obtain ⟨a', s', h⟩ := sheet_crossing
  exact ⟨Analysis.groups_pairwise_cross h, by decide⟩

/-! Marks for lines -/

open Text Text.Pattern

namespace Direction

/-- What a dragged formula mentions of the lines across the direction. -/
def mention : Direction → Pattern
  | .horizontal => columnMention
  | .vertical => rowMention

def mark : Direction → String
  | .horizontal => columnMark
  | .vertical => rowMark

def label : Direction → Position → String
  | .horizontal, p => p.colName
  | .vertical, p => ofNat p.row

def isLabelChar : Direction → Char → Bool
  | .horizontal => isAsciiUpper
  | .vertical => isDecimal

theorem takesWords (d : Direction) : d.mention.TakesWords d.isLabelChar := by
  cases d with
  | horizontal => exact takesWords_before fun c hc => isAsciiUpper_eq_false_of_decimal hc
  | vertical => exact takesWords_marked isDecimal

theorem isMark_mark (d : Direction) : IsMark d.mark.toList ∧ '$' ∉ d.mark.toList ∧ '\'' ∉ d.mark.toList ∧
      '=' ∉ d.mark.toList ∧ (∀ c ∈ d.mark.toList, d.isLabelChar c = false) ∧
      d.isLabelChar '$' = false ∧ d.isLabelChar '=' = false := by
  simp only [← all_iff_forall_prop]
  cases d <;> decide +kernel

theorem patternOf_eq : d.patternOf f = d.mention.replaceAll (fun m => m.group 1 ++ d.mark) f := by
  cases d <;> rfl

theorem isLabelChar_of_mem {c : Char} (h : c ∈ (d.label p).toList) : d.isLabelChar c = true := by
  cases d with
  | horizontal =>
    rw [label, colName, Column.name, toList_ofList] at h
    exact Column.capitals_letters _ c h
  | vertical =>
    rw [label, ofNat, toList_ofList] at h
    exact isDecimal_of_mem_natL h

def number : Direction → List Char → Nat
  | .horizontal => columnOf
  | .vertical => natOfDigits

def line : Direction → Position → Nat
  | .horizontal => col
  | .vertical => row

theorem number_label : d.number (d.label p).toList = d.line p := by
  cases d with
  | horizontal => rw [label, toList_colName, number, columnOf_letters, line]
  | vertical => rw [label, ofNat, toList_ofList, number, natOfDigits_natL, line]

theorem line_walk : d.line (d.walk p n) = d.line p + n := by cases d <;> rfl

theorem label_walk_inj {i j : Nat} (h : d.label (d.walk p i) = d.label (d.walk p j)) : i = j := by
  have hline := congrArg (fun l => d.number l.toList) h
  simp only [number_label, line_walk] at hline
  omega

/-! Moving labels -/

theorem ofList_dollars_eq_iff (b : Bool) : ofList (dollars b) = "$" ↔ b = true := by cases b <;> decide

def labelFrom : Direction → List Char → Nat → Outcome String
  | .horizontal, cs, n => do columnName ((← columnNumber (ofList cs)) + n)
  | .vertical, cs, n => .ok (ofInt (natOfDigits cs + n))

def moved (d : Direction) (n : Nat) (w : Word) : Outcome String :=
  if w.fixed then .ok (ofList w.text) else labelFrom d w.chars n

theorem shift_eq_fill {x : Strewn} (hx : d.mention.Cuts d.isLabelChar f x)
    (h : d.shift f n = .ok f') : ∃ new : Word → String, (∀ w ∈ x.words, d.moved n w = .ok (new w)) ∧
        f' = ofList (x.fill fun w => (new w).toList) := by
  cases d with
  | horizontal =>
    refine hx.replaceAllM (fun m w hreads => ?_) h
    simp only [moved, labelFrom, hreads.whole, hreads.mark, hreads.word, ofList_dollars_eq_iff]
    rfl
  | vertical =>
    cases h
    refine ⟨fun w => if w.fixed then ofList w.text else ofInt (natOfDigits w.chars + n),
      fun w _ => ?_, hx.replaceAll _ _ fun m w hreads => ?_⟩
    · cases hfixed : w.fixed <;> simp only [moved, hfixed] <;> rfl
    · simp only [hreads.whole, hreads.mark, hreads.word, ofList_dollars_eq_iff, toList_ofList]

theorem labelFrom_eq_ok {cs : List Char} (h : d.labelFrom cs n = .ok u) :
    u = d.label ⟨d.number cs + n, d.number cs + n⟩ := by
  cases d with
  | horizontal =>
    obtain ⟨c, hc, h⟩ := of_bind h
    rw [columnNumber, toList_ofList] at hc
    rw [columnName] at h
    split at hc
    · cases hc
      split at h <;> cases h
      rfl
    · cases hc
  | vertical =>
    cases h
    rfl

/-- What stands for a word some steps away: without a dollar sign, the label so many lines on. -/
def wordAt (d : Direction) (n : Nat) (w : Word) : List Char :=
  if w.fixed || n = 0 then w.text else (d.label ⟨d.number w.chars + n, d.number w.chars + n⟩).toList

theorem toList_moved (hn : n ≠ 0) (h : d.moved n w = .ok u) : u.toList = d.wordAt n w := by
  rw [moved] at h
  rw [wordAt]
  cases hfixed : w.fixed with
  | true =>
    rw [hfixed, if_pos rfl] at h
    cases h
    exact toList_ofList
  | false =>
    rw [hfixed, if_neg Bool.false_ne_true] at h
    rw [labelFrom_eq_ok h, if_neg (by simpa using hn)]

theorem wordAt_label (hn : n ≠ 0) (hw : w.chars = (d.label p).toList) :
    d.wordAt n w = dollars w.fixed ++ if w.fixed then w.chars else (d.label (d.walk p n)).toList := by
  cases hfixed : w.fixed with
  | true => rw [wordAt, Word.text, hfixed]; rfl
  | false =>
    rw [wordAt, hw, number_label, hfixed, if_neg (by simpa using hn)]
    cases d <;> rfl

end Direction

/-- The formulas of a group are one text with words strewn over it. They differ in the words without a dollar
sign alone, and these spell lines that are as far apart as the cells. -/
theorem Analysis.formulas_of_group (h : a.sheet s = .ok (a', s', groups)) (hg : g ∈ groups) :
    ∃ p f x, (s.cell p).formula? = some f ∧
      g.direction.mention.Cuts g.direction.isLabelChar f x ∧ g.cells = g.direction.stretch p g.cells.length ∧
      ∀ i < g.cells.length, (s.cell (g.direction.walk p i)).formula? =
        some (ofList (x.fill (g.direction.wordAt i))) := by
  obtain ⟨p, f, hdragged⟩ := dragged_of_sheet h hg
  obtain ⟨x, hx⟩ := exists_strewn (takesWords g.direction) f
  refine ⟨p, f, x, hdragged.first, hx, hdragged.cells, fun i hi => ?_⟩
  cases i with
  | zero =>
    rw [walk_zero, hdragged.first, hx.text, Strewn.text, Strewn.fill_congr fun w _ => ?_]
    simp [wordAt]
  | succ i =>
    obtain ⟨f', hshift, hf'⟩ := hdragged.copies (i + 1) i.succ_pos hi
    obtain ⟨new, hnew, rfl⟩ := shift_eq_fill hx hshift
    rw [hf', Strewn.fill_congr fun w hw => toList_moved i.succ_ne_zero (hnew w hw)]

/-- Numbers that count down a column are taken for rows. -/
theorem formulas_crossing : ∃ x : Strewn, some "=1" = some (ofList (x.fill (wordAt .vertical 0))) ∧
    some "=2" = some (ofList (x.fill (wordAt .vertical 1))) := by
  obtain ⟨a', s', h⟩ := sheet_crossing
  obtain ⟨p, f, x, -, -, hcells, hall⟩ := Analysis.formulas_of_group h mem_cons_self
  obtain rfl : ⟨1, 3⟩ = p := (cons.inj hcells).1.trans (walk_zero _ p)
  exact ⟨x, hall 0 (by decide), hall 1 (by decide)⟩

/-! What comes back -/

/-- The formula that a pattern gives for the line of a position. -/
def Direction.refill (d : Direction) (q : Position) (pattern : String) : String :=
  if contains (mark d) pattern then
    stripCharsLeft "'" (replace (mark d) (label d q) pattern)
  else pattern

/-- All lines that the formula mentions are the line of the position, without a dollar sign, and
there is one; the mark does not occur in it. -/
structure Direction.Carries (d : Direction) (p : Position) (f : String) : Prop where
  mentions : (mention d).all f ≠ []
  own : ∀ m ∈ (mention d).all f, m.group 1 = "" ∧ m.group 2 = label d p
  unmarked : contains (mark d) f = false

theorem contains_shown : contains d.mark (shown t) = contains d.mark t := by
  unfold shown
  split
  · next h => rw [h]
  · rw [contains, contains, toList_append]
    cases d <;> exact Option.isSome_map

theorem contains_eq_false_iff {m : String} : contains m t = false ↔ cutL? m.toList t.toList = none := by
  rw [contains, Option.isSome_eq_false_iff, Option.isNone_iff_eq_none]

namespace Direction

variable {x : Strewn} {r : List Char} (hx : d.mention.Cuts d.isLabelChar f x)

include hx

theorem patternOf_eq_fill : d.patternOf f = ofList (x.fill fun w => dollars w.fixed ++ d.mark.toList) := by
  rw [patternOf_eq]
  refine hx.replaceAll _ _ fun m w hreads => ?_
  rw [hreads.mark, toList_append, toList_ofList]

theorem contains_patternOf (hw : x.words ≠ []) : contains d.mark (d.patternOf f) = true := by
  obtain ⟨w, ws, hws⟩ := exists_cons_of_ne_nil hw
  obtain ⟨hmark, -⟩ := isMark_mark d
  refine Bool.eq_true_of_not_eq_false fun hc => ?_
  rw [contains_eq_false_iff, cutL?_eq_none_iff hmark.ne_nil, patternOf_eq_fill hx, toList_ofList] at hc
  obtain ⟨h, _ | ⟨q, tail⟩⟩ := x
  · cases hws
  · refine hc ⟨h ++ dollars q.1.fixed, Strewn.fill (fun w => dollars w.fixed ++ (mark d).toList) ⟨q.2, tail⟩, ?_⟩
    rw [Strewn.fill_cons]
    simp only [append_assoc]

theorem carries_iff : d.Carries p f ↔ x.words ≠ [] ∧
      (∀ w ∈ x.words, w.chars = (d.label p).toList) ∧ contains d.mark f = false ∧ ∀ w ∈ x.words, w.fixed = false := by
  have hnil : (mention d).all f = [] ↔ x.words = [] := by
    rw [← length_eq_zero_iff, hx.reads.length_eq, length_eq_zero_iff]
  have hword : ∀ m w, Match.Reads m w → (m.group 1 = "" ∧ m.group 2 = label d p ↔
      w.fixed = false ∧ w.chars = (label d p).toList) := by
    intro m w hreads
    have hchars : ofList w.chars = label d p ↔ w.chars = (label d p).toList :=
      ⟨fun h => by rw [← h, toList_ofList], fun h => by rw [h, String.ofList_toList]⟩
    rw [hreads.mark, hreads.word, hchars]
    cases w.fixed <;> simp [dollars]
  constructor
  · rintro ⟨hmentions, hown, hc⟩
    have hall : ∀ w ∈ x.words, w.fixed = false ∧ w.chars = (label d p).toList := by
      intro w hw
      obtain ⟨m, hm, hreads⟩ := exists_of_mem_right hx.reads hw
      exact (hword m w hreads).1 (hown m hm)
    exact ⟨mt hnil.2 hmentions, fun w hw => (hall w hw).2, hc, fun w hw => (hall w hw).1⟩
  · rintro ⟨hw, hown, hc, hfree⟩
    refine ⟨mt hnil.1 hw, fun m hm => ?_, hc⟩
    obtain ⟨w, hw, hreads⟩ := exists_of_mem_left hx.reads hm
    exact (hword m w hreads).2 ⟨hfree w hw, hown w hw⟩

variable (hf : f.toList = '=' :: r)

include hf

theorem head_eq : ∃ r', x.head = '=' :: r' := by
  obtain ⟨-, -, -, -, -, -, heq⟩ := isMark_mark d
  have htext : x.text = '=' :: r := by rw [← hf, hx.text, toList_ofList]
  obtain ⟨_ | ⟨c, h⟩, tail⟩ := x
  · cases tail with
    | nil => cases htext
    | cons q tail =>
      obtain ⟨⟨fixed, chars⟩, u⟩ := q
      obtain ⟨hne, hall, -⟩ := hx.apart
      obtain ⟨c, cs, rfl⟩ := exists_cons_of_ne_nil hne
      cases fixed with
      | true => cases htext
      | false =>
        cases htext
        rw [hall '=' mem_cons_self] at heq
        cases heq
  · cases htext
    exact ⟨h, rfl⟩

theorem exists_shown_eq : ∃ v, (x.fill fun w => dollars w.fixed ++ d.mark.toList) = '=' :: v ∧
        (shown (d.patternOf f)).toList = '\'' :: '=' :: v := by
  obtain ⟨h, hhead⟩ := head_eq hx hf
  obtain ⟨v, hv⟩ : ∃ v, (x.fill fun w => dollars w.fixed ++ (mark d).toList) = '=' :: v := by
    rw [Strewn.fill, hhead]
    exact ⟨_, rfl⟩
  refine ⟨v, hv, ?_⟩
  rw [patternOf_eq_fill hx, hv, shown, if_neg (by simp), toList_append, toList_ofList, toList_ofList, singleton_append]

theorem refill_shown (q : Position)
    (hc : contains d.mark (d.patternOf f) = true) : d.refill q (shown (d.patternOf f)) =
      ofList (replaceL d.mark.toList (d.label q).toList (x.fill fun w => dollars w.fixed ++ d.mark.toList)) := by
  obtain ⟨hmark, -, hquote, heq, -⟩ := isMark_mark d
  obtain ⟨v, hv, hshown⟩ := exists_shown_eq hx hf
  rw [refill, contains_shown, hc, if_pos rfl, stripCharsLeft, replace, hshown, hv,
    toList_ofList, toList_ofList, replaceL_cons hmark.ne_nil hquote,
    replaceL_cons hmark.ne_nil heq, dropWhile_cons_of_pos (by decide),
    dropWhile_cons_of_neg (by decide)]

/-- The first formula comes back exactly if its words are labels of its own line, and there is one. -/
theorem refill_first_iff :
    d.refill p (shown (d.patternOf f)) = f ↔ x.words ≠ [] ∧ (∀ w ∈ x.words, w.chars = (d.label p).toList) ∧
        contains d.mark f = false := by
  obtain ⟨hmark, hdollar, -, -, hclass, hdollar', -⟩ := isMark_mark d
  have hback := Strewn.replaceL_marked_iff hmark hdollar hdollar' hclass hx.apart
    fun c hc => isLabelChar_of_mem (d := d) (p := p) hc
  have htext : f.toList = x.text := by rw [hx.text, toList_ofList]
  rw [contains_eq_false_iff, htext]
  cases hc : contains (mark d) (patternOf d f) with
  | true =>
    have hwords : cutL? (mark d).toList x.text = none → x.words ≠ [] := by
      -- without words the pattern is the formula
      intro hnone hnil
      have hpattern : patternOf d f = ofList x.text := by
        rw [patternOf_eq_fill hx, Strewn.text, Strewn.fill_congr (by simp [hnil])]
      rw [hpattern, contains, toList_ofList, hnone] at hc
      cases hc
    have hinj : ∀ l : List Char, ofList l = f ↔ l = x.text := fun l => by rw [hx.text, String.ofList_inj]
    rw [refill_shown hx hf p hc, hinj, hback]
    exact ⟨fun h => ⟨hwords h.1, h.2, h.1⟩, fun h => ⟨h.2.2, h.2.1⟩⟩
  | false =>
    refine ⟨fun h => ?_, fun h => ?_⟩
    · obtain ⟨v, -, hshown⟩ := exists_shown_eq hx hf
      rw [refill, contains_shown, hc, if_neg Bool.false_ne_true] at h
      rw [h, hf] at hshown
      cases hshown
    · rw [contains_patternOf hx h.1] at hc
      cases hc

/-- A copy comes back exactly if no word has a dollar sign, where the words of the first formula are
labels of its own line. -/
theorem refill_copy_iff (hw : x.words ≠ [])
    (hown : ∀ w ∈ x.words, w.chars = (d.label p).toList) (hc : contains d.mark f = false) {i : Nat} (hi : 0 < i)
    (hshift : d.shift f i = .ok f') :
    d.refill (d.walk p i) (shown (d.patternOf f)) = f' ↔ ∀ w ∈ x.words, w.fixed = false := by
  obtain ⟨hmark, hdollar, -, -, hclass, hdollar', -⟩ := isMark_mark d
  obtain ⟨new, hnew, rfl⟩ := shift_eq_fill hx hshift
  have hfill : (x.fill fun w => (new w).toList) = x.fill fun w => dollars w.fixed ++
      if w.fixed then w.chars else (label d (walk d p i)).toList :=
    Strewn.fill_congr fun w hw => by
      rw [toList_moved (Nat.ne_of_gt hi) (hnew w hw), wordAt_label (Nat.ne_of_gt hi) (hown w hw)]
  have hnone : cutL? (mark d).toList x.text = none := by
    rw [contains_eq_false_iff, hx.text, toList_ofList] at hc
    exact hc
  rw [refill_shown hx hf _ (contains_patternOf hx hw), String.ofList_inj, hfill,
    Strewn.replaceL_marked_of_none hmark hdollar hclass hx.apart hnone]
  constructor
  · intro h w hw
    have hsame := hx.apart.eq_of_fill_eq hdollar' (fun w _ c hc => isLabelChar_of_mem hc) (fun w hw c hc => ?_) h w hw
    · cases hfixed : w.fixed with
      | false => rfl
      | true =>
        rw [hfixed, if_pos rfl, hown w hw] at hsame
        have hlabel := String.toList_injective hsame
        have := label_walk_inj (j := 0) (hlabel.trans (by rw [walk_zero]))
        omega
    · split at hc
      · exact (hx.apart.of_mem hw).2 c hc
      · exact isLabelChar_of_mem hc
  · intro h
    exact Strewn.fill_congr fun w hw => by rw [h w hw, if_neg Bool.false_ne_true]

end Direction

theorem Direction.patternOf_ne_empty (hf : f.toList = '=' :: r) : d.patternOf f ≠ "" := by
  obtain ⟨x, hx⟩ := exists_strewn (takesWords d) f
  obtain ⟨v, hv, -⟩ := exists_shown_eq hx hf
  rw [patternOf_eq_fill hx, hv]
  simp

/-- Every formula of a run comes back exactly if the first carries its line. -/
theorem Direction.forall_refill_iff (hf : f.toList = '=' :: r) {fs : Nat → String} (hn : 2 ≤ n)
    (hfirst : fs 0 = f) (hcopies : ∀ i, 0 < i → i < n → d.shift f i = .ok (fs i)) :
    (∀ i, i < n → d.refill (d.walk p i) (shown (d.patternOf f)) = fs i) ↔ d.Carries p f := by
  obtain ⟨x, hx⟩ := exists_strewn (takesWords d) f
  rw [carries_iff hx]
  have hstart := refill_first_iff (p := p) hx hf
  constructor
  · intro h
    have hzero := h 0 (by omega)
    rw [walk_zero, hfirst, hstart] at hzero
    obtain ⟨hw, hown, hc⟩ := hzero
    exact ⟨hw, hown, hc, (refill_copy_iff hx hf hw hown hc Nat.zero_lt_one (hcopies 1 Nat.zero_lt_one hn)).1 (h 1 hn)⟩
  · rintro ⟨hw, hown, hc, hfree⟩ i hi
    cases i with
    | zero => rw [walk_zero, hfirst, hstart]; exact ⟨hw, hown, hc⟩
    | succ i => exact (refill_copy_iff hx hf hw hown hc i.succ_pos (hcopies _ i.succ_pos hi)).2 hfree

end Sheetwork.Layers
