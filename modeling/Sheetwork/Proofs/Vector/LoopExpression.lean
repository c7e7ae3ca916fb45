import Sheetwork.Proofs.Formula.Shift
import Sheetwork.Proofs.Vector.Partition
import Sheetwork.Proofs.Vector.Slots
/-
  Vectors: the expression in a group's loop against the expressions of its cells. Both are slots of converted pieces;
  the cells of a group are dragged copies, so the pieces differ in their references only, and each reference is the
  first cell's one, moved (`forall₂_pieces`). In the loop a coordinate follows the loop variable unless it is marked
  as fixed, and the mark is looked up by what the reference refers to: the first mention of a target decides for all
  of them. Main statement: `loop_reads_as_cells_iff`.
-/

open List
open String (ofList)

namespace Sheetwork.Formula

/-- Pieces with references in the places of the bare marks. -/
def fill : List Reference → List Piece → List Piece
  | r :: rs, p :: ps => if p = .text ['@'] then .ref r :: fill rs ps else p :: fill (r :: rs) ps
  | _, ps => ps

/-- The conversion of a formula that has a bare mark for each of its references. -/
def template (cx : Context) (formula : String) : Conversion := expression cx (Text.joinL ['@'] (gaps formula cx.sheet))

/-- What the conversion takes for references of cells and ranges are the mentions, each read as one
piece of its own. -/
structure ReadAlike (cx : Context) (formula : String) : Prop where
  pieces : (convert cx formula).pieces =
    fill ((mentions formula cx.sheet).map Mention.reference) (template cx formula).pieces
  bare : ∀ r, .ref r ∈ (template cx formula).pieces → ∃ t c, r = .table t c

theorem forall₂_fill {R : Reference → Reference → Prop} {S : Piece → Piece → Prop}
    (hput : ∀ r r', R r r' → S (.ref r) (.ref r')) {rs rs' : List Reference} (h : Forall₂ R rs rs') {ps : List Piece}
    (hsame : ∀ p ∈ ps, S p p) : Forall₂ S (fill rs ps) (fill rs' ps) := by
  induction ps generalizing rs rs' with
  | nil => cases h <;> exact .nil
  | cons p ps ih =>
    obtain ⟨hp, hps⟩ := forall_mem_cons.1 hsame
    cases h with
    | nil => exact forall₂_same.2 hsame
    | cons hr h =>
      rw [fill, fill]
      split
      · exact .cons (hput _ _ hr) (ih h hps)
      · exact .cons hp (ih (.cons hr h) hps)

end Sheetwork.Formula

namespace Sheetwork.Vector

open Sheetwork.Text (quoted)
open Sheetwork.Formula (Piece Reference Mention mentions)

variable {base place cols rows : Int} {a b : Formula.Corner} {d : Direction} {first c c : FormulaCell}
  {tables : List Table} {g : Group} {rest : List FormulaCell} {expr : String} {p : Placing}

/-! Coordinates at a cell of the loop -/

theorem row_ofMark_eq_iff {b f : Bool} {n n' : Nat} (h : (n' : Int) = n + if f then 0 else place - base) :
    (LoopCoord.ofMark b n (n - base)).row place = n' ↔ place = base ∨ b = f := by
  cases b <;> cases f <;> simp [LoopCoord.ofMark, LoopCoord.row] at h ⊢ <;> omega

theorem col_ofMark_eq_iff {b f : Bool} {cs ds : List Char} (hc : Column.Capitals cs) (hd : Column.Capitals ds)
    (hle : base ≤ place) (h : Column.spelled ds = Column.spelled cs + if f then 0 else place - base) :
    (LoopCoord.ofMark b (ofList cs) (Column.number (ofList cs) - base)).col place =
      ofList ds ↔ place = base ∨ b = f := by
  have same : ofList cs = ofList ds ↔ Column.spelled cs = Column.spelled ds :=
    ⟨fun e => congrArg Column.spelled (String.ofList_injective e),
      fun e => congrArg ofList (Column.eq_of_spelled_eq hc hd e)⟩
  have moved : Column.name (place + (Column.spelled cs - base)) = ofList ds ↔
      place + (Column.spelled cs - base) = Column.spelled ds := by
    constructor
    · intro e
      have hl := congrArg Column.spelled (String.ofList_injective e)
      rw [Column.spelled_letters] at hl
      omega
    · intro e
      rw [e, Column.name_spelled hd]
  rw [Column.number_capitals hc]
  cases b <;> cases f <;> simp only [LoopCoord.ofMark, LoopCoord.col, if_true, if_false,
    Bool.false_eq_true, same, moved, reduceCtorEq, or_false, or_true, iff_true] at h ⊢ <;> omega

/-- The marks that are found for a reference are its own, in the direction of the loop. -/
def MarksKept (d : Direction) (ms : List Mention) : Reference → Prop
  | .cell s a =>
    let m := findCell? ms ⟨s, a.column, a.rowNumber⟩
    match d with
    | .vertical => rowFixed m = a.rowFixed
    | .horizontal => colFixed m = a.colFixed
  | .range s a e =>
    let m := findRange? ms ⟨s, a.column, a.rowNumber, e.column, e.rowNumber⟩
    match d with
    | .vertical => rowFixed m = a.rowFixed ∧ endRowFixed m = e.rowFixed
    | .horizontal => colFixed m = a.colFixed ∧ endColFixed m = e.colFixed
  | .table _ _ => True

/-- The cells stand in one line of the direction, `c` not before `first`. -/
structure InLine (d : Direction) (first c : FormulaCell) : Prop where
  col : d = .vertical → c.col = first.col
  row : d = .horizontal → c.row = first.row
  le : d.place first ≤ d.place c

theorem eq_column (h : a.Dragged cols rows b) (ha : Column.Capitals a.col) (hb : Column.Capitals b.col) (hc : cols = 0) :
    b.column = a.column := by
  have hs := h.col
  rw [hc, ite_self, Int.add_zero] at hs
  rw [Formula.Corner.column, Formula.Corner.column, Column.eq_of_spelled_eq hb ha hs]

theorem eq_rowNumber (h : a.Dragged cols rows b) (hr : rows = 0) : (a.rowNumber : Int) = b.rowNumber := by
  have hs := h.row
  rw [hr, ite_self, Int.add_zero] at hs
  exact hs.symm

/-- At a cell of the loop the slot of a reference is the slot of the moved reference exactly if the
loop has not moved or the marks are kept. -/
theorem instantiate_slot_eq_iff (hline : InLine d first c) {ms : List Mention} {r r' : Reference}
    (hdrag : r.Dragged (c.colNumber - first.colNumber) (c.row - first.row) r') (hr : r.Spelled) (hr' : r'.Spelled) :
    ((variableOf r).slot (loopPlacing ms first d) tables).instantiate (d.place c) =
        ((variableOf r').slot ownPlacing tables).instantiate (d.place c) ↔
      d.place c = d.place first ∨ MarksKept d ms r := by
  have hcols : d = .vertical → c.colNumber - first.colNumber = 0 := fun hd => by
    rw [FormulaCell.colNumber, FormulaCell.colNumber, hline.col hd, Int.sub_self]
  have hrows : d = .horizontal → (c.row : Int) - first.row = 0 := fun hd => by rw [hline.row hd, Int.sub_self]
  cases r with
  | table t col => exact hdrag.elim
  | cell s a =>
    cases r' with
    | cell s' b =>
      obtain ⟨rfl, hab⟩ := hdrag
      simp only [variableOf, Variable.slot, loopPlacing, ownPlacing, Slot.instantiate]
      cases d with
      | vertical =>
        simp only [LoopCoord.col, eq_column hab hr hr' (hcols rfl), Slot.cell.injEq, true_and]
        exact row_ofMark_eq_iff hab.row
      | horizontal =>
        simp only [LoopCoord.row, eq_rowNumber hab (hrows rfl), Slot.cell.injEq, true_and, and_true]
        exact col_ofMark_eq_iff hr hr' hline.le hab.col
    | _ => exact hdrag.elim
  | range s a e =>
    cases r' with
    | range s' b f =>
      obtain ⟨rfl, hab, hef⟩ := hdrag
      simp only [variableOf, Variable.slot, loopPlacing, ownPlacing, Slot.instantiate]
      cases d with
      | vertical =>
        simp only [LoopCoord.col, eq_column hab hr.1 hr'.1 (hcols rfl), eq_column hef hr.2 hr'.2 (hcols rfl),
          Slot.range.injEq, true_and]
        exact (and_congr (row_ofMark_eq_iff hab.row) (row_ofMark_eq_iff hef.row)).trans or_and_left.symm
      | horizontal =>
        simp only [LoopCoord.row, eq_rowNumber hab (hrows rfl), eq_rowNumber hef (hrows rfl), Slot.range.injEq,
          true_and, and_true]
        exact (and_congr (col_ofMark_eq_iff hr.1 hr'.1 hline.le hab.col)
          (col_ofMark_eq_iff hr.2 hr'.2 hline.le hef.col)).trans or_and_left.symm
    | _ => exact hdrag.elim

/-! Expressions and code -/

def piecesOf (tables : List Table) (c : FormulaCell) : List Piece := (c.conversion (tables.map (·.name))).pieces

def ownSlots (tables : List Table) (c : FormulaCell) : List LoopSlot :=
  (piecesOf tables c).map (slotOf ownPlacing tables)

def loopSlots (tables : List Table) (d : Direction) (first : FormulaCell) : List LoopSlot :=
  (piecesOf tables first).map (slotOf (firstPlacing d first) tables)

/-- When the names in a cell's expression are replaced, each is found only where it is meant. -/
def NamesStand (tables : List Table) (p : Placing) (c : FormulaCell) : Prop :=
  Text.Resolves (storeNames p tables (References.empty.addAll ((piecesOf tables c).filterMap Piece.reference?)))
    ((piecesOf tables c).map partOf)

/-- The text of a formula says what its references are: the conversion and the search for mentions
agree on them, they are in the formula's own workbook, and their names are not mistaken. -/
structure Legible (tables : List Table) (c : FormulaCell) : Prop where
  complete : (c.conversion (tables.map (·.name))).complete = true
  readAlike : Formula.ReadAlike ⟨c.sheet, tables.map (·.name)⟩ c.formula
  unmarked : ∀ g ∈ Formula.gaps c.formula c.sheet, '@' ∉ g
  ownWorkbook : ∀ m ∈ mentions c.formula c.sheet, m.file = none
  wellNamed : WellNamed ((piecesOf tables c).filterMap Piece.reference?)
  namesStand : NamesStand tables ownPlacing c

/-- The expression as code holds it: slots, without workbook names in brackets. -/
def expressionText (ss : List LoopSlot) : String := workbookMark.replaceAll (fun _ => "") (slotsText ss)

/-- Without other workbooks only marks that are left over vanish. -/
theorem resolveWorkbooks_eq {formula sheet : String} (h : ∀ m ∈ mentions formula sheet, m.file = none) :
    resolveWorkbooks expr formula sheet = .ok (workbookMark.replaceAll (fun _ => "") expr) := by
  rw [resolveWorkbooks, foldlM_fixed fun m hm => by rw [resolveWorkbook, h m hm]; rfl]
  rfl

theorem converted_eq (h : (c.conversion (tables.map (·.name))).complete = true) :
    converted tables c = .ok (ofList ((piecesOf tables c).flatMap Piece.render),
      References.empty.addAll ((piecesOf tables c).filterMap Piece.reference?)) := by
  rw [converted, if_pos h]
  rfl

theorem placedExpression_of_resolve (hcomplete : (c.conversion (tables.map (·.name))).complete = true)
    (hnamed : WellNamed ((piecesOf tables c).filterMap Piece.reference?)) (hstand : NamesStand tables p c)
    (hexpr : resolveWorkbooks (slotsText ((piecesOf tables c).map (slotOf p tables))) c.formula c.sheet = .ok expr) :
    placedExpression tables p c = .ok expr := by
  rw [placedExpression, converted_eq hcomplete, ← hexpr, ← storeExpression_eq hnamed hstand]
  rfl

theorem singleCode_eq (h : placedExpression tables ownPlacing c = .ok expr) :
    singleCode tables c = .ok (cellLines c expr) := by
  rw [singleCode, h]
  rfl

theorem groupCode_eq (hcells : g.cells = first :: rest)
    (h : placedExpression tables (firstPlacing g.direction first) first = .ok expr) :
    groupCode tables g = .ok (loopLines g first expr) := by
  rw [groupCode, hcells]
  show loopLines g first <$> _ = _
  rw [h]
  rfl

theorem Legible.placedExpression (h : Legible tables c) (hstand : NamesStand tables p c) :
    placedExpression tables p c = .ok (expressionText ((piecesOf tables c).map (slotOf p tables))) :=
  placedExpression_of_resolve h.complete h.wellNamed hstand (resolveWorkbooks_eq h.ownWorkbook)

/-! Dragged copies -/

/-- Converted copies of one formula differ in their cells and ranges only, which are moved. -/
theorem forall₂_pieces (hf : Legible tables first) (hc : Legible tables c) (hkey : first.patternKey = c.patternKey) :
    Forall₂ (fun p p' => (p = p' ∧ ∀ r, p = .ref r → ∃ t col, r = .table t col) ∨
        ∃ r r', r.Dragged (c.colNumber - first.colNumber) (c.row - first.row) r' ∧ r.Spelled ∧
          r'.Spelled ∧ p = .ref r ∧ p' = .ref r')
      (piecesOf tables first) (piecesOf tables c) := by
  have hsheet : c.sheet = first.sheet := (congrArg Prod.fst hkey).symm
  have hpattern : Formula.dragPattern first.formula first.sheet first.colNumber first.row =
      Formula.dragPattern c.formula first.sheet c.colNumber c.row := by
    have h := congrArg Prod.snd hkey
    rwa [FormulaCell.patternKey, FormulaCell.patternKey, hsheet] at h
  have hgaps : Formula.gaps c.formula first.sheet = Formula.gaps first.formula first.sheet :=
    (Formula.gaps_eq_of_dragPattern hf.unmarked (hsheet ▸ hc.unmarked) hpattern).symm
  have hread := hc.readAlike
  rw [hsheet] at hread
  have hc' : piecesOf tables c = Formula.fill ((mentions c.formula first.sheet).map
      Mention.reference) (Formula.template ⟨first.sheet, tables.map (·.name)⟩ first.formula).pieces := by
    rw [piecesOf, FormulaCell.conversion, hsheet, hread.pieces, Formula.template, Formula.template, hgaps]
  have hf' : piecesOf tables first = Formula.fill ((mentions first.formula first.sheet).map
      Mention.reference) (Formula.template ⟨first.sheet, tables.map (·.name)⟩ first.formula).pieces :=
    hf.readAlike.pieces
  have hmoved : Forall₂ (fun r r' => Reference.Dragged (c.colNumber - first.colNumber)
      (c.row - first.row) r r' ∧ r.Spelled ∧ r'.Spelled)
      ((mentions first.formula first.sheet).map Mention.reference)
      ((mentions c.formula first.sheet).map Mention.reference) := by
    obtain ⟨hlen, hzip⟩ := forall₂_iff_zip.1 (Formula.forall₂_dragged hpattern)
    refine forall₂_iff_zip.2 ⟨hlen, fun {r r'} hrr => ?_⟩
    obtain ⟨hr, hr'⟩ := of_mem_zip hrr
    obtain ⟨m, hm, rfl⟩ := mem_map.1 hr
    obtain ⟨n, hn, rfl⟩ := mem_map.1 hr'
    exact ⟨hzip hrr, Formula.spelled_of_mem_mentions hm, Formula.spelled_of_mem_mentions hn⟩
  rw [hf', hc']
  refine Formula.forall₂_fill (fun r r' h => ?_) hmoved fun p hp => ?_
  · exact .inr ⟨r, r', h.1, h.2.1, h.2.2, rfl, rfl⟩
  · exact .inl ⟨rfl, fun r hpr => hf.readAlike.bare r (hpr ▸ hp)⟩

/-- What is neither a cell nor a range does not depend on how coordinates are placed. -/
theorem slotOf_eq_of_table {p : Piece} (h : ∀ r, p = .ref r → ∃ t col, r = .table t col)
    (pl pl' : Placing) (tables : List Table) : slotOf pl tables p = slotOf pl' tables p := by
  cases p with
  | text s => rfl
  | silent r => rfl
  | ref r =>
    obtain ⟨t, col, rfl⟩ := h r rfl
    simp only [slotOf, variableOf, Variable.slot, Variable.read?]

theorem Group.IsRun.inLine (h : g.IsRun) (hcells : g.cells = first :: rest) (hc : c ∈ g.cells) :
    InLine g.direction first c := by
  have hfirst : first ∈ g.cells := by simp [hcells]
  refine ⟨fun hd => h.col hd c hc first hfirst, fun hd => h.row hd c hc first hfirst, ?_⟩
  have hasc := h.ascending
  rw [hcells] at hc hasc
  rcases mem_cons.1 hc with rfl | hc
  · exact Int.le_refl _
  · exact Int.le_of_lt ((pairwise_cons.1 hasc).1 c hc)

/-- At one cell of a group, loop and cell agree exactly if the loop has not moved or every reference
has the marks that are found for it. -/
theorem map_instantiate_eq_iff (hf : Legible tables first) (hc : Legible tables c)
    (hkey : first.patternKey = c.patternKey) (hline : InLine d first c) :
    (loopSlots tables d first).map (Slot.instantiate (d.place c)) =
        (ownSlots tables c).map (Slot.instantiate (d.place c)) ↔
      d.place c = d.place first ∨ ∀ r, .ref r ∈ piecesOf tables first →
        MarksKept d (mentions first.formula first.sheet) r := by
  have hpieces := forall₂_pieces hf hc hkey
  rw [loopSlots, ownSlots, map_map, map_map, ← forall₂_eq_eq_eq, forall₂_map_left_iff, forall₂_map_right_iff]
  constructor
  · intro heq
    refine or_iff_not_imp_left.2 fun hmoved r hr => ?_
    obtain ⟨i, hi, hri⟩ := getElem_of_mem hr
    have hi' : i < (piecesOf tables c).length := hpieces.length_eq ▸ hi
    have hslot := heq.get hi hi'
    rcases hpieces.get hi hi' with ⟨-, htable⟩ | ⟨s, s', hdrag, hs, hs', hp, hp'⟩
    · obtain ⟨t, col, rfl⟩ := htable r hri
      trivial
    · simp only [get_eq_getElem] at hslot hp hp'
      rw [Function.comp_apply, Function.comp_apply, hp, hp'] at hslot
      obtain rfl : s = r := Piece.ref.inj (hp.symm.trans hri)
      exact ((instantiate_slot_eq_iff hline hdrag hs hs').1 hslot).resolve_left hmoved
  · intro hkept
    obtain ⟨hlen, hzip⟩ := forall₂_iff_zip.1 hpieces
    refine forall₂_iff_zip.2 ⟨hlen, fun {p p'} hpp => ?_⟩
    rcases hzip hpp with ⟨rfl, htable⟩ | ⟨r, r', hdrag, hr, hr', rfl, rfl⟩
    · exact congrArg (Slot.instantiate (d.place c)) (slotOf_eq_of_table htable _ _ tables)
    · exact (instantiate_slot_eq_iff hline hdrag hr hr').2 (hkept.imp_right fun h => h r (of_mem_zip hpp).1)

/-- A group's code is the loop over its slots and a single cell's code is its own slots. At every
cell of the group the loop reads the same cells and ranges at the same positions between the same
texts as the cell does, exactly if each reference of the first cell has, in the direction of the
loop, the marks of the first mention of the same target. -/
theorem loop_reads_as_cells_iff (tables : List Table) {cells rest : List FormulaCell} {g : Group}
    {first : FormulaCell} (hg : g ∈ (group cells).1) (hcells : g.cells = first :: rest)
    (hlegible : ∀ c ∈ g.cells, Legible tables c)
    (hstand : NamesStand tables (firstPlacing g.direction first) first) :
    groupCode tables g = .ok (loopLines g first (expressionText (loopSlots tables g.direction first))) ∧
      (∀ c ∈ g.cells, singleCode tables c = .ok (cellLines c (expressionText (ownSlots tables c)))) ∧
      ((∀ c ∈ g.cells, (loopSlots tables g.direction first).map (Slot.instantiate (g.direction.place c)) =
            (ownSlots tables c).map (Slot.instantiate (g.direction.place c))) ↔
        ∀ r, .ref r ∈ piecesOf tables first → MarksKept g.direction (mentions first.formula first.sheet) r) := by
  have hrun := isRun_of_mem_group hg
  have hfirst : first ∈ g.cells := by simp [hcells]
  have agree : ∀ c ∈ g.cells, _ := fun c hc => map_instantiate_eq_iff (hlegible first hfirst)
    (hlegible c hc) (hrun.patternKey first hfirst c hc) (hrun.inLine hcells hc)
  refine ⟨groupCode_eq hcells ((hlegible first hfirst).placedExpression hstand),
    fun c hc => singleCode_eq ((hlegible c hc).placedExpression (hlegible c hc).namesStand), ?_,
    fun hkept c hc => (agree c hc).2 (.inr hkept)⟩
  intro heq
  -- the second cell of the group is one place further, so there the marks matter
  obtain ⟨second, rest', rfl⟩ : ∃ second rest', rest = second :: rest' := by
    have := hrun.two_le
    rw [hcells, length_cons] at this
    exact exists_cons_of_length_pos (by omega)
  have hsecond : second ∈ g.cells := by simp [hcells]
  have hstep : g.direction.place first + 1 = g.direction.place second := by
    have hchain := hrun.chain
    rw [hcells] at hchain
    exact (isChain_cons_cons.1 hchain).1
  exact ((agree second hsecond).1 (heq second hsecond)).resolve_left (by omega)

/-- Copies of a formula that names `A1` free and fixed. -/
def besideFixed : List FormulaCell := [⟨"S", "B", 1, "=A1+$A$1"⟩, ⟨"S", "B", 2, "=A2+$A$1"⟩]

theorem mentions_besideFixed (hc : c ∈ besideFixed) :
    mentions c.formula c.sheet = Formula.foundIn (Formula.body c.formula) c.sheet :=
  mergeSort_of_pairwise (by revert c; decide +kernel)

theorem gaps_besideFixed (hc : c ∈ besideFixed) : Formula.gaps c.formula c.sheet = [[], ['+'], []] := by
  rw [Formula.gaps, mentions_besideFixed hc]
  revert c
  decide +kernel

theorem readAlike_besideFixed (hc : c ∈ besideFixed) : Formula.ReadAlike ⟨c.sheet, []⟩ c.formula := by
  have bare : ∀ c ∈ besideFixed, (Formula.expression ⟨c.sheet, []⟩ (Text.joinL ['@'] [[], ['+'], []])).pieces =
      [.text ['@'], .text [' ', '+', ' '], .text ['@']] := by decide +kernel
  refine ⟨?_, ?_⟩
  · rw [Formula.template, mentions_besideFixed hc, gaps_besideFixed hc]
    revert c
    decide +kernel
  · rw [Formula.template, gaps_besideFixed hc, bare c hc]
    simp

theorem legible_besideFixed : ∀ c ∈ besideFixed, Legible [] c := by
  intro c hc
  have sorted : ∀ {xs : List (String × String)}, xs.Pairwise (fun a b => b.1.length ≤ a.1.length) →
      xs.mergeSort (fun a b => b.1.length ≤ a.1.length) = xs :=
    fun h => mergeSort_of_pairwise (h.imp decide_eq_true)
  refine ⟨?_, readAlike_besideFixed hc, by rw [gaps_besideFixed hc]; decide, ?_, ⟨?_, ?_⟩, ?_⟩
  · revert c
    decide +kernel
  · rw [mentions_besideFixed hc]
    revert c
    decide +kernel
  · revert c
    decide +kernel
  · revert c
    decide +kernel
  · rw [NamesStand, storeNames, storeNamesOf, storeNamesOf, storeNamesOf, sorted (by revert c; decide +kernel),
      sorted (by revert c; decide +kernel), sorted (by revert c; decide +kernel)]
    revert c
    decide +kernel

theorem isRun_besideFixed : Group.IsRun ⟨.vertical, besideFixed⟩ := by
  refine ⟨by decide, fun c hc d hd => ?_, fun _ => by decide, nofun, by decide⟩
  rw [FormulaCell.patternKey, FormulaCell.patternKey, Formula.dragPattern, Formula.dragPattern,
    mentions_besideFixed hc, mentions_besideFixed hd]
  revert c d
  decide +kernel

/-- The loop reads the cell of its own row where the second cell reads `A1`. -/
theorem loop_besideFixed : groupCode [] ⟨.vertical, besideFixed⟩ = .ok (loopLines ⟨.vertical, besideFixed⟩
        ⟨"S", "B", 1, "=A1+$A$1"⟩
        (expressionText (loopSlots [] .vertical ⟨"S", "B", 1, "=A1+$A$1"⟩))) ∧
      ¬ ∀ c ∈ besideFixed, (loopSlots [] .vertical ⟨"S", "B", 1, "=A1+$A$1"⟩).map (Slot.instantiate c.row) =
          (ownSlots [] c).map (Slot.instantiate c.row) := by
  have hstand : NamesStand [] (firstPlacing .vertical ⟨"S", "B", 1, "=A1+$A$1"⟩) ⟨"S", "B", 1, "=A1+$A$1"⟩ := by
    rw [NamesStand, firstPlacing, mentions_besideFixed mem_cons_self]
    decide +kernel
  obtain ⟨hcode, -, hiff⟩ := loop_reads_as_cells_iff [] (g := ⟨.vertical, besideFixed⟩)
    (by rw [group_eq_singleton isRun_besideFixed]; simp) rfl legible_besideFixed hstand
  refine ⟨hcode, fun hreads => ?_⟩
  have hmark := hiff.1 hreads (.cell "S" ⟨true, ['A'], true, ['1']⟩) (by decide +kernel)
  rw [mentions_besideFixed mem_cons_self] at hmark
  exact absurd hmark (by unfold MarksKept; decide +kernel)
end Sheetwork.Vector
