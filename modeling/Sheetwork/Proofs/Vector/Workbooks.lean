import Sheetwork.Proofs.Vector.LoopExpression
/-
  Vectors: reads of other workbooks. An expression is read as accesses, each with the text before it; the name of a
  workbook in brackets directly before a read is its mark. One mention of another workbook after the other takes the
  first access with its mark and its coordinates, and its read gets the workbook into the key (`foldl_turn`). Main
  statement: `workbook_reads_keyed_iff`.
-/

open List
open String (ofList)

namespace Sheetwork.Vector

open LoopCoord
open Formula (Mention mentions Piece)

/-- Where the cells of an access are: here, where a mark before it says, or where its key says. -/
inductive Home where
  | own
  | marked (file : String)
  | keyed (file : String)

structure Access where
  before : List Char
  home : Home
  read : LoopSlot

def LoopCoord.isFixed {α : Type} : LoopCoord α → Bool
  | fixed _ => true
  | free _ => false

theorem LoopCoord.eq_of_isFixed {α : Type} {b : Bool} {a : α} {k : Int} (h : (ofMark b a k).isFixed = true) :
    ofMark b a k = fixed a := by
  cases b
  · cases h
  · rfl

def Slot.isFixed : LoopSlot → Bool
  | text _ => false
  | cell _ c r => c.isFixed && r.isFixed
  | range _ c r c' r' => c.isFixed && r.isFixed && c'.isFixed && r'.isFixed

/-- The read of the same cells in another workbook. -/
def Slot.inBook (file : String) : LoopSlot → LoopSlot
  | text s => text s
  | cell s c r => cell (file ++ "|" ++ s) c r
  | range s c r c' r' => range (file ++ "|" ++ s) c r c' r'

/-- The mark of a workbook and a read directly behind it. -/
def markedRead (x : String × LoopSlot) : List Char := '[' :: x.1.toList ++ ']' :: x.2.chars

namespace Access

variable (a : Access)

def chars : List Char :=
  a.before ++ match a.home with
    | .own => a.read.chars
    | .marked file => markedRead (file, a.read)
    | .keyed file => (a.read.inBook file).chars

def marked? : Option (String × LoopSlot) :=
  match a.home with
  | .marked file => some (file, a.read)
  | _ => none

def keyed? : Option String :=
  match a.home with
  | .keyed file => some file
  | _ => none

/-- The access at the end of a text, the mark taken off the text. -/
def ofText (before : List Char) (read : LoopSlot) : Access :=
  match before.reverse with
  | ']' :: r =>
    match r.dropWhile (· ≠ '[') with
    | '[' :: b => ⟨b.reverse, .marked (ofList (r.takeWhile (· ≠ '[')).reverse), read⟩
    | _ => ⟨before, .own, read⟩
  | _ => ⟨before, .own, read⟩

/-- A marked read with fixed coordinates gets its workbook into the key. -/
def settled : Access :=
  match a.home with
  | .marked file => if a.read.isFixed then { a with home := .keyed file } else a
  | _ => a

theorem chars_ofText (before : List Char) (read : LoopSlot) : (ofText before read).chars = before ++ read.chars := by
  unfold ofText
  split
  · next r hr =>
    obtain rfl : before = r.reverse ++ [']'] := by rw [← reverse_cons, ← hr, reverse_reverse]
    split
    · next b hb =>
      have hr : r.reverse = b.reverse ++ '[' :: (r.takeWhile (· ≠ '[')).reverse := by
        conv_lhs => rw [← takeWhile_append_dropWhile (p := (· ≠ '[')) (l := r), hb]
        simp
      simp [chars, markedRead, hr]
    · rfl
  · rfl

end Access

open Access (ofText marked? settled keyed?)

/-- The accesses of slots behind a text, and the text behind the last of them. -/
def accesses (before : List Char) : List LoopSlot → List Access × List Char
  | [] => ([], before)
  | .text s :: r => accesses (before ++ s) r
  | read :: r => ((ofText before read) :: (accesses [] r).1, (accesses [] r).2)

def accessText (as : List Access) (tail : List Char) : List Char := as.flatMap Access.chars ++ tail

theorem accessText_accesses (before : List Char) (ss : List LoopSlot) :
    accessText (accesses before ss).1 (accesses before ss).2 = before ++ ss.flatMap Slot.chars := by
  induction ss generalizing before with
  | nil => simp [accesses, accessText]
  | cons s ss ih =>
    have read : accessText (ofText before s :: (accesses [] ss).1) (accesses [] ss).2 =
        before ++ (s :: ss).flatMap Slot.chars := by
      rw [accessText, flatMap_cons, append_assoc, ← accessText, ih, Access.chars_ofText]
      simp
    cases s with
    | text s =>
      rw [accesses, ih]
      simp [Slot.chars]
    | _ => exact read

/-! The turns of the mentions -/

/-- The first access with the mark and the read gets the workbook into its key. -/
def turn (x : String × LoopSlot) : List Access → List Access
  | [] => []
  | a :: as => if a.marked? = some x then { a with home := .keyed x.1 } :: as else a :: turn x as

/-- The texts before and behind the first access with the mark and the read. -/
def place? (x : String × LoopSlot) (tail : List Char) : List Access → Option (List Char × List Char)
  | [] => none
  | a :: as =>
    if a.marked? = some x then some (a.before, accessText as tail)
    else (place? x tail as).map fun (u, v) => (a.chars ++ u, v)

variable {x : String × LoopSlot} {as : List Access} {tail : List Char}

theorem marked?_eq_some {a : Access} : a.marked? = some x ↔ a.home = .marked x.1 ∧ a.read = x.2 := by
  obtain ⟨before, home, read⟩ := a
  cases home <;> simp [marked?, Prod.ext_iff]

theorem turn_eq_of_place? (h : place? x tail as = none) : turn x as = as := by
  induction as with
  | nil => rfl
  | cons a as ih =>
    rw [place?] at h
    rw [turn]
    split at h
    · cases h
    · next ha => rw [if_neg ha, ih (Option.map_eq_none_iff.1 h)]

theorem accessText_turn {u v : List Char} (h : place? x tail as = some (u, v)) :
    accessText (turn x as) tail = u ++ (x.2.inBook x.1).chars ++ v := by
  induction as generalizing u with
  | nil => cases h
  | cons a as ih =>
    rw [place?] at h
    rw [turn]
    split at h
    · next ha =>
      cases h
      rw [if_pos ha, accessText, flatMap_cons, append_assoc, ← accessText, Access.chars, (marked?_eq_some.1 ha).2]
    · next ha =>
      obtain ⟨⟨u', v'⟩, hplace, he⟩ := Option.map_eq_some_iff.1 h
      cases he
      rw [if_neg ha, accessText, flatMap_cons, append_assoc, ← accessText, ih hplace]
      simp

theorem filterMap_marked_turn : (turn x as).filterMap marked? = (as.filterMap marked?).erase x := by
  induction as with
  | nil => rfl
  | cons a as ih =>
    rw [turn]
    split
    · next ha =>
      rw [filterMap_cons_some ha, erase_cons_head]
      rfl
    · next ha =>
      cases hm : a.marked? with
      | none => rw [filterMap_cons_none hm, filterMap_cons_none hm, ih]
      | some y =>
        have hne : ¬ (y == x) = true := fun he => ha (hm.trans (congrArg some (eq_of_beq he)))
        rw [filterMap_cons_some hm, filterMap_cons_some hm, ih, erase_cons_tail hne]

theorem map_settled_turn (hx : x.2.isFixed = true) : (turn x as).map settled = as.map settled := by
  induction as with
  | nil => rfl
  | cons a as ih =>
    rw [turn]
    split
    · next ha =>
      obtain ⟨hhome, hread⟩ := marked?_eq_some.1 ha
      rw [map_cons, map_cons, settled, settled, hhome]
      dsimp only
      rw [hread, if_pos hx]
    · rw [map_cons, map_cons, ih]

/-- If every marked read with fixed coordinates has a turn of its own, all of them are settled. -/
theorem foldl_turn {xs : List (String × LoopSlot)} (hx : ∀ x ∈ xs, x.2.isFixed = true)
    (h : ∀ y, y.2.isFixed = true → (as.filterMap marked?).count y ≤ xs.count y) :
    xs.foldl (fun as x => turn x as) as = as.map settled := by
  induction xs generalizing as with
  | nil =>
    refine ((map_congr_left fun a ha => ?_).trans (map_id as)).symm
    rw [settled, id]
    split
    · next file hhome =>
      refine if_neg fun hfixed => ?_
      have hmem : (file, a.read) ∈ as.filterMap marked? := mem_filterMap.2 ⟨a, ha, marked?_eq_some.2 ⟨hhome, rfl⟩⟩
      exact Nat.not_lt.2 (h (file, a.read) hfixed) (count_pos_iff.2 hmem)
    · rfl
  | cons x xs ih =>
    obtain ⟨hx, hxs⟩ := forall_mem_cons.1 hx
    rw [foldl_cons, ih hxs, map_settled_turn hx]
    intro y hy
    have hle := h y hy
    rw [count_cons] at hle
    rw [filterMap_marked_turn, count_erase]
    omega

def mentionSlot (p : Placing) (m : Mention) : LoopSlot := (variableOf m.reference).slot p []

def foreign (p : Placing) (ms : List Mention) : List (String × LoopSlot) :=
  ms.filterMap fun m => m.file.map (·, mentionSlot p m)

/-- A mention finds its mark with the read behind it at the first such access, or nothing at all. -/
def FindsMark (tail : List Char) (as : List Access) (m : Mention) (file : String) : Prop :=
  let x := (file, mentionSlot ownPlacing m)
  let new := ofList (x.2.inBook file).chars
  Text.cutL? (markedRead x) (accessText as tail) = place? x tail as ∧ (place? x tail as = none →
      Text.cutL? ("[" ++ file ++ "]" ++ (variableOf m.reference).name).toList (accessText as tail) = none) ∧
    Text.template new = .ok new

def FindsMarks (tail : List Char) : List Mention → List Access → Prop
  | [], _ => True
  | m :: ms, as =>
    match m.file with
    | none => FindsMarks tail ms as
    | some file => FindsMark tail as m file ∧ FindsMarks tail ms (turn (file, mentionSlot ownPlacing m) as)

instance (tail : List Char) (as : List Access) (m : Mention) (file : String) : Decidable (FindsMark tail as m file) :=
  inferInstanceAs (Decidable (_ ∧ (_ → _) ∧ _))

instance decidableFindsMarks (tail : List Char) : (ms : List Mention) → (as : List Access) → Decidable (FindsMarks tail ms as)
  | [], _ => inferInstanceAs (Decidable True)
  | m :: ms, as =>
    have := decidableFindsMarks tail ms
    match h : m.file with
    | none => decidable_of_iff (FindsMarks tail ms as) (by rw [FindsMarks, h])
    | some file => decidable_of_iff (_ ∧ _) (by rw [FindsMarks, h])

theorem isFixed_mentionSlot (m : Mention) : (mentionSlot ownPlacing m).isFixed = true := by
  unfold mentionSlot Mention.reference
  cases m.last <;> rfl

theorem mentionTexts_eq (file : String) (m : Mention) : mentionTexts file m =
    (ofList (mentionSlot ownPlacing m).chars, ofList ((mentionSlot ownPlacing m).inBook file).chars,
      (variableOf m.reference).name) := by
  unfold mentionTexts mentionSlot Mention.reference
  cases m.last <;> simp only [variableOf, Variable.slot, Slot.inBook, Slot.chars, String.ofList_toList] <;> rfl

theorem resolveWorkbook_accessText {m : Mention} {file : String} (hfile : m.file = some file)
    (h : FindsMark tail as m file) : resolveWorkbook (ofList (accessText as tail)) m =
      .ok (ofList (accessText (turn (file, mentionSlot ownPlacing m) as) tail)) := by
  obtain ⟨hcut, hnamed, htemplate⟩ := h
  have hmark : ("[" ++ file ++ "]" ++ ofList (mentionSlot ownPlacing m).chars).toList =
      markedRead (file, mentionSlot ownPlacing m) := by simp [markedRead]
  rw [resolveWorkbook, hfile]
  dsimp only
  rw [mentionTexts_eq]
  rw [htemplate]
  show (if _ then Except.ok _ else Except.ok _) = _
  simp only [Text.contains, Text.replaceFirst, String.toList_ofList, hmark, hcut]
  cases hplace : place? (file, mentionSlot ownPlacing m) tail as with
  | some uv => rw [Option.isSome_some, if_pos rfl, accessText_turn hplace]
  | none => rw [Option.isSome_none, if_neg Bool.false_ne_true, turn_eq_of_place? hplace, hnamed hplace]

theorem resolveWorkbooks_accessText {formula sheet : String} (h : FindsMarks tail (mentions formula sheet) as) :
    resolveWorkbooks (ofList (accessText as tail)) formula sheet =
      .ok (workbookMark.replaceAll (fun _ => "") (ofList (accessText
        ((foreign ownPlacing (mentions formula sheet)).foldl (fun as x => turn x as) as) tail))) := by
  rw [resolveWorkbooks]
  generalize mentions formula sheet = ms at h
  induction ms generalizing as with
  | nil => rfl
  | cons m ms ih =>
    rw [FindsMarks] at h
    rw [foldlM_cons, foreign, filterMap_cons]
    cases hfile : m.file with
    | none =>
      rw [hfile] at h
      rw [resolveWorkbook, hfile]
      exact ih h
    | some file =>
      rw [hfile] at h
      rw [resolveWorkbook_accessText hfile h.1]
      exact ih h.2

/-! The code -/

variable {tables : List Table} {p : Placing} {c : FormulaCell} {ms : List Mention}

/-- The accesses of a cell's expression, and the text behind them. -/
def accessesOf (tables : List Table) (p : Placing) (c : FormulaCell) : List Access × List Char :=
  accesses [] ((piecesOf tables c).map (slotOf p tables))

/-- The marks in an expression are those of mentions of other workbooks, and names and marks are not
mistaken when they are replaced. -/
structure Traceable (tables : List Table) (p : Placing) (c : FormulaCell) : Prop where
  complete : (c.conversion (tables.map (·.name))).complete = true
  wellNamed : WellNamed ((piecesOf tables c).filterMap Piece.reference?)
  namesStand : NamesStand tables p c
  marks : (accessesOf tables p c).1.filterMap marked? <+ foreign p (mentions c.formula c.sheet)
  findsMarks : FindsMarks (accessesOf tables p c).2 (mentions c.formula c.sheet) (accessesOf tables p c).1

/-- The expression with its accesses settled; marks that are left over vanish. -/
def settledText (tables : List Table) (p : Placing) (c : FormulaCell) : String :=
  workbookMark.replaceAll (fun _ => "") (ofList (accessText
    ((accessesOf tables p c).1.map settled) (accessesOf tables p c).2))

/-- What does not follow the loop variable is read as it is written. -/
theorem slot_eq_of_isFixed {d : Direction} {v : Variable} (h : (v.slot (loopPlacing ms c d) tables).isFixed = true) :
    v.slot (loopPlacing ms c d) tables = v.slot ownPlacing tables := by
  cases v with
  | table t => cases h
  | cell e =>
    simp only [Variable.slot, Slot.isFixed, Bool.and_eq_true] at h
    cases d with
    | vertical => exact congrArg (Slot.cell _ _) (eq_of_isFixed h.2)
    | horizontal => exact congrArg (Slot.cell _ · _) (eq_of_isFixed h.1)
  | range r =>
    simp only [Variable.slot, Slot.isFixed, Bool.and_eq_true] at h
    cases d with
    | vertical => exact congrArg₂ (Slot.range _ _ · _ ·) (eq_of_isFixed h.1.1.2) (eq_of_isFixed h.2)
    | horizontal =>
      exact congrArg₂ (Slot.range _ · _ · _) (eq_of_isFixed h.1.1.1) (eq_of_isFixed h.1.2)

theorem count_foreign_le (hp : ∀ m, (mentionSlot p m).isFixed = true → mentionSlot p m = mentionSlot ownPlacing m)
    (hx : x.2.isFixed = true) : (foreign p ms).count x ≤ (foreign ownPlacing ms).count x := by
  rw [foreign, foreign, count_eq_countP, count_eq_countP, countP_filterMap, countP_filterMap]
  refine countP_mono_left fun m _ h => ?_
  cases hfile : m.file with
  | none => simp [hfile] at h
  | some file =>
    have hslot : (file, mentionSlot p m) = x := by simpa [hfile] using h
    rw [← hslot] at hx ⊢
    simp [hp m hx]

theorem resolveWorkbooks_settled (h : Traceable tables p c)
    (hp : ∀ m, (mentionSlot p m).isFixed = true → mentionSlot p m = mentionSlot ownPlacing m) :
    resolveWorkbooks (slotsText ((piecesOf tables c).map (slotOf p tables))) c.formula c.sheet =
      .ok (settledText tables p c) := by
  have htext := accessText_accesses [] ((piecesOf tables c).map (slotOf p tables))
  rw [nil_append, ← accessesOf] at htext
  rw [slotsText, ← htext, resolveWorkbooks_accessText h.findsMarks, foldl_turn, settledText]
  · intro x hx
    obtain ⟨m, -, hm⟩ := mem_filterMap.1 hx
    obtain ⟨file, -, rfl⟩ := Option.map_eq_some_iff.1 hm
    exact isFixed_mentionSlot m
  · intro x hx
    exact (h.marks.count_le x).trans (count_foreign_le hp hx)

theorem keyed?_of_mem_accesses {before : List Char} {ss : List LoopSlot} :
    ∀ a ∈ (accesses before ss).1, a.keyed? = none := by
  induction ss generalizing before with
  | nil => exact nofun
  | cons s ss ih =>
    have read : (ofText before s).keyed? = none := by
      unfold ofText
      split
      · split <;> rfl
      · rfl
    cases s with
    | text s => exact ih
    | _ => exact forall_mem_cons.2 ⟨read, ih⟩

theorem filterMap_keyed_settled (h : ∀ a ∈ as, a.keyed? = none) : (as.map settled).filterMap keyed? =
      ((as.filterMap marked?).filter (·.2.isFixed)).map Prod.fst := by
  induction as with
  | nil => rfl
  | cons a as ih =>
    obtain ⟨ha, has⟩ := forall_mem_cons.1 h
    obtain ⟨before, home, read⟩ := a
    have ih := ih has
    cases home with
    | own => exact ih
    | keyed file => cases ha
    | marked file =>
      cases hread : read.isFixed <;>
        simp only [map_cons, settled, hread, if_true, Bool.false_eq_true, if_false, filterMap_cons, keyed?,
          marked?, filter_cons, ih]

/-- The code of a formula has the settled accesses. All mentions of other workbooks are read from there
exactly if every one has left its mark and no marked read follows the loop variable. -/
theorem workbook_reads_keyed_iff (tables : List Table) : (∀ c, Traceable tables ownPlacing c →
      singleCode tables c = .ok (cellLines c (settledText tables ownPlacing c))) ∧
    (∀ g first rest, g.cells = first :: rest → Traceable tables (firstPlacing g.direction first) first →
      groupCode tables g = .ok (loopLines g first (settledText tables (firstPlacing g.direction first) first))) ∧
    ∀ p c, Traceable tables p c →
      let files := (mentions c.formula c.sheet).filterMap Mention.file
      let marks := (accessesOf tables p c).1.filterMap Access.marked?
      ((accessesOf tables p c).1.map Access.settled).filterMap Access.keyed? = files ↔
        marks.map Prod.fst = files ∧ ∀ x ∈ marks, x.2.isFixed = true := by
  refine ⟨fun c h => ?_, fun g first rest hcells h => ?_, fun p c h => ?_⟩
  · exact singleCode_eq (placedExpression_of_resolve h.complete h.wellNamed h.namesStand
      (resolveWorkbooks_settled h fun _ _ => rfl))
  · exact groupCode_eq hcells (placedExpression_of_resolve h.complete h.wellNamed h.namesStand
      (resolveWorkbooks_settled h fun _ => slot_eq_of_isFixed))
  · intro files marks
    rw [accessesOf, filterMap_keyed_settled keyed?_of_mem_accesses, ← accessesOf]
    have hfiles : (foreign p (mentions c.formula c.sheet)).map Prod.fst = files := by
      rw [foreign, map_filterMap]
      refine filterMap_congr fun m _ => ?_
      cases m.file <;> rfl
    constructor
    · intro hkeyed
      have hlen := congrArg length (hkeyed.trans hfiles.symm)
      rw [length_map, length_map] at hlen
      have hall := length_filter_eq_length_iff.1 (Nat.le_antisymm (length_filter_le _ _) (hlen ▸ h.marks.length_le))
      exact ⟨by rwa [filter_eq_self.2 hall] at hkeyed, hall⟩
    · rintro ⟨hmarks, hall⟩
      rw [filter_eq_self.2 hall, hmarks]

/-- Copies of a formula that names a cell of another workbook. -/
def prices : Group := ⟨.vertical, [⟨"S", "A", 1, "=[E.xlsx]P!B1"⟩, ⟨"S", "A", 2, "=[E.xlsx]P!B2"⟩]⟩

def quotedPrice : FormulaCell := ⟨"S", "C", 1, "='[E.xlsx]P'!B1"⟩

/-- In the loop and in quotes the sheet of the same name is read. -/
theorem prices_read_here :
    groupCode [] prices = .ok (loopLines prices ⟨"S", "A", 1, "=[E.xlsx]P!B1"⟩ "c.get(('P', 'B', _r))") ∧
      singleCode [] quotedPrice = .ok (cellLines quotedPrice "c.get(('P', 'B', 1))") := by
  have hmentions : ∀ c ∈ quotedPrice :: prices.cells,
      mentions c.formula c.sheet = Formula.foundIn (Formula.body c.formula) c.sheet :=
    fun c hc => mergeSort_of_pairwise (by revert c; decide +kernel)
  have hfirst := hmentions ⟨"S", "A", 1, "=[E.xlsx]P!B1"⟩ (by decide)
  have hquoted := hmentions quotedPrice mem_cons_self
  have loop : Traceable [] (firstPlacing .vertical ⟨"S", "A", 1, "=[E.xlsx]P!B1"⟩) ⟨"S", "A", 1, "=[E.xlsx]P!B1"⟩ := by
    rw [firstPlacing, hfirst]
    refine ⟨by decide +kernel, ⟨by decide +kernel, by decide +kernel⟩, ?_, ?_, ?_⟩
    · unfold NamesStand
      decide +kernel
    · rw [hfirst]
      decide +kernel
    · rw [hfirst]
      decide +kernel
  have single : Traceable [] ownPlacing quotedPrice := by
    refine ⟨by decide +kernel, ⟨by decide +kernel, by decide +kernel⟩, ?_, ?_, ?_⟩
    · unfold NamesStand
      decide +kernel
    · rw [hquoted]
      decide +kernel
    · rw [hquoted]
      decide +kernel
  obtain ⟨hsingle, hgroup, -⟩ := workbook_reads_keyed_iff []
  refine ⟨(hgroup prices _ _ rfl loop).trans ?_, (hsingle _ single).trans ?_⟩
  · unfold firstPlacing
    rw [hfirst]
    decide +kernel
  · decide +kernel

end Sheetwork.Vector
