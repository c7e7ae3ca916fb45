import Sheetwork.Model.Calculation
/-
  Models: what is wrong with a report, with unstructured and with structured inputs. Each check goes through its items
  in order and stops when it has found enough.
-/

namespace Sheetwork.Model

/-! Where two workbooks differ. Cells that exist in either are compared one after
the other, first by computed value, then by format, font and lines. -/

/-- Goes through a list and collects what the check finds, until there is as much as wanted. -/
def collect {α β : Type} (most : Int) (check : α → Outcome (List β)) : List β → List α → Outcome (List β)
  | found, [] => .ok found
  | found, a :: r => do
    let found := found ++ (← check a)
    if most ≤ found.length then pure found else collect most check found r

/-- A value as JSON has it, or its text. -/
def Issue.shown : Value → Value
  | v@(.null) | v@(.bool _) | v@(.int _) | v@(.float _) | v@(.text _) => v
  | v => .text v.toText

structure Difference where
  (sheet cell category : String)
  (expected actual : Value)

namespace Difference

def document (d : Difference) : Value :=
  .record [("sheet", d.sheet), ("cell", d.cell), ("category", d.category),
    ("expected", d.expected), ("actual", d.actual)]

def shown : Value → Value
  | .date d => .text d.iso
  | .datetime t => .text t.iso
  | .time t => .text t.iso
  | v => Issue.shown v

/-- The part of a look that counts; a missing side has no line to speak of. -/
def signature (s : Style) : Outcome Value := do
  let line (side : Option Side) := do
    pure (toValue (← Fault.noProperty.ifNone side).style)
  pure (.tuple [s.numberFormat, .bool s.font.bold, .bool s.font.italic, toValue s.font.size,
    ← line s.border.left, ← line s.border.right, ← line s.border.top, ← line s.border.bottom])

def ofCell (a b : Sheet) (p : Position) : Outcome (List Difference) := do
  let x := (a.cell p).dataOnly.value
  let y := (b.cell p).dataOnly.value
  let values := if ← alike x y then []
    else [Difference.mk a.name p.address "value" (shown x) (shown y)]
  let s ← signature (a.cell p).style
  let t ← signature (b.cell p).style
  pure (values ++ if s == t then [] else [⟨a.name, p.address, "style", s, t⟩])

end Difference

def differences (a b : Workbook) (most : Int) : Outcome (List Difference) :=
  if a.sheetNames ≠ b.sheetNames then
    .ok [⟨"_Workbook", "", "sheet_names", toValue a.sheetNames, toValue b.sheetNames⟩]
  else
    let cells := (a.sheets.zip b.sheets).flatMap fun (s, t) =>
      (Ordered.ofList (s.cells.keys ++ t.cells.keys)).map fun p => (s, t, p)
    collect most (fun (s, t, p) => Difference.ofCell s t p) [] cells

def compareFiles (fs : Files) (expected actual : String) (most : Int) : Outcome (List Difference) := do
  differences (← fs.load expected) (← fs.load actual) most

inductive Issue where
  | missingSheet (sheet : String)
  | missingCell (sheet cell : String)
  | inputValue (sheet : String) (cell expected actual : Value)
  | formulaKind (sheet : String) (cell : Value) (actual : String)
  | formulaText (sheet : String) (cell expected actual : Value)
  | formulaKept (sheet : String) (cell actual : Value)
  | missingIndex | badIndex
  | unexpectedSource (sheet cell : Value)
  | missingInputSheet (sheet : Value)
  | structuredValue (sheet cell inputSheet inputCell expected actual : Value)
  | missingSource (sheet : String) (cell : Value)
  | doubleSource (sheet : String) (cell : Value) (count : Nat)

namespace Issue

def name : Issue → String
  | missingSheet _ => "missing_sheet"
  | missingCell .. => "missing_cell_in_mapping"
  | inputValue .. => "input_value_mismatch"
  | formulaKind .. => "formula_type_mismatch"
  | formulaText .. => "formula_text_mismatch"
  | formulaKept .. => "formula_not_removed"
  | missingIndex => "missing_index_sheet"
  | badIndex => "invalid_index_headers"
  | unexpectedSource .. => "unexpected_source_mapping"
  | missingInputSheet _ => "missing_input_sheet"
  | structuredValue .. => "structured_value_mismatch"
  | missingSource .. => "missing_source_mapping"
  | doubleSource .. => "duplicate_source_mapping"

def details : Issue → List (String × Value)
  | missingSheet s => [("sheet", .text s)]
  | missingCell s c => [("sheet", .text s), ("cell", .text c)]
  | inputValue s c e a | formulaText s c e a => [("sheet", s), ("cell", c), ("expected", shown e), ("actual", shown a)]
  | formulaKind s c a => [("sheet", s), ("cell", c), ("expected", "formula"), ("actual", a)]
  | formulaKept s c a => [("sheet", .text s), ("cell", c), ("expected", .null), ("actual", shown a)]
  | missingIndex | badIndex => []
  | unexpectedSource s c => [("source_sheet", s), ("source_cell", c)]
  | missingInputSheet s => [("input_sheet", s)]
  | structuredValue s c i j e a =>
    [("source_sheet", s), ("source_cell", c), ("input_sheet", i), ("input_cell", j),
      ("expected", shown e), ("actual", shown a)]
  | missingSource s c => [("source_sheet", .text s), ("source_cell", c)]
  | doubleSource s c n => [("source_sheet", .text s), ("source_cell", c), ("count", toValue n)]

def document (stage : String) (i : Issue) : Value :=
  .record ([("stage", .text stage), ("issue", .text i.name)] ++ i.details)

end Issue

namespace Check

/-- Floats are the same if they are close; anything else if it is equal. -/
def same : Value → Value → Bool
  | .float x, .float y => Number.isClose 1e-9 1e-9 x y
  | a, b => a == b

/-! Reports -/

inductive Item where
  | absent (sheet : String)
  | unmapped (sheet : String) (p : Position)
  | entry (s : Sheet) (e : Entry)

def unmapped (s : Sheet) (es : List Entry) : List Item :=
  let mapped : Std.HashMap Slot Unit := es.foldl (fun m e => m.insert e.slot ()) ∅
  (s.entries.filter fun (p, c) => isCaptured c && !mapped.contains ⟨p.row, p.col⟩).map fun (p, _) => .unmapped s.name p

def items (b : Blueprint) (w : Workbook) (others : Sheet → List Entry → List Item) : List Item :=
  b.order.flatMap fun name =>
    match w.sheet? name with
    | none => [Item.absent name]
    | some s =>
      let es := b.entriesOf name
      others s es ++ es.map (Item.entry s)

def reportItem : Item → Outcome (List Issue)
  | .absent name => .ok [.missingSheet name]
  | .unmapped name p => .ok [.missingCell name p.address]
  | .entry s e => do
    let c := s.cell (← e.position)
    if e.isInput then pure (if same e.value c.value then [] else [.inputValue s.name e.cell c.value e.value])
    else if !c.isFormula then pure [.formulaKind s.name e.cell c.kind.letter]
    else if (← e.hasFormulaText) && c.value != e.formula then
      pure [.formulaText s.name e.cell c.value e.formula]
    else pure []

def report (fs : Files) (path : String) (most : Int) : Outcome (List Issue) := do
  let b ← readReport fs path
  collect most reportItem [] (items b (← fs.load b.template) unmapped)

def inputItem : Item → Outcome (List Issue)
  | .absent name => .ok [.missingSheet name]
  | .unmapped .. => .ok []
  | .entry s e => do
    let v := s.value (← e.position)
    if e.isInput then
      pure (if e.included && !same e.value v then [.inputValue s.name e.cell e.value v] else [])
    else pure (if v.isNull then [] else [.formulaKept s.name e.cell v])

def inputs (fs : Files) (path inputs : String) (most : Int) : Outcome (List Issue) := do
  let b ← readReport fs path
  collect most inputItem [] (items b (← fs.load inputs) fun _ _ => [])

/-! Structured inputs -/

structure Expected where
  sheet : String
  (cell value : Value)

def Expected.isAt (x : Expected) (sheet cell : Value) : Bool := .text x.sheet == sheet && x.cell == cell

/-- The expected inputs; of two at one place the later value counts. -/
def expected (b : Blueprint) : List Expected :=
  let used := b.order.flatMap fun name =>
    ((b.entriesOf name).filter Structured.isUsed).map fun e => Expected.mk name e.cell e.value
  used.foldl put []
where
  put (xs : List Expected) (x : Expected) : List Expected :=
    match xs with
    | [] => [x]
    | y :: r =>
      if y.isAt (.text x.sheet) x.cell then { y with value := x.value } :: r else y :: put r x

inductive StructuredItem where
  | row (values : List Value)
  | source (x : Expected) (count : Nat)

def structuredItem (xs : List Expected) (w : Workbook) : StructuredItem → Outcome (List Issue)
  | .row [sheet, cell, inputSheet, inputCell] =>
    match xs.find? fun x => x.isAt sheet cell with
    | none => .ok [.unexpectedSource sheet cell]
    | some x =>
      match w.sheets.find? fun s => .text s.name == inputSheet with
      | none => .ok [.missingInputSheet inputSheet]
      | some s => do
        let v := s.value (← positionOf inputCell)
        pure (if same x.value v then []
          else [.structuredValue sheet cell inputSheet inputCell x.value v])
  | .row _ => .ok []
  | .source x n =>
    .ok (if n = 0 then [.missingSource x.sheet x.cell]
      else if 1 < n then [.doubleSource x.sheet x.cell n]
      else [])

def structured (fs : Files) (path inputs : String) (most : Int) : Outcome (List Issue) := do
  let b ← readReport fs path
  let w ← fs.load inputs
  match w.sheet? Structured.indexSheet with
  | none => pure [.missingIndex]
  | some index =>
    match Overrides.columnsOf? index.headings with
    | none => pure [.badIndex]
    | some cols =>
      let xs := expected b
      let rows := Overrides.indexed cols index
      let count (x : Expected) := rows.countP fun r => x.isAt (r.headD .null) ((r[1]?).getD .null)
      collect most (structuredItem xs w) []
        (rows.map StructuredItem.row ++ xs.map fun x => StructuredItem.source x (count x))

def diagnose (report inputs result : List Value) (mode : String) : String :=
  if result.isEmpty then "clean"
  else if !report.isEmpty then "Layer1_Mapping"
  else if !inputs.isEmpty then
    if mode = "unstructured" then "Layer2a_Unstructured" else "Layer2b_Structured"
  else "Layer3_CodegenOrRuntime"

end Check

end Sheetwork.Model
