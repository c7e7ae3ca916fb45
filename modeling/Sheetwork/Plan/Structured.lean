import Sheetwork.Plan.Rows
/-
  Plans: the inputs in tables. The inputs of a sheet are cut into patches of touching cells; one or two cells in a
  line go into one list of settings, any other patch becomes a table of its own, turned on its side when its columns
  are periods. An index says for every input where it stands.
-/

namespace Sheetwork.Plan.Structured

open Text.Pattern

/-! Periods -/

def century : Text.Pattern := choice [Text.Pattern.lit "19", Text.Pattern.lit "20"]

def periodTexts : List Text.Pattern :=
  [century ++ times 2 digit ++ many (one fun c => Text.isAsciiLetter c || c = ' ') ++ Text.Pattern.finish,
    (chr 'Q').anyCase ++ one (fun c => '1' ≤ c && c ≤ '4') ++ many blank ++ century ++ times 2 digit]

def isYear (v : Value) : Bool :=
  match v.ge (.int 1900), v.le (.int 2100) with
  | .ok a, .ok b => a && b
  | _, _ => false

/-- Whether a label names a year or a part of it. -/
def isPeriod (v : Value) : Bool :=
  if v.isNull then false
  else if v.isNumber then isYear v
  else
    let s := Text.strip v.toText
    periodTexts.any (fun p => (p.begin? s).isSome) || (Number.float? s).any fun x => isYear (.float x)

def arePeriods (labels : List Value) : Bool := 2 ≤ labels.length && labels.length ≤ 2 * labels.countP isPeriod

/-! Patches -/

structure Item where
  at_ : Slot
  (cell value : Value)

structure Patch where
  area : SlotBox
  /-- Row by row. -/
  items : List Item
  (rowLabels colLabels : List (Int × Value))

def byPlace (xs : List Item) : Std.HashMap Slot Item := xs.foldl (fun m x => m.insert x.at_ x) ∅

/-- What stands beside or above, or a numbered name. -/
def label (all : Std.HashMap Slot Item) (name : String) (beside : Slot) (n : Int) : Value :=
  match (all[beside]?).map Item.value with
  | some .null | none => .text (name ++ Text.ofInt n)
  | some v => v

namespace Patch

def ofCells (inputs all : Std.HashMap Slot Item) (cells : List Slot) : Patch :=
  let a := SlotBox.around cells
  { area := a, items := (Ordered.ofList cells).filterMap fun p => inputs[p]?
    rowLabels := a.rows.map fun r => (r, label all "Line" ⟨r, a.minCol - 1⟩ (r - a.minRow + 1))
    colLabels := a.cols.map fun c => (c, label all "Col" ⟨a.minRow - 1, c⟩ (c - a.minCol + 1)) }

variable (p : Patch)

def isSmall : Bool := p.items.length ≤ 2 && min p.area.height p.area.width ≤ 1

def isTransposed : Bool := arePeriods (p.colLabels.map (·.2))

def labelOf (row : Int) : Value :=
  ((p.rowLabels.find? (·.1 = row)).map (·.2)).getD (.text ("R" ++ Text.ofInt row))

def valueAt (row col : Int) : Value := ((p.items.find? (·.at_ = ⟨row, col⟩)).map Item.value).getD (.text "")

def document : Value :=
  .list [toValue p.area.minRow, toValue p.area.maxRow, toValue p.area.minCol, toValue p.area.maxCol,
    .list (p.items.map Item.value), .list (p.rowLabels.map (·.2)), .list (p.colLabels.map (·.2))]

def table : List (List Value) :=
  let shown (ls : List (Int × Value)) := ls.map fun (_, v) => Value.text v.toText
  if p.isTransposed then
    (.text "Period" :: shown p.rowLabels) :: p.colLabels.map fun (c, l) =>
      .text l.toText :: p.area.rows.map fun r => p.valueAt r c
  else
    (.text "Metric" :: shown p.colLabels) :: p.rowLabels.map fun (r, l) =>
      .text l.toText :: p.area.cols.map fun c => p.valueAt r c

end Patch

def patches (inputs all : List Item) : List Patch :=
  let inputMap := byPlace inputs
  let allMap := byPlace all
  (Patches.ofCells (Ordered.ofList (inputs.map Item.at_))).map (Patch.ofCells inputMap allMap)

def patchesOf (inputs others : List (Int × Int × Value)) : List Patch :=
  let item (x : Int × Int × Value) := Item.mk ⟨x.1, x.2.1⟩ .null x.2.2
  patches (inputs.map item) ((inputs ++ others).map item)

/-! The workbook -/

def indexColumns : List String := ["SourceSheet", "TargetSheet", "InputType", "Cell", "Row", "Col", "Label", "Value"]

def configColumns : List String := ["SourceSheet", "Cell", "Label", "Value"]

/-- A patch of a sheet, with the name its table has unless the patch is small. -/
structure Placed where
  (sheet name : String)
  patch : Patch

namespace Placed

variable (t : Placed)

def ofPatch (sheet : String) (count : Nat) (p : Patch) (i : Nat) : Placed :=
  let numbered := Text.take 20 sheet ++ "_" ++ Text.ofNat (i + 1)
  ⟨sheet, safeSheetName (if 1 < count then numbered else sheet), p⟩

def target : String := if t.patch.isSmall then "Config" else t.name

def kind : String :=
  if t.patch.isSmall then "Scalar" else if t.patch.isTransposed then "Table(transposed)" else "Table"

def label (x : Item) : String := if t.patch.isSmall then (t.patch.labelOf x.at_.row).toText else ""

def indexRow (x : Item) : List Value :=
  [t.sheet, t.target, t.kind, x.cell, toValue x.at_.row, toValue x.at_.col, .text (t.label x), x.value]

def settingRow (x : Item) : List Value := [.text t.sheet, x.cell, .text (t.label x), x.value]

end Placed

structure Draft where
  placed : List Placed := []

namespace Draft

variable (d : Draft)

def lines : List (Placed × Item) := d.placed.flatMap fun t => t.patch.items.map (t, ·)

def index : List (List Value) := d.lines.map fun (t, x) => t.indexRow x

def settings : List (Placed × Item) := d.lines.filter fun l => l.1.patch.isSmall

def config : List (List Value) := d.settings.map fun (t, x) => t.settingRow x

def tabled : List Placed := d.placed.filter fun t => !t.patch.isSmall

def tables : List (String × List (List Value)) := d.tabled.map fun t => (t.name, t.patch.table)

def itemOf (r : Record) : Outcome Item := do
  let row ← wholeOf r "Row"
  let col ← wholeOf r "Col"
  pure ⟨⟨row, col⟩, r.get "Cell", r.get "Value"⟩

def addSheet (sheet : String) (rows : List Record) : Outcome Draft := do
  let inputs := rows.filter isInput
  if inputs.isEmpty then pure d
  else
    let ps := patches (← inputs.mapM itemOf) (← rows.mapM itemOf)
    pure ⟨d.placed ++ ps.mapIdx fun i p => .ofPatch sheet ps.length p i⟩

def page (name : String) (rows : List (List Value)) : Outcome Sheet := do
  let s ← ({ name } : Sheet).writeRows 1 rows
  pure (s.restyleRow 1 (rows.headD []).length fun st => { st with font := Font.boldOnly })

def pages : List (String × List (List Value)) :=
  ("Index", Value.texts indexColumns :: d.index) :: ("Config", Value.texts configColumns :: d.config) :: d.tables

def workbook : Outcome Workbook := Workbook.ofPages page d.pages

end Draft

end Structured

def structuredName : String := "structured_input.xlsx"

def makeStructured (fs : Files) (report folder : String) : Outcome Made := do
  let fs := fs.makeFolder folder
  let d ← (← readSheets fs report).foldlM (fun (d : Structured.Draft) (n, rows) => d.addSheet n rows) {}
  let path := Path.join folder structuredName
  pure ⟨← fs.store path (← d.workbook), path,
    ["  → " ++ path ++ "  (" ++ Text.ofNat d.tables.length ++ " data tabs + Config + Index)"]⟩

end Sheetwork.Plan
