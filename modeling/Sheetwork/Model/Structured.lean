import Sheetwork.Model.Rebuild
/-
  Models: structured inputs. The included inputs of every sheet are cut into patches of touching cells; a patch of one
  or two cells in a line goes into one list of settings, any other becomes a table of its own, turned on its side when
  its columns are periods. An index says where every input went.
-/

namespace Sheetwork.Model

/-! Names of sheets, keys and folders, and what names a period. -/

section

open Text

def firstYear : Int := 1900

def lastYear : Int := 2200

def isYear (n : Int) : Bool := firstYear ≤ n && n ≤ lastYear

variable (s : String)

def isYearText : Bool :=
  let cs := stripL s.toList
  (cs.take 4).length = 4 && (cs.take 4).all isDecimal && (cs.drop 4).all isAsciiLetter

def isPeriod (v : Value) : Bool :=
  match v with
  | .date _ | .datetime _ => true
  | .float x => Number.isWhole x && (Number.truncate? x).any isYear
  | .text s => isYearText s
  | v => v.int?.any isYear

def sheetNameLength : Nat := 31

def unfitForSheets : List Char := "\\/*?:[]".toList

def sheetName : String :=
  take sheetNameLength (String.ofList (s.toList.map fun c => if unfitForSheets.contains c then '_' else c))

def numbered (name : String) (n : Nat) : String :=
  let mark := "_" ++ ofNat n
  take (sheetNameLength - mark.length) name ++ mark

/-- A sheet name that is not there yet: one more number than there are names is enough. -/
def freshSheetName (existing : List String) (base : String) : String :=
  let name := sheetName base
  if !existing.contains name then name
  else ((List.range (existing.length + 1)).map fun i => numbered name (i + 1)).find?
    (fun s => !existing.contains s) |>.getD name

/-- Every run of characters that are not kept becomes one underscore; `inside` says that such a run
stands before. -/
def collapse (keep : Char → Bool) (inside : Bool) : List Char → List Char
  | [] => []
  | c :: r =>
    if keep c then c :: collapse keep false r
    else if inside then collapse keep true r
    else '_' :: collapse keep true r

/-- Letters, digits and underscores, white space as single underscores. -/
def keyWord : String :=
  let spaced := collapse (fun c => !isBlank c) false (stripL s.toList)
  let kept := spaced.filter fun c => isPlain c || c = '_'
  if kept.isEmpty then "Line" else String.ofList kept

def plainName (keep : Char → Bool) (ends : List Char) (s : String) : List Char :=
  stripWhileL ends.contains (collapse keep false s.toList)

def folderName : String :=
  let name := plainName (fun c => isPlain c || ['.', '_', '-'].contains c) ['.', '_'] s
  if name.isEmpty then "workbook" else String.ofList name

def identifier : String :=
  match plainName (fun c => isPlain c || c = '_') ['_'] s with
  | [] => "x"
  | c :: r => if isDigit c then "n_" ++ String.ofList (c :: r) else String.ofList (c :: r)

end

namespace Structured

def indexColumns : List String :=
  ["SourceSheet", "SourceCell", "InputSheet", "InputCell", "TableName", "EntryType", "IsTransposed",
    "PatchBounds", "MetricLabel", "PeriodLabel"]

def configColumns : List String := ["Key", "Value", "SourceSheet", "SourceCell"]

def indexSheet : String := "Index"

def configSheet : String := "Config"

structure Patch where
  cells : List Slot
  area : SlotBox

namespace Patch

def ofCells (cells : List Slot) : Patch := ⟨Ordered.ofList cells, SlotBox.around cells⟩

def height (p : Patch) : Nat := p.area.height

def width (p : Patch) : Nat := p.area.width

def isSmall (p : Patch) : Bool := (p.height = 1 && p.width ≤ 2) || (p.width = 1 && p.height ≤ 2) || p.cells.length = 1

end Patch

def patches (cells : List Slot) : List Patch := (Patches.ofCells (Ordered.ofList cells)).map Patch.ofCells

abbrev Lookup := Int → Int → Value

def said? (v : Value) : Option String := if v.isNull || (Text.strip v.toText).isEmpty then none else some v.toText

/-- The label of a cell: the nearest to the left that says something, else the nearest above. -/
def label (lookup : Lookup) (row col : Int) (fallback : String) : String :=
  let down (n : Int) := (List.range (n.toNat - 1)).reverse.map (· + 1)
  let left := (down col).findSome? fun (c : Nat) => said? (lookup row c)
  let above := (down row).findSome? fun (r : Nat) => said? (lookup r col)
  (left.orElse fun _ => above).getD fallback

/-- The values of listed cells; of two entries for a cell the later counts. -/
def Lookup.ofList (cells : List (Int × Int × Value)) : Lookup := fun r c =>
  ((cells.reverse.find? fun x => x.1 = r && x.2.1 = c).map (·.2.2)).getD .null

structure IndexRow where
  (sheet cell inputSheet inputCell kind : String)
  isTransposed : Bool
  (bounds metric : String)
  period : Option String

def IndexRow.values (r : IndexRow) : List Value :=
  [r.sheet, r.cell, r.inputSheet, r.inputCell, r.inputSheet, .text r.kind,
    .bool r.isTransposed, r.bounds, r.metric, toValue r.period]

structure Draft where
  config : List (List Value) := []
  tables : List (String × List (List Value)) := []
  index : List IndexRow := []
  /-- The keys of settings before they were numbered. -/
  keys : List String := []

namespace Draft

variable (d : Draft)

def sheetNames : List String := [indexSheet, configSheet] ++ d.tables.map (·.1)

variable (lookup : Lookup) (sheet : String)

def addSetting (p : Patch) (d : Draft) (at_ : Slot) : Outcome Draft := do
  let cell ← at_.address
  let base := keyWord (label lookup at_.row at_.col (sheet ++ "_" ++ cell))
  let keys := d.keys ++ [base]
  let count := keys.count base
  let key := if 1 < count then base ++ "_" ++ Text.ofNat count else base
  let row := [.text key, lookup at_.row at_.col, .text sheet, .text cell]
  let entry : IndexRow :=
    { sheet, cell, inputSheet := configSheet, inputCell := "B" ++ Text.ofNat (d.config.length + 2)
      kind := "Config", isTransposed := false, bounds := ← p.area.name, metric := key, period := none }
  pure { d with config := d.config ++ [row], index := d.index ++ [entry], keys }

/-- Coordinates with the texts beside them, or numbered names. -/
def labelled (kind : String) (value : Int → Value) (ns : List Int) : List (Int × String) :=
  ns.zipIdx.map fun (n, i) => (n, (said? (value n)).getD (kind ++ Text.ofNat (i + 1)))

def arePeriods (labels : List String) : Bool := max 1 (labels.length / 2) ≤ labels.countP fun s => isPeriod (.text s)

/-- The cell of a line and a place on it; in a turned table lines are columns. -/
def turned (isTransposed : Bool) (line place : Int) : Slot := if isTransposed then ⟨place, line⟩ else ⟨line, place⟩

/-- The index row of a cell of a table, given by its line and its place on the line. -/
def tableRow (sheet name bounds : String) (isTransposed : Bool) (line place : (Int × String) × Nat) :
    Outcome IndexRow := do
  let inputCell ← (Slot.mk (2 + line.2) (2 + place.2)).address
  let cell ← (turned isTransposed line.1.1 place.1.1).address
  let (metric, period) := if isTransposed then (place.1.2, line.1.2) else (line.1.2, place.1.2)
  pure ⟨sheet, cell, name, inputCell, "Table", isTransposed, bounds, metric, some period⟩

/-- Adds a table with a line for each of the outer coordinates. -/
def addLines (sheet name bounds : String) (isTransposed : Bool) (cells : List Slot)
    (outer inner : List (Int × String)) (d : Draft) : Outcome Draft := do
  let lines := outer.map fun x => .text x.2 :: inner.map fun y =>
    let s := turned isTransposed x.1 y.1
    if cells.contains s then lookup s.row s.col else .null
  let places := outer.zipIdx.flatMap fun x =>
    (inner.zipIdx.filter fun y => cells.contains (turned isTransposed x.1.1 y.1.1)).map (x, ·)
  let index ← places.mapM fun (x, y) => tableRow sheet name bounds isTransposed x y
  let corner := if isTransposed then "Period" else "Metric"
  pure { d with
    tables := d.tables ++ [(name, Value.texts (corner :: inner.map (·.2)) :: lines)], index := d.index ++ index }

def addTable (n : Nat) (d : Draft) (p : Patch) : Outcome Draft := do
  let name := freshSheetName d.sheetNames (sheet ++ "_Table" ++ Text.ofNat n)
  let rows := labelled "Line" (fun r => lookup r (p.area.minCol - 1)) p.area.rows
  let cols := labelled "Col" (fun c => lookup (p.area.minRow - 1) c) p.area.cols
  let bounds ← p.area.name
  if arePeriods (cols.map (·.2)) then d.addLines lookup sheet name bounds true p.cells cols rows
  else d.addLines lookup sheet name bounds false p.cells rows cols

def addSheet (cells : List Slot) (d : Draft) : Outcome Draft := do
  let ps := Ordered.sortOn (fun p => p.area.corner) (patches cells)
  let (_, d) ← ps.foldlM (fun (n, d) p => do
    if p.isSmall then pure (n, ← p.cells.foldlM (addSetting lookup sheet p) d)
    else pure (n + 1, ← addTable lookup sheet n d p)) (1, d)
  pure d

/-- The pages on which inputs stand. -/
def holders : List (String × List (List Value)) :=
  (configSheet, Value.texts configColumns :: d.config) :: d.tables

def pages : List (String × List (List Value)) :=
  (indexSheet, Value.texts indexColumns :: d.index.map IndexRow.values) :: d.holders

def workbook : Outcome Workbook :=
  Workbook.ofPages (fun name rows => Sheet.writeRows { name } 1 rows) d.pages

end Draft

def isUsed (e : Entry) : Bool := e.isInput && e.included && !e.value.isNull

def ofBlueprint (b : Blueprint) : Outcome Draft :=
  b.order.foldlM (fun d sheet =>
    let es := b.entriesOf sheet
    let values : Std.HashMap Slot Value := es.foldl (fun m e => m.insert e.slot e.value) ∅
    let lookup : Lookup := fun r c => (values[(Slot.mk r c)]?).getD .null
    d.addSheet lookup sheet ((es.filter isUsed).map Entry.slot)) {}

end Structured

def makeStructured (fs : Files) (report output : String) : Outcome Files := do
  fs.storeIn output (← (← Structured.ofBlueprint (← readReport fs report)).workbook)

end Sheetwork.Model

/-! The values that edited inputs give. Unstructured inputs have every input in its
own place; structured ones have an index that says where each input is to be found. -/

namespace Sheetwork.Model

namespace Overrides

def put (o : Overrides) (sheet cell v : Value) : Overrides :=
  match sheet, cell with
  | .text s, .text c => o.insert ⟨s, c⟩ v
  | _, _ => o

def take (s : Sheet) (name : String) (o : Overrides) (e : Entry) : Outcome Overrides := do
  pure (o.put (.text name) e.cell (s.value (← e.position)))

def takeSheet (b : Blueprint) (inputs : Workbook) (o : Overrides) (name : String) : Outcome Overrides :=
  match inputs.sheet? name with
  | none => pure o
  | some s => ((b.entriesOf name).filter fun e => e.isInput && e.included).foldlM (take s name) o

def ofInputs (b : Blueprint) (inputs : Workbook) : Outcome Overrides := b.order.foldlM (takeSheet b inputs) ∅

def needed : List String := ["SourceSheet", "SourceCell", "InputSheet", "InputCell"]

/-- Where the needed columns of an index are; of two with one name the earlier counts. -/
def columnsOf? (headings : List Value) : Option (List Nat) := needed.mapM fun n => headings.findIdx? (· == .text n)

/-- The rows of an index that say where an input is: its source and its place. -/
def indexed (cols : List Nat) (s : Sheet) : List (List Value) :=
  let rows := (s.records.map Record.values).filter fun r => r.any Value.truthy
  (rows.map fun r => cols.map fun i => (r[i]?).getD .null).filter fun r => r.all Value.truthy

def ofStructured (inputs : Workbook) : Outcome Overrides := do
  let index ← (Fault.saying .badValue "structured_input.xlsx must include Index sheet").ifNone
    (inputs.sheet? Structured.indexSheet)
  let headings := index.headings
  let missing := needed.filter fun n => !headings.any (· == .text n)
  let cols ← (Fault.saying .badValue ("Index sheet missing columns: " ++ (toValue missing).literal)).ifNone
    (columnsOf? headings)
  (indexed cols index).foldlM (fun o r =>
    match r with
    | [sheet, cell, inputSheet, inputCell] =>
      match inputs.sheets.find? fun s => .text s.name == inputSheet with
      | none => pure o
      | some s => do pure (o.put sheet cell (s.value (← positionOf inputCell)))
    | _ => pure o) ∅

end Overrides

end Sheetwork.Model
