import Sheetwork.Workbook.Sheet
/-
  Workbooks: sheets in order, found by name, and defined names; and what a file keeps of a workbook. Values and looks
  are kept; computed values, comments, tables, numbers that are none, and empty cells without a look are not.
-/

namespace Sheetwork

structure Workbook where
  sheets : List Sheet := []
  names : List (String × String) := []

instance : Inhabited Workbook := ⟨{}⟩

namespace Workbook

variable (w : Workbook)

def sheetNames : List String := w.sheets.map Sheet.name

variable (name : String)

def sheet? : Option Sheet := w.sheets.find? (·.name = name)

def sheet (w : Workbook) (name : String) : Outcome Sheet := Fault.missingKey.ifNone (w.sheet? name)

def putSheet (s : Sheet) : Workbook :=
  { w with sheets := w.sheets.map fun t => if t.name = s.name then s else t }

/-- The numbers that follow a name wherever it stands in the sheet names, in any case. -/
def numbersAfter : List Int :=
  let counted := (Text.Pattern.lit name).anyCase ++ .cap 1 (.many .digit) ++ .opt (.chr ',')
  (counted.all (Text.join "," w.sheetNames)).filterMap fun m => Number.int? (m.group 1)

/-- A name that no sheet has: the name itself, or the name with the next number. -/
def freeName : String :=
  if w.sheetNames.any fun s => Text.lower s = Text.lower name then
    name ++ Text.ofInt ((w.numbersAfter name).foldl max 0 + 1)
  else name

def badTitleChars : String := "\\*?:/[]"

def checkTitle : Outcome Unit :=
  if name.isEmpty || name.toList.any badTitleChars.toList.contains then .error .badValue
  else .ok ()

def addSheet : Workbook := { w with sheets := w.sheets ++ [{ name := w.freeName name }] }

def append (s : Sheet) : Workbook :=
  { w with sheets := w.sheets ++ [{ s with name := w.freeName s.name }] }

/-- The workbook of pages that are made one after the other. -/
def ofPages (page : String → List (List Value) → Outcome Sheet) (pages : List (String × List (List Value))) :
    Outcome Workbook :=
  pages.foldlM (fun (w : Workbook) (name, rows) => do pure (w.append (← page name rows))) {}

def dataOnly (w : Workbook) : Workbook := { w with sheets := w.sheets.map Sheet.dataOnly }

end Workbook

def Cell.stored (c : Cell) : Cell :=
  let value := match c.value with
    | .float x => if x.isNaN || x.isInf then .null else c.value
    | .date d => .datetime ⟨d, TimeOfDay.midnight⟩
    | v => v
  { c with value, cached := .null, hasComment := false }

def Cell.isKept (c : Cell) : Bool := !c.value.isNull || !c.style.isPlain

/-- The cells that a file has, and the merged areas again. -/
def Sheet.stored (s : Sheet) : Sheet :=
  let cells := s.entries.foldl (fun m (p, c) =>
    let c := c.stored
    if c.isKept && !s.isHidden p then m.insert p c else m) ∅
  s.merged.foldl merge { s with cells, tables := [], merged := [] }

def Workbook.stored (w : Workbook) : Workbook := { w with sheets := w.sheets.map Sheet.stored }

/-! Sheets as records. The first row names the fields, every later row is a
record; of two fields with one name the later counts. -/

structure Record where
  (fields values : List Value)
  deriving Inhabited

namespace Record

def get? (r : Record) (name : String) : Option Value :=
  ((r.fields.zip r.values).reverse.find? fun (k, _) => k == .text name).map (·.2)

def get (r : Record) (name : String) : Value := (r.get? name).getD .null

def need (r : Record) (name : String) : Outcome Value := Fault.missingKey.ifNone (r.get? name)

def ofDict (v : Value) : Record :=
  match v with
  | .keyed es => ⟨es.map (·.1), es.map (·.2)⟩
  | _ => ⟨[], []⟩

end Record

namespace Sheet

variable (s : Sheet)

def rowValues (row : Nat) : List Value := (List.range s.maxCol).map fun i => s.value ⟨row, i + 1⟩

def headings : List Value := s.rowValues 1

def records : List Record :=
  let fields := s.headings
  let width := s.maxCol
  (List.range (s.maxRow - 1)).map fun i => ⟨fields, (List.range width).map fun j => s.value ⟨i + 2, j + 1⟩⟩

def fieldColumn? (name : String) : Option Nat := (s.headings.findIdx? (· == .text name)).map (· + 1)

def setField (key : String) (at_ : Value) (name : String) (v : Value) : Outcome Sheet := do
  let k ← Fault.missingKey.ifNone (s.fieldColumn? key)
  let c ← Fault.missingKey.ifNone (s.fieldColumn? name)
  let rows := (List.range (s.maxRow - 1)).map (· + 2) |>.filter fun r => s.value ⟨r, k⟩ == at_
  rows.foldlM (fun s r => s.put ⟨r, c⟩ v) s

end Sheet

end Sheetwork

/-! Building sheets row by row. -/

namespace Sheetwork

def Font.boldOnly : Font := { bold := true }

def Value.texts (xs : List String) : List Value := xs.map .text

namespace Sheet

variable (s : Sheet)

def write (row col : Nat) (v : Value) : Outcome Sheet := s.put ⟨row, col⟩ v

def writeRow (row : Nat) (vs : List Value) : Outcome Sheet :=
  vs.zipIdx.foldlM (fun s (v, i) => s.write row (i + 1) v) s

def writeRows (row : Nat) (rows : List (List Value)) : Outcome Sheet :=
  rows.zipIdx.foldlM (fun s (vs, i) => s.writeRow (row + i) vs) s

def restyleRow (row count : Nat) (f : Style → Style) : Sheet :=
  (List.range count).foldl (fun s i => s.restyle ⟨row, i + 1⟩ f) s

def withWidths (ws : List Float) : Sheet :=
  ws.zipIdx.foldl (fun s (w, i) => s.putWidth (Column.name (i + 1)) w) s

/-- A sheet with a bold row of headings, rows below it and columns of one width. -/
def ofRows (name : String) (headings : List String) (rows : List (List Value)) (width : Float) : Outcome Sheet := do
  let s : Sheet := { name }
  let s ← s.writeRow 1 (Value.texts headings)
  let s := s.restyleRow 1 headings.length fun st => { st with font := Font.boldOnly }
  let s ← s.writeRows 2 rows
  pure (s.withWidths (headings.map fun _ => width))

end Sheet

end Sheetwork
