import Sheetwork.Sampling.Format
/-
  Sampling: searching for keywords. A cell matches if its formula or its value contains a keyword, whatever the case;
  every region with matches is shown with the rows and columns of them.
-/

namespace Sheetwork.Sampling

def matchesKeyword (text : Option String) (keyword : String) : Bool :=
  text.any fun s => Text.contains (Text.lower keyword) (Text.lower s)

def valueText? (v : Value) : Option String := if v.isNull then none else some v.toText

/-- The text under which a frame finds what it stores; a missing moment has one too. -/
def Frame.text? (f : Frame) (r c : Nat) : Option String :=
  match f.stored r c with
  | .null => if (f.column c).type = .moment then some "NaT" else none
  | v => some v.toText

structure Match where
  at_ : Position
  keyword : String
  value : Value
  formula : Option String

structure Frames where
  (values formulas : Frame)

namespace Frames

def ofSheet (s : Sheet) : Outcome Frames := do
  pure ⟨← Frame.ofSheet s.dataOnly, ← Frame.ofSheet s⟩

variable (fs : Frames)

def value (r c : Nat) : Value :=
  let v := fs.values.stored r c
  if v.isMissing then .null else v

def formula? (r c : Nat) : Option String := Lineage.formulaOf? (fs.formulas.stored r c)

def keyword? (keywords : List String) (r c : Nat) : Option String :=
  keywords.find? fun k => matchesKeyword (fs.formulas.text? r c) k || matchesKeyword (fs.values.text? r c) k

def found (keywords : List String) (reg : Region) : List Match :=
  reg.rows.flatMap fun r => reg.cols.filterMap fun c =>
    (fs.keyword? keywords r c).map fun k => ⟨⟨r, c⟩, k, fs.value r c, fs.formula? r c⟩

def line (cells : List Position) : List (String × Value) :=
  let formulas := cells.filterMap fun p =>
    (fs.formula? p.row p.col).map fun formula =>
      { address := p.address, formula, cached := fs.value p.row p.col : ShownFormula }
  [("values", .list (cells.map fun p => fs.value p.row p.col)),
    ("formulas", .list (formulas.map ShownFormula.document))]

def rowDocument (reg : Region) (r : Nat) : Value :=
  .record (("row_number", .int r) :: fs.line (reg.cols.map fun c => ⟨r, c⟩))

def columnDocument (reg : Region) (c : Nat) : Value :=
  .record ([("column_letter", .text (Column.name c)), ("column_index", .int c)] ++
    fs.line (reg.rows.map fun r => ⟨r, c⟩))

end Frames

def Match.document (m : Match) : Value :=
  .record [("row", .int m.at_.row), ("col", .int m.at_.col), ("keyword", m.keyword),
    ("address", m.at_.address), ("value", m.value), ("formula", m.formula.elim .null .text)]

def regionMatches? (fs : Frames) (keywords : List String) (reg : Region) : Option Value :=
  let ms := fs.found keywords reg
  if ms.isEmpty then none
  else
    let p := (View.ofFrames fs.values fs.formulas).patch reg [] reg.cols
    some (.record (p.frame ++ [("matched_cells", .list (ms.map Match.document)),
      ("rows", .list ((Ordered.ofList (ms.map (·.at_.row))).map (fs.rowDocument reg))),
      ("columns", .list ((Ordered.ofList (ms.map (·.at_.col))).map (fs.columnDocument reg)))]))

def sheetMatches? (keywords : List String) (s : Sheet) : Outcome (Option Value) := do
  let fs ← Frames.ofSheet s
  let found := fs.formulas.regions.filterMap (regionMatches? fs keywords)
  if found.isEmpty then pure none
  else pure (some (.record [("sheet_name", s.name), ("regions", .list found)]))

def searchKeywords (w : Workbook) (keywords : List String) (sheet : Option String) : Outcome Value := do
  let sheets ← match sheet.filter fun s => !s.isEmpty with
    | some n => (w.sheet n).map ([·])
    | none => .ok w.sheets
  let found ← sheets.mapM (sheetMatches? keywords)
  pure (.record [("keywords", .list (keywords.map .text)), ("matches", .list (found.filterMap id))])

end Sheetwork.Sampling
