import Sheetwork.Formula.Lexeme
import Sheetwork.Plan.Reference
import Sheetwork.Vector.Group
import Sheetwork.Workbook.Files
/-
  Plans: the report of a workbook. Every cell that is not empty gets a row that says what it is, what it refers to and
  what refers to it, how it looks and along what its formula was dragged. Two more sheets count the cells and list the
  defined names of single cells.
-/

namespace Sheetwork.Plan

structure Format where
  numberFormat : Value := .text "General"
  bold : Bool := false
  italic : Bool := false
  /-- A whole number stands for a font without a size. -/
  size : Value := .int 11
  fontColor : String := "000000"
  fillColor : String := ""
  horizontal : String := ""
  vertical : String := ""
  wrap : Bool := false

namespace Format

def opaqueDigits (s : String) : String := if s.length = 8 then Text.drop 2 s else s

def placeText? : Color → Option String
  | .theme n _ => some ("theme:" ++ Text.ofInt n)
  | .indexed n _ => some ("indexed:" ++ Text.ofInt n)
  | _ => none

def colorText (c : Option Color) : String :=
  match c with
  | some (.rgb s _) => if s.isEmpty then "000000" else opaqueDigits s
  | some c => (placeText? c).getD "000000"
  | none => "000000"

def fillText (f : Fill) : String :=
  match f.pattern, f.foreground with
  | none, _ => ""
  | some _, .rgb s _ => if s.isEmpty || s = "00000000" then "" else opaqueDigits s
  | some _, c => (placeText? c).getD ""

def ofStyle (st : Style) : Format :=
  { numberFormat := .text (if st.isUnformatted || st.numberFormat.isEmpty then "General" else st.numberFormat)
    bold := st.font.bold, italic := st.font.italic
    size := match st.font.size with
      | some z => if z == 0.0 then .int 11 else .float z
      | none => .int 11
    fontColor := colorText st.font.color, fillColor := fillText st.fill
    horizontal := st.align.horizontal.getD "", vertical := st.align.vertical.getD ""
    wrap := st.align.wrap.getD false }

def ofSheet (s : Sheet) (p : Position) : Format := if s.isHidden p then {} else ofStyle (s.cell p).style

def document (f : Format) : Value :=
  .record [("number_format", f.numberFormat), ("font_bold", .bool f.bold), ("font_italic", .bool f.italic),
    ("font_size", f.size), ("font_color", f.fontColor), ("fill_color", f.fillColor),
    ("h_alignment", f.horizontal), ("v_alignment", f.vertical),
    ("wrap_text", .bool f.wrap)]

def textOr (r : Record) (name default : String) : String :=
  let v := (r.get? name).getD (.text default)
  if v.truthy then v.toText else default

def ofRow (r : Record) : Format :=
  { numberFormat := (r.get? "NumberFormat").getD (.text "General")
    bold := (r.get "FontBold").truthy, italic := (r.get "FontItalic").truthy
    size := (r.get? "FontSize").getD (.int 11)
    fontColor := textOr r "FontColor" "000000", fillColor := textOr r "FillColor" ""
    horizontal := textOr r "HAlignment" "", vertical := textOr r "VAlignment" ""
    wrap := (r.get "WrapText").truthy }

def colorDigits? (s : String) : Option String :=
  if s.isEmpty || Text.startsWith "theme:" s || Text.startsWith "indexed:" s then none else some s

def sizeOf (v : Value) : Outcome (Option Float) := if v.isNull then .ok none else some <$> v.toSize

def alignment (horizontal vertical : String) (wrap : Bool) : Outcome Alignment :=
  let name (s : String) := if s.isEmpty then none else some s
  Alignment.ofNames (name horizontal) (name vertical) (some wrap)

/-- Gives a cell the look; borders and protection stay, and so does the fill without a colour. -/
def apply (f : Format) (st : Style) : Outcome Style := do
  let size ← sizeOf f.size
  let color ← (colorDigits? f.fontColor).mapM fun s => Color.ofDigits s
  let fill ← (colorDigits? f.fillColor).mapM fun s => Color.ofDigits s
  pure { st with
    numberFormat := if f.numberFormat.isNull then "General" else f.numberFormat.toText
    isUnformatted := f.numberFormat.isNull
    font := { bold := f.bold, italic := f.italic, size, color }
    fill := (fill.map Fill.solid).getD st.fill
    align := ← alignment f.horizontal f.vertical f.wrap }

/-- The look of a cell, and what is left of it on a new cell. -/
def again (s : Sheet) (p : Position) : Outcome (List Value) := do
  let f := ofSheet s p
  pure [f.document, (ofStyle (← f.apply {})).document]

end Format

open Text Ordered

/-! Groups of dragged formulas. Cells of one sheet whose formulas have one relative
form are cut into runs along rows and along columns; a cell on two runs counts to the longer one,
and to the earlier of two that are equally long. -/

structure Place where
  sheet : String
  (row col : Nat)
  deriving DecidableEq, Ord, Hashable, Inhabited

namespace Place

def position (p : Place) : Position := ⟨p.row, p.col⟩

def address (p : Place) : String := p.position.address

def name (p : Place) : String := p.sheet ++ "!" ++ p.address

end Place

/-- Runs of two or more cells among the cells that a key puts together. -/
def runsBy {κ : Type} [DecidableEq κ] (key : Place → κ) (coordinate : Place → Nat) (cells : List Place) :
    List (List Place) :=
  (bucketBy key cells).flatMap fun (_, ps) =>
    (runs (fun a b => coordinate b = coordinate a + 1) (sortOn coordinate ps)).filter (2 ≤ ·.length)

variable (cells : List Place)

def rowRuns : List (List Place) := runsBy (fun p => (p.sheet, p.row)) Place.col cells

def colRuns : List (List Place) := runsBy (fun p => (p.sheet, p.col)) Place.row cells

def formGroups (buckets : List (List Place)) : List (List Place) :=
  (buckets.filter (2 ≤ ·.length)).flatMap fun ps =>
    let ps := sortOn Place.position ps
    rowRuns ps ++ colRuns ps

structure Membership where
  id : Nat := 0
  direction : String := ""
  size : Nat := 0

def directionOf : String :=
  if (cells.map Place.row).eraseDups.length = 1 then "row"
  else if (cells.map Place.col).eraseDups.length = 1 then "col"
  else "block"

/-- Cells go to a group that is larger than the one they have. -/
def Membership.claim (m : Membership) (best : Std.HashMap Place Membership) (g : List Place) :
    Std.HashMap Place Membership :=
  g.foldl (fun best p => if (best[p]?).all (·.size < m.size) then best.insert p m else best) best

variable (groups : List (List Place))

def memberships : Std.HashMap Place Membership :=
  groups.zipIdx.foldl (fun best (g, i) => Membership.claim ⟨i + 1, directionOf g, g.length⟩ best g) ∅

def listMemberships (without : List Place) : List (Nat × Nat × Nat × String × Nat) :=
  let ms := (memberships groups).toList.filter fun (p, _) => !without.contains p
  (sortOn (·.1) ms).map fun (p, m) => (p.row, p.col, m.id, m.direction, m.size)

/-! Defined names. A name is defined by a text, which may be a reference to cells of
a sheet; of two definitions of a name the later counts. -/

section

open Text Text.Pattern

def denotesCell (ref : String) : Bool :=
  !contains "#REF!" ref && !startsWith "#" ref && contains "!" ref &&
    !(["[", ",", "(", ":"].any fun s => contains s ref)

variable (w : Workbook)

def definedNames : List (String × String) :=
  (w.names.map (·.1)).eraseDups.filterMap fun n => w.names.reverse.find? (·.1 = n)

def cellNames : List (String × String) :=
  sortOn (·.1) ((definedNames w).filter fun (_, ref) => denotesCell ref)

/-! The cells that a name stands for -/

/-- A cell of a sheet; a reference can leave the sheet out. -/
abbrev NamedCell := Option String × Nat × Nat

/-- The sheet in front of a reference, in quotes or plain, and the cells after it. -/
def namedRange : Pattern :=
  let coordinate (p : Pattern) := opt (chr '$') ++ opt p
  let corner := coordinate (between 1 3 (one isAsciiLetter)) ++ coordinate (plus digit)
  choice [chr '\'' ++ cap 1 (many (choice [noneOf "'", lit "''"])) ++ chr '\'',
    cap 2 (many (noneOf "'^ !"))] ++ chr '!' ++ cap 3 (corner ++ opt (chr ':' ++ corner))

/-- The cells of an address or of a range row by row, dollar signs left out. -/
def cellsBetween (address : String) : List (Nat × Nat) :=
  let corners := (split ":" (replace "$" "" address)).map cellOrFirst
  let (top, left) := corners.headD (1, 1)
  let (bottom, right) := corners.getLastD (1, 1)
  (List.range (bottom + 1 - top)).flatMap fun i => (List.range (right + 1 - left)).map fun j => (top + i, left + j)

/-- The cells that one reference of a definition stands for; it has to name a sheet. -/
def referred (ref : String) : Outcome (List NamedCell) := do
  let m ← Fault.noProperty.ifNone (namedRange.begin? ref)
  let sheet := ((m.group? 2).filter (!·.isEmpty)).orElse fun _ => m.group? 1
  pure ((cellsBetween (m.group 3)).map fun (r, c) => (sheet, r, c))

/-- The cells of all references of a definition; one that begins with anything else has none. -/
def definedCells (definition : String) : Outcome (List NamedCell) := do
  let ts ← Formula.Lexeme.all ("=" ++ definition)
  let t ← Fault.outOfRange.ifNone ts.head?
  if t.isRange then pure (← (ts.filter (·.isRange)).mapM fun t => referred t.text).flatten
  else pure []

def namedCells : Outcome (List (String × List NamedCell)) := do
  let all ← w.names.mapM fun (n, d) => do pure (n, ← definedCells d)
  let last (n : String) := all.reverse.find? (·.1 = n)
  pure (sortOn (·.1) ((all.map (·.1)).eraseDups.filterMap last))

end

structure Made where
  files : Files
  path : String
  log : List String

/-! Names and values -/

def safeSheetName (s : String) : String :=
  take 31 (String.ofList (s.toList.map fun c => if "\\/*?[]:".toList.contains c then '_' else c))

def columnSpan (first last : Int) : Outcome String := do
  pure ((← Address.columnName first) ++ "–" ++ (← Address.columnName last))

/-- A value that a cell can take: numbers as they are, all else as text
without control characters. -/
def safeValue (v : Value) : Value :=
  if v.isNull then .text ""
  else if v.isNumber then v
  else .text (String.ofList (v.toText.toList.filter fun c => !Cell.isForbidden c))

/-! Cells -/

inductive Kind where
  | input | calculation | output
  deriving DecidableEq

def Kind.name : Kind → String
  | input => "Input"
  | calculation => "Calculation"
  | output => "Output"

/-- A cell that is not empty. -/
structure Source where
  place : Place
  formula : Option String
  value : Value
  format : Format

namespace Source

def ofCell (s : Sheet) (p : Position) (c : Cell) : Source :=
  let formula := c.value.text?.filter isFormula
  { place := ⟨s.name, p.row, p.col⟩, formula
    value := if formula.isSome then c.dataOnly.value else c.value
    format := Format.ofSheet s p }

def ofWorkbook (w : Workbook) : List Source :=
  w.sheets.flatMap fun s =>
    (s.entries.filter fun (p, c) => !s.isHidden p && !c.value.isNull).map fun (p, c) => ofCell s p c

def needs (c : Source) : List Place :=
  (c.formula.map fun f => (referredCells f c.place.sheet).map fun (s, p) => ⟨s, p.row, p.col⟩).getD []

def form (c : Source) : String := (c.formula.map fun f => relativeForm f c.place.row c.place.col).getD ""

end Source

structure Entry where
  source : Source
  kind : Kind
  member : Membership
  (references referencedBy : List String)

namespace Entry

def place (e : Entry) : Place := e.source.place

variable (cs : List Source)

def reverse : Std.HashMap Place (List Place) :=
  cs.foldl (fun m c => c.needs.foldl (fun m p => m.insert p (c.place :: (m[p]?).getD [])) m) ∅

def kindOf (c : Source) (users : List Place) : Kind :=
  if c.formula.isNone then .input else if users.isEmpty then .output else .calculation

/-- The formula cells of each sheet by their relative forms. -/
def buckets : List (List Place) :=
  let formulas := cs.filter (·.formula.isSome)
  (bucketBy (fun (c : String × Place) => (c.2.sheet, c.1)) (formulas.map fun c => (c.form, c.place))).map
    fun (_, ps) => ps.map (·.2)

def ofSources (groups : List (List Place)) : List Entry :=
  let users := reverse cs
  let members := memberships groups
  cs.map fun c =>
    let by_ := (users[c.place]?).getD []
    { source := c, kind := kindOf c by_, member := (members[c.place]?).getD {}
      references := ofList (c.needs.map Place.name)
      referencedBy := ofList (by_.map Place.name) }

def columns : List String :=
  ["Cell", "Row", "Col", "Type", "Formula", "Value", "NumberFormat", "FontBold", "FontItalic", "FontSize",
    "FontColor", "FillColor", "HAlignment", "VAlignment", "WrapText", "GroupID", "GroupDirection",
    "GroupSize",
    "PatternFormula", "IncludeFlag", "ReferencedBy", "References"]

def values (e : Entry) : List Value :=
  let f := e.source.format
  [e.place.address, .ofNat e.place.row, .ofNat e.place.col, e.kind.name,
    toValue (e.source.formula.getD ""), e.source.value, f.numberFormat, .bool f.bold,
    .bool f.italic, f.size,
    .text f.fontColor, f.fillColor, f.horizontal, f.vertical, .bool f.wrap,
    .ofNat e.member.id, e.member.direction, .ofNat e.member.size,
    .text e.source.form, .bool true,
    .text (join "; " e.referencedBy), .text (join "; " e.references)]

end Entry

/-! The report -/

def metadataSheet : String := "_Metadata"

def namesSheet : String := "_DefinedNames"

def putPlain (s : Sheet) (p : Position) (v : Value) : Outcome Sheet :=
  match safeValue v with
  | .text t => if isFormula t then .ok (s.modify p (·.plain t)) else s.put p (.text t)
  | v => s.put p v

variable (name : String)

def headed (headings : List String) : Outcome Sheet := do
  let s ← ({ name } : Sheet).writeRow 1 (Value.texts headings)
  pure (s.restyleRow 1 headings.length fun st => { st with font := Font.boldOnly })

def entrySheet (es : List Entry) : Outcome Sheet := do
  let s ← headed (safeSheetName name) Entry.columns
  es.zipIdx.foldlM (fun s (e, i) => e.values.zipIdx.foldlM (fun s (v, j) => putPlain s ⟨i + 2, j + 1⟩ v) s) s

def countKind (k : Kind) (es : List Entry) : Nat := es.countP (·.kind = k)

def metadataColumns : List String :=
  ["SheetName", "SheetIndex", "TotalCells", "InputCells", "CalcCells", "OutputCells", "FormulaGroups"]

def metadataRow (i : Nat) (es : List Entry) : List Value :=
  let groups := (es.map (·.member.id)).filter (0 < ·) |>.eraseDups
  .text name :: [i, es.length, countKind .input es, countKind .calculation es, countKind .output es,
    groups.length].map Value.ofNat

def reportWorkbook (sheets : List String) (es : List Entry) (names : List (String × String)) : Outcome Workbook := do
  let ofSheet (name : String) := es.filter (·.place.sheet = name)
  let w ← sheets.foldlM (fun (w : Workbook) name => do
    pure (w.append (← entrySheet name (ofSheet name)))) {}
  let counts ← (← headed metadataSheet metadataColumns).writeRows 2
    (sheets.zipIdx.map fun (name, i) => metadataRow name i (ofSheet name))
  let w := w.append counts
  if names.isEmpty then pure w
  else
    let s ← headed namesSheet ["Name", "Reference"]
    pure (w.append (← s.writeRows 2 (names.map fun (n, ref) => [n, ref])))

/-- The workbook that a path means: itself, or what was converted from it before. -/
def sourcePath (fs : Files) (path cache : String) : Outcome (Files × String) :=
  if lower (Path.suffix path) = ".xlsx" then .ok (fs, Path.tidy path)
  else
    let converted := Path.under cache (Path.stem path ++ ".xlsx")
    if fs.has converted && fs.isThere path then .ok (fs.makeFolder cache, converted)
    else .error ⟨.missingFile, none⟩

def reportName : String := "mapping_report.xlsx"

def makeReport (fs : Files) (source folder : String) : Outcome Made := do
  let (fs, path) ← sourcePath (fs.makeFolder folder) source (Path.join folder "_converted")
  let w ← fs.load path
  let cells := Source.ofWorkbook w
  let groups := formGroups (Entry.buckets cells)
  let es := Entry.ofSources cells groups
  let names := cellNames w
  let report := Path.join folder reportName
  let count (k : Kind) := ofNat (countKind k es)
  let fs ← fs.store report (← reportWorkbook w.sheetNames es names)
  pure ⟨fs, report, ["  Opening workbook (formulas + values) …",
      "  Collecting cells across " ++ ofNat w.sheets.length ++ " sheets …",
      "    → " ++ ofNat es.length ++ " non-empty cells",
      "  Building dependency graph & classifying cells …",
      "    → Input=" ++ count .input ++ "  Calculation=" ++ count .calculation ++ "  Output=" ++ count .output,
      "  Detecting formula groups …",
      "    → " ++ ofNat groups.length ++ " formula groups detected",
      "  Writing mapping report → " ++ report] ++
    if names.isEmpty then [] else ["    → " ++ ofNat names.length ++ " defined names extracted"]⟩

end Sheetwork.Plan
