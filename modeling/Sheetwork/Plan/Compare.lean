import Sheetwork.Plan.Report
/-
  Plans: how a workbook differs from another one. Numbers are compared up to rounding, texts up to blanks around them,
  and values of two kinds as numbers if both are some.
-/

namespace Sheetwork.Plan

def isNear (x y : Float) : Bool := Number.isClose 1e-6 1e-9 x y

def sameValue (a b : Value) : Outcome Bool :=
  match a, b with
  | .null, .null => .ok true
  | .null, _ | _, .null => .ok false
  | .text s, .text t => .ok (Text.strip s == Text.strip t)
  | a, b =>
    let near := do
      let x ← a.toFloat
      let y ← b.toFloat
      pure (isNear x y || a.isNumber && b.isNumber && x.isNaN && y.isNaN)
    match near with
    | .ok r => .ok r
    | .error f =>
      if f.cause = .tooLarge then .error f else .ok (Text.strip a.toText == Text.strip b.toText)

inductive Difference.Kind where
  | extra | missing | missingSheet | value

structure Difference where
  (sheet cell : String)
  (expected actual : Value)
  kind : String

namespace Difference

def Kind.name : Kind → String
  | extra => "extra"
  | missing => "missing"
  | missingSheet => "missing_sheet"
  | value => "value"

def document (d : Difference) : Value := .list [d.sheet, d.cell, d.expected, d.actual, d.kind]

def line (d : Difference) : String :=
  let short (v : Value) := Text.take 40 v.literal
  "  [" ++ d.sheet ++ "] " ++ d.cell ++ ": expected=" ++ short d.expected ++ "  actual=" ++ short d.actual ++
    "  (" ++ d.kind ++ ")"

end Difference

def heldCells (s : Sheet) : List (Position × Value) :=
  (s.entries.filter fun (p, c) => !c.value.isNull && !s.isHidden p).map fun (p, c) => (p, c.value)

/-- How a sheet differs from the expected one: first what is missing or has another value. -/
def sheetDifferences (expected actual : Sheet) : Outcome (List Difference) := do
  let found (s : Sheet) (p : Position) := if s.isHidden p then Value.null else s.value p
  let make (p : Position) (e a : Value) (k : Difference.Kind) :=
    (⟨expected.name, p.address, e, a, k.name⟩ : Difference)
  let changed ← (heldCells expected).filterMapM fun (p, e) => do
    let a := found actual p
    if a.isNull then pure (some (make p e .null .missing))
    else if ← sameValue e a then pure none
    else pure (some (make p e a .value))
  let more := (heldCells actual).filter fun (p, _) => (found expected p).isNull
  pure (changed ++ more.map fun (p, a) => make p .null a .extra)

def differences (expected actual : Workbook) (ignored : List String) : Outcome (List Difference) :=
  (expected.sheets.filter (·.name ∉ ignored)).flatMapM fun s =>
    match actual.sheet? s.name with
    | some t => sheetDifferences s t
    | none => .ok [⟨s.name, "", .null, .null, Difference.Kind.missingSheet.name⟩]

/-- Differences as a text: their number, how many there are of each kind, and the first ones. -/
def summary (ds : List Difference) (limit : Int) : String :=
  if ds.isEmpty then "✓ All cells match."
  else
    let kinds := Ordered.ofList (ds.map (·.kind))
    let shown := (Value.slice ds none (some limit)).map Difference.line
    let counts := kinds.map fun k => "  " ++ k ++ ": " ++ Text.ofNat (ds.countP (·.kind = k))
    let rest :=
        if limit < ds.length then ["  … and " ++ Text.ofInt (ds.length - limit) ++ " more"] else []
    "\n".intercalate (["✗ " ++ Text.ofNat ds.length ++ " mismatches found:"] ++ counts ++ [""] ++ shown ++ rest)

def shownDifferences : Int := 25

def compareFiles (fs : Files) (expected actual : String) (ignored : List String) :
    Outcome (Files × List Difference) := do
  let (fs, path) ← sourcePath fs expected (Path.under (Path.parent expected) "_converted")
  let e ← fs.load path
  let a ← fs.load actual
  pure (fs, ← differences e.dataOnly a.dataOnly ignored)

end Sheetwork.Plan
