import Sheetwork.Graph.Components
import Sheetwork.Graph.Kahn
import Sheetwork.Workbook.Basic
/-
  Layers: which cells a formula reads, and what follows for a workbook: the kind of each cell, cycles and an order of
  calculation. A cell is named by its sheet, an exclamation mark and its address.
-/

namespace Sheetwork.Layers

open Text Text.Pattern

def cellName (sheet address : String) : String := sheet ++ "!" ++ address

def dollar : Pattern := (chr '$').opt

def addressText : Pattern := dollar ++ upperLetter.plus ++ dollar ++ digit.plus

/-- A reference of the given form, with a quoted or an unquoted sheet or without one. -/
def onSheet (form : Pattern) : Pattern :=
  ((chr '\'' ++ cap 1 (noneOf "'").plus ++ chr '\'') <|>
      cap 2 (one fun c => !isBlank c && c ≠ '!').plus) ++ chr '!' ++ cap 3 form <|>
    cap 4 form

/-- The sheet of a match and its address without marks. -/
def located (current : String) (m : Match) : String × String :=
  let unmarked := replace "$" ""
  match m.group? 1, m.group? 2 with
  | some s, _ => (s, unmarked (m.group 3))
  | none, some s => (s, unmarked (m.group 3))
  | none, none => (current, unmarked (m.group 4))

def maxExpansion : Int := 10000

def expandRange (range sheet : String) : List String :=
  let range := replace "$" "" range
  match Address.bounds range with
  | .ok ⟨some c, some r, some c', some r'⟩ =>
    if maxExpansion < ((c' : Int) - c + 1) * ((r' : Int) - r + 1) then [cellName sheet range]
    else
      let cells := (Area.mk r c r' c').positions.map fun p => cellName sheet p.address
      Ordered.ofList cells
  | _ => []

def references (formula current : String) : List String :=
  let f := if startsWith "=" formula then drop 1 formula else formula
  let single := ((onSheet addressText).all f).map fun m =>
    let (s, a) := located current m
    cellName s a
  let ranges := ((onSheet (addressText ++ chr ':' ++ addressText)).all f).flatMap fun m =>
    let (s, a) := located current m
    expandRange a s
  Ordered.ofList (single ++ ranges)

structure Graph where
  formulas : List String := []
  precedents : Std.TreeMap String (List String) := ∅
  dependents : Std.TreeMap String (List String) := ∅
  cycles : List (List String) := []

namespace Graph

variable (g : Graph)

def addFormula (cell : String) (refs : List String) : Graph :=
  { g with
    formulas := g.formulas ++ [cell]
    precedents := if refs.isEmpty then g.precedents else g.precedents.insert cell refs
    dependents := refs.foldl (fun m r => m.insert r (Ordered.insert cell ((m[r]?).getD []))) g.dependents }

def precedentsOf (cell : String) : List String := (g.precedents[cell]?).getD []

def dependentsOf (cell : String) : List String := (g.dependents[cell]?).getD []

/-- The cycles that searches from all formula cells find, closed by their first cell. -/
def findCycles : Outcome (List (List String)) := do
  let fuel := g.precedents.size + g.dependents.size + 1
  let found ← Sheetwork.Graph.cycles (fun c => (Value.text c).literal) g.precedentsOf fuel g.formulas
  pure (found.map fun c => c ++ c.head?.toList)

variable (w : Workbook)

def readings : Graph :=
  let formulas := w.sheets.flatMap fun s => s.entries.filterMap fun (p, c) =>
    c.formula?.map fun f => (cellName s.name p.address, references f s.name)
  let g := formulas.foldl (fun (g : Graph) (cell, refs) => g.addFormula cell refs) {}
  { g with formulas := Ordered.ofList g.formulas }

def ofWorkbook : Outcome Graph := do
  let g := readings w
  pure { g with cycles := ← g.findCycles }

/-! Kinds of cells -/

inductive Kind where
  | input | calculation | output
  deriving DecidableEq

def Kind.name : Kind → String
  | input => "Input"
  | calculation => "Calculation"
  | output => "Output"

/-- A cell without a formula is an input, a formula that no other reads an output. -/
def classify (sheet address : String) : Kind :=
  let cell := cellName sheet address
  if !g.formulas.contains cell then .input
  else if (g.dependentsOf cell).isEmpty then .output
  else .calculation

def count (k : Kind) : Nat :=
  (w.sheets.map fun s => (s.entries.filter fun (p, c) => !c.value.isNull && g.classify s.name p.address = k).length).sum

/-- An order in which every formula comes after the formulas it reads; what a cycle holds back is
missing. -/
def order : List String :=
  let index := Graph.positions g.formulas
  let edges := g.formulas.zipIdx.flatMap fun (c, i) => (g.precedentsOf c).filterMap fun p => (index[p]?).map (·, i)
  Graph.settled g.formulas edges

def counts : List (String × Nat) :=
  [("total_formula_cells", g.formulas.length), ("cells_with_precedents", g.precedents.size),
    ("cells_with_dependents", g.dependents.size), ("circular_references", g.cycles.length)]

def fields : List (String × Value) :=
  let texts (xs : List String) := Value.list (xs.map .text)
  let sides (m : Std.TreeMap String (List String)) := Value.list (m.toList.map fun (k, v) => .list [k, texts v])
  [("precedents", sides g.precedents), ("dependents", sides g.dependents),
    ("circular", .list (g.cycles.map texts)), ("has_circular", .bool !g.cycles.isEmpty),
    ("stats", .record (g.counts.map fun (k, n) => (k, .ofNat n))),
    ("counts", .record ([Kind.input, .calculation, .output].map fun k => (k.name, .ofNat (g.count w k)))),
    ("order", texts g.order)]

end Graph

end Sheetwork.Layers
