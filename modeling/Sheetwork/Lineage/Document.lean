import Sheetwork.Lineage.Simple
import Sheetwork.Workbook.Document
import Sheetwork.Text.Template
import Sheetwork.Value.Convert
/-
  Lineage: all that is shown of a workbook's lineage, by name.
-/

namespace Sheetwork.Lineage

/-! Graphs of lineage workbooks, of sheets or of columns. A column graph that would
have too many nodes keeps those between sheets and the most connected of the others. -/

inductive Role where
  | input | calculation | output
  deriving DecidableEq

def Role.name : Role → String
  | input => "input"
  | calculation => "calc"
  | output => "output"

structure Node where
  id : String
  role : Role
  (label sheet : String)

structure Graph where
  title : String
  nodes : List Node
  edges : List (String × String)

def roleOf (isSource isTarget : Bool) : Role :=
  if isSource && !isTarget then .input else if isTarget && !isSource then .output else .calculation

variable (w : Workbook)

def recordsOf (name : String) : List Record := ((w.sheet? name).map Sheet.records).getD []

def pairsOf (rs : List Record) (a b : String) : List (String × String) :=
  rs.filterMap fun r =>
    match r.get a, r.get b with
    | .text x, .text y => if x.isEmpty || y.isEmpty then none else some (x, y)
    | _, _ => none

def sheetGraph : Outcome Graph := do
  let w := w.dataOnly
  let rows := recordsOf w "Cross-Sheet Edges"
  let ends (k : String) := rows.filterMap fun r => (r.get k).text?
  let sources := ends "Source Sheet"
  let targets := ends "Target Sheet"
  let nodes ← (recordsOf w "Overview").filterMapM fun r => do
    let counts := ["Inputs", "Calculations", "Outputs"].map fun k =>
      if (r.get k).truthy then r.get k else .int 0
    let sheet := (r.get "Sheet").toText
    if counts.all (· == .int 0) then pure none
    else
      let texts := counts.map Value.toText
      let label := sheet ++ "\nIn:" ++ texts.getD 0 "" ++ "  Calc:" ++ texts.getD 1 "" ++ "  Out:" ++ texts.getD 2 ""
      pure (some ⟨sheet, roleOf (sources.contains sheet) (targets.contains sheet), ← Text.wrap 28 label, sheet⟩)
  let has (s : String) := nodes.any (·.id = s)
  pure ⟨"Simple Lineage (Sheet Level)", nodes,
    ((pairsOf rows "Source Sheet" "Target Sheet").filter fun e => has e.1 && has e.2).eraseDups⟩

def sheetOf (node : String) : String := if node.toList.contains '!' then (Text.split "!" node).headD "" else ""

def crossesSheets (e : String × String) : Bool := sheetOf e.1 ≠ sheetOf e.2

variable (edges : List (String × String))

def endsOf : List String := edges.flatMap fun e => [e.1, e.2]

def byFrequency (ends : List String) : List String :=
  let counted := (bucketBy id ends).map fun (n, xs) => (n, xs.length)
  (counted.mergeSort fun a b => b.2 ≤ a.2).map (·.1)

def between : List String := (endsOf (edges.filter crossesSheets)).eraseDups

/-- The other ends, the most frequent ones first. -/
def beside : List String :=
  (byFrequency (endsOf (edges.filter fun e => !crossesSheets e))).filter fun n => !(between edges).contains n

/-- The nodes that are kept: those between sheets, and others while there is room. -/
def keptNodes (most : Nat) : List String := between edges ++ (beside edges).take (most - (between edges).length)

def keptEdges (kept : List String) : List (String × String) :=
  edges.filter fun e => kept.contains e.1 && kept.contains e.2

def columnGraph (most : Nat) : Outcome Graph := do
  let w := w.dataOnly
  let patterns := recordsOf w "All Patterns"
  let edges := pairsOf (recordsOf w "Dependency Edges") "Source (Sheet!Col)" "Target (Sheet!Col)"
  let kept := keptNodes edges most
  let edges := keptEdges edges kept
  let nodes ← kept.mapM fun id => do
    let about := patterns.find? fun r => (r.get "Sheet").toText ++ "!" ++ (r.get "Column").toText = id
    let header := (about.map fun r => r.get "Header").getD .null
    let label := if header.truthy then id ++ "\n(" ++ header.toText ++ ")" else id
    pure ⟨id, roleOf (edges.any (·.1 = id)) (edges.any (·.2 = id)), ← Text.wrap 22 label,
      (about.map fun r => (r.get "Sheet").toText).getD ""⟩
  pure ⟨"Complex Lineage (Column Level)", nodes, edges.eraseDups⟩

def Graph.record (g : Graph) : Value :=
  let nodes := Ordered.sortOn Node.id g.nodes
  let edges := Ordered.sortOn (fun e => [e.1, e.2]) g.edges
  let ofRole (r : Role) := toValue ((nodes.filter fun n => n.role = r).map Node.id)
  .record [("title", g.title), ("nodes", toValue (nodes.map fun n => (n.id, n.role.name, n.label, n.sheet))),
      ("edges", toValue edges),
      ("input", ofRole .input), ("calc", ofRole .calculation), ("output", ofRole .output)]

def shown (source : String) (w : Workbook) (maxNodes : Nat) (names : List String) :
    Outcome (List (String × Value)) := do
  let simple := simple w
  let complex := complex w
  let simpleBook ← simple.workbook
  let complexBook ← complex.workbook
  let graphs := do
    pure (Value.list [(← sheetGraph simpleBook).record, (← columnGraph complexBook maxNodes).record])
  let parts : List (String × Outcome Value) :=
    [("simple", .ok (simple.document source)), ("complex", .ok (complex.document source)),
      ("simple_wb", .ok simpleBook.listing), ("complex_wb", .ok complexBook.listing),
      ("graphs", graphs)]
  (parts.filter fun p => names.contains p.1).mapM fun p => do pure (p.1, ← p.2)

end Sheetwork.Lineage
